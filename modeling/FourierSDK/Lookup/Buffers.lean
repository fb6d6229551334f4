import FourierSDK.Lookup.Decoding

/-!
This module contains `Lookup::EntryList::operator[]` once more, with the buffers that it allocates by
`new` and frees by `delete`.

A buffer is an entry of `allocated`, which says for which field it was allocated and if it has been
deleted since. To delete a buffer twice is undefined. Without the buffers, this is the `operatorIndex`
of the other modules.
-/

namespace Fourier

open Cpp Cpp.Prog

structure Buffers where
  decoder : Decoder
  allocated : List (EntryField × Bool)
  deriving DecidableEq, Repr

namespace EntryList

def onDecoder {α : Type} : Prog StdException Decoder α → Prog StdException Buffers α :=
  onPart Buffers.decoder (fun decoder b => { b with decoder })

-- `new char[len]`, with the place of the buffer.
def allocateBuffer (memory : Memory) (field : EntryField)
    : Prog StdException Buffers (Nat × List Cell) := do
  let cells ← onDecoder (newBuffer memory field)
  let i ← read (·.allocated.length)
  modify fun b => { b with allocated := b.allocated ++ [(field, false)] }
  return (i, cells)

def deleteBuffer (i : Nat) : Prog StdException Buffers Unit := fun b =>
  match b.allocated[i]? with
  | some (field, false) => some (.ok (), { b with allocated := b.allocated.set i (field, true) })
  | _ => none

def readFieldBuffered (lib : EntryListLib) (memory : Memory) (list : FourierLookupEntryListPtr)
    (index : Nat) (field : EntryField) : Prog StdException Buffers StdString := do
  let _ ← onDecoder (getField lib list index field none)
  let (i, buffer) ← allocateBuffer memory field
  let buffer ← onDecoder (getField lib list index field (some buffer))
  let string ← onDecoder (newString memory field buffer)
  deleteBuffer i
  return string

def operatorIndexBuffered (lib : EntryListLib) (memory : Memory) (list : FourierLookupEntryListPtr)
    (index : Nat) : Prog StdException Buffers Entry := do
  let name ← readFieldBuffered lib memory list index .name
  let family ← readFieldBuffered lib memory list index .family
  let serial_number ← readFieldBuffered lib memory list index .serial_number
  onDecoder (newEntry memory name family serial_number)

/-! ### What becomes of the buffers -/

def buffersOf (memory : Memory) : List EntryField → List (EntryField × Bool)
  | [] => []
  | field :: fields =>
    match memory.newBuffer field, memory.newString field with
    | some _, _ => []
    | none, some _ => [(field, false)]
    | none, none => (field, true) :: buffersOf memory fields

def withBuffers {α : Type} (allocated : List (EntryField × Bool))
    (result : Except StdException α × Decoder) : Except StdException α × Buffers :=
  (result.1, ⟨result.2, allocated⟩)

variable (lib : EntryListLib) (memory : Memory) (list : FourierLookupEntryListPtr) (index : Nat)
  (field : EntryField)

theorem getField_ends (buffer : Option (List Cell)) (d : Decoder)
    : getField lib list index field buffer d = none ∨
        ∃ cells d', getField lib list index field buffer d = some (.ok cells, d') := by
  unfold getField
  dsimp only
  split
  . split
    . exact .inr ⟨_, _, rfl⟩
    . exact .inr ⟨_, _, rfl⟩
  . exact .inl rfl

theorem onDecoder_run {α : Type} {x : Prog StdException Decoder α} {b : Buffers}
    {r : Except StdException α} {d : Decoder} (h : x b.decoder = some (r, d))
    : onDecoder x b = some (r, ⟨d, b.allocated⟩) := by
  apply onPart_run h

theorem onDecoder_eq_none {α : Type} {x : Prog StdException Decoder α} {b : Buffers}
    (h : x b.decoder = none) : onDecoder x b = none := by
  apply onPart_eq_none h

theorem deleteBuffer_last (d : Decoder) (allocated : List (EntryField × Bool))
    : deleteBuffer allocated.length ⟨d, allocated ++ [(field, false)]⟩
        =
      some (.ok (), ⟨d, allocated ++ [(field, true)]⟩) := by
  unfold deleteBuffer
  simp

theorem newString_ends (buffer : List Cell) (d : Decoder)
    : newString memory field buffer d = none ∨
        ∃ d', newString memory field buffer d
          =
        match memory.newString field with
        | none => some (.ok (buffer.take d.len.value), d')
        | some e => some (.error e, d') := by
  unfold newString
  rw [bind_of_returned (x := read _) rfl]
  rw [bind_of_returned (x := modify _) rfl]
  split
  . refine .inr ⟨{ d with log := d.log ++ [.builds field d.len] }, ?_⟩
    cases memory.newString field with
    | none => rfl
    | some e => rfl
  . exact .inl rfl

variable {memory} {field}

theorem allocateBuffer_run {b : Buffers} {cells : List Cell} {d : Decoder}
    (h : newBuffer memory field b.decoder = some (.ok cells, d))
    : allocateBuffer memory field b
        =
      some (.ok (b.allocated.length, cells), ⟨d, b.allocated ++ [(field, false)]⟩) := by
  unfold allocateBuffer
  rw [bind_of_returned (onDecoder_run h)]
  rfl

theorem allocateBuffer_thrown {b : Buffers} {e : StdException} {d : Decoder}
    (h : newBuffer memory field b.decoder = some (.error e, d))
    : allocateBuffer memory field b = some (.error e, ⟨d, b.allocated⟩) := by
  unfold allocateBuffer
  rw [bind_of_thrown (onDecoder_run h)]

theorem buffersOf_reads (h : memory.Reads field) (fields : List EntryField)
    : buffersOf memory (field :: fields) = (field, true) :: buffersOf memory fields := by
  rw [buffersOf, h.1, h.2]

theorem buffersOf_not_reads (h : ¬memory.Reads field) (fields : List EntryField)
    : buffersOf memory (field :: fields) = buffersOf memory [field] := by
  unfold Memory.Reads at h
  unfold buffersOf
  cases hbuffer : memory.newBuffer field with
  | some e => rfl
  | none =>
    cases hstring : memory.newString field with
    | some e => rfl
    | none => exact absurd ⟨hbuffer, hstring⟩ h

inductive Accounted (memory : Memory) (field : EntryField) (allocated : List (EntryField × Bool))
    : Option (Except StdException StdString × Decoder) →
      Option (Except StdException StdString × Buffers) → Prop where
  | undefined : Accounted memory field allocated none none
  | returned {string d} (hreads : memory.Reads field)
    : Accounted memory field allocated (some (.ok string, d))
        (some (.ok string, ⟨d, allocated ++ [(field, true)]⟩))
  | thrown {e d} (hreads : ¬memory.Reads field)
    : Accounted memory field allocated (some (.error e, d))
        (some (.error e, ⟨d, allocated ++ buffersOf memory [field]⟩))

variable (memory) (field)

theorem readFieldBuffered_accounted (b : Buffers)
    : Accounted memory field b.allocated (readField lib memory list index field b.decoder)
        (readFieldBuffered lib memory list index field b) := by
  have ⟨d, allocated⟩ := b
  unfold readField readFieldBuffered
  dsimp only
  cases getField_ends lib list index field none d with
  | inl hsize =>
    rw [bind_eq_none hsize, bind_eq_none (onDecoder_eq_none hsize)]
    apply Accounted.undefined
  | inr hsize =>
    obtain ⟨_, d₁, hsize⟩ := hsize
    rw [bind_of_returned hsize, bind_of_returned (onDecoder_run hsize)]
    have hnew := newBuffer_run memory field d₁
    cases hbuffer : memory.newBuffer field with
    | some e =>
      rw [hbuffer] at hnew
      have hreads : ¬memory.Reads field := fun h => by simp [h.1] at hbuffer
      have hnone : buffersOf memory [field] = [] := by rw [buffersOf, hbuffer]
      rw [bind_of_thrown hnew, bind_of_thrown (allocateBuffer_thrown hnew)]
      nth_rewrite 2 [← List.append_nil allocated]
      rw [← hnone]
      apply Accounted.thrown hreads
    | none =>
      rw [hbuffer] at hnew
      rw [bind_of_returned hnew, bind_of_returned (allocateBuffer_run hnew)]
      dsimp only
      cases getField_ends lib list index field (some (List.replicate d₁.len.value .indeterminate))
          { d₁ with log := d₁.log ++ [.allocates field d₁.len] } with
      | inl hfill =>
        rw [bind_eq_none hfill, bind_eq_none (onDecoder_eq_none hfill)]
        apply Accounted.undefined
      | inr hfill =>
        obtain ⟨cells, d₂, hfill⟩ := hfill
        rw [bind_of_returned hfill, bind_of_returned (onDecoder_run hfill)]
        cases newString_ends memory field cells d₂ with
        | inl hstring =>
          rw [hstring, bind_eq_none (onDecoder_eq_none hstring)]
          apply Accounted.undefined
        | inr hstring =>
          obtain ⟨d₃, hstring⟩ := hstring
          cases hthrows : memory.newString field with
          | some e =>
            rw [hthrows] at hstring
            have hreads : ¬memory.Reads field := fun h => by simp [h.2] at hthrows
            have hleak : buffersOf memory [field] = [(field, false)] := by
              rw [buffersOf, hbuffer, hthrows]
            rw [hstring, bind_of_thrown (onDecoder_run hstring), ← hleak]
            apply Accounted.thrown hreads
          | none =>
            rw [hthrows] at hstring
            rw [hstring, bind_of_returned (onDecoder_run hstring)]
            rw [bind_of_returned (deleteBuffer_last field d₃ allocated)]
            apply Accounted.returned ⟨hbuffer, hthrows⟩

theorem bind_accounted {k : StdString → Prog StdException Decoder Entry}
    {k' : StdString → Prog StdException Buffers Entry} {fields : List EntryField}
    (hk : ∀ string b, k' string b
      =
    (k string b.decoder).map (withBuffers (b.allocated ++ buffersOf memory fields))) (b : Buffers)
    : (readFieldBuffered lib memory list index field >>= k') b
        =
      ((readField lib memory list index field >>= k) b.decoder).map
        (withBuffers (b.allocated ++ buffersOf memory (field :: fields))) := by
  have haccounted := readFieldBuffered_accounted lib memory list index field b
  generalize hread : readField lib memory list index field b.decoder = result at haccounted
  generalize hread' : readFieldBuffered lib memory list index field b = result' at haccounted
  cases haccounted with
  | undefined =>
    rw [bind_eq_none hread, bind_eq_none hread']
    rfl
  | returned hreads =>
    rw [bind_of_returned hread, bind_of_returned hread', hk, buffersOf_reads hreads]
    simp
  | thrown hreads =>
    rw [bind_of_thrown hread, bind_of_thrown hread', buffersOf_not_reads hreads fields]
    rfl

theorem operatorIndexBuffered_eq (b : Buffers)
    : operatorIndexBuffered lib memory list index b
        =
      (operatorIndex lib memory list index b.decoder).map
        (withBuffers (b.allocated ++ buffersOf memory [.name, .family, .serial_number])) := by
  unfold operatorIndexBuffered operatorIndex
  apply bind_accounted
  intro name b
  apply bind_accounted
  intro family b
  apply bind_accounted
  intro serial_number b
  have ⟨r, hrun, _⟩ := newEntry_run memory name family serial_number b.decoder
  rw [hrun, onDecoder_run hrun]
  simp [withBuffers, buffersOf]

theorem reads_of_returned {k : StdString → Prog StdException Decoder Entry} {d d' : Decoder}
    {e : Entry} (h : (readField lib memory list index field >>= k) d = some (.ok e, d'))
    : memory.Reads field ∧ ∃ string d'', k string d'' = some (.ok e, d') := by
  have haccounted := readFieldBuffered_accounted lib memory list index field ⟨d, []⟩
  generalize hread : readField lib memory list index field d = result at haccounted
  generalize readFieldBuffered lib memory list index field ⟨d, []⟩ = result' at haccounted
  cases haccounted with
  | undefined =>
    rw [bind_eq_none hread] at h
    contradiction
  | returned hreads =>
    rw [bind_of_returned hread] at h
    exact ⟨hreads, _, _, h⟩
  | thrown =>
    rw [bind_of_thrown hread] at h
    cases h

theorem all_read_of_returned {d d' : Decoder} {e : Entry}
    (h : operatorIndex lib memory list index d = some (.ok e, d')) : ∀ field, memory.Reads field := by
  have ⟨hname, _, _, h⟩ := reads_of_returned lib memory list index .name h
  have ⟨hfamily, _, _, h⟩ := reads_of_returned lib memory list index .family h
  have ⟨hserial, _, _, _⟩ := reads_of_returned lib memory list index .serial_number h
  intro field
  cases field <;> assumption

theorem mem_buffersOf_cons (field' : EntryField) (fields : List EntryField)
    : (field, false) ∈ buffersOf memory (field' :: fields)
        ↔
      field = field' ∧ memory.newBuffer field' = none ∧ memory.newString field' ≠ none ∨
        memory.Reads field' ∧ (field, false) ∈ buffersOf memory fields := by
  unfold Memory.Reads
  rw [buffersOf]
  cases memory.newBuffer field' with
  | some e => simp
  | none =>
    cases memory.newString field' with
    | some e => simp
    | none => simp

theorem countP_buffersOf (fields : List EntryField)
    : (buffersOf memory fields).countP (!·.2) ≤ 1 := by
  induction fields with
  | nil => simp [buffersOf]
  | cons field fields ih =>
    rw [buffersOf]
    split
    . simp
    . simp
    . simpa using ih

theorem buffers_freed (b : Buffers)
    : (operatorIndexBuffered lib memory list index b).map (fun result => (result.1, result.2.decoder))
        =
      operatorIndex lib memory list index b.decoder ∧
      ∀ r b', operatorIndexBuffered lib memory list index b = some (r, b') →
        ∃ new, b'.allocated = b.allocated ++ new ∧ new.countP (!·.2) ≤ 1 ∧
          ((∃ e, r = .ok e) → ∀ buffer ∈ new, buffer.2 = true) ∧
          ∀ field, (field, false) ∈ new
            ↔
          (∀ field' ∈ field.before, memory.Reads field') ∧ memory.newBuffer field = none ∧
            memory.newString field ≠ none := by
  rw [operatorIndexBuffered_eq]
  constructor
  . cases operatorIndex lib memory list index b.decoder <;> rfl
  . intro r b' h
    obtain ⟨⟨r', d⟩, hrun, hb⟩ := Option.map_eq_some_iff.mp h
    cases hb
    have hleaked (field : EntryField)
        : (field, false) ∈ buffersOf memory [.name, .family, .serial_number]
            ↔
          (∀ field' ∈ field.before, memory.Reads field') ∧ memory.newBuffer field = none ∧
            memory.newString field ≠ none := by
      simp only [mem_buffersOf_cons]
      cases field <;> simp [EntryField.before, buffersOf, and_assoc]
    refine ⟨_, rfl, countP_buffersOf memory _, ?_, hleaked⟩
    rintro ⟨e, he⟩ ⟨field, deleted⟩ hbuffer
    cases deleted with
    | true => rfl
    | false =>
      dsimp only at he
      rw [he] at hrun
      have hreads := all_read_of_returned lib memory list index hrun field
      exact absurd hreads.2 ((hleaked field).mp hbuffer).2.2

end EntryList
end Fourier
