import FourierSDK.Lookup.EntryList

/-!
This module contains what `Lookup::EntryList::operator[]` makes of the replies of the C library: when
it uses nothing but what the library has provided, and what the strings of an entry are.
-/

namespace Fourier

open Cpp Cpp.Prog

def StdString.WrittenBy (s : StdString) (field : EntryField) : Prop :=
  ∀ cell ∈ s, ∃ byte, cell = .written byte ⟨field, .FourierStatusSuccess⟩

def EntryField.before : EntryField → List EntryField
  | name => []
  | family => [name]
  | serial_number => [name, family]

def Memory.Reads (memory : Memory) (field : EntryField) : Prop :=
  memory.newBuffer field = none ∧ memory.newString field = none

def Memory.Copies (memory : Memory) : Prop := ∀ field, memory.copyString field = none

def Memory.plenty : Memory := ⟨fun _ => none, fun _ => none, fun _ => none⟩

theorem Memory.not_copies {memory : Memory} {field : EntryField} {e : StdException}
    (h : memory.copyString field = some e) : ¬memory.Copies := by
  intro hcopies
  rw [hcopies field] at h
  contradiction

theorem Entry.eq_iff (e : Entry) (strings : EntryField → StdString)
    : e = ⟨strings .name, strings .family, strings .serial_number⟩
        ↔
      ∀ field, e.get field = strings field := by
  constructor
  . intro he field
    rw [he]
    cases field <;> rfl
  . intro h
    rw [← h .name, ← h .family, ← h .serial_number]
    rfl

namespace EntryList

/--
No buffer is allocated and no string is built from a length that is not the one of the field, and
an entry is only returned if all of its strings have been written.
-/
def OnlyProvided (r : Except StdException Entry) (d : Decoder) : Prop :=
  ¬d.Stray ∧ ∀ e, r = .ok e → ∀ field, (e.get field).WrittenBy field

/--
The first call succeeds for each field that is reached before an allocation fails, and the second
one does for all fields if no allocation fails.
-/
structure Provided (lib : EntryListLib) (memory : Memory) (list : FourierLookupEntryListPtr)
    (index : Nat) : Prop where
  sizes : ∀ field, (∀ field' ∈ field.before, memory.Reads field') →
    (lib.sizeReply list index field).status = .FourierStatusSuccess
  fills : (∀ field, memory.Reads field) → memory.Copies →
    ∀ field, (lib.fillReply list index field).status = .FourierStatusSuccess

/-! ### The strings -/

theorem chars?_map_written (bytes : List UInt8) (origin : Origin)
    : StdString.chars? (bytes.map (.written · origin)) = some bytes := by
  unfold StdString.chars?
  induction bytes with
  | nil => rfl
  | cons byte bytes ih =>
    rw [List.map_cons, List.mapM_cons, ih]
    rfl

variable {lib : EntryListLib} [LawfulEntryListLib lib] {memory : Memory}
  {list : FourierLookupEntryListPtr} {index : Nat} {field : EntryField} {d : Decoder}

theorem fieldCells_of_fill {entry : StoredEntry} (hentry : (lib.entries list)[index]? = some entry)
    (hsize : (lib.sizeReply list index field).status = .FourierStatusSuccess)
    (hfill : (lib.fillReply list index field).status = .FourierStatusSuccess)
    : fieldCells lib list index field
        =
      (entry.get field).terminated.map (.written · ⟨field, .FourierStatusSuccess⟩) := by
  have ⟨entry', hentry', _, _, hreply⟩ := lib.replies_of_size hsize
  rw [hentry, Option.some.injEq] at hentry'
  unfold fieldCells
  simp only [hreply hfill, hentry']

theorem writtenBy_fieldCells
    (hsize : (lib.sizeReply list index field).status = .FourierStatusSuccess)
    : StdString.WrittenBy (fieldCells lib list index field) field
        ↔
      (lib.fillReply list index field).status = .FourierStatusSuccess := by
  have ⟨entry, hentry, hlength, _, _⟩ := lib.replies_of_size hsize
  constructor
  . intro h
    apply Classical.byContradiction
    intro hfill
    have hcell : Cell.indeterminate ∈ fieldCells lib list index field := by
      unfold fieldCells fieldLength
      rw [FourierStatusCode.eq_failure hfill, hlength]
      simp [CString.length]
    obtain ⟨_, hbyte⟩ := h _ hcell
    contradiction
  . intro hfill cell hcell
    rw [fieldCells_of_fill hentry hsize hfill, List.mem_map] at hcell
    obtain ⟨byte, _, hbyte⟩ := hcell
    exact ⟨byte, hbyte.symm⟩

/-! ### The steps of `operator[]` -/

theorem attempt_bind_run {α : Type} (outcome : Option StdException)
    (k : Unit → Prog StdException Decoder α) (d : Decoder)
    : (attempt outcome >>= k) d
        =
      match outcome with
      | none => k () d
      | some e => some (.error e, d) := by
  cases outcome with
  | none => apply bind_of_returned rfl
  | some e => apply bind_of_thrown rfl

theorem newEntry_run (memory : Memory) (name family serial_number : StdString) (d : Decoder)
    : ∃ r, newEntry memory name family serial_number d = some (r, d) ∧
        ∀ e, r = .ok e ↔ memory.Copies ∧ e = ⟨name, family, serial_number⟩ := by
  unfold newEntry
  rw [attempt_bind_run]
  cases hname : memory.copyString .name with
  | some ex => exact ⟨.error ex, rfl, by simp [Memory.not_copies hname]⟩
  | none =>
    dsimp only
    rw [attempt_bind_run]
    cases hfamily : memory.copyString .family with
    | some ex => exact ⟨.error ex, rfl, by simp [Memory.not_copies hfamily]⟩
    | none =>
      dsimp only
      rw [attempt_bind_run]
      cases hserial : memory.copyString .serial_number with
      | some ex => exact ⟨.error ex, rfl, by simp [Memory.not_copies hserial]⟩
      | none =>
        have hcopies : memory.Copies := by
          intro field
          cases field <;> assumption
        exact ⟨.ok ⟨name, family, serial_number⟩, rfl, by simp [hcopies, eq_comm]⟩

theorem ends_newEntry_iff (name family serial_number : StdString)
    : (newEntry memory name family serial_number).Ends d OnlyProvided
        ↔
      ¬d.Stray ∧ (memory.Copies →
        name.WrittenBy .name ∧ family.WrittenBy .family ∧
          serial_number.WrittenBy .serial_number) := by
  have ⟨r, hrun, hr⟩ := newEntry_run memory name family serial_number d
  rw [ends_iff_of_run hrun]
  constructor
  . intro ⟨hstray, hwritten⟩
    refine ⟨hstray, ?_⟩
    intro hcopies
    have hentry := hwritten _ ((hr _).mpr ⟨hcopies, rfl⟩)
    exact ⟨hentry .name, hentry .family, hentry .serial_number⟩
  . intro ⟨hstray, hwritten⟩
    refine ⟨hstray, ?_⟩
    intro e he field
    have ⟨hcopies, he⟩ := (hr e).mp he
    have ⟨hname, hfamily, hserial⟩ := hwritten hcopies
    rw [he]
    cases field with
    | name => apply hname
    | family => apply hfamily
    | serial_number => apply hserial

theorem readField_cases (memory : Memory) (d : Decoder)
    (hsize : (lib.sizeReply list index field).status = .FourierStatusSuccess)
    : memory.Reads field ∧ readField lib memory list index field d
          =
        some (.ok (fieldCells lib list index field), afterField lib list index field d)
      ∨
      ¬memory.Reads field ∧ ∃ e d', readField lib memory list index field d = some (.error e, d') ∧
        (¬d.Stray → ¬d'.Stray) := by
  have hrun := readField_run memory (d := d) hsize
  unfold Memory.Reads
  cases hbuffer : memory.newBuffer field with
  | some e =>
    simp only [hbuffer] at hrun
    refine .inr ⟨by simp, _, _, hrun, ?_⟩
    intro hd
    apply not_stray_append hd
    simp [DecodeEvent.Provided, fieldLength]
  | none =>
    cases hstring : memory.newString field with
    | some e =>
      simp only [hbuffer, hstring] at hrun
      exact .inr ⟨by simp, _, _, hrun, afterField_not_stray _ _ _ _⟩
    | none =>
      simp only [hbuffer, hstring] at hrun
      exact .inl ⟨by simp, hrun⟩

theorem ends_readField_iff {k : StdString → Prog StdException Decoder Entry}
    (hk : ∀ s, (k s).Keeps Decoder.Stray) (hd : ¬d.Stray)
    (horigin : d.len.origin ≠ some ⟨field, .FourierStatusSuccess⟩)
    : (readField lib memory list index field >>= k).Ends d OnlyProvided
        ↔
      (lib.sizeReply list index field).status = .FourierStatusSuccess ∧
        (memory.Reads field →
          (k (fieldCells lib list index field)).Ends (afterField lib list index field d)
            OnlyProvided) := by
  by_cases hsize : (lib.sizeReply list index field).status = .FourierStatusSuccess
  . cases readField_cases memory d hsize with
    | inl h =>
      have ⟨hreads, hrun⟩ := h
      rw [ends_bind_iff hrun]
      simp only [hsize, hreads, true_and, true_implies]
    | inr h =>
      have ⟨hreads, e, d', hrun, hd'⟩ := h
      rw [ends_iff_of_run (bind_of_thrown hrun)]
      simp [OnlyProvided, hsize, hreads, hd' hd]
  . have hstray := (readField_stray memory hsize horigin).bind hk
    have hnot := hstray.not_ends (Q := OnlyProvided) fun _ _ h => h.left
    simp [hsize, hnot]

theorem ends_operatorIndex_iff (garbage : Nat)
    : (operatorIndex lib memory list index).Ends (start garbage) OnlyProvided
        ↔
      (lib.sizeReply list index .name).status = .FourierStatusSuccess ∧ (memory.Reads .name →
        (lib.sizeReply list index .family).status = .FourierStatusSuccess ∧ (memory.Reads .family →
          (lib.sizeReply list index .serial_number).status = .FourierStatusSuccess ∧
            (memory.Reads .serial_number → memory.Copies →
              StdString.WrittenBy (fieldCells lib list index .name) .name ∧
              StdString.WrittenBy (fieldCells lib list index .family) .family ∧
              StdString.WrittenBy (fieldCells lib list index .serial_number) .serial_number))) := by
  have hkeeps₃ (name family : StdString) := keeps_stray_newEntry memory name family
  have hkeeps₂ (name family : StdString)
      : (readField lib memory list index .serial_number >>= newEntry memory name family).Keeps
        Decoder.Stray :=
    (keeps_stray_readField lib memory list index .serial_number).bind (hkeeps₃ name family)
  have hkeeps₁ (name : StdString) :=
    (keeps_stray_readField lib memory list index .family).bind (hkeeps₂ name)
  have hstray₁ := start_not_stray garbage
  have hstray₂ : ¬(afterField lib list index .name (start garbage)).Stray :=
    afterField_not_stray _ _ _ _ hstray₁
  have hstray₃ : ¬(afterField lib list index .family (afterField ..)).Stray :=
    afterField_not_stray _ _ _ _ hstray₂
  have hstray₄ : ¬(afterField lib list index .serial_number (afterField ..)).Stray :=
    afterField_not_stray _ _ _ _ hstray₃
  unfold operatorIndex
  rw [ends_readField_iff hkeeps₁ hstray₁ (by simp [start])]
  rw [ends_readField_iff (hkeeps₂ _) hstray₂ (by simp [afterField, fieldLength])]
  rw [ends_readField_iff (hkeeps₃ _ _) hstray₃ (by simp [afterField, fieldLength])]
  rw [ends_newEntry_iff]
  simp only [hstray₄, not_false_eq_true, true_and]

theorem decodes_only_provided_iff (lib : EntryListLib) [LawfulEntryListLib lib] (memory : Memory)
    (list : FourierLookupEntryListPtr) (index garbage : Nat)
    : (operatorIndex lib memory list index).Ends (start garbage) OnlyProvided
        ↔
      Provided lib memory list index := by
  rw [ends_operatorIndex_iff]
  constructor
  . intro ⟨hname, hrest⟩
    constructor
    . intro field hbefore
      cases field with
      | name => exact hname
      | family => exact (hrest (hbefore .name (by simp [EntryField.before]))).left
      | serial_number =>
        have ⟨_, hrest⟩ := hrest (hbefore .name (by simp [EntryField.before]))
        exact (hrest (hbefore .family (by simp [EntryField.before]))).left
    . intro hreads hcopies field
      have ⟨hfamily, hrest⟩ := hrest (hreads .name)
      have ⟨hserial, hrest⟩ := hrest (hreads .family)
      have ⟨hname', hfamily', hserial'⟩ := hrest (hreads .serial_number) hcopies
      cases field with
      | name => exact (writtenBy_fieldCells hname).mp hname'
      | family => exact (writtenBy_fieldCells hfamily).mp hfamily'
      | serial_number => exact (writtenBy_fieldCells hserial).mp hserial'
  . intro ⟨hsizes, hfills⟩
    refine ⟨hsizes .name (by simp [EntryField.before]), ?_⟩
    intro hname
    refine ⟨hsizes .family (by simpa [EntryField.before] using hname), ?_⟩
    intro hfamily
    refine ⟨hsizes .serial_number (by simpa [EntryField.before] using ⟨hname, hfamily⟩), ?_⟩
    intro hserial hcopies
    have hreads (field : EntryField) : memory.Reads field := by
      cases field <;> assumption
    have hsize (field : EntryField) := hsizes field fun field' _ => hreads field'
    have hwritten (field : EntryField) :=
      (writtenBy_fieldCells (hsize field)).mpr (hfills hreads hcopies field)
    exact ⟨hwritten .name, hwritten .family, hwritten .serial_number⟩

theorem decodes_only_provided_iff_valid
    : let entry : StoredEntry := ⟨⟨[77, 49], by decide⟩, ⟨[70], by decide⟩, ⟨[], by decide⟩⟩
      (operatorIndex (.ofEntries [entry]) .plenty 1 0).Ends (start 3) OnlyProvided := by
  intro entry
  rw [decodes_only_provided_iff]
  constructor
  . intro field _
    cases field <;> rfl
  . intro _ _ field
    cases field <;> rfl

theorem invalid_index_decoded
    : (∃ e d, operatorIndex (.ofEntries []) .plenty 1 0 (start 3) = some (.ok e, d) ∧
        e.name_ = [.indeterminate, .indeterminate, .indeterminate]) ∧
      ¬(operatorIndex (.ofEntries []) .plenty 1 0).Ends (start 3) OnlyProvided := by
  refine ⟨⟨_, _, rfl, rfl⟩, ?_⟩
  intro ⟨r, d, hrun, hstray, _⟩
  cases hrun
  exact hstray ⟨.allocates .name ⟨3, none⟩, by simp [start], by simp [DecodeEvent.Provided]⟩

/-! ### The strings of an entry -/

theorem ends_readField_of_size {k : StdString → Prog StdException Decoder Entry}
    {Q : Except StdException Entry → Decoder → Prop}
    (hsize : (lib.sizeReply list index field).status = .FourierStatusSuccess)
    (hthrown : ∀ e d', ¬memory.Reads field → Q (.error e) d')
    (hk : memory.Reads field →
      (k (fieldCells lib list index field)).Ends (afterField lib list index field d) Q)
    : (readField lib memory list index field >>= k).Ends d Q := by
  cases readField_cases memory d hsize with
  | inl h =>
    have ⟨hreads, hrun⟩ := h
    rw [ends_bind_iff hrun]
    apply hk hreads
  | inr h =>
    have ⟨hreads, e, d', hrun, _⟩ := h
    rw [ends_iff_of_run (bind_of_thrown hrun)]
    apply hthrown e d' hreads

def Decoded (lib : EntryListLib) (memory : Memory) (list : FourierLookupEntryListPtr) (index : Nat)
    (r : Except StdException Entry) : Prop :=
  ∀ e, r = .ok e ↔ (∀ field, memory.Reads field) ∧ memory.Copies ∧
    ∀ field, e.get field = fieldCells lib list index field

theorem operatorIndex_ends (memory : Memory) (d : Decoder)
    (hsize : ∀ field, (lib.sizeReply list index field).status = .FourierStatusSuccess)
    : (operatorIndex lib memory list index).Ends d (fun r _ =>
        Decoded lib memory list index r) := by
  have hthrown {field : EntryField} (ex : StdException) (hreads : ¬memory.Reads field)
      : Decoded lib memory list index (.error ex) := by
    intro e
    constructor
    . intro
      contradiction
    . intro ⟨hall, _⟩
      exact absurd (hall field) hreads
  unfold operatorIndex
  refine ends_readField_of_size (hsize .name) (fun ex _ hreads => hthrown ex hreads) ?_
  intro hname
  refine ends_readField_of_size (hsize .family) (fun ex _ hreads => hthrown ex hreads) ?_
  intro hfamily
  refine ends_readField_of_size (hsize .serial_number) (fun ex _ hreads => hthrown ex hreads) ?_
  intro hserial
  have ⟨r, hrun, hr⟩ := newEntry_run memory (fieldCells lib list index .name)
    (fieldCells lib list index .family) (fieldCells lib list index .serial_number)
    (afterField lib list index .serial_number (afterField lib list index .family
      (afterField lib list index .name d)))
  rw [ends_iff_of_run hrun]
  have hreads (field : EntryField) : memory.Reads field := by
    cases field <;> assumption
  intro e
  rw [hr, Entry.eq_iff e (fieldCells lib list index)]
  simp [hreads]

def DecodesExactly (lib : EntryListLib) (memory : Memory) (list : FourierLookupEntryListPtr)
    (index garbage : Nat) (entry : StoredEntry) : Prop :=
  (operatorIndex lib memory list index).Returns (start garbage) (fun e _ =>
    ∀ field, (e.get field).chars? = some (entry.get field).chars)

theorem never_decodes_exactly (lib : EntryListLib) [LawfulEntryListLib lib] (memory : Memory)
    (list : FourierLookupEntryListPtr) (index garbage : Nat) (entry : StoredEntry)
    (hentry : (lib.entries list)[index]? = some entry)
    (hsize : ∀ field, (lib.sizeReply list index field).status = .FourierStatusSuccess)
    (hfill : ∀ field, (lib.fillReply list index field).status = .FourierStatusSuccess)
    : ¬DecodesExactly lib memory list index garbage entry ∧
      ((∀ field, memory.Reads field) → memory.Copies →
        (operatorIndex lib memory list index).Returns (start garbage) (fun e _ =>
          ∀ field, (e.get field).chars? = some (entry.get field).terminated)) := by
  have ⟨r, d, hrun, hr⟩ := operatorIndex_ends memory (start garbage) hsize
  have hchars (e : Entry) (he : ∀ field, e.get field = fieldCells lib list index field)
      (field : EntryField) : (e.get field).chars? = some (entry.get field).terminated := by
    rw [he field, fieldCells_of_fill hentry (hsize field) (hfill field)]
    apply chars?_map_written
  constructor
  . intro ⟨e, d', hrun', hexact⟩
    rw [hrun, Option.some.injEq, Prod.mk.injEq] at hrun'
    have ⟨_, _, he⟩ := (hr e).mp hrun'.left
    have hname := hexact .name
    rw [hchars e he .name, Option.some.injEq] at hname
    simp [CString.terminated] at hname
  . intro hreads hcopies
    let e : Entry := ⟨fieldCells lib list index .name, fieldCells lib list index .family,
      fieldCells lib list index .serial_number⟩
    have he := (Entry.eq_iff e (fieldCells lib list index)).mp rfl
    refine ⟨e, d, ?_, hchars e he⟩
    rw [hrun, (hr e).mpr ⟨hreads, hcopies, he⟩]

theorem never_decodes_exactly_valid
    : let entry : StoredEntry := ⟨⟨[77, 49], by decide⟩, ⟨[70], by decide⟩, ⟨[], by decide⟩⟩
      ¬DecodesExactly (.ofEntries [entry]) .plenty 1 0 0 entry := by
  intro entry
  apply (never_decodes_exactly (.ofEntries [entry]) .plenty 1 0 0 entry rfl ?_ ?_).left
  . intro field
    cases field <;> rfl
  . intro field
    cases field <;> rfl

theorem family_decoded_with_terminator
    : let entry : StoredEntry := ⟨⟨[77, 49], by decide⟩, ⟨[70], by decide⟩, ⟨[], by decide⟩⟩
      (∃ e d, operatorIndex (.ofEntries [entry]) .plenty 1 0 (start 0) = some (.ok e, d) ∧
        e.family_.chars? = some [70, 0]) ∧
      ¬DecodesExactly (.ofEntries [entry]) .plenty 1 0 0 entry := by
  intro entry
  refine ⟨⟨_, _, rfl, rfl⟩, ?_⟩
  intro ⟨e, d, hrun, hexact⟩
  cases hrun
  have hfamily := hexact .family
  revert hfamily
  decide

end EntryList
end Fourier
