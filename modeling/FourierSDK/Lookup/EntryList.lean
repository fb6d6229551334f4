import FourierSDK.Aios.EntryList
import FourierSDK.Cpp.Prog

/-!
This module contains `Lookup::EntryList::operator[]`, which reads the three strings of an entry. For
each of them it asks for the length with `nullptr`, allocates a buffer of that length, asks for the
string and builds a `std::string` from the buffer.

`len` and the bytes of a buffer are indeterminate until they are written, so that both remember the
call that has written them. `len` has some value from the start, which the calls and allocations
use. The log of the allocated buffers and the built strings is read by nothing. A `Memory` says
which of the allocations fail, and how.
-/

namespace Fourier

open Cpp Cpp.Prog

structure Origin where
  field : EntryField
  status : FourierStatusCode
  deriving DecidableEq, Repr

structure Length where
  value : Nat
  origin : Option Origin
  deriving DecidableEq, Repr

inductive Cell where
  | indeterminate
  | written (byte : UInt8) (origin : Origin)
  deriving DecidableEq, Repr

def Cell.byte? : Cell → Option UInt8
  | indeterminate => none
  | written byte _ => some byte

abbrev StdString := List Cell

def StdString.chars? (s : StdString) : Option (List UInt8) := s.mapM Cell.byte?

structure Entry where
  name_ : StdString
  family_ : StdString
  serial_number_ : StdString
  deriving DecidableEq, Repr

def Entry.get (e : Entry) : EntryField → StdString
  | .name => e.name_
  | .family => e.family_
  | .serial_number => e.serial_number_

inductive StdException where
  | bad_alloc
  | bad_array_new_length
  | length_error
  deriving DecidableEq, Repr

structure Memory where
  newBuffer : EntryField → Option StdException
  newString : EntryField → Option StdException
  copyString : EntryField → Option StdException

inductive DecodeEvent where
  | allocates (field : EntryField) (length : Length)
  | builds (field : EntryField) (length : Length)
  deriving DecidableEq, Repr

structure Decoder where
  len : Length
  log : List DecodeEvent
  deriving DecidableEq, Repr

namespace EntryList

-- `garbage` is the value that `len` happens to have.
def start (garbage : Nat) : Decoder := ⟨⟨garbage, none⟩, []⟩

-- A reply that does not fit into the buffer is written past its end.
def getField (lib : EntryListLib) (list : FourierLookupEntryListPtr) (index : Nat)
    (field : EntryField) (buffer : Option (List Cell)) : Prog StdException Decoder (List Cell) :=
  fun d =>
    let reply := lib.getter field list index (buffer.map List.length)
    let origin := ⟨field, reply.status⟩
    let cells := buffer.getD []
    if reply.bytes.length ≤ cells.length then
      let cells := reply.bytes.map (.written · origin) ++ cells.drop reply.bytes.length
      match reply.length with
      | some value => some (.ok cells, { d with len := ⟨value, some origin⟩ })
      | none => some (.ok cells, d)
    else
      none

def attempt (outcome : Option StdException) : Prog StdException Decoder Unit :=
  match outcome with
  | none => pure ()
  | some e => throwing e

def newBuffer (memory : Memory) (field : EntryField) : Prog StdException Decoder (List Cell) := do
  let len ← read Decoder.len
  modify fun d => { d with log := d.log ++ [.allocates field len] }
  attempt (memory.newBuffer field)
  return List.replicate len.value .indeterminate

def newString (memory : Memory) (field : EntryField) (buffer : List Cell)
    : Prog StdException Decoder StdString := do
  let len ← read Decoder.len
  modify fun d => { d with log := d.log ++ [.builds field len] }
  if len.value ≤ buffer.length then
    attempt (memory.newString field)
    return buffer.take len.value
  else
    undefined

def readField (lib : EntryListLib) (memory : Memory) (list : FourierLookupEntryListPtr)
    (index : Nat) (field : EntryField) : Prog StdException Decoder StdString := do
  -- the status of both calls is discarded
  let _ ← getField lib list index field none
  let buffer ← newBuffer memory field
  let buffer ← getField lib list index field (some buffer)
  newString memory field buffer

def newEntry (memory : Memory) (name family serial_number : StdString)
    : Prog StdException Decoder Entry := do
  attempt (memory.copyString .name)
  attempt (memory.copyString .family)
  attempt (memory.copyString .serial_number)
  return ⟨name, family, serial_number⟩

def operatorIndex (lib : EntryListLib) (memory : Memory) (list : FourierLookupEntryListPtr)
    (index : Nat) : Prog StdException Decoder Entry := do
  let name ← readField lib memory list index .name
  let family ← readField lib memory list index .family
  let serial_number ← readField lib memory list index .serial_number
  newEntry memory name family serial_number

/-! ### Where the lengths come from -/

end EntryList

def DecodeEvent.Provided : DecodeEvent → Prop
  | allocates field length => length.origin = some ⟨field, .FourierStatusSuccess⟩
  | builds field length => length.origin = some ⟨field, .FourierStatusSuccess⟩

def Decoder.Stray (d : Decoder) : Prop := ∃ event ∈ d.log, ¬event.Provided

theorem Decoder.Stray.append {d : Decoder} (h : d.Stray) (event : DecodeEvent)
    : { d with log := d.log ++ [event] }.Stray := by
  have ⟨event', hmem, hevent'⟩ := h
  exact ⟨event', List.mem_append_left _ hmem, hevent'⟩

namespace EntryList

variable (lib : EntryListLib) (memory : Memory) (list : FourierLookupEntryListPtr) (index : Nat)
  (field : EntryField)

theorem keeps_stray_getField (buffer : Option (List Cell))
    : (getField lib list index field buffer).Keeps Decoder.Stray := by
  intro d hd r d' hrun
  unfold getField at hrun
  dsimp only at hrun
  split at hrun
  . split at hrun
    . cases hrun
      exact hd
    . cases hrun
      exact hd
  . contradiction

theorem keeps_stray_attempt (outcome : Option StdException)
    : (attempt outcome).Keeps Decoder.Stray := by
  cases outcome with
  | none => apply keeps_pure
  | some e => apply keeps_throwing

theorem keeps_stray_newBuffer : (newBuffer memory field).Keeps Decoder.Stray := by
  unfold newBuffer
  refine Keeps.bind (keeps_read _) ?_
  intro len
  refine Keeps.bind (keeps_modify fun d hd => hd.append _) ?_
  intro _
  refine Keeps.bind (keeps_stray_attempt _) ?_
  intro _
  apply keeps_pure

theorem keeps_stray_newString (buffer : List Cell)
    : (newString memory field buffer).Keeps Decoder.Stray := by
  unfold newString
  refine Keeps.bind (keeps_read _) ?_
  intro len
  refine Keeps.bind (keeps_modify fun d hd => hd.append _) ?_
  intro _
  split
  . refine Keeps.bind (keeps_stray_attempt _) ?_
    intro _
    apply keeps_pure
  . apply keeps_undefined

theorem keeps_stray_readField
    : (readField lib memory list index field).Keeps Decoder.Stray := by
  unfold readField
  refine Keeps.bind (keeps_stray_getField lib list index field _) ?_
  intro _
  refine Keeps.bind (keeps_stray_newBuffer memory field) ?_
  intro buffer
  refine Keeps.bind (keeps_stray_getField lib list index field _) ?_
  intro buffer
  apply keeps_stray_newString

theorem keeps_stray_newEntry (name family serial_number : StdString)
    : (newEntry memory name family serial_number).Keeps Decoder.Stray := by
  unfold newEntry
  refine Keeps.bind (keeps_stray_attempt _) ?_
  intro _
  refine Keeps.bind (keeps_stray_attempt _) ?_
  intro _
  refine Keeps.bind (keeps_stray_attempt _) ?_
  intro _
  apply keeps_pure

/-! ### Reading a field -/

def fieldLength : Length :=
  ⟨(lib.sizeReply list index field).length.getD 0, some ⟨field, .FourierStatusSuccess⟩⟩

def fieldCells : List Cell :=
  match (lib.fillReply list index field).status with
  | .FourierStatusSuccess =>
    (lib.fillReply list index field).bytes.map (.written · ⟨field, .FourierStatusSuccess⟩)
  | .FourierStatusFailure =>
    List.replicate (fieldLength lib list index field).value .indeterminate

theorem not_stray_append {d : Decoder} (hd : ¬d.Stray) (len : Length) (events : List DecodeEvent)
    (hevents : ∀ event ∈ events, event.Provided) : ¬Decoder.Stray ⟨len, d.log ++ events⟩ := by
  intro ⟨event, hmem, hevent⟩
  cases List.mem_append.mp hmem with
  | inl hmem => exact hd ⟨event, hmem, hevent⟩
  | inr hmem => exact hevent (hevents event hmem)

def afterField (d : Decoder) : Decoder :=
  let len := fieldLength lib list index field
  ⟨len, d.log ++ [.allocates field len, .builds field len]⟩

theorem afterField_not_stray {d : Decoder} (hd : ¬d.Stray)
    : ¬(afterField lib list index field d).Stray := by
  apply not_stray_append hd
  simp [DecodeEvent.Provided, fieldLength]

theorem start_not_stray (garbage : Nat) : ¬(start garbage).Stray := by
  intro ⟨_, hmem, _⟩
  contradiction

theorem newBuffer_run (d : Decoder)
    : newBuffer memory field d
        =
      match memory.newBuffer field with
      | none => some (.ok (List.replicate d.len.value .indeterminate),
          { d with log := d.log ++ [.allocates field d.len] })
      | some e => some (.error e, { d with log := d.log ++ [.allocates field d.len] }) := by
  unfold newBuffer
  rw [bind_of_returned (x := read _) rfl]
  rw [bind_of_returned (x := modify _) rfl]
  cases hmemory : memory.newBuffer field with
  | none => rfl
  | some e => rfl

theorem newString_run {buffer : List Cell} {d : Decoder} (h : d.len.value = buffer.length)
    : newString memory field buffer d
        =
      match memory.newString field with
      | none => some (.ok buffer, { d with log := d.log ++ [.builds field d.len] })
      | some e => some (.error e, { d with log := d.log ++ [.builds field d.len] }) := by
  unfold newString
  rw [bind_of_returned (x := read _) rfl]
  rw [bind_of_returned (x := modify _) rfl]
  simp only [h, Nat.le_refl, ↓reduceIte, List.take_length]
  cases hmemory : memory.newString field with
  | none => rfl
  | some e => rfl

variable [LawfulEntryListLib lib]

theorem getField_failure {buffer : Option (List Cell)} (d : Decoder)
    (h : (lib.getter field list index (buffer.map List.length)).status ≠ .FourierStatusSuccess)
    : getField lib list index field buffer d = some (.ok (buffer.getD []), d) := by
  unfold getField
  rw [LawfulEntryListLib.failure _ _ _ _ (FourierStatusCode.eq_failure h)]
  simp

variable {lib list index field} {d : Decoder}

theorem getField_nullptr (h : (lib.sizeReply list index field).status = .FourierStatusSuccess)
    : getField lib list index field none d
        =
      some (.ok [], { d with len := fieldLength lib list index field }) := by
  have ⟨entry, _, hlength, hbytes, _⟩ := lib.replies_of_size h
  unfold getField fieldLength
  unfold EntryListLib.sizeReply at h hlength hbytes
  simp only [EntryListLib.sizeReply, Option.map_none, h, hlength, hbytes]
  simp

theorem getField_buffer (h : (lib.sizeReply list index field).status = .FourierStatusSuccess)
    (hd : d.len = fieldLength lib list index field)
    : getField lib list index field (some (List.replicate d.len.value .indeterminate)) d
        =
      some (.ok (fieldCells lib list index field), d) := by
  have ⟨entry, _, hlength, _, hfill⟩ := lib.replies_of_size h
  have hvalue : d.len.value = (entry.get field).length := by
    rw [hd, fieldLength, hlength]
    rfl
  have hgetter : lib.getter field list index ((some (List.replicate d.len.value
      Cell.indeterminate)).map List.length) = lib.fillReply list index field := by
    rw [Option.map_some, List.length_replicate, hvalue, EntryListLib.fillReply, hlength]
  unfold fieldCells
  cases hstatus : (lib.fillReply list index field).status with
  | FourierStatusFailure =>
    rw [getField_failure]
    . rw [hd]
      rfl
    . rw [hgetter, hstatus]
      simp
  | FourierStatusSuccess =>
    have hlen : d.len = ⟨(entry.get field).length, some ⟨field, .FourierStatusSuccess⟩⟩ := by
      rw [hd, fieldLength, hlength]
      rfl
    unfold getField
    simp only [hgetter, hfill hstatus]
    simp [hvalue, ← hlen]

theorem length_fieldCells (h : (lib.sizeReply list index field).status = .FourierStatusSuccess)
    : (fieldCells lib list index field).length = (fieldLength lib list index field).value := by
  have ⟨entry, _, hlength, _, hfill⟩ := lib.replies_of_size h
  unfold fieldCells
  cases hstatus : (lib.fillReply list index field).status with
  | FourierStatusFailure => simp
  | FourierStatusSuccess => simp [hfill hstatus, fieldLength, hlength]

theorem readField_run (h : (lib.sizeReply list index field).status = .FourierStatusSuccess)
    : let len := fieldLength lib list index field
      readField lib memory list index field d
        =
      match memory.newBuffer field, memory.newString field with
      | some e, _ => some (.error e, ⟨len, d.log ++ [.allocates field len]⟩)
      | none, some e =>
        some (.error e, ⟨len, d.log ++ [.allocates field len, .builds field len]⟩)
      | none, none =>
        some (.ok (fieldCells lib list index field),
          ⟨len, d.log ++ [.allocates field len, .builds field len]⟩) := by
  intro len
  unfold readField
  rw [bind_of_returned (getField_nullptr h)]
  have hnew := newBuffer_run memory field { d with len }
  cases hbuffer : memory.newBuffer field with
  | some e =>
    rw [hbuffer] at hnew
    apply bind_of_thrown hnew
  | none =>
    rw [hbuffer] at hnew
    rw [bind_of_returned hnew]
    have hfill := getField_buffer (d := ⟨len, d.log ++ [.allocates field len]⟩) h rfl
    rw [bind_of_returned hfill]
    rw [newString_run memory field (length_fieldCells h).symm]
    cases hstring : memory.newString field with
    | none => simp [len]
    | some e => simp [len]

theorem readField_stray (h : (lib.sizeReply list index field).status ≠ .FourierStatusSuccess)
    (hd : d.len.origin ≠ some ⟨field, .FourierStatusSuccess⟩)
    : (readField lib memory list index field).Always d Decoder.Stray := by
  have hnull : getField lib list index field none d = some (.ok [], d) :=
    getField_failure lib list index field d h
  unfold readField Always
  rw [bind_of_returned hnull]
  apply Always.bind
  . have hstray : { d with log := d.log ++ [DecodeEvent.allocates field d.len] }.Stray :=
      ⟨.allocates field d.len, by simp, hd⟩
    intro r d' hrun
    rw [newBuffer_run] at hrun
    split at hrun
    . cases hrun
      exact hstray
    . cases hrun
      exact hstray
  . intro buffer
    refine Keeps.bind (keeps_stray_getField lib list index field _) ?_
    intro buffer
    apply keeps_stray_newString

end EntryList
end Fourier
