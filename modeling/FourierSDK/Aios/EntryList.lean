import FourierSDK.Aios.Handlers

/-!
This module contains the part of `aios.h` that reads the entries of a lookup, and what the SDK relies
on there. The three getters differ in nothing but the string they read.

A getter gets the size of the buffer that the caller provides, `none` for `nullptr`, and replies with
its status, what it writes to `*length` and what it writes to the start of the buffer. The
documentation says nothing about buffers that are not as long as the string with its terminator.
-/

namespace Fourier

abbrev FourierLookupEntryListPtr := Addr

inductive EntryField where
  | name
  | family
  | serial_number
  deriving DecidableEq, Repr

structure CString where
  chars : List UInt8
  no_nul : 0 ∉ chars
  deriving DecidableEq, Repr

def CString.terminated (s : CString) : List UInt8 := s.chars ++ [0]

def CString.length (s : CString) : Nat := s.chars.length + 1

@[simp]
theorem CString.length_terminated (s : CString) : s.terminated.length = s.length := by
  simp [terminated, length]

structure StoredEntry where
  name : CString
  family : CString
  serial_number : CString
  deriving DecidableEq, Repr

def StoredEntry.get (entry : StoredEntry) : EntryField → CString
  | .name => entry.name
  | .family => entry.family
  | .serial_number => entry.serial_number

structure GetterReply where
  status : FourierStatusCode
  length : Option Nat
  bytes : List UInt8
  deriving DecidableEq, Repr

structure EntryListLib where
  entries : FourierLookupEntryListPtr → List StoredEntry
  fourierLookupEntryListGetName : FourierLookupEntryListPtr → Nat → Option Nat → GetterReply
  fourierLookupEntryListGetFamily : FourierLookupEntryListPtr → Nat → Option Nat → GetterReply
  fourierLookupEntryListGetSerialNumber : FourierLookupEntryListPtr → Nat → Option Nat → GetterReply

structure SizedEntryListLib extends EntryListLib where
  fourierLookupEntryListGetSize : FourierLookupEntryListPtr → BitVec 64

namespace EntryListLib

def getter (lib : EntryListLib)
    : EntryField → FourierLookupEntryListPtr → Nat → Option Nat → GetterReply
  | .name => lib.fourierLookupEntryListGetName
  | .family => lib.fourierLookupEntryListGetFamily
  | .serial_number => lib.fourierLookupEntryListGetSerialNumber

def sizeReply (lib : EntryListLib) (list : FourierLookupEntryListPtr) (index : Nat)
    (field : EntryField) : GetterReply :=
  lib.getter field list index none

-- The reply to a call with a buffer as long as the call with `nullptr` said.
def fillReply (lib : EntryListLib) (list : FourierLookupEntryListPtr) (index : Nat)
    (field : EntryField) : GetterReply :=
  lib.getter field list index (lib.sizeReply list index field).length

end EntryListLib

/--
A getter either succeeds as documented, or it fails and touches neither `*length` nor the buffer. It
can only succeed for a valid index.
-/
class LawfulEntryListLib (lib : EntryListLib) : Prop where
  valid : ∀ field list index buffer,
    (lib.getter field list index buffer).status = .FourierStatusSuccess →
    index < (lib.entries list).length
  size : ∀ field list index entry, (lib.entries list)[index]? = some entry →
    (lib.getter field list index none).status = .FourierStatusSuccess →
    lib.getter field list index none
      =
    ⟨.FourierStatusSuccess, some (entry.get field).length, []⟩
  fill : ∀ field list index entry, (lib.entries list)[index]? = some entry →
    (lib.getter field list index (some (entry.get field).length)).status = .FourierStatusSuccess →
    lib.getter field list index (some (entry.get field).length)
      =
    ⟨.FourierStatusSuccess, some (entry.get field).length, (entry.get field).terminated⟩
  failure : ∀ field list index buffer,
    (lib.getter field list index buffer).status = .FourierStatusFailure →
    lib.getter field list index buffer = ⟨.FourierStatusFailure, none, []⟩

theorem FourierStatusCode.eq_failure {status : FourierStatusCode}
    (h : status ≠ .FourierStatusSuccess) : status = .FourierStatusFailure := by
  cases status with
  | FourierStatusFailure => rfl
  | FourierStatusSuccess => contradiction

-- The library fails for an index past the end and for a buffer that is too small.
def EntryListLib.ofEntries (entries : List StoredEntry) : EntryListLib where
  entries _ := entries
  fourierLookupEntryListGetName _ := reply .name
  fourierLookupEntryListGetFamily _ := reply .family
  fourierLookupEntryListGetSerialNumber _ := reply .serial_number
where
  reply (field : EntryField) (index : Nat) (buffer : Option Nat) : GetterReply :=
    match entries[index]?, buffer with
    | none, _ => ⟨.FourierStatusFailure, none, []⟩
    | some entry, none => ⟨.FourierStatusSuccess, some (entry.get field).length, []⟩
    | some entry, some size =>
      if (entry.get field).length ≤ size then
        ⟨.FourierStatusSuccess, some (entry.get field).length, (entry.get field).terminated⟩
      else
        ⟨.FourierStatusFailure, none, []⟩

def SizedEntryListLib.ofEntries (entries : List StoredEntry) : SizedEntryListLib where
  toEntryListLib := .ofEntries entries
  fourierLookupEntryListGetSize _ := BitVec.ofNat 64 entries.length

theorem EntryListLib.getter_ofEntries (entries : List StoredEntry) (field : EntryField)
    (list : FourierLookupEntryListPtr) (index : Nat) (buffer : Option Nat)
    : (ofEntries entries).getter field list index buffer
        =
      ofEntries.reply entries field index buffer := by
  cases field <;> rfl

instance (entries : List StoredEntry) : LawfulEntryListLib (.ofEntries entries) where
  valid field list index buffer h := by
    rw [EntryListLib.getter_ofEntries] at h
    unfold EntryListLib.ofEntries.reply at h
    cases hentry : entries[index]? with
    | none =>
      rw [hentry] at h
      contradiction
    | some entry => exact (List.getElem?_eq_some_iff.mp hentry).1
  size field list index entry hentry h := by
    rw [EntryListLib.getter_ofEntries]
    unfold EntryListLib.ofEntries.reply
    rw [show entries[index]? = some entry from hentry]
  fill field list index entry hentry h := by
    rw [EntryListLib.getter_ofEntries]
    unfold EntryListLib.ofEntries.reply
    rw [show entries[index]? = some entry from hentry]
    simp
  failure field list index buffer h := by
    rw [EntryListLib.getter_ofEntries] at h ⊢
    unfold EntryListLib.ofEntries.reply at h ⊢
    split at h
    . rfl
    . contradiction
    . split at h
      . contradiction
      . rename_i hsize
        simp only [hsize, ↓reduceIte]

namespace EntryListLib

variable (lib : EntryListLib) [LawfulEntryListLib lib] {list : FourierLookupEntryListPtr}
  {index : Nat} {field : EntryField}

theorem replies_of_size (h : (lib.sizeReply list index field).status = .FourierStatusSuccess)
    : ∃ entry, (lib.entries list)[index]? = some entry ∧
        (lib.sizeReply list index field).length = some (entry.get field).length ∧
        (lib.sizeReply list index field).bytes = [] ∧
        ((lib.fillReply list index field).status = .FourierStatusSuccess →
          lib.fillReply list index field
            =
          ⟨.FourierStatusSuccess, some (entry.get field).length, (entry.get field).terminated⟩) := by
  have hvalid := LawfulEntryListLib.valid field list index none h
  have hentry := List.getElem?_eq_getElem hvalid
  have hsize := LawfulEntryListLib.size field list index _ hentry h
  refine ⟨_, hentry, ?_, ?_, ?_⟩
  . rw [sizeReply, hsize]
  . rw [sizeReply, hsize]
  . intro hfill
    have hlength : (lib.sizeReply list index field).length = _ := congrArg GetterReply.length hsize
    unfold fillReply at hfill ⊢
    rw [hlength] at hfill ⊢
    apply LawfulEntryListLib.fill field list index _ hentry hfill

end EntryListLib
end Fourier
