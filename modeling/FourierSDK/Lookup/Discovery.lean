import FourierSDK.Lookup.Factories
import FourierSDK.Ownership.Wrappers

/-!
This module contains the way of a string from the C library to the program and back. The strings of
an entry end with the terminator that the C library has written, and `getGroupFromFamily` hands
`family.c_str()` to the C library, which reads it up to the first null character.

`discover` is a program that asks for the group of each entry of a list, and keeps what it gets in a
vector that has room for it. A `Network` says what the C library returns when it is asked, and which
of the allocations of `std::make_shared` succeed.
-/

namespace Fourier

open Cpp Cpp.Prog Transition Ownership

def StdString.c_str : StdString → Option (List UInt8)
  | [] => some []
  | .indeterminate :: _ => none
  | .written byte _ :: cells => if byte = 0 then some [] else (c_str cells).map (byte :: ·)

theorem StdString.c_str_terminated (s : CString) (origin : Origin)
    : c_str (s.terminated.map (.written · origin)) = some s.chars := by
  have ⟨chars, hchars⟩ := s
  unfold CString.terminated
  dsimp only
  induction chars with
  | nil => rfl
  | cons byte chars ih =>
    rw [List.mem_cons, not_or] at hchars
    rw [List.cons_append, List.map_cons, c_str, if_neg (Ne.symm hchars.1), ih hchars.2]
    rfl

structure GroupRequest where
  lookup_ : FourierLookupPtr
  family : List UInt8
  timeout_ms : BitVec 32
  deriving DecidableEq, Repr

structure Discovery where
  requests : List GroupRequest
  factories : Factories
  deriving DecidableEq, Repr

structure Network where
  fourierGroupCreateFromFamily : GroupRequest → Discovery → FourierGroupPtr
  allocated : Discovery → Bool

namespace Lookup

def DEFAULT_TIMEOUT : BitVec 32 := 500

def onFactories : Prog StdException Factories Unit → Prog StdException Discovery Unit :=
  onPart Discovery.factories (fun factories d => { d with factories })

def getGroupFromFamily (network : Network) (lookup_ : FourierLookupPtr) (family : StdString)
    (timeout_ms : BitVec 32) : Prog StdException Discovery Unit :=
  match family.c_str with
  | none => undefined
  | some family => do
    let request := ⟨lookup_, family, timeout_ms⟩
    let reply ← read (network.fourierGroupCreateFromFamily request)
    let allocated ← read network.allocated
    modify fun d => { d with requests := d.requests ++ [request] }
    onFactories (Factories.getGroupFromFamily reply allocated)

-- `for (const auto &entry : *entry_list)
--    groups.push_back(lookup.getGroupFromFamily(entry.family_));`
def discover (lib : SizedEntryListLib) (machine : Machine Discovery) (network : Network)
    (lookup_ : FourierLookupPtr) (entry_list : EntryList) (fuel : Nat)
    : Prog StdException Discovery Unit :=
  entry_list.forEach lib machine
    (fun entry => getGroupFromFamily network lookup_ entry.family_ DEFAULT_TIMEOUT) fuel

theorem factory_ends (reply : FourierGroupPtr) (allocated : Bool) (w : Factories)
    : (Factories.getGroupFromFamily reply allocated).Ends w (Outcome
        (fun _ => (FactoryOp.getGroupFromFamily reply allocated).leaked = [])
        (fun _ _ => allocated = false ∧ reply ≠ nullptr)) := by
  unfold Factories.getGroupFromFamily
  by_cases hreply : (reply != nullptr) = true
  . simp only [hreply, ↓reduceIte]
    cases allocated with
    | true => exact ⟨.ok (), _, rfl, rfl⟩
    | false => exact ⟨.error .bad_alloc, w, rfl, rfl, by simpa using hreply⟩
  . simp only [hreply, Bool.false_eq_true, ↓reduceIte]
    refine ⟨.ok (), _, rfl, ?_⟩
    cases allocated with
    | true => rfl
    | false => simp only [Outcome, FactoryOp.leaked, FactoryOp.returned, hreply, Bool.false_eq_true,
        ↓reduceIte]

theorem getGroupFromFamily_ends (network : Network) (lookup_ : FourierLookupPtr)
    {family : StdString} {chars : List UInt8} (hfamily : family.c_str = some chars)
    (timeout_ms : BitVec 32) (d : Discovery)
    : let reply := network.fourierGroupCreateFromFamily ⟨lookup_, chars, timeout_ms⟩ d
      let op := FactoryOp.getGroupFromFamily reply (network.allocated d)
      (getGroupFromFamily network lookup_ family timeout_ms).Ends d (fun r d' =>
        d'.requests = d.requests ++ [⟨lookup_, chars, timeout_ms⟩] ∧
        (∀ lib, Factories.Step lib d.factories op d'.factories) ∧
        Outcome (fun _ => op.leaked = []) (fun _ _ => network.allocated d = false ∧ reply ≠ nullptr)
          r d') := by
  intro reply op
  obtain ⟨r, w', hrun, hr⟩ := factory_ends reply (network.allocated d) d.factories
  refine ⟨r, ⟨d.requests ++ [⟨lookup_, chars, timeout_ms⟩], w'⟩, ?_, rfl, ?_, ?_⟩
  . unfold getGroupFromFamily
    simp only [hfamily]
    rw [bind_of_returned (x := read _) rfl]
    rw [bind_of_returned (x := read _) rfl]
    rw [bind_of_returned (x := modify _) rfl]
    apply onPart_run hrun
  . intro lib
    apply Factories.Step.getGroupFromFamily hrun
  . cases r with
    | ok => exact hr
    | error e => exact hr

variable {lib : SizedEntryListLib} [LawfulEntryListLib lib.toEntryListLib]
  {machine : Machine Discovery} {network : Network} {lookup_ : FourierLookupPtr} {list : EntryList}

variable (machine) in
theorem subscript_ends {index : Nat} (hindex : index < 2 ^ 64) {stored : StoredEntry}
    (hstored : (lib.entries list.lookup_list_)[index]? = some stored)
    (hcalls : ∀ field,
      (lib.sizeReply list.lookup_list_ index field).status = .FourierStatusSuccess ∧
        (lib.fillReply list.lookup_list_ index field).status = .FourierStatusSuccess)
    (d : Discovery)
    : (list.subscript lib machine (BitVec.ofNat 64 index)).Ends d (fun r d' =>
        d' = d ∧ (∀ e, r = .ok e → e.family_.c_str = some stored.family.chars) ∧
          ((∀ field, (machine.memory d).Reads field) → (machine.memory d).Copies →
            ∃ e, r = .ok e)) := by
  have ⟨r, decoder, hrun, hr⟩ := EntryList.operatorIndex_ends (machine.memory d)
    (EntryList.start (machine.garbage d)) (fun field => (hcalls field).1)
  refine ⟨r, d, ?_, rfl, ?_, ?_⟩
  . unfold EntryList.subscript locally
    rw [BitVec.toNat_ofNat, Nat.mod_eq_of_lt hindex, hrun]
  . intro e he
    have hfamily : e.family_ = _ := ((hr e).mp he).2.2 .family
    have ⟨hsize, hfill⟩ := hcalls .family
    rw [hfamily, EntryList.fieldCells_of_fill hstored hsize hfill]
    apply StdString.c_str_terminated
  . intro hreads hcopies
    let strings := EntryList.fieldCells lib.toEntryListLib list.lookup_list_ index
    let e : Entry := ⟨strings .name, strings .family, strings .serial_number⟩
    refine ⟨e, (hr e).mpr ⟨hreads, hcopies, ?_⟩⟩
    apply (Entry.eq_iff e strings).mp rfl

def requestFor (lookup_ : FourierLookupPtr) (stored : StoredEntry) : GroupRequest :=
  ⟨lookup_, stored.family.chars, DEFAULT_TIMEOUT⟩

def Asked (lib : SizedEntryListLib) (lookup_ : FourierLookupPtr) (list : EntryList) (k : Nat)
    (ops : List FactoryOp) (d d' : Discovery) : Prop :=
  d'.requests = d.requests ++ ((lib.entries list.lookup_list_).take k).map (requestFor lookup_) ∧
    Run (Factories.Step lib) d.factories ops d'.factories ∧ ops.length = k ∧
    ∀ op ∈ ops, ∃ reply allocated, op = .getGroupFromFamily reply allocated

omit [LawfulEntryListLib lib.toEntryListLib] in
theorem Asked.step {k : Nat} {ops : List FactoryOp} {d d' d'' : Discovery}
    (h : Asked lib lookup_ list k ops d d') {stored : StoredEntry}
    (hstored : (lib.entries list.lookup_list_)[k]? = some stored)
    (hrequest : d''.requests = d'.requests ++ [requestFor lookup_ stored]) {reply : FourierGroupPtr}
    {allocated : Bool}
    (hstep : Factories.Step lib d'.factories (.getGroupFromFamily reply allocated) d''.factories)
    : Asked lib lookup_ list (k + 1) (ops ++ [.getGroupFromFamily reply allocated]) d d'' := by
  have ⟨hrequests, hrun, hlength, hops⟩ := h
  refine ⟨?_, .snoc hrun hstep, by simp [hlength], ?_⟩
  . rw [hrequest, hrequests, List.append_assoc]
    rw [List.take_add_one, hstored]
    simp
  . intro op hop
    cases List.mem_append.mp hop with
    | inl hop => apply hops op hop
    | inr hop => exact ⟨reply, allocated, List.mem_singleton.mp hop⟩

def AskedAll (lib : SizedEntryListLib) (lookup_ : FourierLookupPtr) (list : EntryList)
    (d : Discovery) (indices : List Nat) (d' : Discovery) : Prop :=
  ∃ ops, Asked lib lookup_ list indices.length ops d d' ∧ ops.flatMap FactoryOp.leaked = []

-- An allocation of `operator[]` has failed, for the entry after those that have been asked for.
def DecodeFailed (lib : SizedEntryListLib) (machine : Machine Discovery)
    (lookup_ : FourierLookupPtr) (list : EntryList) (d d' : Discovery) : Prop :=
  ∃ k ops, k < list.count lib ∧ Asked lib lookup_ list k ops d d' ∧
    ops.flatMap FactoryOp.leaked = [] ∧
    ¬((∀ field, (machine.memory d').Reads field) ∧ (machine.memory d').Copies)

-- The allocation of `std::make_shared` has failed, for the last group that has been asked for.
def MakeSharedFailed (lib : SizedEntryListLib) (network : Network) (lookup_ : FourierLookupPtr)
    (list : EntryList) (d d' : Discovery) : Prop :=
  ∃ k ops d₁ reply, k < list.count lib ∧ Asked lib lookup_ list k ops d d₁ ∧
    ops.flatMap FactoryOp.leaked = [] ∧ network.allocated d₁ = false ∧ reply ≠ nullptr ∧
    Asked lib lookup_ list (k + 1) (ops ++ [.getGroupFromFamily reply false]) d d'

theorem index_of_prefix {n : Nat} {pre : List Nat} {i : Nat} (h : pre ++ [i] <+: List.range n)
    : i = pre.length ∧ i < n := by
  have hi : (List.range n)[pre.length]? = some i := by
    have ⟨post, hpost⟩ := h
    rw [← hpost, List.append_assoc]
    simp
  have hmem := List.mem_range.mp (List.mem_of_getElem? hi)
  have ⟨_, hget⟩ := List.getElem?_eq_some_iff.mp hi
  rw [List.getElem_range] at hget
  exact ⟨hget.symm, hmem⟩

variable (machine network) in
theorem ask_ends (hn : list.count lib < 2 ^ 64)
    (hcalls : ∀ index field, index < list.count lib →
      (lib.sizeReply list.lookup_list_ index field).status = .FourierStatusSuccess ∧
        (lib.fillReply list.lookup_list_ index field).status = .FourierStatusSuccess)
    {pre : List Nat} {i : Nat} (hpre : pre ++ [i] <+: List.range (list.count lib))
    {d d' : Discovery} (h : AskedAll lib lookup_ list d pre d')
    : (list.subscript lib machine (BitVec.ofNat 64 i) >>= fun entry =>
        getGroupFromFamily network lookup_ entry.family_ DEFAULT_TIMEOUT).Ends d'
        (Outcome (AskedAll lib lookup_ list d (pre ++ [i])) (fun _ d'' =>
          DecodeFailed lib machine lookup_ list d d'' ∨
            MakeSharedFailed lib network lookup_ list d d'')) := by
  have ⟨ops, hasked, hleaked⟩ := h
  have ⟨hi, hlt⟩ := index_of_prefix hpre
  subst hi
  have hstored := List.getElem?_eq_getElem hlt
  have ⟨r, _, hrun, hd, hfamily, hreturns⟩ := subscript_ends machine (by omega) hstored
    (fun field => hcalls _ field hlt) d'
  rw [hd] at hrun
  cases r with
  | error e =>
    refine ⟨.error e, d', bind_of_thrown hrun, .inl ⟨pre.length, ops, hlt, hasked, hleaked, ?_⟩⟩
    intro ⟨hreads, hcopies⟩
    have ⟨_, he⟩ := hreturns hreads hcopies
    contradiction
  | ok e =>
    rw [ends_bind_iff hrun]
    obtain ⟨r, d'', hrun', hrequest, hstep, hr⟩ :=
      getGroupFromFamily_ends network lookup_ (hfamily e rfl) DEFAULT_TIMEOUT d'
    have hasked' := hasked.step hstored hrequest (hstep lib)
    refine ⟨r, d'', hrun', ?_⟩
    cases r with
    | ok =>
      have hlength : (pre ++ [pre.length]).length = pre.length + 1 := by simp
      rw [← hlength] at hasked'
      refine ⟨_, hasked', ?_⟩
      rw [List.flatMap_append, hleaked, List.flatMap_singleton]
      exact hr
    | error e' =>
      obtain ⟨hallocated, hreply⟩ := hr
      rw [hallocated] at hasked'
      exact .inr ⟨pre.length, ops, d', _, hlt, hasked, hleaked, hallocated, hreply, hasked'⟩

/--
A program that asks for the group of each entry asks for the families that the C library has stored,
one after the other. It stops early only where an allocation fails, and it loses a handle only if
this is the one of `std::make_shared` for it.
-/
theorem discover_asks_for_stored_families (lib : SizedEntryListLib)
    [LawfulEntryListLib lib.toEntryListLib] (machine : Machine Discovery) (network : Network)
    (lookup_ : FourierLookupPtr) (list : EntryList)
    (hsize : (list.size lib).toNat = list.count lib)
    (hcalls : ∀ index field, index < list.count lib →
      (lib.sizeReply list.lookup_list_ index field).status = .FourierStatusSuccess ∧
        (lib.fillReply list.lookup_list_ index field).status = .FourierStatusSuccess)
    {fuel : Nat} (hfuel : list.count lib < fuel) (d : Discovery)
    : (discover lib machine network lookup_ list fuel).Ends d (Outcome
        (fun d' => ∃ ops, Asked lib lookup_ list (list.count lib) ops d d' ∧
          ops.flatMap FactoryOp.leaked = [])
        (fun _ d' => DecodeFailed lib machine lookup_ list d d' ∨
          MakeSharedFailed lib network lookup_ list d d')) := by
  have hstart : AskedAll lib lookup_ list d [] d := ⟨[], ⟨by simp, .nil, rfl, by simp⟩, rfl⟩
  have hends := ends_forM hstart fun pre i d' hpre =>
    ask_ends machine network (EntryList.size_lt hsize) hcalls hpre
  unfold discover
  rw [EntryList.forEach_eq_forM hsize _ hfuel]
  unfold AskedAll at hends
  rw [List.length_range] at hends
  exact hends

instance (entries : List StoredEntry)
    : LawfulEntryListLib (SizedEntryListLib.ofEntries entries).toEntryListLib :=
  inferInstanceAs (LawfulEntryListLib (.ofEntries entries))

theorem discover_asks_for_stored_families_twoEntries
    : let machine : Machine Discovery := ⟨fun _ => .plenty, fun _ => 0⟩
      let network : Network := ⟨fun _ d => d.requests.length + 7, fun _ => true⟩
      ∃ d',
        discover (.ofEntries EntryList.twoEntries) machine network 1 ⟨2⟩ 3 ⟨[], .empty⟩
          =
        some (.ok (), d') ∧
        d'.requests = [⟨1, [70], DEFAULT_TIMEOUT⟩, ⟨1, [70], DEFAULT_TIMEOUT⟩] := by
  intro machine network
  have hcalls : ∀ index field, index < 2 →
      ((EntryListLib.ofEntries EntryList.twoEntries).sizeReply 2 index field).status
          =
        .FourierStatusSuccess ∧
      ((EntryListLib.ofEntries EntryList.twoEntries).fillReply 2 index field).status
          =
        .FourierStatusSuccess := by
    intro index field hindex
    have hcases : index = 0 ∨ index = 1 := by omega
    cases hcases with
    | inl h =>
      rw [h]
      cases field <;> exact ⟨rfl, rfl⟩
    | inr h =>
      rw [h]
      cases field <;> exact ⟨rfl, rfl⟩
  obtain ⟨r, d', hrun, hr⟩ := discover_asks_for_stored_families
    (.ofEntries EntryList.twoEntries) machine network 1 ⟨2⟩ rfl hcalls (show 2 < 3 by decide)
    ⟨[], .empty⟩
  cases r with
  | ok =>
    obtain ⟨ops, hasked, _⟩ := hr
    refine ⟨d', hrun, ?_⟩
    rw [hasked.1]
    rfl
  | error e =>
    rcases hr with ⟨_, _, _, _, _, hfailed⟩ | ⟨_, _, _, _, _, _, _, hfailed, _⟩
    . exact absurd ⟨fun _ => ⟨rfl, rfl⟩, fun _ => rfl⟩ hfailed
    . contradiction

end Lookup
end Fourier
