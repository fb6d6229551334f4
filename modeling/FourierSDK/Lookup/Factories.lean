import FourierSDK.Lookup.Traversal
import FourierSDK.Ownership.Shared

/-!
This module contains the members of `Lookup` that make an object for their caller,
`getGroupFromFamily` and `getEntryList`, and what a program does with the `std::shared_ptr` that it
gets from them.

`reply` is the handle that the C library returns and `allocated` says if the allocation of
`std::make_shared` succeeds. A handle stands for a C object, so that it is not returned twice.
Neither `Group` nor `EntryList` can be copied, so that the objects are the ones that the pointers
share. An iterator refers to its list by the control block of the pointers to it, and it does not
keep the list alive: to dereference it is undefined once the list has been destroyed.
-/

namespace Fourier

open Cpp Cpp.Prog Transition Ownership

inductive SharedObject where
  | group (internal_ : FourierGroupPtr)
  | entryList (lookup_list_ : FourierLookupEntryListPtr)
  deriving DecidableEq, Repr

def SharedObject.destroyed : SharedObject → List SharedObject
  | group internal_ => if internal_ != nullptr then [group internal_] else []
  | entryList lookup_list_ => [entryList lookup_list_]

structure Factories where
  pointers : Shares SharedObject
  iterators : List (EntryList.Iterator Nat)
  deriving DecidableEq, Repr

inductive FactoryOp where
  | getGroupFromFamily (reply : FourierGroupPtr) (allocated : Bool)
  | getEntryList (reply : FourierLookupEntryListPtr) (allocated : Bool)
  | pointer (op : SharedOp SharedObject)
  | callMember (i : Nat)
  | begin (i : Nat)
  | «end» (i : Nat)
  | move (k : Nat) (move : EntryList.Move)
  | deref (k : Nat)
  deriving DecidableEq, Repr

namespace Factories

def empty : Factories := ⟨.empty, []⟩

def released (w : Factories) : List SharedObject :=
  w.pointers.disposed.flatMap SharedObject.destroyed

def object (w : Factories) (i : Nat) : Option SharedObject :=
  w.pointers.vars[i]?.join.bind w.pointers.get

def list? (w : Factories) (list_ : Nat) : Option EntryList :=
  match w.pointers.alive? list_ with
  | some (.entryList lookup_list_) => some ⟨lookup_list_⟩
  | _ => none

def applyPointer (op : SharedOp SharedObject) : Prog StdException Factories Unit := fun w =>
  match w.pointers.step op with
  | some pointers => some (.ok (), { w with pointers })
  | none => none

def makeShared (object : SharedObject) (allocated : Bool) : Prog StdException Factories Unit :=
  if allocated then applyPointer (.make object) else throwing .bad_alloc

def getGroupFromFamily (reply : FourierGroupPtr) (allocated : Bool)
    : Prog StdException Factories Unit :=
  let group := reply
  if group != nullptr then makeShared (.group group) allocated else applyPointer .null

def getEntryList (reply : FourierLookupEntryListPtr) (allocated : Bool)
    : Prog StdException Factories Unit :=
  let entry_list := reply
  if entry_list != nullptr then
    makeShared (.entryList entry_list) allocated
  else
    applyPointer .null

inductive Step (lib : SizedEntryListLib) : Factories → FactoryOp → Factories → Prop where
  | getGroupFromFamily {w reply allocated r w'}
    (hrun : getGroupFromFamily reply allocated w = some (r, w'))
    : Step lib w (.getGroupFromFamily reply allocated) w'
  | getEntryList {w reply allocated r w'} (hrun : getEntryList reply allocated w = some (r, w'))
    : Step lib w (.getEntryList reply allocated) w'
  | pointer {w op r w'} (hmade : op.made = []) (hrun : applyPointer op w = some (r, w'))
    : Step lib w (.pointer op) w'
  | callMember {w i object} (hobject : w.object i = some object) : Step lib w (.callMember i) w
  | begin {w i b list} (hpointer : w.pointers.vars[i]? = some (some (some b)))
    (hlist : w.list? b = some list)
    : Step lib w (.begin i) { w with iterators := w.iterators ++ [⟨b, list.begin.current_⟩] }
  | «end» {w i b list} (hpointer : w.pointers.vars[i]? = some (some (some b)))
    (hlist : w.list? b = some list)
    : Step lib w (.«end» i) { w with iterators := w.iterators ++ [⟨b, (list.end lib).current_⟩] }
  | move {w k move it} (hit : w.iterators[k]? = some it)
    : Step lib w (.move k move) { w with iterators := w.iterators.set k (move.apply it).2 }
  | deref {w k it list} (hit : w.iterators[k]? = some it) (hlist : w.list? it.list_ = some list)
    : Step lib w (.deref k) w

end Factories

namespace FactoryOp

def returned : FactoryOp → List SharedObject
  | getGroupFromFamily reply _ => if reply != nullptr then [.group reply] else []
  | getEntryList reply _ => if reply != nullptr then [.entryList reply] else []
  | _ => []

def leaked : FactoryOp → List SharedObject
  | getGroupFromFamily reply false => returned (.getGroupFromFamily reply false)
  | getEntryList reply false => returned (.getEntryList reply false)
  | _ => []

def wrapped : FactoryOp → List SharedObject
  | getGroupFromFamily reply true => returned (.getGroupFromFamily reply true)
  | getEntryList reply true => returned (.getEntryList reply true)
  | _ => []

-- The handles that an operation passes to the C library, should it not release them.
def passes (w : Factories) : FactoryOp → List SharedObject
  | getGroupFromFamily reply true => returned (.getGroupFromFamily reply true)
  | callMember i => (w.object i).toList
  | «end» i => (w.object i).toList
  | deref k =>
    (w.iterators[k]?.bind fun it => w.list? it.list_).toList.map fun list =>
      .entryList list.lookup_list_
  | _ => []

theorem returned_eq (op : FactoryOp) : op.returned = op.wrapped ++ op.leaked := by
  cases op with
  | getGroupFromFamily reply allocated => cases allocated <;> simp [wrapped, leaked, returned]
  | getEntryList reply allocated => cases allocated <;> simp [wrapped, leaked, returned]
  | _ => rfl

theorem destroyed_of_mem_wrapped {op : FactoryOp} {object : SharedObject}
    (h : object ∈ op.wrapped) : object.destroyed = [object] := by
  have hreturned : object ∈ op.returned := by
    rw [returned_eq]
    exact List.mem_append_left _ h
  cases op with
  | getGroupFromFamily reply _ =>
    simp only [returned, List.mem_ite_nil_right, List.mem_singleton] at hreturned
    rw [hreturned.2, SharedObject.destroyed, if_pos hreturned.1]
  | getEntryList reply _ =>
    simp only [returned, List.mem_ite_nil_right, List.mem_singleton] at hreturned
    rw [hreturned.2, SharedObject.destroyed]
  | _ => contradiction

theorem perm_returned (ops : List FactoryOp)
    : (ops.flatMap wrapped ++ ops.flatMap leaked).Perm (ops.flatMap returned) := by
  have heq : returned = fun op => wrapped op ++ leaked op := funext returned_eq
  rw [heq]
  apply List.flatMap_append_perm

end FactoryOp

namespace Factories

variable {lib : SizedEntryListLib} {w w' : Factories} {op : FactoryOp} {ops : List FactoryOp}

theorem applyPointer_run {op : SharedOp SharedObject} {r : Except StdException Unit}
    (h : applyPointer op w = some (r, w'))
    : Shares.Step w.pointers op w'.pointers ∧ w'.iterators = w.iterators := by
  unfold applyPointer at h
  cases hstep : w.pointers.step op with
  | none =>
    rw [hstep] at h
    contradiction
  | some pointers =>
    rw [hstep] at h
    cases h
    exact ⟨hstep, rfl⟩

theorem factory_run {object : SharedObject} {reply : Addr} {allocated : Bool}
    {r : Except StdException Unit}
    (h : (if reply != nullptr then makeShared object allocated else applyPointer .null) w
        =
      some (r, w'))
    : w'.iterators = w.iterators ∧
        ∃ ops, Run Shares.Step w.pointers ops w'.pointers ∧
          ops.flatMap SharedOp.made
            =
          if allocated then (if reply != nullptr then [object] else []) else [] := by
  by_cases hreply : (reply != nullptr) = true
  . rw [if_pos hreply] at h ⊢
    cases allocated with
    | true =>
      have hmake : applyPointer (.make object) w = some (r, w') := h
      have ⟨hstep, hiterators⟩ := applyPointer_run hmake
      exact ⟨hiterators, [.make object], .single hstep, rfl⟩
    | false =>
      cases h
      exact ⟨rfl, [], .nil, rfl⟩
  . rw [if_neg hreply] at h ⊢
    have ⟨hstep, hiterators⟩ := applyPointer_run h
    refine ⟨hiterators, [.null], .single hstep, ?_⟩
    cases allocated <;> rfl

theorem Step.pointers (hstep : Step lib w op w')
    : ∃ ops, Run Shares.Step w.pointers ops w'.pointers ∧
        ops.flatMap SharedOp.made = op.wrapped := by
  cases hstep with
  | @getGroupFromFamily reply allocated _ _ hrun =>
    have ⟨_, ops, hrun', hmade⟩ := factory_run hrun
    refine ⟨ops, hrun', hmade.trans ?_⟩
    cases allocated <;> rfl
  | @getEntryList reply allocated _ _ hrun =>
    have ⟨_, ops, hrun', hmade⟩ := factory_run hrun
    refine ⟨ops, hrun', hmade.trans ?_⟩
    cases allocated <;> rfl
  | @pointer op _ _ hmade hrun =>
    refine ⟨[op], .single (applyPointer_run hrun).1, ?_⟩
    simpa [FactoryOp.wrapped] using hmade
  | _ => exact ⟨[], .nil, rfl⟩

theorem pointers_of_run (hrun : Run (Step lib) .empty ops w)
    : ∃ sops, Run Shares.Step .empty sops w.pointers ∧
        sops.flatMap SharedOp.made = ops.flatMap FactoryOp.wrapped := by
  apply hrun.invariant (P := fun ops w => ∃ sops, Run Shares.Step .empty sops w.pointers ∧
    sops.flatMap SharedOp.made = ops.flatMap FactoryOp.wrapped)
  . exact ⟨[], .nil, rfl⟩
  . intro ops w₁ op w₂ _ ⟨sops, hrun', hmade⟩ hstep
    have ⟨sops', hrun'', hmade'⟩ := hstep.pointers
    refine ⟨sops ++ sops', hrun'.append hrun'', ?_⟩
    rw [List.flatMap_append, hmade, hmade']
    simp

theorem object_mem_held {i : Nat} {object : SharedObject} (h : w.object i = some object)
    : object ∈ w.pointers.held := by
  have ⟨p, hp, hget⟩ := Option.bind_eq_some_iff.mp h
  unfold Shares.held
  rw [List.mem_filterMap]
  exact ⟨some p, List.mem_of_getElem? (Option.join_eq_some_iff.mp hp), hget⟩

theorem list?_eq_some_iff {b : Nat} {list : EntryList}
    : w.list? b = some list ↔ w.pointers.alive? b = some (.entryList list.lookup_list_) := by
  unfold list?
  split
  . rename_i lookup_list_ halive
    rw [halive, Option.some.injEq, Option.some.injEq, SharedObject.entryList.injEq]
    constructor
    . intro h
      rw [← h]
    . intro h
      rw [h]
  . rename_i hnone
    constructor
    . intro h
      contradiction
    . intro h
      exact absurd h (hnone _)

theorem iterators_of_run (hrun : Run (Step lib) .empty ops w)
    : ∀ it ∈ w.iterators, ∃ lookup_list_,
        (w.pointers.blocks.map Control.target)[it.list_]? = some (.entryList lookup_list_) := by
  apply hrun.invariant (P := fun _ w => ∀ it ∈ w.iterators, ∃ lookup_list_,
    (w.pointers.blocks.map Control.target)[it.list_]? = some (.entryList lookup_list_))
  . intro it hit
    contradiction
  . intro ops w₁ op w₂ hrun h hstep it hit
    have hkeep {it : EntryList.Iterator Nat} (hit : it ∈ w₁.iterators) : ∃ lookup_list_,
        (w₂.pointers.blocks.map Control.target)[it.list_]? = some (.entryList lookup_list_) := by
      have ⟨lookup_list_, hlist⟩ := h it hit
      have ⟨sops, hshares, _⟩ := hstep.pointers
      refine ⟨lookup_list_, ?_⟩
      rw [Shares.targets_append_of_run hshares,
        List.getElem?_append_left (List.getElem?_eq_some_iff.mp hlist).1]
      exact hlist
    cases hstep with
    | getGroupFromFamily hrun' =>
      rw [(factory_run hrun').1] at hit
      apply hkeep hit
    | getEntryList hrun' =>
      rw [(factory_run hrun').1] at hit
      apply hkeep hit
    | pointer _ hrun' =>
      rw [(applyPointer_run hrun').2] at hit
      apply hkeep hit
    | callMember => apply hkeep hit
    | deref => apply hkeep hit
    | begin _ hlist =>
      cases List.mem_append.mp hit with
      | inl hit => apply hkeep hit
      | inr hit =>
        rw [List.mem_singleton.mp hit]
        exact ⟨_, Shares.target_of_alive? (list?_eq_some_iff.mp hlist)⟩
    | «end» _ hlist =>
      cases List.mem_append.mp hit with
      | inl hit => apply hkeep hit
      | inr hit =>
        rw [List.mem_singleton.mp hit]
        exact ⟨_, Shares.target_of_alive? (list?_eq_some_iff.mp hlist)⟩
    | @move k move it' hit' =>
      cases List.mem_or_eq_of_mem_set hit with
      | inl hit => apply hkeep hit
      | inr hit =>
        rw [hit, EntryList.Iterator.apply_eq_plus]
        apply hkeep (List.mem_of_getElem? hit')

theorem counted_of_run (hrun : Run (Step lib) .empty ops w) : w.pointers.Counted := by
  have ⟨_, hshares, _⟩ := pointers_of_run hrun
  apply Shares.counted_of_run hshares

theorem list?_mem_held (hrun : Run (Step lib) .empty ops w) {b : Nat} {list : EntryList}
    (h : w.list? b = some list) : .entryList list.lookup_list_ ∈ w.pointers.held := by
  have halive := list?_eq_some_iff.mp h
  have htarget := Shares.target_of_alive? halive
  have hvar := ((counted_of_run hrun).alive?_iff htarget).mp halive
  rw [List.getElem?_map, Option.map_eq_some_iff] at htarget
  have ⟨c, hc, htarget⟩ := htarget
  rw [Shares.mem_held_iff]
  exact ⟨b, c, hvar, hc, htarget⟩

theorem deref_iff (hrun : Run (Step lib) .empty ops w) {k : Nat} {it : EntryList.Iterator Nat}
    (hit : w.iterators[k]? = some it)
    : (∃ w', Step lib w (.deref k) w') ↔ some (some it.list_) ∈ w.pointers.vars := by
  have ⟨lookup_list_, htarget⟩ := iterators_of_run hrun it (List.mem_of_getElem? hit)
  have halive := (counted_of_run hrun).alive?_iff htarget
  rw [← halive]
  constructor
  . intro ⟨w', hstep⟩
    cases hstep with
    | deref hit' hlist =>
      rw [hit, Option.some.injEq] at hit'
      rw [← hit', list?_eq_some_iff] at hlist
      have hsame := Shares.target_of_alive? hlist
      rw [htarget] at hsame
      rw [hsame]
      exact hlist
  . intro h
    exact ⟨w, .deref hit (list?_eq_some_iff.mpr h)⟩

theorem released_eq (hrun : Run (Step lib) .empty ops w)
    (hfresh : (ops.flatMap FactoryOp.wrapped).Nodup) : w.released = w.pointers.disposed := by
  have ⟨sops, hshares, hmade⟩ := pointers_of_run hrun
  unfold released
  have hdestroyed : ∀ object ∈ w.pointers.disposed, object.destroyed = [object] := by
    intro object hobject
    have hcount := Shares.count_disposed hshares (by rw [hmade]; exact hfresh) object
    have hpos := List.count_pos_iff.mpr hobject
    have hwrapped : object ∈ ops.flatMap FactoryOp.wrapped := by
      rw [← hmade]
      by_contra hnot
      rw [if_neg (fun h => hnot h.1)] at hcount
      omega
    have ⟨op, _, hop⟩ := List.mem_flatMap.mp hwrapped
    apply FactoryOp.destroyed_of_mem_wrapped hop
  rw [List.flatMap_congr hdestroyed]
  simp

theorem count_released (hrun : Run (Step lib) .empty ops w)
    (hfresh : (ops.flatMap FactoryOp.wrapped).Nodup) (object : SharedObject)
    : w.released.count object
        =
      if object ∈ ops.flatMap FactoryOp.wrapped ∧ object ∉ w.pointers.held then 1 else 0 := by
  have ⟨sops, hshares, hmade⟩ := pointers_of_run hrun
  rw [released_eq hrun hfresh, Shares.count_disposed hshares]
  . simp only [hmade]
  . rw [hmade]
    exact hfresh

theorem mem_released_iff (hrun : Run (Step lib) .empty ops w)
    (hfresh : (ops.flatMap FactoryOp.wrapped).Nodup) {object : SharedObject}
    : object ∈ w.released
        ↔
      object ∈ ops.flatMap FactoryOp.wrapped ∧ object ∉ w.pointers.held := by
  rw [← List.count_pos_iff, count_released hrun hfresh]
  split
  . rename_i h
    simp only [Nat.zero_lt_one, h, not_false_eq_true, and_self]
  . rename_i h
    simp only [Nat.lt_irrefl, h]

theorem nodup_wrapped (hfresh : (ops.flatMap FactoryOp.returned).Nodup)
    : (ops.flatMap FactoryOp.wrapped).Nodup := by
  rw [← (FactoryOp.perm_returned ops).nodup_iff, List.nodup_append] at hfresh
  exact hfresh.1

theorem mem_wrapped_iff (hfresh : (ops.flatMap FactoryOp.returned).Nodup) {object : SharedObject}
    : object ∈ ops.flatMap FactoryOp.wrapped
        ↔
      object ∈ ops.flatMap FactoryOp.returned ∧ object ∉ ops.flatMap FactoryOp.leaked := by
  have hperm := FactoryOp.perm_returned ops
  rw [← hperm.nodup_iff, List.nodup_append] at hfresh
  rw [← hperm.mem_iff, List.mem_append]
  constructor
  . intro h
    refine ⟨.inl h, ?_⟩
    intro hleaked
    apply hfresh.2.2 object h object hleaked rfl
  . intro ⟨h, hleaked⟩
    cases h with
    | inl h => assumption
    | inr h => contradiction

theorem Step.passes_unreleased (hrun : Run (Step lib) .empty ops w) (hstep : Step lib w op w')
    (hfresh : ((ops ++ [op]).flatMap FactoryOp.returned).Nodup)
    : ∀ object ∈ op.passes w, object ∉ w.released := by
  intro object hobject hreleased
  rw [List.flatMap_append, List.nodup_append] at hfresh
  have ⟨hops, _, hdisjoint⟩ := hfresh
  rw [mem_released_iff hrun (nodup_wrapped hops)] at hreleased
  have hmember {i : Nat} (hobject : object ∈ (w.object i).toList) : False := by
    apply hreleased.2
    apply object_mem_held (Option.mem_toList.mp hobject)
  cases hstep with
  | @getGroupFromFamily reply allocated _ _ hrun' =>
    cases allocated with
    | false => contradiction
    | true =>
      rw [mem_wrapped_iff hops] at hreleased
      have hreturned : object ∈ (FactoryOp.getGroupFromFamily reply true).returned := hobject
      apply hdisjoint object hreleased.1.1 object _ rfl
      simpa using hreturned
  | callMember => apply hmember hobject
  | «end» => apply hmember hobject
  | deref hit hlist =>
    simp only [FactoryOp.passes, hit, Option.bind_some, hlist, Option.toList_some, List.map_cons,
      List.map_nil, List.mem_singleton] at hobject
    apply hreleased.2
    rw [hobject]
    apply list?_mem_held hrun hlist
  | _ => contradiction

end Factories
end Fourier
