import FourierSDK.GroupFeedback.Basic
import FourierSDK.Ownership.Ledger

/-!
This module contains the objects of a C++ program that wrap handles of the C library, and the
operations on them that the declarations of their classes admit. All three classes can be copied,
as none of them declares a copy constructor, and a copy has the members of its original. A `Lookup`
can also be assigned to another one; the other two classes have `const` members. The loops in the
constructors of `GroupCommand` and `GroupFeedback` may throw when a vector grows, and no destructor
runs then.

A handle stands for a C object, so that the C library does not return it twice. `lent` are the
handles of feedbacks that the C library owns and has passed to `callbackWrapper`.
-/

namespace Fourier

open Transition Ownership

abbrev FourierLookupPtr := Addr

inductive Wrapper where
  | groupCommand (internal_ : Addr)
  | groupFeedback (fbk : GroupFeedback)
  | lookup (lookup_ : FourierLookupPtr)
  deriving DecidableEq, Repr

namespace Wrapper

def handle : Wrapper → Addr
  | groupCommand internal_ => internal_
  | groupFeedback fbk => fbk.internal_
  | lookup lookup_ => lookup_

def destroyed : Wrapper → List Addr
  | groupCommand internal_ => if internal_ != nullptr then [internal_] else []
  | groupFeedback fbk => fbk.destroyed
  | lookup lookup_ => [lookup_]

def manages : Wrapper → Bool
  | groupCommand _ => true
  | groupFeedback fbk => fbk.manage_pointer_lifetime_
  | lookup _ => true

def ref (wrapper : Wrapper) : Ref Addr := ⟨wrapper.handle, wrapper.manages⟩

theorem destroyed_eq_releases {wrapper : Wrapper}
    (h : wrapper.manages = true → wrapper.handle ≠ nullptr)
    : wrapper.destroyed = wrapper.ref.releases := by
  cases wrapper with
  | groupCommand internal_ =>
    have hne : internal_ ≠ nullptr := h rfl
    simp [destroyed, ref, Ref.releases, manages, handle, hne]
  | groupFeedback fbk =>
    cases hmanages : fbk.manage_pointer_lifetime_ with
    | false => simp [destroyed, GroupFeedback.destroyed, ref, Ref.releases, manages, hmanages]
    | true =>
      have hne : fbk.internal_ ≠ nullptr := h hmanages
      simp [destroyed, GroupFeedback.destroyed, ref, Ref.releases, manages, handle, hmanages, hne]
  | lookup lookup_ => rfl

theorem eq_handle_of_mem_destroyed {wrapper : Wrapper} {handle : Addr}
    (h : handle ∈ wrapper.destroyed) : handle = wrapper.handle := by
  cases wrapper with
  | groupCommand internal_ =>
    simp only [destroyed] at h
    split at h
    . apply List.mem_singleton.mp h
    . contradiction
  | groupFeedback fbk =>
    simp only [destroyed, GroupFeedback.destroyed] at h
    split at h
    . apply List.mem_singleton.mp h
    . contradiction
  | lookup lookup_ => apply List.mem_singleton.mp h

end Wrapper

structure World where
  objects : List (Option Wrapper)
  created : List Addr
  lent : List Addr
  released : List Addr
  deriving DecidableEq, Repr

inductive ObjectOp where
  | newGroupCommand (internal_ : Addr)
  | newGroupCommandThrows (number_of_modules : Nat) (internal_ : Addr)
  | newGroupFeedback (number_of_modules : Nat) (internal_ : FourierGroupFeedbackPtr)
  | newGroupFeedbackThrows (number_of_modules : Nat) (internal_ : FourierGroupFeedbackPtr)
  | wrapGroupFeedback (group_feedback : FourierGroupFeedbackPtr)
  | wrapGroupFeedbackThrows (group_feedback : FourierGroupFeedbackPtr)
  | newLookup (lookup_ : FourierLookupPtr)
  | copy (i : Nat)
  | copyThrows (i : Nat)
  | assign (i j : Nat)
  | callMember (i : Nat)
  | destroy (i : Nat)
  deriving DecidableEq, Repr

namespace World

def empty : World := ⟨[], [], [], []⟩

structure Fresh (w : World) (handle : Addr) : Prop where
  nonnull : handle ≠ nullptr
  created : handle ∉ w.created
  lent : handle ∉ w.lent

inductive Step (lib : FeedbackLib) : World → ObjectOp → World → Prop where
  | newGroupCommand {w internal_} (hfresh : w.Fresh internal_)
    : Step lib w (.newGroupCommand internal_)
        {
          w with
          objects := w.objects ++ [some (.groupCommand internal_)]
          created := w.created ++ [internal_]
        }
  | newGroupCommandThrows {w number_of_modules internal_} (hfresh : w.Fresh internal_)
    (hloop : 0 < number_of_modules)
    : Step lib w (.newGroupCommandThrows number_of_modules internal_)
        { w with created := w.created ++ [internal_] }
  | newGroupFeedback {w number_of_modules internal_} (hfresh : w.Fresh internal_)
    : Step lib w (.newGroupFeedback number_of_modules internal_)
        {
          w with
          objects := w.objects ++ [some (.groupFeedback (.ofSize lib number_of_modules internal_))]
          created := w.created ++ [internal_]
        }
  | newGroupFeedbackThrows {w number_of_modules internal_} (hfresh : w.Fresh internal_)
    (hloop : 0 < number_of_modules)
    : Step lib w (.newGroupFeedbackThrows number_of_modules internal_)
        { w with created := w.created ++ [internal_] }
  | wrapGroupFeedback {w group_feedback} (hlent : group_feedback ∉ w.created)
    : Step lib w (.wrapGroupFeedback group_feedback)
        {
          w with
          objects := w.objects ++ [some (.groupFeedback (.ofHandle lib group_feedback))]
          lent := w.lent ++ [group_feedback]
        }
  | wrapGroupFeedbackThrows {w group_feedback} (hlent : group_feedback ∉ w.created)
    (hloop : 0 < lib.fourierGroupFeedbackGetSize group_feedback)
    : Step lib w (.wrapGroupFeedbackThrows group_feedback)
        { w with lent := w.lent ++ [group_feedback] }
  | newLookup {w lookup_} (hfresh : w.Fresh lookup_)
    : Step lib w (.newLookup lookup_)
        {
          w with
          objects := w.objects ++ [some (.lookup lookup_)]
          created := w.created ++ [lookup_]
        }
  | copy {w i wrapper} (hobject : w.objects[i]? = some (some wrapper))
    : Step lib w (.copy i) { w with objects := w.objects ++ [some wrapper] }
  | copyThrows {w i wrapper} (hobject : w.objects[i]? = some (some wrapper))
    : Step lib w (.copyThrows i) w
  | assign {w i j lookup_ lookup_'} (hleft : w.objects[i]? = some (some (.lookup lookup_)))
    (hright : w.objects[j]? = some (some (.lookup lookup_')))
    : Step lib w (.assign i j) { w with objects := w.objects.set i (some (.lookup lookup_')) }
  | callMember {w i wrapper} (hobject : w.objects[i]? = some (some wrapper))
    : Step lib w (.callMember i) w
  | destroy {w i wrapper} (hobject : w.objects[i]? = some (some wrapper))
    : Step lib w (.destroy i)
        { w with objects := w.objects.set i none, released := w.released ++ wrapper.destroyed }

def AllGone (w : World) : Prop := ∀ wrapper, some wrapper ∉ w.objects

-- The handles that an operation passes to the C library.
def passes (w : World) (op : ObjectOp) : List Addr :=
  match op with
  | .newGroupCommand internal_ => [internal_]
  | .newGroupCommandThrows _ internal_ => [internal_]
  | .newGroupFeedback _ internal_ => [internal_]
  | .newGroupFeedbackThrows _ internal_ => [internal_]
  | .wrapGroupFeedback group_feedback => [group_feedback]
  | .wrapGroupFeedbackThrows group_feedback => [group_feedback]
  | .callMember i => (w.objects[i]?.join).toList.map Wrapper.handle
  | .destroy i => (w.objects[i]?.join).toList.flatMap Wrapper.destroyed
  | _ => []

structure Safe (w : World) : Prop where
  released_once : ∀ handle ∈ w.created, w.released.count handle ≤ 1
  released_all : w.AllGone → ∀ handle ∈ w.created, w.released.count handle = 1
  live : ∀ wrapper, some wrapper ∈ w.objects → wrapper.handle ∉ w.released
  lent : ∀ handle ∈ w.lent, handle ∉ w.released

/--
The operation is no constructor that throws after it has created a handle, does not copy a wrapper
that owns its handle, and assigns a `Lookup` only to one with the same handle.
-/
def Clean (w : World) (op : ObjectOp) : Prop :=
  match op with
  | .newGroupCommandThrows _ _ => False
  | .newGroupFeedbackThrows _ _ => False
  | .copy i => ∀ wrapper, w.objects[i]? = some (some wrapper) → wrapper.manages = false
  | .assign i j => ∀ wrapper wrapper', w.objects[i]? = some (some wrapper) →
    w.objects[j]? = some (some wrapper') → wrapper.handle = wrapper'.handle
  | _ => True

def AllClean (lib : FeedbackLib) (ops : List ObjectOp) : Prop :=
  ∀ pre op w w', pre ++ [op] <+: ops → Run (Step lib) .empty pre w → Step lib w op w' →
    w.Clean op

/-! ### The ledger of the wrappers -/

def ledger (w : World) : Ledger Addr where
  refs := w.objects.map (·.map Wrapper.ref)
  created := w.created
  borrowed := w.lent
  released := w.released

end World

def ObjectOp.ledgerOp : ObjectOp → Op Addr
  | .newGroupCommand internal_ => .create internal_
  | .newGroupCommandThrows _ internal_ => .leak internal_
  | .newGroupFeedback _ internal_ => .create internal_
  | .newGroupFeedbackThrows _ internal_ => .leak internal_
  | .wrapGroupFeedback group_feedback => .borrow group_feedback
  | .wrapGroupFeedbackThrows group_feedback => .lend group_feedback
  | .newLookup lookup_ => .create lookup_
  | .copy i => .copy i
  | .copyThrows i => .use i
  | .assign i j => .rebind i j
  | .callMember i => .use i
  | .destroy i => .drop i

namespace World

variable {lib : FeedbackLib} {w w' : World} {op : ObjectOp} {ops : List ObjectOp}

def OwnersNonnull (w : World) : Prop :=
  ∀ wrapper, some wrapper ∈ w.objects → wrapper.manages = true → wrapper.handle ≠ nullptr

theorem OwnersNonnull.append (h : w.OwnersNonnull) (wrapper : Wrapper)
    (hwrapper : wrapper.manages = true → wrapper.handle ≠ nullptr) (created lent : List Addr)
    : { w with objects := w.objects ++ [some wrapper], created, lent }.OwnersNonnull := by
  intro wrapper' hmem
  simp only [List.mem_append, List.mem_singleton, Option.some.injEq] at hmem
  cases hmem with
  | inl hmem => apply h wrapper' hmem
  | inr hmem =>
    rw [hmem]
    apply hwrapper

theorem getElem?_refs {i : Nat} {wrapper : Wrapper} (h : w.objects[i]? = some (some wrapper))
    : w.ledger.refs[i]? = some (some wrapper.ref) := by
  simp [ledger, h]

theorem Step.refines (h : w.OwnersNonnull) (hstep : Step lib w op w')
    : Ownership.Step w.ledger op.ledgerOp w'.ledger ∧ w'.OwnersNonnull := by
  cases hstep with
  | newGroupCommand hfresh =>
    refine ⟨?_, h.append (.groupCommand _) (fun _ => hfresh.nonnull) _ _⟩
    simp only [ledger, List.map_append]
    apply Ownership.Step.create hfresh.created hfresh.lent
  | newGroupCommandThrows hfresh => exact ⟨.leak hfresh.created hfresh.lent, h⟩
  | newGroupFeedback hfresh =>
    refine ⟨?_, h.append (.groupFeedback (.ofSize lib _ _)) (fun _ => hfresh.nonnull) _ _⟩
    simp only [ledger, List.map_append]
    apply Ownership.Step.create hfresh.created hfresh.lent
  | newGroupFeedbackThrows hfresh => exact ⟨.leak hfresh.created hfresh.lent, h⟩
  | wrapGroupFeedback hlent =>
    refine ⟨?_, h.append (.groupFeedback (.ofHandle lib _)) ?_ _ _⟩
    rotate_left
    . intro hmanages
      contradiction
    simp only [ledger, List.map_append]
    apply Ownership.Step.borrow hlent
  | wrapGroupFeedbackThrows hlent => exact ⟨.lend hlent, h⟩
  | newLookup hfresh =>
    refine ⟨?_, h.append (.lookup _) (fun _ => hfresh.nonnull) _ _⟩
    simp only [ledger, List.map_append]
    apply Ownership.Step.create hfresh.created hfresh.lent
  | copy hobject =>
    refine ⟨?_, h.append _ (h _ (List.mem_of_getElem? hobject)) _ _⟩
    simp only [ledger, List.map_append]
    apply Ownership.Step.copy (getElem?_refs hobject)
  | copyThrows hobject => exact ⟨.use (getElem?_refs hobject), h⟩
  | assign hleft hright =>
    refine ⟨?_, ?_⟩
    . simp only [ledger, List.map_set]
      apply Ownership.Step.rebind (getElem?_refs hleft) (getElem?_refs hright) rfl
    . intro wrapper hmem
      cases List.mem_or_eq_of_mem_set hmem with
      | inl hmem => apply h wrapper hmem
      | inr hmem =>
        rw [Option.some.injEq] at hmem
        rw [hmem]
        apply h _ (List.mem_of_getElem? hright)
  | callMember hobject => exact ⟨.use (getElem?_refs hobject), h⟩
  | destroy hobject =>
    refine ⟨?_, ?_⟩
    . rw [Wrapper.destroyed_eq_releases (h _ (List.mem_of_getElem? hobject))]
      simp only [ledger, List.map_set]
      apply Ownership.Step.drop (getElem?_refs hobject)
    . intro wrapper hmem
      cases List.mem_or_eq_of_mem_set hmem with
      | inl hmem => apply h wrapper hmem
      | inr hmem => contradiction

theorem ledger_of_run (hrun : Run (Step lib) .empty ops w)
    : Run Ownership.Step .empty (ops.map ObjectOp.ledgerOp) w.ledger := by
  have hsimulation := hrun.simulate (T := Ownership.Step) (I := OwnersNonnull)
    ObjectOp.ledgerOp ledger (fun _ _ _ h hstep => hstep.refines h)
  apply (hsimulation (by simp [OwnersNonnull, empty])).left

theorem mem_refs_iff {r : Ref Addr}
    : some r ∈ w.ledger.refs ↔ ∃ wrapper, some wrapper ∈ w.objects ∧ wrapper.ref = r := by
  simp [ledger]

theorem allGone_iff : w.ledger.AllGone ↔ w.AllGone := by
  constructor
  . intro h wrapper hwrapper
    apply h wrapper.ref
    rw [mem_refs_iff]
    exact ⟨wrapper, hwrapper, rfl⟩
  . intro h r hr
    have ⟨wrapper, hwrapper, _⟩ := mem_refs_iff.mp hr
    apply h wrapper hwrapper

theorem safe_iff : w.ledger.Safe ↔ w.Safe := by
  constructor
  . intro h
    constructor
    . apply h.released_once
    . intro hgone
      apply h.released_all (allGone_iff.mpr hgone)
    . intro wrapper hwrapper
      apply h.live wrapper.ref
      rw [mem_refs_iff]
      exact ⟨wrapper, hwrapper, rfl⟩
    . apply h.borrowed
  . intro h
    constructor
    . apply h.released_once
    . intro hgone
      apply h.released_all (allGone_iff.mp hgone)
    . intro r hr
      have ⟨wrapper, hwrapper, href⟩ := mem_refs_iff.mp hr
      rw [← href]
      apply h.live wrapper hwrapper
    . apply h.lent

theorem Step.clean_iff (hstep : Step lib w op w')
    : w.ledger.Clean op.ledgerOp ↔ w.Clean op := by
  cases hstep with
  | copy hobject =>
    simp only [ObjectOp.ledgerOp, Ledger.Clean, Clean, getElem?_refs hobject, hobject,
      Option.some.injEq, forall_eq']
    rfl
  | assign hleft hright =>
    simp only [ObjectOp.ledgerOp, Ledger.Clean, Clean, getElem?_refs hleft, getElem?_refs hright,
      hleft, hright, Option.some.injEq]
    constructor
    . intro h wrapper wrapper' hwrapper hwrapper'
      cases h _ _ rfl rfl with
      | inl howns => contradiction
      | inr href =>
        rw [← hwrapper, ← hwrapper']
        apply congrArg Ref.target href
    . intro h r r' hr hr'
      right
      rw [← hr, ← hr']
      apply congrArg (Ref.mk · true) (h _ _ rfl rfl)
  | _ => exact Iff.rfl

theorem allClean_iff (hrun : Run (Step lib) .empty ops w)
    : Ownership.AllClean (ops.map ObjectOp.ledgerOp) ↔ AllClean lib ops := by
  constructor
  . intro h pre op w₁ w₂ hpre hrun₁ hstep
    rw [← hstep.clean_iff]
    apply h (pre.map ObjectOp.ledgerOp)
    . simpa using hpre.map ObjectOp.ledgerOp
    . apply ledger_of_run hrun₁
  . intro h pre' op' l hpre' hrun'
    have ⟨post, hpost⟩ := hpre'
    have ⟨init, rest, hops, hinit, _⟩ := List.map_eq_append_iff.mp hpost.symm
    have ⟨pre, last, hinit', hpre, hlast⟩ := List.map_eq_append_iff.mp hinit
    have ⟨op, hop, hop'⟩ := List.map_eq_singleton_iff.mp hlast
    rw [hops, hinit', hop, List.append_assoc, List.singleton_append, Run.append_iff] at hrun
    have ⟨w₁, hrun₁, hrest⟩ := hrun
    have ⟨w₂, hstep, _⟩ := Run.cons_iff.mp hrest
    have hledger := ledger_of_run hrun₁
    rw [hpre] at hledger
    rw [Run.det Ownership.Step.det hrun' hledger, ← hop', hstep.clean_iff]
    apply h pre op w₁ w₂ _ hrun₁ hstep
    rw [hops, hinit', hop]
    apply List.prefix_append

theorem Safe.passes (h : w.Safe) (hsound : Sound w.ledger) (hstep : Step lib w op w')
    : ∀ handle ∈ w.passes op, handle ∉ w.released := by
  intro handle hpasses hreleased
  have hcreated : handle ∈ w.created := hsound.released handle hreleased
  cases hstep with
  | newGroupCommand hfresh =>
    rw [List.mem_singleton.mp hpasses] at hcreated
    exact hfresh.created hcreated
  | newGroupCommandThrows hfresh =>
    rw [List.mem_singleton.mp hpasses] at hcreated
    exact hfresh.created hcreated
  | newGroupFeedback hfresh =>
    rw [List.mem_singleton.mp hpasses] at hcreated
    exact hfresh.created hcreated
  | newGroupFeedbackThrows hfresh =>
    rw [List.mem_singleton.mp hpasses] at hcreated
    exact hfresh.created hcreated
  | wrapGroupFeedback hlent =>
    rw [List.mem_singleton.mp hpasses] at hcreated
    exact hlent hcreated
  | wrapGroupFeedbackThrows hlent =>
    rw [List.mem_singleton.mp hpasses] at hcreated
    exact hlent hcreated
  | newLookup => contradiction
  | copy => contradiction
  | copyThrows => contradiction
  | assign => contradiction
  | callMember hobject =>
    simp only [World.passes, hobject, Option.join_some, Option.toList_some, List.map_cons,
      List.map_nil, List.mem_singleton] at hpasses
    rw [hpasses] at hreleased
    exact h.live _ (List.mem_of_getElem? hobject) hreleased
  | @destroy i wrapper hobject =>
    simp only [World.passes, hobject, Option.join_some, Option.toList_some, List.flatMap_cons,
      List.flatMap_nil, List.append_nil] at hpasses
    rw [Wrapper.eq_handle_of_mem_destroyed hpasses] at hreleased
    exact h.live _ (List.mem_of_getElem? hobject) hreleased

theorem allClean_of_run
    (hrun : Run (fun w op w' => Step lib w op w' ∧ w.Clean op) .empty ops w) : AllClean lib ops := by
  have hledger {ops : List ObjectOp} {w : World}
      (hrun : Run (fun w op w' => Step lib w op w' ∧ w.Clean op) .empty ops w)
      : Run Ownership.Step .empty (ops.map ObjectOp.ledgerOp) w.ledger := by
    apply ledger_of_run (hrun.mono fun _ _ _ h => h.left)
  rw [← allClean_iff (hrun.mono fun _ _ _ h => h.left)]
  apply hrun.invariant (P := fun ops _ => Ownership.AllClean (ops.map ObjectOp.ledgerOp))
  . apply Ownership.AllClean.nil
  . intro ops w op w' hrun hclean hstep
    rw [List.map_append]
    apply hclean.snoc (hledger hrun)
    rw [hstep.left.clean_iff]
    apply hstep.right

theorem AllClean.of_prefix {pre : List ObjectOp} (h : AllClean lib ops) (hpre : pre <+: ops)
    : AllClean lib pre := by
  intro pre' op w w' hpre' hrun hstep
  apply h pre' op w w' (hpre'.trans hpre) hrun hstep

theorem handles_safe_iff_clean (hrun : Run (Step lib) .empty ops w)
    : (AllClean lib ops → ∀ pre w', pre <+: ops → Run (Step lib) .empty pre w' →
        w'.Safe ∧ ∀ op w'', pre ++ [op] <+: ops → Step lib w' op w'' →
          ∀ handle ∈ w'.passes op, handle ∉ w'.released) ∧
      (w.AllGone → (w.Safe ↔ AllClean lib ops)) := by
  constructor
  . intro hclean pre w' hpre hrun'
    have hledger := ledger_of_run hrun'
    have hsafe : w'.Safe := by
      rw [← safe_iff]
      apply safe_of_clean hledger
      rw [allClean_iff hrun']
      apply hclean.of_prefix hpre
    refine ⟨hsafe, ?_⟩
    intro op w'' _ hstep
    apply hsafe.passes (sound_of_run hledger) hstep
  . intro hgone
    rw [← safe_iff, ← allClean_iff hrun]
    apply Ownership.safe_iff_clean (ledger_of_run hrun) (allGone_iff.mpr hgone)

theorem Step.destroy_of_eq {i : Nat} {wrapper : Wrapper}
    (hobject : w.objects[i]? = some (some wrapper))
    (hw : w' =
      { w with objects := w.objects.set i none, released := w.released ++ wrapper.destroyed })
    : Step lib w (.destroy i) w' := by
  rw [hw]
  apply Step.destroy hobject

theorem handles_safe_iff_clean_view
    : let ops : List ObjectOp :=
        [.newGroupCommand 1, .wrapGroupFeedback 2, .copy 1, .destroy 1, .destroy 0, .destroy 2]
      let w : World := ⟨[none, none, none], [1], [2], [1]⟩
      w.Safe ∧ ∀ pre w', pre <+: ops → Run (Step .twoModules) .empty pre w' → w'.Safe := by
  intro ops w
  have hrun : Run (fun w op w' => Step .twoModules w op w' ∧ w.Clean op) .empty ops w := by
    apply Run.cons ⟨.newGroupCommand ⟨by decide, by decide, by decide⟩, trivial⟩
    apply Run.cons ⟨.wrapGroupFeedback (by decide), trivial⟩
    apply Run.cons ⟨.copy rfl, by intro wrapper hobject; cases hobject; rfl⟩
    apply Run.cons ⟨.destroy rfl, trivial⟩
    apply Run.cons ⟨.destroy rfl, trivial⟩
    apply Run.single ⟨.destroy_of_eq rfl rfl, trivial⟩
  have hclean := allClean_of_run hrun
  have ⟨hsafe, hgone⟩ := handles_safe_iff_clean (hrun.mono fun _ _ _ h => h.left)
  refine ⟨(hgone ?_).mpr hclean, ?_⟩
  . intro wrapper hwrapper
    simp [w] at hwrapper
  . intro pre w' hpre hrun'
    apply (hsafe hclean pre w' hpre hrun').left

theorem copied_groupCommand_released_twice
    : let w : World := ⟨[none, none], [1], [], [1, 1]⟩
      Run (Step .twoModules) .empty [.newGroupCommand 1, .copy 0, .destroy 1, .destroy 0] w ∧
        ¬w.Safe := by
  refine ⟨?_, ?_⟩
  . apply Run.cons (.newGroupCommand ⟨by decide, by decide, by decide⟩)
    apply Run.cons (.copy rfl)
    apply Run.cons (.destroy rfl)
    apply Run.single (.destroy_of_eq rfl rfl)
  . intro hsafe
    have honce := hsafe.released_once 1 (by decide)
    revert honce
    decide

end World
end Fourier
