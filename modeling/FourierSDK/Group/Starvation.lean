import FourierSDK.Group.Deadlock
import FourierSDK.Monitor.Starvation

/-!
This module contains when the member functions of a group that use `handler_lock_` return, whoever
else uses the group at the same time.
-/

namespace Fourier

open Transition Monitor

variable {R T Code Tid : Type} [DecidableEq Tid]

namespace Group

variable {lib : HandlerLib R} {feedbackLib : FeedbackLib} {user : HandlerProgram T Code}

theorem completes_addFeedbackHandler (handler : GroupFeedbackHandler T) (g : Group R T)
    : (object lib feedbackLib user).Completes (.pushBack handler) g := by
  have hregister (g' : Group R T) : (object lib feedbackLib user).Completes .registerCallback g' := by
    constructor
    . exact .inr (.inl ⟨_, _, _, .registerCallback .FourierStatusSuccess⟩)
    . intro _ _ _ hbody
      cases hbody with
      | registerCallback => apply completes_unlock
  constructor
  . exact .inr (.inl ⟨_, _, _, .pushBack⟩)
  . intro _ _ _ hbody
    cases hbody with
    | pushBack =>
      constructor
      . by_cases hsize : (g.handlers_ ++ [handler]).length = 1
        . exact .inr (.inl ⟨_, _, _, .first hsize⟩)
        . exact .inr (.inl ⟨_, _, _, .notFirst hsize⟩)
      . intro _ _ _ hbody
        cases hbody with
        | first => apply hregister
        | notFirst => apply completes_unlock

theorem completes_clearFeedbackHandlers (g : Group R T)
    : (object lib feedbackLib user).Completes .clearRegistrations g := by
  constructor
  . exact .inr (.inl ⟨_, _, _, .clearRegistrations⟩)
  . intro _ _ _ hbody
    cases hbody with
    | clearRegistrations =>
      constructor
      . exact .inr (.inl ⟨_, _, _, .clearHandlers⟩)
      . intro _ _ _ hbody
        cases hbody with
        | clearHandlers => apply completes_unlock

theorem completes_enter {g : Group R T} (op : Operation T)
    (hsize : ∀ group_feedback, op = .callAttachedHandlers group_feedback →
      g.handlers_.length < 2 ^ 32)
    (hfinishes : ∀ group_feedback target, op = .callAttachedHandlers group_feedback →
      some target ∈ g.handlers_ →
      user.Finishes (user.start target (.ofHandle feedbackLib group_feedback)))
    : (object lib feedbackLib user).Completes (enter feedbackLib op) g := by
  cases op with
  | addFeedbackHandler handler => apply completes_addFeedbackHandler
  | clearFeedbackHandlers => apply completes_clearFeedbackHandlers
  | callAttachedHandlers group_feedback =>
    apply completes_testIndex (hsize group_feedback rfl)
    . intro target htarget
      apply hfinishes group_feedback target rfl htarget
    . rfl

variable {g : Group R T}

structure WellBehaved
    (E : Execution (Step (object lib feedbackLib user))
      (State.start g : State Tid (Operation T) (Pc T Code) (Group R T))) : Prop where
  no_reenter : ∀ n t op, E.event n ≠ some (.reenter t op)
  size : ∀ n t group_feedback, E.event n = some (.acquire t (.callAttachedHandlers group_feedback)) →
    (E.state n).shared.handlers_.length < 2 ^ 32
  finishes : ∀ n t group_feedback target,
    E.event n = some (.acquire t (.callAttachedHandlers group_feedback)) →
    some target ∈ (E.state n).shared.handlers_ →
    user.Finishes (user.start target (.ofHandle feedbackLib group_feedback))

theorem WellBehaved.terminating
    {E : Execution (Step (object lib feedbackLib user))
      (State.start g : State Tid (Operation T) (Pc T Code) (Group R T))}
    (h : WellBehaved E) : Terminating E := by
  constructor
  . apply h.no_reenter
  . intro n t op hacquire
    apply completes_enter
    . intro group_feedback hop
      rw [hop] at hacquire
      apply h.size n t group_feedback hacquire
    . intro group_feedback target hop htarget
      rw [hop] at hacquire
      apply h.finishes n t group_feedback target hacquire htarget

theorem every_call_returns (self : Addr) (internal_ : R)
    (E : Execution (Step (object lib feedbackLib user))
      (State.start (new self internal_) : State Tid (Operation T) (Pc T Code) (Group R T)))
    (h : WellBehaved E) (hfair : FairScheduler E) (n : Nat) (t : Tid) (op : Operation T)
    (hcall : E.event n = some (.call t op)) : ∃ m, n < m ∧ E.event m = some (.ret t op) := by
  apply h.terminating.returns hfair hcall

def addThenDispatch : List (Event Bool (Operation Nat) (Label Nat)) :=
  [
    .call false (.addFeedbackHandler none), .acquire false (.addFeedbackHandler none),
    .call true (.callAttachedHandlers 1024),
    .body false .silent, .body false .silent, .body false .silent,
    .release false (.addFeedbackHandler none), .acquire true (.callAttachedHandlers 1024),
    .ret false (.addFeedbackHandler none), .body true .silent, .body true .silent,
    .body true (.invoke none (.ofHandle .twoModules 1024)), .body true .silent,
    .release true (.callAttachedHandlers 1024), .ret true (.callAttachedHandlers 1024)
  ]

theorem run_addThenDispatch
    : ∃ s, Run (Step (object .ofList .twoModules returningHandlers)) (.start (new 1 []))
        addThenDispatch s ∧ ∀ t, s.stack t = [] := by
  unfold addThenDispatch
  apply Run.exists_cons_and (.call rfl)
  apply Run.exists_cons_and (.acquire rfl rfl)
  apply Run.exists_cons_and (.call rfl)
  apply Run.exists_cons_and (.body rfl .pushBack)
  apply Run.exists_cons_and (.body rfl (.first rfl))
  apply Run.exists_cons_and (.body rfl (.registerCallback .FourierStatusSuccess))
  apply Run.exists_cons_and (.release rfl rfl)
  apply Run.exists_cons_and (.acquire rfl rfl)
  apply Run.exists_cons_and (.ret rfl)
  apply Run.exists_cons_and (.body rfl (.more (by decide)))
  apply Run.exists_cons_and (.body rfl (.copyHandler rfl))
  apply Run.exists_cons_and (.body rfl .callEmpty)
  apply Run.exists_cons_and (.body rfl (.noMore (by decide)))
  apply Run.exists_cons_and (.release rfl rfl)
  apply Run.exists_cons_and (.ret rfl)
  refine ⟨_, .nil, ?_⟩
  intro t
  cases t <;> rfl

theorem every_call_returns_addThenDispatch
    : ∃ E : Execution (Step (object .ofList .twoModules returningHandlers))
          (State.start (new 1 []) : State Bool _ _ _),
        (∀ n, E.event n = addThenDispatch[n]?) ∧
        ∃ m, 2 < m ∧ E.event m = some (.ret true (.callAttachedHandlers 1024)) := by
  have ⟨s, hrun, hrest⟩ := run_addThenDispatch
  have ⟨E, hevent, hstate⟩ := Execution.exists_of_run hrun
  have hidle (m : Nat) (hm : 15 ≤ m) : E.event m = none := by
    rw [hevent, List.getElem?_eq_none_iff]
    exact hm
  have hmem {n : Nat} {e : Event Bool (Operation Nat) (Label Nat)} (he : E.event n = some e)
      : e ∈ addThenDispatch := by
    rw [hevent] at he
    apply List.mem_of_getElem? he
  have hwell : WellBehaved E := by
    constructor
    . intro n t op he
      have h := hmem he
      simp [addThenDispatch] at h
    . intro n t group_feedback he
      have hfree := ((flat_of_event he).holds_acquired rfl).left
      have hsize := length_handlers_le rfl (E.run n) hfree
      have hlength := E.length_trace_le n
      have hn := (List.getElem?_eq_some_iff.mp ((hevent n).symm.trans he)).1
      have hlength' : addThenDispatch.length = 15 := rfl
      omega
    . intro n t group_feedback target _ _
      apply finishes_returningHandlers
  refine ⟨E, hevent, ?_⟩
  apply every_call_returns 1 [] E hwell (FairScheduler.of_rest E (n := 15) ?_) 2 true _ (hevent 2)
  intro m hm t
  rw [E.state_of_idle hidle m hm]
  rw [← hstate] at hrest
  apply hrest t

end Group
end Fourier
