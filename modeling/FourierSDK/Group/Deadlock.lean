import FourierSDK.Group.Linearizable
import FourierSDK.Monitor.Progress

/-!
This module contains when the threads that use a group block each other for ever. A handler that
calls `addFeedbackHandler` or `clearFeedbackHandlers` on the group that calls it makes its thread
wait for the lock that the thread holds, as `handler_lock_` is not recursive. Nothing else blocks:
without such calls, every dispatch of fewer than 2 ^ 32 handlers that all finish finishes.
-/

namespace Fourier

open Transition Monitor

variable {R T Code Tid : Type} [DecidableEq Tid]

def Action.next? : Action T Code → Option Code
  | .goOn code => some code
  | .returns => none
  | .throws => none
  | .addFeedbackHandler _ code => some code
  | .clearFeedbackHandlers code => some code

inductive HandlerProgram.Finishes (user : HandlerProgram T Code) : Code → Prop where
  | intro {code} (hact : ∃ action, user.act code action)
    (hnext : ∀ action code', user.act code action → action.next? = some code' →
      Finishes user code')
    : Finishes user code

namespace Group

variable {lib : HandlerLib R} {feedbackLib : FeedbackLib} {user : HandlerProgram T Code}
variable {g : Group R T}

theorem completes_unlock : (object lib feedbackLib user).Completes .unlock g := by
  constructor
  . exact .inl rfl
  . intro _ _ _ hbody
    cases hbody

theorem completes_inHandler {code : Code} {fbk : GroupFeedback} {i : BitVec 32}
    (hfinishes : user.Finishes code)
    (hnext : (object lib feedbackLib user).Completes (.testIndex fbk (i + 1)) g)
    : (object lib feedbackLib user).Completes (.inHandler fbk i code) g := by
  induction hfinishes with
  | @intro code hact _ ih =>
    constructor
    . have ⟨action, hact⟩ := hact
      cases action with
      | goOn code' => exact .inr (.inl ⟨_, _, _, .goOn hact⟩)
      | returns => exact .inr (.inl ⟨_, _, _, .returns hact⟩)
      | throws => exact .inr (.inl ⟨_, _, _, .throws hact⟩)
      | addFeedbackHandler handler code' => exact .inr (.inr ⟨_, _, .addFeedbackHandler hact⟩)
      | clearFeedbackHandlers code' => exact .inr (.inr ⟨_, _, .clearFeedbackHandlers hact⟩)
    . intro _ _ _ hbody
      cases hbody with
      | goOn hact => apply ih _ _ hact rfl
      | returns hact => apply hnext
      | throws hact => apply hnext

theorem completes_callHandler {fbk : GroupFeedback} {i : BitVec 32}
    {handler : GroupFeedbackHandler T}
    (hfinishes : ∀ target, handler = some target → user.Finishes (user.start target fbk))
    (hnext : (object lib feedbackLib user).Completes (.testIndex fbk (i + 1)) g)
    : (object lib feedbackLib user).Completes (.callHandler fbk i handler) g := by
  constructor
  . cases handler with
    | none => exact .inr (.inl ⟨_, _, _, .callEmpty⟩)
    | some target => exact .inr (.inl ⟨_, _, _, .callTarget⟩)
  . intro _ _ _ hbody
    cases hbody with
    | callEmpty => apply hnext
    | callTarget => apply completes_inHandler (hfinishes _ rfl) hnext

theorem completes_testIndex {fbk : GroupFeedback} (hsize : g.handlers_.length < 2 ^ 32)
    (hfinishes : ∀ target, some target ∈ g.handlers_ → user.Finishes (user.start target fbk))
    (left : Nat) (i : BitVec 32) (hleft : g.handlers_.length - i.toNat = left)
    : (object lib feedbackLib user).Completes (.testIndex fbk i) g := by
  induction left generalizing i with
  | zero =>
    have hend : ¬i.toNat < g.handlers_.length := by omega
    constructor
    . exact .inr (.inl ⟨_, _, _, .noMore hend⟩)
    . intro _ _ _ hbody
      cases hbody with
      | more hlt => contradiction
      | noMore => apply completes_unlock
  | succ left ih =>
    have hlt : i.toNat < g.handlers_.length := by omega
    have hnext : (object lib feedbackLib user).Completes (.testIndex fbk (i + 1)) g := by
      apply ih
      rw [toNat_succ (by omega)]
      omega
    have hcopy : (object lib feedbackLib user).Completes (.copyHandler fbk i) g := by
      constructor
      . exact .inr (.inl ⟨_, _, _, .copyHandler (List.getElem?_eq_getElem hlt)⟩)
      . intro _ _ _ hbody
        cases hbody with
        | copyHandler hhandler =>
          apply completes_callHandler _ hnext
          intro target htarget
          apply hfinishes
          rw [← htarget]
          apply List.mem_of_getElem? hhandler
    constructor
    . exact .inr (.inl ⟨_, _, _, .more hlt⟩)
    . intro _ _ _ hbody
      cases hbody with
      | more => apply hcopy
      | noMore hend => contradiction

variable {self : Addr} {internal_ : R}

structure FinishingDispatch
    (E : Execution (Step (object lib feedbackLib user))
      (State.start g : State Tid (Operation T) (Pc T Code) (Group R T)))
    (n : Nat) (t : Tid) (group_feedback : FourierGroupFeedbackPtr) : Prop where
  acquire : E.event n = some (.acquire t (.callAttachedHandlers group_feedback))
  fair : E.WeaklyFair (Event.goesOn t)
  finishes : ∀ target, some target ∈ (E.state n).shared.handlers_ →
    user.Finishes (user.start target (.ofHandle feedbackLib group_feedback))

variable {E : Execution (Step (object lib feedbackLib user))
  (State.start g : State Tid (Operation T) (Pc T Code) (Group R T))}
variable {n : Nat} {t : Tid} {group_feedback : FourierGroupFeedbackPtr}

theorem FinishingDispatch.released (h : FinishingDispatch E n t group_feedback)
    (hreenter : ∀ n t op, E.event n ≠ some (.reenter t op))
    (hsize : (E.state n).shared.handlers_.length < 2 ^ 32)
    : ∃ m, n < m ∧ E.event m = some (.release t (.callAttachedHandlers group_feedback)) := by
  have ⟨_, hshared, hholder, hstack⟩ := (flat_of_event h.acquire).holds_acquired rfl
  have hcompletes : (object lib feedbackLib user).Completes
      (.testIndex (.ofHandle feedbackLib group_feedback) 0) (E.state (n + 1)).shared := by
    rw [hshared]
    apply completes_testIndex hsize h.finishes _ _ rfl
  apply eventually_released E hcompletes hholder hstack h.fair
  intro m op'
  apply hreenter

theorem size_lt_of_released
    (hacquire : E.event n = some (.acquire t (.callAttachedHandlers group_feedback)))
    {m : Nat} (hm : n < m)
    (hrelease : E.event m = some (.release t (.callAttachedHandlers group_feedback)))
    : (E.state n).shared.handlers_.length < 2 ^ 32 := by
  have ⟨tr, _, hrun⟩ := E.run_from (m := n + 1) (n := m) hm
  have hrun' := Run.snoc hrun (E.next m _ hrelease)
  have hmem : .release t (.callAttachedHandlers group_feedback)
      ∈ tr ++ [.release t (.callAttachedHandlers group_feedback)] := by
    simp
  have ⟨mid, op', post, htr, hmid⟩ := Event.first_release hmem
  rw [htr] at hrun'
  have ⟨s₁, hinner, hrun'⟩ := Run.append_iff.mp hrun'
  have ⟨s₂, hrel, _⟩ := Run.cons_iff.mp hrun'
  have hex := exclusive_of_run (.start g) (E.run n)
  have ⟨pc, hsolo, hfinal, _⟩ := solo_of_run hex (E.next n _ hacquire) hinner hmid hrel
  have ⟨_, hprogress⟩ := dispatchProgress_of_solo hsolo
  rw [hfinal] at hprogress
  apply hprogress.left

theorem no_reenter_of_no_calls
    (hadd : ∀ code handler code', ¬user.act code (.addFeedbackHandler handler code'))
    (hclear : ∀ code code', ¬user.act code (.clearFeedbackHandlers code'))
    : ∀ n t op, E.event n ≠ some (.reenter t op) := by
  intro n t op he
  have hflat := flat_of_event he
  generalize E.state (n + 1) = s' at hflat
  cases hflat with
  | reenter _ _ hcalls =>
    cases hcalls with
    | addFeedbackHandler hact => exact hadd _ _ _ hact
    | clearFeedbackHandlers hact => exact hclear _ _ hact

theorem finishes_returningHandlers : returningHandlers.Finishes () := by
  constructor
  . exact ⟨.returns, rfl⟩
  . intro action code hact hnext
    have hreturns : action = .returns := hact
    rw [hreturns] at hnext
    contradiction

/--
No thread ever waits for itself, and every dispatch whose handlers all finish finishes, exactly when
no handler calls back into the group and the dispatches have fewer than 2 ^ 32 handlers to call.
-/
theorem no_self_deadlock_iff
    (E : Execution (Step (object lib feedbackLib user))
      (State.start (new self internal_) : State Tid (Operation T) (Pc T Code) (Group R T)))
    : ((∀ n t, ¬(E.state n).SelfWaiting t) ∧
        ∀ n t group_feedback, FinishingDispatch E n t group_feedback →
          ∃ m, n < m ∧ E.event m = some (.release t (.callAttachedHandlers group_feedback)))
        ↔
      ((∀ n t op, E.event n ≠ some (.reenter t op)) ∧
        ∀ n t group_feedback, FinishingDispatch E n t group_feedback →
          (E.state n).shared.handlers_.length < 2 ^ 32) := by
  rw [not_selfWaiting_iff_no_reenter]
  constructor
  . intro ⟨hreenter, hfinish⟩
    refine ⟨hreenter, ?_⟩
    intro n t group_feedback hdispatch
    have ⟨m, hm, hrelease⟩ := hfinish n t group_feedback hdispatch
    apply size_lt_of_released hdispatch.acquire hm hrelease
  . intro ⟨hreenter, hsize⟩
    refine ⟨hreenter, ?_⟩
    intro n t group_feedback hdispatch
    apply hdispatch.released hreenter (hsize n t group_feedback hdispatch)

theorem no_self_deadlock_iff_lateDispatch
    : ∃ E : Execution (Step (object .ofList .twoModules returningHandlers))
          (State.start (new 1 []) : State Bool _ _ _),
        (∀ n, E.event n = lateDispatch[n]?) ∧
        (∃ n, FinishingDispatch E n true 1024 ∧
          (E.state n).shared.handlers_ = [some 5, some 8, some 5]) ∧
        (∀ n t, ¬(E.state n).SelfWaiting t) ∧
        ∀ n t group_feedback, FinishingDispatch E n t group_feedback →
          ∃ m, n < m ∧ E.event m = some (.release t (.callAttachedHandlers group_feedback)) := by
  have ⟨s, hrun, hrest⟩ := run_lateDispatch
  have ⟨E, hevent, hstate⟩ := Execution.exists_of_run hrun
  have hidle (m : Nat) (hm : lateDispatch.length ≤ m) : E.event m = none := by
    rw [hevent, List.getElem?_eq_none_iff]
    exact hm
  have hacquire : E.event 33 = some (.acquire true (.callAttachedHandlers 1024)) := hevent 33
  have hfree {n : Nat} {t : Bool} {op : Operation Nat} (hacquire : E.event n = some (.acquire t op))
      : (E.state n).holder = none :=
    ((flat_of_event hacquire).holds_acquired rfl).left
  have htrace : E.trace 33 = beforeLateDispatch := by
    unfold Execution.trace
    rw [funext hevent]
    rfl
  refine ⟨E, hevent, ⟨33, ⟨hacquire, ?_, ?_⟩, ?_⟩, (no_self_deadlock_iff E).mpr ⟨?_, ?_⟩⟩
  . apply weaklyFair_of_rest
    intro m hm
    rw [E.state_of_idle hidle m hm, hstate]
    apply hrest
  . intro target _
    apply finishes_returningHandlers
  . rw [handlers_of_run rfl (E.run 33) (hfree hacquire), htrace]
    rfl
  . apply no_reenter_of_no_calls
    . intro code handler code' hact
      contradiction
    . intro code code' hact
      contradiction
  . intro n t group_feedback hdispatch
    have hn : n < lateDispatch.length :=
      (List.getElem?_eq_some_iff.mp ((hevent n).symm.trans hdispatch.acquire)).1
    have hlength : lateDispatch.length = 49 := rfl
    have hsize := length_handlers_le rfl (E.run n) (hfree hdispatch.acquire)
    have htrace := E.length_trace_le n
    omega

-- A handler that takes all handlers away when it is called, and returns.
def oneShotHandlers : HandlerProgram Nat Bool where
  start _ _ := true
  act code action :=
    match code with
    | true => action = .clearFeedbackHandlers false
    | false => action = .returns

def oneShotDispatch : List (Event Bool (Operation Nat) (Label Nat)) :=
  [
    .call false (.addFeedbackHandler (some 7)), .acquire false (.addFeedbackHandler (some 7)),
    .body false .silent, .body false .silent, .body false .silent,
    .release false (.addFeedbackHandler (some 7)), .ret false (.addFeedbackHandler (some 7)),
    .call true (.callAttachedHandlers 1024), .acquire true (.callAttachedHandlers 1024),
    .body true .silent, .body true .silent,
    .body true (.invoke (some 7) (.ofHandle .twoModules 1024)), .reenter true .clearFeedbackHandlers
  ]

theorem run_oneShotDispatch
    : ∃ s, Run (Step (object .ofList .twoModules oneShotHandlers)) (.start (new 1 []))
        oneShotDispatch s := by
  unfold oneShotDispatch
  apply Run.exists_cons (.call rfl)
  apply Run.exists_cons (.acquire rfl rfl)
  apply Run.exists_cons (.body rfl .pushBack)
  apply Run.exists_cons (.body rfl (.first rfl))
  apply Run.exists_cons (.body rfl (.registerCallback .FourierStatusSuccess))
  apply Run.exists_cons (.release rfl rfl)
  apply Run.exists_cons (.ret rfl)
  apply Run.exists_cons (.call rfl)
  apply Run.exists_cons (.acquire rfl rfl)
  apply Run.exists_cons (.body rfl (.more (by decide)))
  apply Run.exists_cons (.body rfl (.copyHandler rfl))
  apply Run.exists_cons (.body rfl .callTarget)
  apply Run.exists_cons (.reenter rfl (.clearFeedbackHandlers rfl))
  apply Run.exists_nil

theorem one_shot_handler_deadlocks
    : ∃ E : Execution (Step (object .ofList .twoModules oneShotHandlers))
          (State.start (new 1 []) : State Bool _ _ _),
        (∀ n, E.event n = oneShotDispatch[n]?) ∧
        ∃ n, (E.state n).SelfWaiting true ∧
          ∀ tr s, Run (Step (object .ofList .twoModules oneShotHandlers)) (E.state n) tr s →
            s.SelfWaiting true ∧ ∀ u op, .acquire u op ∉ tr := by
  have ⟨_, hrun⟩ := run_oneShotDispatch
  have ⟨E, hevent, _⟩ := Execution.exists_of_run hrun
  have hex (n : Nat) := exclusive_of_run (.start _) (E.run n)
  have hwaiting : (E.state 13).SelfWaiting true := by
    apply ((E.next 12 _ (hevent 12)).flat (hex 12)).selfWaiting_of_reenter rfl
  refine ⟨E, hevent, 13, hwaiting, ?_⟩
  intro tr s hrun
  apply stuck_of_run (hex 13) hwaiting hrun

end Group
end Fourier
