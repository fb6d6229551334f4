import FourierSDK.Group.Copying

/-!
This module contains what one dispatch of a feedback does if no copy fails: `callAttachedHandlers`
calls every stored handler with the same view of the feedback, whatever the handlers do.
-/

namespace Fourier

open Cpp Cpp.Prog

variable {R T U E : Type}

namespace Group

theorem callAttachedHandlers_returns (lib : FeedbackLib) (code : UserCode T U E) (fuel : Nat)
    (group_feedback : FourierGroupFeedbackPtr) (p : Program R T U)
    (hlock : p.handler_lock_ = false) (hsize : p.group.handlers_.length < 2 ^ 32)
    (hfuel : p.group.handlers_.length < fuel)
    : (callAttachedHandlers lib code fuel group_feedback).Returns p (fun _ p' =>
        Dispatched code p (.ofHandle lib group_feedback) p.group.handlers_.length p') := by
  have ⟨p', hrun, h⟩ := Copying.callAttachedHandlers_run lib code .unfailing group_feedback p hlock
    hsize hfuel
  rw [Copying.callAttachedHandlers_unfailing, CopyFailures.thrown?_unfailing] at hrun
  rw [CopyFailures.copied_unfailing] at h
  exact ⟨(), p', hrun, h⟩

theorem callAttachedHandlers_eq_none (lib : FeedbackLib) (code : UserCode T U E) (fuel : Nat)
    (group_feedback : FourierGroupFeedbackPtr) (p : Program R T U)
    (hlock : p.handler_lock_ = false) (hsize : 2 ^ 32 ≤ p.group.handlers_.length)
    : callAttachedHandlers lib code fuel group_feedback p = none := by
  unfold callAttachedHandlers
  apply withLocal_eq_none rfl
  apply lockGuard_eq_none hlock
  apply forLoop_eq_none (I := fun p' => p'.group = (p.setLock true).group)
  . intro i p' h
    have := i.isLt
    rw [h, Program.setLock_group, decide_eq_true_eq]
    omega
  . intro i p' h
    have hi : i.toNat < p'.group.handlers_.length := by
      have := i.isLt
      rw [h, Program.setLock_group]
      omega
    unfold Returns
    rw [bind_of_returned (copyHandler_returns hi)]
    apply Returns.mono (Ends.catchAll (callHandler_ends code _ _ p'))
    intro _ p'' hp''
    rw [hp'']
    exact h
  . rfl

theorem callbackWrapper_run (lib : FeedbackLib) (code : UserCode T U E) (fuel : Nat)
    (group_feedback : FourierGroupFeedbackPtr) (p : Program R T U)
    : callbackWrapper lib code fuel group_feedback p.group.self p
        =
      callAttachedHandlers lib code fuel group_feedback p := by
  rw [← Copying.callbackWrapper_unfailing, Copying.callbackWrapper_run]
  rw [Copying.callAttachedHandlers_unfailing]

theorem dispatch_isolates_faults (lib : FeedbackLib) (group_feedback : FourierGroupFeedbackPtr)
    (p : Program R T U) (fuel : Nat) (hlock : p.handler_lock_ = false)
    (hsize : p.group.handlers_.length < 2 ^ 32) (hfuel : p.group.handlers_.length < fuel)
    : ∃ v : GroupFeedback,
        v.size = lib.fourierGroupFeedbackGetSize group_feedback ∧
        (∀ i, i < v.size →
          v.get i = some (lib.fourierGroupFeedbackGetModuleFeedback group_feedback i)) ∧
        (∀ code : UserCode T U E, ∃ p',
          callAttachedHandlers lib code fuel group_feedback p = some (.ok (), p') ∧
          callbackWrapper lib code fuel group_feedback p.group.self p = some (.ok (), p') ∧
          p'.handler_lock_ = false ∧
          p'.group.handlers_ = p.group.handlers_ ∧
          p'.invocations = p.invocations ++ p.group.handlers_.map (·, v) ∧
          p'.user = (p.group.handlers_.map (·, v)).foldl code.afterCall p.user ∧
          p'.released = p.released) := by
  refine ⟨.ofHandle lib group_feedback, GroupFeedback.size_ofHandle .., ?_, ?_⟩
  . intro i hi
    apply GroupFeedback.get_ofHandle lib group_feedback hi
  . intro code
    have ⟨_, p', hrun, h⟩ :=
      callAttachedHandlers_returns lib code fuel group_feedback p hlock hsize hfuel
    refine ⟨p', hrun, ?_, ?_, ?_, ?_, ?_, h.released⟩
    . rw [callbackWrapper_run]
      apply hrun
    . rw [h.lock]
      apply hlock
    . rw [h.group]
    . rw [h.invocations, List.take_length]
    . rw [h.user, List.take_length]

-- The callable `n` adds `n` to the user's state and throws, the second handler is empty.
theorem dispatch_isolates_faults_throwing
    : let code : UserCode Nat (List Nat) Nat :=
        { call := fun n _ user => (.error n, n, user ++ [n]) }
      let group : Group Unit Nat := ⟨1, (), [some 3, none, some 4]⟩
      let p : Program Unit Nat (List Nat) := ⟨group, false, [], [], []⟩
      ∃ v p',
        callbackWrapper .twoModules code 4 1024 1 p = some (.ok (), p') ∧
        p'.group.handlers_ = [some 3, none, some 4] ∧
        p'.invocations = [(some 3, v), (none, v), (some 4, v)] ∧
        p'.user = [3, 4] := by
  intro code group p
  have ⟨v, _, _, h⟩ := dispatch_isolates_faults (E := Nat) .twoModules 1024 p 4 (by decide)
    (by decide) (by decide)
  have ⟨p', _, hrun, _, hhandlers, hinvocations, huser, _⟩ := h code
  exact ⟨v, p', hrun, hhandlers, hinvocations, huser⟩

end Group
end Fourier
