import FourierSDK.Group.Basic

/-!
This module contains the member functions of a group where copies may fail, and what a dispatch has
done when it ends. A `std::function` may throw when `push_back` or `callAttachedHandlers` copies it,
and so may the constructor of `wrapped_fbk`. The copy of a handler stands before the `try`: a
dispatch ends at the first one that fails, and the exception gets to the C library. `std::bad_alloc`
is one of the exceptions `E`.
-/

namespace Fourier

open Cpp Cpp.Prog

variable {R T U E : Type}

structure CopyFailures (E : Type) where
  wrapped_fbk : Option E
  handler : Nat → Option E

def CopyFailures.unfailing : CopyFailures E := ⟨none, fun _ => none⟩

namespace Group.Copying

def attempt (failure : Option E) : Prog (Exception E) (Program R T U) Unit :=
  match failure with
  | none => pure ()
  | some e => throwing (.user e)

def pushBack (failure : Option E) (handler : GroupFeedbackHandler T)
    : Prog (Exception E) (Program R T U) Unit := do
  attempt failure
  Group.pushBack handler

def addFeedbackHandler (lib : HandlerLib R) (failure : Option E) (handler : GroupFeedbackHandler T)
    (status : FourierStatusCode) : Prog (Exception E) (Program R T U) Unit :=
  lockGuard do
    pushBack failure handler
    if (← read (·.group.handlers_.length)) = 1 then
      let _ ← registerFeedbackHandler lib status

def copyHandler (failures : CopyFailures E) (i : Nat)
    : Prog (Exception E) (Program R T U) (GroupFeedbackHandler T) := do
  attempt (failures.handler i)
  Group.copyHandler i

def handlerLoop (code : UserCode T U E) (failures : CopyFailures E) (fuel : Nat)
    (wrapped_fbk : GroupFeedback) : Prog (Exception E) (Program R T U) Unit :=
  forLoop
    (fun i p => decide (i.toNat < p.group.handlers_.length))
    (fun i => do
      let handler ← copyHandler failures i.toNat
      catchAll (callHandler code handler wrapped_fbk))
    fuel
    (0 : BitVec 32)

def callAttachedHandlers (lib : FeedbackLib) (code : UserCode T U E) (failures : CopyFailures E)
    (fuel : Nat) (group_feedback : FourierGroupFeedbackPtr)
    : Prog (Exception E) (Program R T U) Unit :=
  withLocal
    (do
      attempt failures.wrapped_fbk
      pure (GroupFeedback.ofHandle lib group_feedback))
    (fun wrapped_fbk => modify fun p => { p with released := p.released ++ wrapped_fbk.destroyed })
    (fun wrapped_fbk => lockGuard (handlerLoop code failures fuel wrapped_fbk))

def callbackWrapper (lib : FeedbackLib) (code : UserCode T U E) (failures : CopyFailures E)
    (fuel : Nat) (group_feedback : FourierGroupFeedbackPtr) (user_data : Addr)
    : Prog (Exception E) (Program R T U) Unit := do
  if user_data = (← read (·.group.self)) then
    callAttachedHandlers lib code failures fuel group_feedback
  else
    undefined

variable {lib : FeedbackLib} {code : UserCode T U E} {fuel : Nat}

@[simp]
theorem callAttachedHandlers_unfailing
    : (callAttachedHandlers lib code .unfailing fuel : _ → Prog _ (Program R T U) _)
        =
      Group.callAttachedHandlers lib code fuel := by
  rfl

@[simp]
theorem callbackWrapper_unfailing
    : (callbackWrapper lib code .unfailing fuel : _ → _ → Prog _ (Program R T U) _)
        =
      Group.callbackWrapper lib code fuel := by
  rfl

end Group.Copying

namespace CopyFailures

def copied (failures : CopyFailures E) (n : Nat) : Nat :=
  match failures.wrapped_fbk with
  | some _ => 0
  | none => (List.range n).findIdx fun i => (failures.handler i).isSome

def thrown? (failures : CopyFailures E) (n : Nat) : Option E :=
  failures.wrapped_fbk.or
    (if failures.copied n < n then failures.handler (failures.copied n) else none)

variable {failures : CopyFailures E} {n : Nat}

theorem copied_of_none (hwrapped : failures.wrapped_fbk = none)
    (hnone : ∀ i, i < n → failures.handler i = none) : failures.copied n = n := by
  unfold copied
  rw [hwrapped]
  have hlength : (List.range n).findIdx (fun i => (failures.handler i).isSome)
      = (List.range n).length := by
    apply List.findIdx_eq_length.mpr
    intro i hi
    rw [hnone i (List.mem_range.mp hi)]
    rfl
  simpa using hlength

theorem copied_of_some (hwrapped : failures.wrapped_fbk = none) {k : Nat} (hk : k < n)
    (hnone : ∀ i, i < k → failures.handler i = none) {e : E} (hsome : failures.handler k = some e)
    : failures.copied n = k := by
  unfold copied
  rw [hwrapped]
  dsimp only
  rw [List.findIdx_eq (by simpa using hk)]
  constructor
  . simp [hsome]
  . intro i hi
    simp [hnone i hi]

theorem all_none_or_first (failures : CopyFailures E) (n : Nat)
    : (∀ i, i < n → failures.handler i = none) ∨
      ∃ k e, k < n ∧ (∀ i, i < k → failures.handler i = none) ∧ failures.handler k = some e := by
  induction n with
  | zero => exact .inl (fun i hi => absurd hi (Nat.not_lt_zero i))
  | succ n ih =>
    cases ih with
    | inr h =>
      have ⟨k, e, hk, h⟩ := h
      exact .inr ⟨k, e, Nat.lt_succ_of_lt hk, h⟩
    | inl hnone =>
      cases hlast : failures.handler n with
      | some e => exact .inr ⟨n, e, Nat.lt_succ_self n, hnone, hlast⟩
      | none =>
        left
        intro i hi
        by_cases heq : i = n
        . rw [heq, hlast]
        . apply hnone i
          omega

theorem thrown?_eq_none_iff
    : failures.thrown? n = none
        ↔
      failures.wrapped_fbk = none ∧ ∀ i, i < n → failures.handler i = none := by
  unfold thrown?
  rw [Option.or_eq_none_iff]
  apply and_congr_right
  intro hwrapped
  constructor
  . intro hthrown
    cases failures.all_none_or_first n with
    | inl hnone => exact hnone
    | inr h =>
      have ⟨k, e, hk, hnone, hsome⟩ := h
      rw [copied_of_some hwrapped hk hnone hsome, if_pos hk, hsome] at hthrown
      contradiction
  . intro hnone
    rw [copied_of_none hwrapped hnone, if_neg (Nat.lt_irrefl n)]

@[simp]
theorem copied_unfailing : (unfailing : CopyFailures E).copied n = n := by
  apply copied_of_none rfl
  intro _ _
  rfl

@[simp]
theorem thrown?_unfailing : (unfailing : CopyFailures E).thrown? n = none := by
  rw [thrown?_eq_none_iff]
  refine ⟨rfl, ?_⟩
  intro _ _
  rfl

end CopyFailures

-- The user's state after a call of a handler, an empty `std::function` runs no user code.
def UserCode.afterCall (code : UserCode T U E) (user : U)
    : GroupFeedbackHandler T × GroupFeedback → U
  | (none, _) => user
  | (some target, fbk) => (code.call target fbk user).2.2

namespace Group

theorem callHandler_ends (code : UserCode T U E) (handler : GroupFeedbackHandler T)
    (fbk : GroupFeedback) (p : Program R T U)
    : (callHandler code handler fbk).Ends p (fun _ p' =>
        p' =
          {
            p with
            invocations := p.invocations ++ [(handler, fbk)]
            user := code.afterCall p.user (handler, fbk)
          }) := by
  unfold callHandler
  cases handler with
  | none => exact ⟨_, _, bind_of_returned (x := modify _) rfl, rfl⟩
  | some target => exact ⟨_, _, bind_of_returned (x := modify _) rfl, rfl⟩

theorem copyHandler_returns {i : Nat} {p : Program R T U} (h : i < p.group.handlers_.length)
    : (copyHandler i : Prog (Exception E) _ _) p = some (.ok p.group.handlers_[i], p) := by
  unfold copyHandler
  rw [bind_of_returned (x := read _) rfl]
  simp only [h, getElem?_pos]
  rfl

structure Dispatched (code : UserCode T U E) (p : Program R T U) (fbk : GroupFeedback) (k : Nat)
    (p' : Program R T U) : Prop where
  group : p'.group = p.group
  lock : p'.handler_lock_ = p.handler_lock_
  released : p'.released = p.released
  invocations : p'.invocations = p.invocations ++ (p.group.handlers_.take k).map (·, fbk)
  user : p'.user = ((p.group.handlers_.take k).map (·, fbk)).foldl code.afterCall p.user

theorem Dispatched.start (code : UserCode T U E) (p : Program R T U) (fbk : GroupFeedback)
    : Dispatched code p fbk 0 p := by
  constructor
  . rfl
  . rfl
  . rfl
  . simp
  . rfl

theorem Dispatched.next {code : UserCode T U E} {p p' : Program R T U} {fbk : GroupFeedback}
    {k : Nat} (h : Dispatched code p fbk k p') (hk : k < p.group.handlers_.length)
    : (copyHandler k >>= fun handler => catchAll (callHandler code handler fbk)).Returns p'
        (fun _ p'' => Dispatched code p fbk (k + 1) p'') := by
  have hk' : k < p'.group.handlers_.length := by
    rw [h.group]
    assumption
  have hhandler : p'.group.handlers_[k] = p.group.handlers_[k] := by
    simp only [h.group]
  unfold Returns
  rw [bind_of_returned (copyHandler_returns hk'), hhandler]
  apply Returns.mono (Ends.catchAll (callHandler_ends code p.group.handlers_[k] fbk p'))
  intro _ p'' hp''
  rw [hp'']
  have htake : (p.group.handlers_.take (k + 1)).map (·, fbk)
      = (p.group.handlers_.take k).map (·, fbk) ++ [(p.group.handlers_[k], fbk)] := by
    rw [List.take_succ_eq_append_getElem hk, List.map_append]
    rfl
  constructor
  . apply h.group
  . apply h.lock
  . apply h.released
  . dsimp only
    rw [h.invocations, htake, List.append_assoc]
  . dsimp only
    rw [h.user, htake, List.foldl_append]
    rfl

end Group

namespace Group.Copying

variable {code : UserCode T U E} {failures : CopyFailures E} {fuel : Nat} {p : Program R T U}
  {fbk : GroupFeedback}

def outcome : Option E → Except (Exception E) Unit
  | none => .ok ()
  | some e => .error (.user e)

variable (failures) in
theorem next_ends {k : Nat} {p' : Program R T U} (h : Dispatched code p fbk k p')
    (hk : k < p.group.handlers_.length)
    : (copyHandler failures k >>= fun handler => catchAll (callHandler code handler fbk)).Ends p'
        (Outcome (fun p'' => Dispatched code p fbk (k + 1) p'' ∧ failures.handler k = none)
          (fun exception p'' => p'' = p' ∧
            ∃ e, exception = .user e ∧ failures.handler k = some e)) := by
  unfold copyHandler attempt
  cases hcopy : failures.handler k with
  | some e => exact ⟨.error (.user e), p', rfl, rfl, e, rfl, rfl⟩
  | none =>
    have ⟨_, p'', hrun, hnext⟩ := h.next hk
    exact ⟨.ok (), p'', hrun, hnext, rfl⟩

theorem handlerLoop_run (code : UserCode T U E) (failures : CopyFailures E) (fbk : GroupFeedback)
    (hwrapped : failures.wrapped_fbk = none) (p : Program R T U)
    (hsize : p.group.handlers_.length < 2 ^ 32) (hfuel : p.group.handlers_.length < fuel)
    : ∃ p', handlerLoop code failures fuel fbk p
            =
          some (outcome (failures.thrown? p.group.handlers_.length), p') ∧
        Dispatched code p fbk (failures.copied p.group.handlers_.length) p' := by
  let n := p.group.handlers_.length
  have htoNat {k : Nat} (hk : k ≤ n) : (BitVec.ofNat 32 k).toNat = k := by
    rw [BitVec.toNat_ofNat, Nat.mod_eq_of_lt]
    omega
  have hends : (handlerLoop code failures fuel fbk).Ends p (Outcome
      (fun p' => Dispatched code p fbk n p' ∧ ∀ i, i < n → failures.handler i = none)
      (fun exception p' => ∃ k e, k < n ∧ Dispatched code p fbk k p' ∧
        (∀ i, i < k → failures.handler i = none) ∧ failures.handler k = some e ∧
        exception = .user e)) := by
    unfold handlerLoop
    refine Ends.forLoop
      (I := fun k p' => Dispatched code p fbk k p' ∧ ∀ i, i < k → failures.handler i = none)
      (k := 0) hsize ?_ ?_ (Nat.zero_le _) hfuel
      ⟨.start code p fbk, fun i hi => absurd hi (Nat.not_lt_zero i)⟩
    . intro k p' hk ⟨h, _⟩
      rw [htoNat hk, h.group]
    . intro k p' hk ⟨h, hnone⟩
      rw [htoNat (Nat.le_of_lt hk)]
      obtain ⟨r, p'', hrun, hr⟩ := next_ends failures h hk
      refine ⟨r, p'', hrun, ?_⟩
      cases r with
      | ok =>
        refine ⟨hr.left, ?_⟩
        intro i hi
        by_cases heq : i = k
        . rw [heq]
          exact hr.right
        . apply hnone i
          omega
      | error exception =>
        obtain ⟨hp'', e, he, hsome⟩ := hr
        rw [hp'']
        exact ⟨k, e, hk, h, hnone, hsome, he⟩
  obtain ⟨r, p', hrun, hr⟩ := hends
  cases r with
  | ok =>
    obtain ⟨h, hnone⟩ := hr
    refine ⟨p', ?_, ?_⟩
    . rw [hrun, CopyFailures.thrown?_eq_none_iff.mpr ⟨hwrapped, hnone⟩]
      rfl
    . rw [CopyFailures.copied_of_none hwrapped hnone]
      exact h
  | error exception =>
    obtain ⟨k, e, hk, h, hnone, hsome, he⟩ := hr
    have hcopied : failures.copied n = k := CopyFailures.copied_of_some hwrapped hk hnone hsome
    refine ⟨p', ?_, ?_⟩
    . rw [hrun, he, CopyFailures.thrown?, hwrapped, hcopied, if_pos hk, hsome]
      rfl
    . rw [hcopied]
      exact h

theorem callAttachedHandlers_run (feedbackLib : FeedbackLib) (code : UserCode T U E)
    (failures : CopyFailures E) (group_feedback : FourierGroupFeedbackPtr) (p : Program R T U)
    (hlock : p.handler_lock_ = false) (hsize : p.group.handlers_.length < 2 ^ 32)
    (hfuel : p.group.handlers_.length < fuel)
    : ∃ p', callAttachedHandlers feedbackLib code failures fuel group_feedback p
            =
          some (outcome (failures.thrown? p.group.handlers_.length), p') ∧
        Dispatched code p (.ofHandle feedbackLib group_feedback)
          (failures.copied p.group.handlers_.length) p' := by
  cases hwrapped : failures.wrapped_fbk with
  | some e =>
    refine ⟨p, ?_, ?_⟩
    . rw [CopyFailures.thrown?, hwrapped]
      unfold callAttachedHandlers withLocal
      rw [hwrapped]
      exact bind_of_thrown rfl
    . rw [CopyFailures.copied, hwrapped]
      apply Dispatched.start
  | none =>
    obtain ⟨p', hrun, h⟩ := handlerLoop_run code failures (.ofHandle feedbackLib group_feedback)
      hwrapped (p.setLock true) hsize hfuel
    have hctor : (do
        attempt failures.wrapped_fbk
        pure (GroupFeedback.ofHandle feedbackLib group_feedback) : Prog (Exception E) _ _) p
          =
        some (.ok (.ofHandle feedbackLib group_feedback), p) := by
      rw [hwrapped]
      rfl
    refine ⟨_, withLocal_run hctor (lockGuard_run hlock hrun) rfl, ?_⟩
    constructor
    . apply h.group
    . exact hlock.symm
    . have hreleased : (p'.setLock false).released = p.released := h.released
      simp [hreleased]
    . apply h.invocations
    . apply h.user

theorem callbackWrapper_run (feedbackLib : FeedbackLib) (code : UserCode T U E)
    (failures : CopyFailures E) (fuel : Nat) (group_feedback : FourierGroupFeedbackPtr)
    (p : Program R T U)
    : callbackWrapper feedbackLib code failures fuel group_feedback p.group.self p
        =
      callAttachedHandlers feedbackLib code failures fuel group_feedback p := by
  unfold callbackWrapper
  rw [bind_of_returned (x := read _) rfl]
  simp only [↓reduceIte]

end Group.Copying
end Fourier
