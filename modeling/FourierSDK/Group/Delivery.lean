import FourierSDK.Group.Dispatch
import FourierSDK.Group.Registry

/-!
This module contains a group together with the C library that delivers feedbacks to it: for each
feedback that arrives, the C library calls the callbacks that are registered. What the users of the
group see is a `Channel` with subscribers, which is disconnected if the C library has refused to
register the callback for the first of them. A channel may lose what follows a failed copy, and
nothing if no copy fails.
-/

namespace Fourier

open Cpp Cpp.Prog

variable {R T U E : Type}

namespace Group

def deliver (lib : HandlerLib R) (feedbackLib : FeedbackLib) (code : UserCode T U E) (fuel : Nat)
    (group_feedback : FourierGroupFeedbackPtr) : Prog (Exception E) (Program R T U) Unit := do
  let registered ← read fun p => lib.registered p.group.internal_
  forM registered fun registration =>
    match registration.handler with
    | .callbackWrapper =>
      callbackWrapper feedbackLib code fuel group_feedback registration.user_data
    | .other _ => pure ()

end Group

namespace Group.Copying

def deliver (lib : HandlerLib R) (feedbackLib : FeedbackLib) (code : UserCode T U E)
    (failures : CopyFailures E) (fuel : Nat) (group_feedback : FourierGroupFeedbackPtr)
    : Prog (Exception E) (Program R T U) Unit := do
  let registered ← read fun p => lib.registered p.group.internal_
  forM registered fun registration =>
    match registration.handler with
    | .callbackWrapper =>
      callbackWrapper feedbackLib code failures fuel group_feedback registration.user_data
    | .other _ => pure ()

theorem addFeedbackHandler_run (lib : HandlerLib R) (p : Program R T U) (failure : Option E)
    (handler : GroupFeedbackHandler T) (status : FourierStatusCode)
    (hlock : p.handler_lock_ = false)
    : addFeedbackHandler lib failure handler status p
        =
      some (outcome failure,
        if failure.isNone then { p with group := p.group.added lib handler status } else p) := by
  cases failure with
  | none => apply Group.addFeedbackHandler_run lib p handler status hlock
  | some e =>
    refine (lockGuard_run hlock (bind_of_thrown rfl)).trans ?_
    simp [outcome, Program.setLock, ← hlock]

end Group.Copying

inductive ChannelOp (T : Type) where
  | call (handlerCall : HandlerCall T)
  | feedback (group_feedback : FourierGroupFeedbackPtr)
  deriving DecidableEq, Repr

def ChannelOp.run (lib : HandlerLib R) (feedbackLib : FeedbackLib) (code : UserCode T U E)
    (fuel : Nat) : ChannelOp T → Prog (Exception E) (Program R T U) Unit
  | .call handlerCall => handlerCall.run lib
  | .feedback group_feedback => Group.deliver lib feedbackLib code fuel group_feedback

inductive CopyingOp (T E : Type) where
  | add (handler : GroupFeedbackHandler T) (status : FourierStatusCode) (failure : Option E)
  | clear
  | feedback (group_feedback : FourierGroupFeedbackPtr) (failures : CopyFailures E)

def CopyingOp.run (lib : HandlerLib R) (feedbackLib : FeedbackLib) (code : UserCode T U E)
    (fuel : Nat) : CopyingOp T E → Prog (Exception E) (Program R T U) Unit
  | .add handler status failure => Group.Copying.addFeedbackHandler lib failure handler status
  | .clear => Group.clearFeedbackHandlers lib
  | .feedback group_feedback failures =>
    Group.Copying.deliver lib feedbackLib code failures fuel group_feedback

def ChannelOp.unfailing : ChannelOp T → CopyingOp T E
  | .call (.add handler status) => .add handler status none
  | .call .clear => .clear
  | .feedback group_feedback => .feedback group_feedback .unfailing

theorem ChannelOp.run_unfailing (lib : HandlerLib R) (feedbackLib : FeedbackLib)
    (code : UserCode T U E) (fuel : Nat) (op : ChannelOp T)
    : op.unfailing.run lib feedbackLib code fuel = op.run lib feedbackLib code fuel := by
  cases op with
  | call handlerCall => cases handlerCall <;> rfl
  | feedback => rfl

/-! ### The channel -/

structure Channel (T : Type) where
  subscribers : List (GroupFeedbackHandler T)
  connected : Bool
  delivered : List (GroupFeedbackHandler T × GroupFeedback)

namespace Channel

def empty : Channel T := ⟨[], false, []⟩

def step (feedbackLib : FeedbackLib) (c : Channel T) : ChannelOp T → Channel T
  | .call (.add handler status) =>
    {
      c with
      subscribers := c.subscribers ++ [handler]
      connected :=
        if c.subscribers.isEmpty then status = .FourierStatusSuccess else c.connected
    }
  | .call .clear => { c with subscribers := [], connected := false }
  | .feedback group_feedback =>
    let received := c.subscribers.map (·, .ofHandle feedbackLib group_feedback)
    { c with delivered := c.delivered ++ if c.connected then received else [] }

def stepCopying (feedbackLib : FeedbackLib) (c : Channel T) : CopyingOp T E → Channel T
  | .add handler status none => c.step feedbackLib (.call (.add handler status))
  | .add _ _ (some _) => c
  | .clear => c.step feedbackLib (.call .clear)
  | .feedback group_feedback failures =>
    let copied := c.subscribers.take (failures.copied c.subscribers.length)
    let received := copied.map (·, .ofHandle feedbackLib group_feedback)
    { c with delivered := c.delivered ++ if c.connected then received else [] }

def thrown? (c : Channel T) : CopyingOp T E → Option E
  | .add _ _ failure => failure
  | .clear => none
  | .feedback _ failures =>
    if c.connected then failures.thrown? c.subscribers.length else none

theorem stepCopying_unfailing (feedbackLib : FeedbackLib) (c : Channel T) (op : ChannelOp T)
    : c.stepCopying feedbackLib (op.unfailing : CopyingOp T E) = c.step feedbackLib op := by
  cases op with
  | call handlerCall => cases handlerCall <;> rfl
  | feedback => simp [ChannelOp.unfailing, stepCopying, step]

theorem thrown?_unfailing (c : Channel T) (op : ChannelOp T)
    : c.thrown? (op.unfailing : CopyingOp T E) = none := by
  cases op with
  | call handlerCall => cases handlerCall <;> rfl
  | feedback => simp [ChannelOp.unfailing, thrown?]

theorem length_subscribers_le (feedbackLib : FeedbackLib) (ops : List (CopyingOp T E))
    : (ops.foldl (stepCopying feedbackLib) .empty).subscribers.length ≤ ops.length := by
  induction ops using List.reverseRecOn with
  | nil => apply Nat.le_refl
  | append_singleton ops op ih =>
    rw [List.foldl_append, List.length_append, List.foldl_cons, List.foldl_nil]
    refine Nat.le_trans ?_ (Nat.add_le_add_right ih 1)
    cases op with
    | add _ _ failure =>
      cases failure with
      | none => simp [stepCopying, step]
      | some e => apply Nat.le_succ
    | clear => apply Nat.zero_le
    | feedback => apply Nat.le_succ

structure Implements (lib : HandlerLib R) (code : UserCode T U E) (user : U) (c : Channel T)
    (p : Program R T U) : Prop where
  lock : p.handler_lock_ = false
  handlers : p.group.handlers_ = c.subscribers
  registered : lib.registered p.group.internal_ = if c.connected then [p.group.registration] else []
  connected : c.subscribers = [] → c.connected = false
  invocations : p.invocations = c.delivered
  user : p.user = c.delivered.foldl code.afterCall user
  released : p.released = []

variable {lib : HandlerLib R} {feedbackLib : FeedbackLib} {code : UserCode T U E} {user : U}
  {c : Channel T} {p : Program R T U}

theorem Implements.start {internal_ : R} (hfresh : lib.registered internal_ = []) {self : Addr}
    (code : UserCode T U E) (user : U)
    : Implements lib code user .empty ⟨Group.new self internal_, false, user, [], []⟩ := by
  constructor
  . rfl
  . rfl
  . apply hfresh
  . intro _
    rfl
  . rfl
  . rfl
  . rfl

theorem Implements.call [LawfulHandlerLib lib] (h : Implements lib code user c p)
    (call : HandlerCall T)
    : (call.run lib : Prog (Exception E) _ _).Returns p (fun _ p' =>
        Implements lib code user (c.step feedbackLib (.call call)) p') := by
  refine ⟨(), _, HandlerCall.run_eq_effect lib p call h.lock, ?_⟩
  cases call with
  | clear =>
    constructor
    . apply h.lock
    . rfl
    . apply LawfulHandlerLib.registered_clear
    . intro _
      rfl
    . apply h.invocations
    . apply h.user
    . apply h.released
  | add handler status =>
    constructor
    . apply h.lock
    . simp [step, HandlerCall.effect, Group.added, h.handlers]
    . by_cases hempty : c.subscribers = []
      . have hregistered := h.registered
        rw [h.connected hempty] at hregistered
        cases status with
        | FourierStatusFailure =>
          simp [step, HandlerCall.effect, Group.added, h.handlers, hempty,
            LawfulHandlerLib.registered_failure, hregistered]
        | FourierStatusSuccess =>
          simp [step, HandlerCall.effect, Group.added, Group.registration, h.handlers, hempty,
            LawfulHandlerLib.registered_success, hregistered]
      . have hregistered := h.registered
        simpa [step, HandlerCall.effect, Group.added, Group.registration, h.handlers, hempty]
          using hregistered
    . simp [step]
    . apply h.invocations
    . apply h.user
    . apply h.released

theorem Implements.dispatched (h : Implements lib code user c p)
    {group_feedback : FourierGroupFeedbackPtr} {k : Nat} {p' : Program R T U}
    (hdispatched : Group.Dispatched code p (.ofHandle feedbackLib group_feedback) k p')
    : Implements lib code user
        {
          c with
          delivered :=
            c.delivered ++ (c.subscribers.take k).map (·, .ofHandle feedbackLib group_feedback)
        }
        p' := by
  have hgroup := hdispatched.group
  constructor
  . rw [hdispatched.lock]
    apply h.lock
  . rw [hgroup]
    apply h.handlers
  . rw [hgroup]
    apply h.registered
  . apply h.connected
  . rw [hdispatched.invocations, h.invocations, h.handlers]
  . rw [hdispatched.user, h.user, h.handlers, List.foldl_append]
  . rw [hdispatched.released]
    apply h.released

theorem Implements.copyingFeedback (h : Implements lib code user c p) {fuel : Nat}
    (hsize : c.subscribers.length < 2 ^ 32) (hfuel : c.subscribers.length < fuel)
    (group_feedback : FourierGroupFeedbackPtr) (failures : CopyFailures E)
    : ∃ p', Group.Copying.deliver lib feedbackLib code failures fuel group_feedback p
            =
          some (Group.Copying.outcome (c.thrown? (.feedback group_feedback failures)), p') ∧
        Implements lib code user (c.stepCopying feedbackLib (.feedback group_feedback failures))
          p' := by
  unfold Group.Copying.deliver
  rw [bind_of_returned (x := read _) rfl, h.registered]
  cases hconnected : c.connected with
  | false =>
    refine ⟨p, ?_, ?_⟩
    . rw [thrown?, hconnected]
      rfl
    . unfold stepCopying
      dsimp only
      rw [if_neg (by simp [hconnected]), List.append_nil]
      exact h
  | true =>
    rw [← h.handlers] at hsize hfuel
    have ⟨p', hrun, hdispatched⟩ := Group.Copying.callAttachedHandlers_run feedbackLib code failures
      group_feedback p h.lock hsize hfuel
    rw [← Group.Copying.callbackWrapper_run] at hrun
    rw [h.handlers] at hrun hdispatched
    refine ⟨p', ?_, ?_⟩
    . simp only [↓reduceIte, List.forM_cons, List.forM_nil]
      rw [bind_pure_unit, thrown?, hconnected, if_pos rfl]
      exact hrun
    . unfold stepCopying
      dsimp only
      rw [if_pos hconnected]
      apply h.dispatched hdispatched

variable (feedbackLib) in
theorem Implements.copyingOp [LawfulHandlerLib lib] (h : Implements lib code user c p)
    {fuel : Nat} (hsize : c.subscribers.length < 2 ^ 32)
    (hfuel : c.subscribers.length < fuel) (op : CopyingOp T E)
    : ∃ p', op.run lib feedbackLib code fuel p
            =
          some (Group.Copying.outcome (c.thrown? op), p') ∧
        Implements lib code user (c.stepCopying feedbackLib op) p' := by
  cases op with
  | add handler status failure =>
    refine ⟨_, Group.Copying.addFeedbackHandler_run lib p failure handler status h.lock, ?_⟩
    cases failure with
    | some e => exact h
    | none =>
      have hcall : (HandlerCall.run lib (.add handler status) : Prog (Exception E) _ _).Returns p
          (fun _ p' =>
            Implements lib code user (c.step feedbackLib (.call (.add handler status))) p') :=
        h.call _
      rwa [returns_iff_of_returned (HandlerCall.run_eq_effect lib p _ h.lock)] at hcall
  | clear =>
    have hcall : (HandlerCall.run lib .clear : Prog (Exception E) _ _).Returns p
        (fun _ p' => Implements lib code user (c.step feedbackLib (.call .clear)) p') :=
      h.call _
    have ⟨_, p', hrun, h'⟩ := hcall
    exact ⟨p', hrun, h'⟩
  | feedback group_feedback failures =>
    apply h.copyingFeedback hsize hfuel

variable (feedbackLib) in
theorem Implements.op [LawfulHandlerLib lib] (h : Implements lib code user c p) {fuel : Nat}
    (hsize : c.subscribers.length < 2 ^ 32) (hfuel : c.subscribers.length < fuel)
    (op : ChannelOp T)
    : (op.run lib feedbackLib code fuel).Returns p (fun _ p' =>
        Implements lib code user (c.step feedbackLib op) p') := by
  have ⟨p', hrun, h'⟩ := h.copyingOp feedbackLib hsize hfuel op.unfailing
  rw [ChannelOp.run_unfailing, thrown?_unfailing] at hrun
  rw [stepCopying_unfailing] at h'
  exact ⟨(), p', hrun, h'⟩

end Channel

namespace Group.Copying

/--
Whatever fails to be copied, the group goes on as a channel: a handler that could not be stored was
never added, and a feedback whose dispatch fails has gone to the first handlers. Every exception is
the one of the first copy that fails.
-/
theorem delivers_until_copy_fails (lib : HandlerLib R) [LawfulHandlerLib lib]
    (feedbackLib : FeedbackLib) (code : UserCode T U E) (fuel : Nat) (self : Addr) (internal_ : R)
    (hfresh : lib.registered internal_ = []) (user : U) (ops : List (CopyingOp T E))
    (hsize : ∀ pre, pre <+: ops →
      let c := pre.foldl (Channel.stepCopying feedbackLib) .empty
      c.subscribers.length < 2 ^ 32 ∧ c.subscribers.length < fuel)
    : ∃ p', (forM ops (fun op => catchAll (op.run lib feedbackLib code fuel))
          : Prog (Exception E) (Program R T U) PUnit) ⟨new self internal_, false, user, [], []⟩
            =
          some (.ok (), p') ∧
        Channel.Implements lib code user (ops.foldl (Channel.stepCopying feedbackLib) .empty) p' ∧
        ∀ op, ∃ p'', op.run lib feedbackLib code fuel p'
          =
        some (outcome ((ops.foldl (Channel.stepCopying feedbackLib) .empty).thrown? op), p'') := by
  have hreturns : (forM ops (fun op => catchAll (op.run lib feedbackLib code fuel))
      : Prog (Exception E) (Program R T U) PUnit).Returns ⟨new self internal_, false, user, [], []⟩
        (fun _ p' =>
          Channel.Implements lib code user (ops.foldl (Channel.stepCopying feedbackLib) .empty)
            p') := by
    apply Returns.forM (Channel.Implements.start hfresh code user)
    intro pre op p hpre h
    have ⟨hlength, hfuel⟩ := hsize pre ((List.prefix_append pre [op]).trans hpre)
    have ⟨p', hrun, h'⟩ := h.copyingOp feedbackLib hlength hfuel op
    apply Ends.catchAll
    exact ⟨_, p', hrun, h'⟩
  have ⟨_, p', hrun, h⟩ := hreturns
  have ⟨hlength, hfuel⟩ := hsize ops (List.prefix_refl ops)
  refine ⟨p', hrun, h, ?_⟩
  intro op
  have ⟨p'', hrun', _⟩ := h.copyingOp feedbackLib hlength hfuel op
  exact ⟨p'', hrun'⟩

theorem delivers_until_copy_fails_twoHandlers
    : let code : UserCode Nat (List Nat) Nat :=
        { call := fun n _ user => (.error n, n, user ++ [n]) }
      let ops : List (CopyingOp Nat Nat) :=
        [
          .add (some 0) .FourierStatusSuccess (some 9), .add (some 1) .FourierStatusSuccess none,
          .add (some 2) .FourierStatusSuccess none,
          .feedback 1024 ⟨none, fun i => if i = 1 then some 9 else none⟩, .feedback 2048 .unfailing
        ]
      ∃ p', (forM ops (fun op => catchAll (op.run .ofList .twoModules code 6))
            : Prog (Exception Nat) (Program _ Nat (List Nat)) PUnit)
            ⟨new 1 [], false, [], [], []⟩
              =
            some (.ok (), p') ∧
          p'.invocations =
            [
              (some 1, .ofHandle .twoModules 1024), (some 1, .ofHandle .twoModules 2048),
              (some 2, .ofHandle .twoModules 2048)
            ] ∧
          p'.user = [1, 1, 2] := by
  intro code ops
  have ⟨p', hrun, h, _⟩ := delivers_until_copy_fails .ofList .twoModules code 6 1 [] rfl [] ops (by
    intro pre hpre
    have hle := Channel.length_subscribers_le .twoModules pre
    have hlength : pre.length ≤ 5 := hpre.length_le
    dsimp only
    omega)
  exact ⟨p', hrun, h.invocations, h.user⟩

end Group.Copying

namespace Group

/--
Whatever the registration attempts return, the handlers are called as those of a channel: each
feedback goes once to each handler that has been added since the last clear, in the order of the
adds, or to none of them if the registration for the first one failed.
-/
theorem delivers_as_channel (lib : HandlerLib R) [LawfulHandlerLib lib] (feedbackLib : FeedbackLib)
    (code : UserCode T U E) (fuel : Nat) (self : Addr) (internal_ : R)
    (hfresh : lib.registered internal_ = []) (user : U) (ops : List (ChannelOp T))
    (hsize : ∀ pre, pre <+: ops →
      let c := pre.foldl (Channel.step feedbackLib) .empty
      c.subscribers.length < 2 ^ 32 ∧ c.subscribers.length < fuel)
    : ∃ p', (forM ops (ChannelOp.run lib feedbackLib code fuel)
          : Prog (Exception E) (Program R T U) PUnit) ⟨new self internal_, false, user, [], []⟩
            =
          some (.ok (), p') ∧
        Channel.Implements lib code user (ops.foldl (Channel.step feedbackLib) .empty) p' := by
  have hreturns : (forM ops (ChannelOp.run lib feedbackLib code fuel)
      : Prog (Exception E) (Program R T U) PUnit).Returns ⟨new self internal_, false, user, [], []⟩
        (fun _ p' =>
          Channel.Implements lib code user (ops.foldl (Channel.step feedbackLib) .empty) p') := by
    apply Returns.forM (Channel.Implements.start hfresh code user)
    intro pre op p hpre h
    have ⟨hlength, hfuel⟩ := hsize pre ((List.prefix_append pre [op]).trans hpre)
    apply h.op feedbackLib hlength hfuel op
  have ⟨_, p', hrun, h⟩ := hreturns
  exact ⟨p', hrun, h⟩

theorem delivers_as_channel_refused
    : let code : UserCode Nat (List Nat) Nat :=
        { call := fun n _ user => (.error n, n, user ++ [n]) }
      let ops : List (ChannelOp Nat) :=
        [
          .call (.add (some 0) .FourierStatusFailure), .call (.add (some 1) .FourierStatusSuccess),
          .feedback 1024, .call .clear, .call (.add (some 2) .FourierStatusSuccess),
          .feedback 2048
        ]
      ∃ p', (forM ops (ChannelOp.run .ofList .twoModules code 4)
            : Prog (Exception Nat) (Program _ Nat (List Nat)) PUnit)
            ⟨new 1 [], false, [], [], []⟩
              =
            some (.ok (), p') ∧
          p'.invocations = [(some 2, .ofHandle .twoModules 2048)] ∧ p'.user = [2] := by
  intro code ops
  have ⟨p', hrun, h⟩ := delivers_as_channel .ofList .twoModules code 4 1 [] rfl [] ops (by
    intro pre hpre
    rw [← List.mem_inits] at hpre
    revert pre
    decide)
  exact ⟨p', hrun, h.invocations, h.user⟩

end Group
end Fourier
