import FourierSDK.Group.Dispatch
import FourierSDK.Group.Registry

/-!
This module contains what becomes of the state that a handler carries by value over a sequence of
feedbacks. A dispatch calls a copy of the stored handler, hence each call of a handler starts from
the state in which the handler was added.
-/

namespace Fourier

open Cpp Cpp.Prog

variable {R T U E : Type}

structure HandlerTransition (T E : Type) where
  target : T
  fbk : GroupFeedback
  after : T
  outcome : Except E Unit
  deriving DecidableEq

-- The callables are state machines, and the user's state is the list of what they did.
def UserCode.recording (step : T → GroupFeedback → T × Except E Unit)
    : UserCode T (List (HandlerTransition T E)) E where
  call target fbk user :=
    let (after, outcome) := step target fbk
    (outcome, after, user ++ [⟨target, fbk, after, outcome⟩])

namespace GroupFeedbackHandler

variable (step : T → GroupFeedback → T × Except E Unit)

-- An empty `std::function` throws before it gets to any callable.
def transition (handler : GroupFeedbackHandler T) (fbk : GroupFeedback)
    : Option (HandlerTransition T E) :=
  handler.map fun target => ⟨target, fbk, (step target fbk).1, (step target fbk).2⟩

def transitions (handlers : List (GroupFeedbackHandler T)) (fbk : GroupFeedback)
    : List (HandlerTransition T E) :=
  handlers.filterMap (transition step · fbk)

def afterCall (handler : GroupFeedbackHandler T) (fbk : GroupFeedback) : GroupFeedbackHandler T :=
  handler.map fun target => (step target fbk).1

def calledInPlace (handlers : List (GroupFeedbackHandler T))
    : List GroupFeedback → List (HandlerTransition T E)
  | [] => []
  | fbk :: fbks =>
    transitions step handlers fbk ++ calledInPlace (handlers.map (afterCall step · fbk)) fbks

def calledAsAdded (handlers : List (GroupFeedbackHandler T)) (fbks : List GroupFeedback)
    : List (HandlerTransition T E) :=
  fbks.flatMap (transitions step handlers)

variable {step}

theorem foldl_recording (calls : List (GroupFeedbackHandler T × GroupFeedback))
    (user : List (HandlerTransition T E))
    : calls.foldl (UserCode.recording step).afterCall user
        =
      user ++ calls.filterMap fun call => transition step call.1 call.2 := by
  induction calls generalizing user with
  | nil => simp
  | cons call calls ih =>
    have ⟨handler, fbk⟩ := call
    rw [List.foldl_cons, ih]
    cases handler with
    | none => rfl
    | some target => simp [UserCode.afterCall, UserCode.recording, transition]

theorem map_afterCall_eq_self_iff (handlers : List (GroupFeedbackHandler T)) (fbk : GroupFeedback)
    : handlers.map (afterCall step · fbk) = handlers
        ↔
      ∀ handler ∈ handlers, afterCall step handler fbk = handler := by
  induction handlers with
  | nil => simp
  | cons handler handlers ih => simp [ih]

-- The transitions show the state that each handler has got from an earlier feedback.
theorem map_afterCall_eq_self_of_transitions_eq {handlers : List (GroupFeedbackHandler T)}
    {fbk fbk' : GroupFeedback} {rest rest' : List (HandlerTransition T E)}
    (h : transitions step handlers fbk' ++ rest
      = transitions step (handlers.map (afterCall step · fbk)) fbk' ++ rest')
    : handlers.map (afterCall step · fbk) = handlers := by
  induction handlers with
  | nil => rfl
  | cons handler handlers ih =>
    cases handler with
    | none => exact congrArg (none :: ·) (ih h)
    | some target =>
      have ⟨hfirst, hrest⟩ := List.cons.inj h
      rw [List.map_cons, ih hrest]
      have htarget := congrArg HandlerTransition.target hfirst
      exact congrArg (some · :: handlers) htarget.symm

theorem calledAsAdded_eq_calledInPlace_iff (handlers : List (GroupFeedbackHandler T))
    (fbks : List GroupFeedback)
    : calledAsAdded step handlers fbks = calledInPlace step handlers fbks
        ↔
      ∀ handler ∈ handlers, ∀ fbk ∈ fbks.dropLast, afterCall step handler fbk = handler := by
  induction fbks with
  | nil => simp [calledAsAdded, calledInPlace]
  | cons fbk fbks ih =>
    cases fbks with
    | nil => simp [calledAsAdded, calledInPlace]
    | cons fbk' fbks =>
      have hcons : calledAsAdded step handlers (fbk :: fbk' :: fbks)
            = calledInPlace step handlers (fbk :: fbk' :: fbks)
          ↔ calledAsAdded step handlers (fbk' :: fbks)
            = calledInPlace step (handlers.map (afterCall step · fbk)) (fbk' :: fbks) := by
        rw [calledAsAdded, List.flatMap_cons, calledInPlace, List.append_cancel_left_eq]
        rfl
      rw [hcons]
      constructor
      . intro h
        have hself : handlers.map (afterCall step · fbk) = handlers :=
          map_afterCall_eq_self_of_transitions_eq h
        rw [hself, ih] at h
        rw [map_afterCall_eq_self_iff] at hself
        intro handler hmem fbk'' hfbk
        simp only [List.dropLast_cons_cons, List.mem_cons] at hfbk
        cases hfbk with
        | inl heq =>
          rw [heq]
          apply hself handler hmem
        | inr htail => apply h handler hmem fbk'' htail
      . intro h
        have hself : handlers.map (afterCall step · fbk) = handlers := by
          rw [map_afterCall_eq_self_iff]
          intro handler hmem
          apply h handler hmem
          simp
        rw [hself, ih]
        intro handler hmem fbk'' hfbk
        apply h handler hmem
        simp [hfbk]

end GroupFeedbackHandler

namespace Group

def deliverAll (lib : FeedbackLib) (code : UserCode T U E) (fuel : Nat) (user_data : Addr)
    (feedbacks : List FourierGroupFeedbackPtr) : Prog (Exception E) (Program R T U) Unit :=
  forM feedbacks fun group_feedback => callbackWrapper lib code fuel group_feedback user_data

theorem deliverAll_returns (lib : FeedbackLib) (code : UserCode T U E) (fuel : Nat)
    (feedbacks : List FourierGroupFeedbackPtr) (p : Program R T U)
    (hlock : p.handler_lock_ = false) (hsize : p.group.handlers_.length < 2 ^ 32)
    (hfuel : p.group.handlers_.length < fuel)
    : (deliverAll lib code fuel p.group.self feedbacks).Returns p (fun _ p' =>
        p'.group = p.group ∧
        p'.user
          =
        (feedbacks.flatMap fun group_feedback =>
          p.group.handlers_.map (·, GroupFeedback.ofHandle lib group_feedback)).foldl
            code.afterCall p.user) := by
  unfold deliverAll
  induction feedbacks generalizing p with
  | nil => exact ⟨(), p, rfl, rfl, rfl⟩
  | cons fb feedbacks ih =>
    rw [List.forM_cons]
    have ⟨_, p₁, hrun, h⟩ := callAttachedHandlers_returns lib code fuel fb p hlock hsize hfuel
    rw [← callbackWrapper_run] at hrun
    unfold Returns
    rw [bind_of_returned hrun]
    have hgroup := h.group
    rw [← h.lock] at hlock
    rw [← hgroup] at hsize hfuel ⊢
    apply Returns.mono (ih p₁ hlock hsize hfuel)
    intro _ p' ⟨hgroup', huser⟩
    refine ⟨hgroup', ?_⟩
    rw [huser, h.user, ← hgroup, List.take_length, List.flatMap_cons, List.foldl_append]

theorem deliverAll_recording_returns (lib : FeedbackLib)
    (step : T → GroupFeedback → T × Except E Unit) (fuel : Nat)
    (feedbacks : List FourierGroupFeedbackPtr) (p : Program R T (List (HandlerTransition T E)))
    (hlock : p.handler_lock_ = false) (hsize : p.group.handlers_.length < 2 ^ 32)
    (hfuel : p.group.handlers_.length < fuel)
    : (deliverAll lib (.recording step) fuel p.group.self feedbacks).Returns p (fun _ p' =>
        p'.group = p.group ∧
        p'.user
          =
        p.user
          ++ GroupFeedbackHandler.calledAsAdded step p.group.handlers_
              (feedbacks.map (.ofHandle lib))) := by
  apply (deliverAll_returns lib (.recording step) fuel feedbacks p hlock hsize hfuel).mono
  intro _ p' ⟨hgroup, huser⟩
  refine ⟨hgroup, ?_⟩
  rw [huser, GroupFeedbackHandler.foldl_recording, List.filterMap_flatMap]
  simp only [List.filterMap_map]
  unfold GroupFeedbackHandler.calledAsAdded
  rw [List.flatMap_map]
  rfl

theorem deliverAll_eq_none (lib : FeedbackLib) (code : UserCode T U E) (fuel : Nat)
    (feedbacks : List FourierGroupFeedbackPtr) (p : Program R T U)
    (hlock : p.handler_lock_ = false) (hsize : 2 ^ 32 ≤ p.group.handlers_.length)
    (hne : feedbacks ≠ []) : deliverAll lib code fuel p.group.self feedbacks p = none := by
  unfold deliverAll
  cases feedbacks with
  | nil => contradiction
  | cons fb feedbacks =>
    rw [List.forM_cons]
    have hrun := callAttachedHandlers_eq_none lib code fuel fb p hlock hsize
    rw [← callbackWrapper_run] at hrun
    apply bind_eq_none hrun

def addAll (adds : List (GroupFeedbackHandler T × FourierStatusCode)) : List (HandlerCall T) :=
  adds.map fun (handler, status) => .add handler status

theorem handlers_foldl_addAll (lib : HandlerLib R) (g : Group R T)
    (adds : List (GroupFeedbackHandler T × FourierStatusCode))
    : ((addAll adds).foldl (HandlerCall.effect lib) g).handlers_
        =
      g.handlers_ ++ adds.map Prod.fst := by
  unfold addAll
  induction adds generalizing g with
  | nil => simp
  | cons a adds ih =>
    rw [List.map_cons, List.foldl_cons, ih]
    simp [HandlerCall.effect, added]

theorem foldl_effect_self (lib : HandlerLib R) (g : Group R T) (calls : List (HandlerCall T))
    : (calls.foldl (HandlerCall.effect lib) g).self = g.self := by
  induction calls generalizing g with
  | nil => rfl
  | cons call calls ih =>
    rw [List.foldl_cons, ih]
    cases call with
    | add => rfl
    | clear => rfl

/--
Add the handlers to a new group and deliver the feedbacks: each call starts from the handler as it
was added. What the calls do is what calls of the stored function objects themselves would do,
exactly when no call but those for the last feedback changes the handler it is applied to.
-/
theorem each_call_starts_as_added (handlerLib : HandlerLib R) (lib : FeedbackLib)
    (step : T → GroupFeedback → T × Except E Unit) (p : Program R T (List (HandlerTransition T E)))
    (hlock : p.handler_lock_ = false) (self : Addr) (internal_ : R)
    (hnew : p.group = new self internal_)
    (adds : List (GroupFeedbackHandler T × FourierStatusCode))
    (feedbacks : List FourierGroupFeedbackPtr) (fuel : Nat)
    : let handlers := adds.map Prod.fst
      let fbks := feedbacks.map (GroupFeedback.ofHandle lib)
      let run : Prog (Exception E) (Program R T (List (HandlerTransition T E))) Unit := do
        HandlerCall.runAll handlerLib (addAll adds)
        deliverAll lib (.recording step) fuel self feedbacks
      (adds.length < 2 ^ 32 → adds.length < fuel → ∃ p',
        run p = some (.ok (), p') ∧
        p'.group.handlers_ = handlers ∧
        p'.user = p.user ++ GroupFeedbackHandler.calledAsAdded step handlers fbks ∧
        (p'.user = p.user ++ GroupFeedbackHandler.calledInPlace step handlers fbks
          ↔
        ∀ handler ∈ handlers, ∀ fbk ∈ fbks.dropLast,
          GroupFeedbackHandler.afterCall step handler fbk = handler)) ∧
      (2 ^ 32 ≤ adds.length → feedbacks ≠ [] → run p = none) := by
  intro handlers fbks run
  have hadd := HandlerCall.runAll_eq_foldl (E := E) handlerLib p (addAll adds) hlock
  generalize hg : (addAll adds).foldl (HandlerCall.effect handlerLib) p.group = g at hadd
  have hhandlers : g.handlers_ = handlers := by
    rw [← hg, handlers_foldl_addAll, hnew]
    rfl
  have hself : g.self = self := by
    rw [← hg, foldl_effect_self, hnew]
    rfl
  have hlength : g.handlers_.length = adds.length := by
    rw [hhandlers]
    apply List.length_map
  have hrun : run p
      = deliverAll lib (.recording step) fuel g.self feedbacks { p with group := g } := by
    rw [hself]
    apply bind_of_returned hadd
  rw [hrun]
  constructor
  . intro hsize hfuel
    have ⟨_, p', hdeliver, hgroup, huser⟩ := deliverAll_recording_returns lib step fuel feedbacks
      { p with group := g } hlock (by rw [hlength]; assumption) (by rw [hlength]; assumption)
    have hcalls : p'.user = p.user ++ GroupFeedbackHandler.calledAsAdded step handlers fbks := by
      rw [huser, hhandlers]
    refine ⟨p', hdeliver, ?_, hcalls, ?_⟩
    . rw [hgroup]
      apply hhandlers
    . rw [hcalls, List.append_cancel_left_eq]
      apply GroupFeedbackHandler.calledAsAdded_eq_calledInPlace_iff
  . intro hsize hne
    apply deliverAll_eq_none lib (.recording step) fuel feedbacks { p with group := g } hlock
    . rw [hlength]
      assumption
    . assumption

-- A counter that is copied for each dispatch never counts past its first feedback.
def countCalls (n : Nat) (_ : GroupFeedback) : Nat × Except Empty Unit := (n + 1, .ok ())

theorem each_call_starts_as_added_counter
    : let p : Program _ Nat (List (HandlerTransition Nat Empty)) := ⟨new 1 [], false, [], [], []⟩
      ∃ p',
        (do
          HandlerCall.runAll .ofList (addAll [(some 0, .FourierStatusSuccess)])
          deliverAll .twoModules (.recording countCalls) 2 1 [1024, 2048]) p
            = some (.ok (), p') ∧
        p'.user
          =
        [
          ⟨0, .ofHandle .twoModules 1024, 1, .ok ()⟩, ⟨0, .ofHandle .twoModules 2048, 1, .ok ()⟩
        ] := by
  intro p
  have ⟨p', hrun, _, h, _⟩ := (each_call_starts_as_added .ofList .twoModules countCalls p rfl 1 []
    rfl [(some 0, .FourierStatusSuccess)] [1024, 2048] 2).left (by decide) (by decide)
  exact ⟨p', hrun, h⟩

theorem counter_not_calledInPlace
    : ¬(do
          HandlerCall.runAll .ofList (addAll [(some 0, .FourierStatusSuccess)])
          deliverAll .twoModules (.recording countCalls) 2 1 [1024, 2048]
        : Prog (Exception Empty) (Program _ Nat (List (HandlerTransition Nat Empty))) Unit).Returns
          ⟨new 1 [], false, [], [], []⟩ (fun _ p' =>
            p'.user
              =
            GroupFeedbackHandler.calledInPlace countCalls [some 0]
              [.ofHandle .twoModules 1024, .ofHandle .twoModules 2048]) := by
  intro ⟨_, p', hrun, h⟩
  injection hrun with hrun
  injection hrun with _ hp
  subst hp
  revert h
  decide

end Group
end Fourier
