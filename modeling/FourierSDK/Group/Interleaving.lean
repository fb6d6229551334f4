import FourierSDK.Group.Linearizable
import FourierSDK.Monitor.Invariant

/-!
This module contains what holds of a group at any moment, while any number of threads use it: its
callback is never registered twice, its state is the one that the same calls lead to when they are
made one after the other, and the handlers of two dispatches are never called at the same time.
Handlers may do anything here, so that some of the threads may block each other.
-/

namespace Fourier

open Transition Monitor

variable {R T Code Tid : Type} [DecidableEq Tid]

namespace Group

variable {lib : HandlerLib R} {feedbackLib : FeedbackLib} {user : HandlerProgram T Code}

def registrations (lib : HandlerLib R) (g : Group R T) : Nat :=
  (lib.registered g.internal_).count g.registration

def RegisteredOnce (lib : HandlerLib R) (g : Group R T) : Prop :=
  registrations lib g ≤ 1 ∧ (g.handlers_ = [] → registrations lib g = 0)

def RegisteredOnceAt (lib : HandlerLib R) (pc : Pc T Code) (g : Group R T) : Prop :=
  match pc with
  | .testFirst =>
    g.handlers_ ≠ [] ∧ registrations lib g ≤ 1 ∧
      (g.handlers_.length = 1 → registrations lib g = 0)
  | .registerCallback => g.handlers_ ≠ [] ∧ registrations lib g = 0
  | .clearHandlers => registrations lib g = 0
  | _ => RegisteredOnce lib g

theorem RegisteredOnceAt.le_one {pc : Pc T Code} {g : Group R T} (h : RegisteredOnceAt lib pc g)
    : registrations lib g ≤ 1 := by
  cases pc with
  | testFirst => exact h.right.left
  | registerCallback => exact Nat.le_of_eq h.right |>.trans (Nat.zero_le 1)
  | clearHandlers => exact Nat.le_of_eq h |>.trans (Nat.zero_le 1)
  | _ => exact h.left

section

variable [LawfulHandlerLib lib]

theorem RegisteredOnceAt.body {pc pc' : Pc T Code} {g g' : Group R T} {label : Label T}
    (h : RegisteredOnceAt lib pc g) (hbody : Body lib user pc g label pc' g')
    : RegisteredOnceAt lib pc' g' := by
  cases hbody with
  | @pushBack handler =>
    obtain ⟨hone, hempty⟩ := h
    refine ⟨by simp, hone, ?_⟩
    intro hlength
    apply hempty
    simpa using hlength
  | first hsize => exact ⟨h.left, h.right.right hsize⟩
  | notFirst hsize => exact ⟨h.right.left, fun hempty => absurd hempty h.left⟩
  | registerCallback status =>
    obtain ⟨hne, hzero⟩ := h
    refine ⟨?_, fun hempty => absurd hempty hne⟩
    have hcount := lib.count_register g.internal_ g.registration status
    unfold registrations at hzero
    rw [hzero] at hcount
    refine (Nat.le_of_eq hcount).trans ?_
    split <;> omega
  | clearRegistrations =>
    unfold RegisteredOnceAt registrations
    apply lib.count_clear
  | clearHandlers => exact ⟨Nat.le_of_eq h |>.trans (Nat.zero_le 1), fun _ => h⟩
  | _ => exact h

theorem registeredOnce_invariant
    : (object lib feedbackLib user).Invariant (RegisteredOnce lib) (RegisteredOnceAt lib) := by
  constructor
  . intro op g h
    cases op <;> exact h
  . intro pc g label pc' g' h hbody
    apply RegisteredOnceAt.body h hbody
  . intro pc g op pc' h hcalls
    cases hcalls <;> exact h
  . intro pc g h hfinal
    have hpc : pc = .unlock := hfinal
    rw [hpc] at h
    exact h

end

variable {s : State Tid (Operation T) (Pc T Code) (Group R T)}
variable {tr : List (Event Tid (Operation T) (Label T))}

theorem registered_at_most_once [LawfulHandlerLib lib] (self : Addr) (internal_ : R)
    (hfresh : ⟨.callbackWrapper, self⟩ ∉ lib.registered internal_)
    (hrun : Run (Step (object lib feedbackLib user)) (.start (new self internal_)) tr s)
    : registrations lib s.shared ≤ 1 ∧
      (s.holder = none → s.shared.handlers_ = [] → registrations lib s.shared = 0) := by
  have hstart : RegisteredOnce lib (new self internal_ : Group R T) := by
    have hzero : registrations lib (new self internal_ : Group R T) = 0 := by
      apply List.count_eq_zero.mpr hfresh
    exact ⟨Nat.le_of_eq hzero |>.trans (Nat.zero_le 1), fun _ => hzero⟩
  have hkept := kept_of_run registeredOnce_invariant hstart hrun
  constructor
  . apply hkept.imp (P := fun g => registrations lib g ≤ 1)
    . intro _ h
      exact h.left
    . intro _ _ h
      apply h.le_one
  . intro hholder
    exact (hkept.of_free hholder).right

theorem registered_at_most_once_lateDispatch
    : ∃ s, Run (Step (object .ofList .twoModules returningHandlers)) (.start (new 1 []))
        lateDispatch s ∧
        registrations .ofList s.shared ≤ 1 := by
  have ⟨s, hrun, _⟩ := run_lateDispatch
  exact ⟨s, hrun, (registered_at_most_once 1 [] (by decide) hrun).left⟩

end Group

/-! ### The calls one after the other -/

def HandlerCall.operation : HandlerCall T → Operation T
  | .add handler _ => .addFeedbackHandler handler
  | .clear => .clearFeedbackHandlers

def Operation.isDispatch : Operation T → Bool
  | .callAttachedHandlers _ => true
  | _ => false

namespace Group

variable {lib : HandlerLib R} {feedbackLib : FeedbackLib} {user : HandlerProgram T Code}
variable {s : State Tid (Operation T) (Pc T Code) (Group R T)}
variable {tr : List (Event Tid (Operation T) (Label T))}

theorem effect_of_section {g g' : Group R T} {op : Operation T}
    (h : (object lib feedbackLib user).Section g op g')
    : ∃ calls : List (HandlerCall T),
        calls.map HandlerCall.operation = [op].filter (!·.isDispatch) ∧
        g' = calls.foldl (HandlerCall.effect lib) g := by
  cases op with
  | addFeedbackHandler handler =>
    have ⟨status, hg⟩ := section_add h
    exact ⟨[.add handler status], rfl, hg⟩
  | clearFeedbackHandlers => exact ⟨[.clear], rfl, section_clear h⟩
  | callAttachedHandlers group_feedback => exact ⟨[], rfl, section_dispatch h⟩

theorem effect_of_sections {g g' : Group R T} {ops : List (Operation T)}
    (h : Run (object lib feedbackLib user).Section g ops g')
    : ∃ calls : List (HandlerCall T),
        calls.map HandlerCall.operation = ops.filter (!·.isDispatch) ∧
        g' = calls.foldl (HandlerCall.effect lib) g := by
  apply h.invariant (P := fun ops g' => ∃ calls : List (HandlerCall T),
    calls.map HandlerCall.operation = ops.filter (!·.isDispatch) ∧
    g' = calls.foldl (HandlerCall.effect lib) g)
  . exact ⟨[], rfl, rfl⟩
  . intro ops g₁ op g₂ _ ⟨calls, hcalls, hg₁⟩ hsection
    have ⟨calls', hcalls', hg₂⟩ := effect_of_section hsection
    refine ⟨calls ++ calls', ?_, ?_⟩
    . rw [List.map_append, hcalls, hcalls', List.filter_append]
    . rw [List.foldl_append, ← hg₁, hg₂]

/--
While nobody holds the lock, the group and its C group are as if the calls that have been performed
had been made one after the other, with some status of each registration attempt.
-/
theorem refines_sequential_calls (self : Addr) (internal_ : R)
    (hrun : Run (Step (object lib feedbackLib user)) (.start (new self internal_)) tr s)
    (hholder : s.holder = none)
    : ∃ calls : List (HandlerCall T),
        calls.map HandlerCall.operation = (performed tr).filter (!·.isDispatch) ∧
        s.shared = calls.foldl (HandlerCall.effect lib) (new self internal_) := by
  have ⟨base, hops, hprogress⟩ := inProgress_of_run hrun
  rw [hprogress.shared_of_free hholder]
  apply effect_of_sections hops

theorem refines_sequential_calls_lateDispatch
    : ∃ s, ∃ calls : List (HandlerCall Nat),
        Run (Step (object .ofList .twoModules returningHandlers)) (.start (new 1 []))
          lateDispatch.dropLast s ∧
        calls.map HandlerCall.operation
          =
        [
          .addFeedbackHandler (some 7), .clearFeedbackHandlers, .addFeedbackHandler (some 5),
          .addFeedbackHandler (some 8), .addFeedbackHandler (some 5)
        ] ∧
        s.shared = calls.foldl (HandlerCall.effect .ofList) (new 1 []) := by
  have ⟨_, hrun, _⟩ := run_lateDispatch
  have hlate : lateDispatch
      = lateDispatch.dropLast ++ [.ret true (.callAttachedHandlers 1024)] := rfl
  have hlate' : lateDispatch.dropLast
      = lateDispatch.dropLast.dropLast ++ [.release true (.callAttachedHandlers 1024)] := rfl
  rw [hlate] at hrun
  have ⟨s₂, hrun₂, _⟩ := Run.snoc_iff.mp hrun
  rw [hlate'] at hrun₂
  have ⟨s₁, hrun₁, hrelease⟩ := Run.snoc_iff.mp hrun₂
  have ⟨hfree, _⟩ := (hrelease.flat (exclusive_of_run (.start _) hrun₁)).leaving_of_release rfl
  have ⟨calls, hcalls, hshared⟩ := refines_sequential_calls 1 [] hrun₂ hfree
  exact ⟨s₂, calls, hrun₂, hcalls, hshared⟩

/-! ### The calls of handlers -/

theorem handlers_serialized {g : Group R T} {t u : Tid} {handler handler' : GroupFeedbackHandler T}
    {fbk fbk' : GroupFeedback} {pre mid post : List (Event Tid (Operation T) (Label T))}
    (hrun : Run (Step (object lib feedbackLib user)) (.start g)
      (pre ++ .body t (.invoke handler fbk) :: (mid ++ .body u (.invoke handler' fbk') :: post)) s)
    (hne : t ≠ u)
    : ∃ before op after op', mid = before ++ .release t op :: after ∧ .acquire u op' ∈ after := by
  apply released_before_acquired hne hrun

def betweenDispatches : List (Event Bool (Operation Nat) (Label Nat)) :=
  [
    .call false (.callAttachedHandlers 2048), .body true .silent, .body true .silent,
    .release true (.callAttachedHandlers 1024), .acquire false (.callAttachedHandlers 2048),
    .body false .silent, .body false .silent
  ]

theorem handlers_serialized_twoDispatches
    : ∃ s, Run (Step (object .ofList .twoModules returningHandlers)) (.start ⟨1, [], [some 7]⟩)
        ([
          .call true (.callAttachedHandlers 1024), .acquire true (.callAttachedHandlers 1024),
          .body true .silent, .body true .silent
        ] ++ .body true (.invoke (some 7) (.ofHandle .twoModules 1024)) ::
          (betweenDispatches
            ++ .body false (.invoke (some 7) (.ofHandle .twoModules 2048)) :: [])) s ∧
        ∃ before op after op',
          betweenDispatches = before ++ .release true op :: after ∧ .acquire false op' ∈ after := by
  have hrun : ∃ s, Run (Step (object .ofList .twoModules returningHandlers))
      (.start ⟨1, [], [some 7]⟩)
      ([
        .call true (.callAttachedHandlers 1024), .acquire true (.callAttachedHandlers 1024),
        .body true .silent, .body true .silent
      ] ++ .body true (.invoke (some 7) (.ofHandle .twoModules 1024)) ::
        (betweenDispatches
          ++ .body false (.invoke (some 7) (.ofHandle .twoModules 2048)) :: [])) s := by
    apply Run.exists_cons (.call rfl)
    apply Run.exists_cons (.acquire rfl rfl)
    apply Run.exists_cons (.body rfl (.more (by decide)))
    apply Run.exists_cons (.body rfl (.copyHandler rfl))
    apply Run.exists_cons (.body rfl .callTarget)
    apply Run.exists_cons (.call rfl)
    apply Run.exists_cons (.body rfl (.returns rfl))
    apply Run.exists_cons (.body rfl (.noMore (by decide)))
    apply Run.exists_cons (.release rfl rfl)
    apply Run.exists_cons (.acquire rfl rfl)
    apply Run.exists_cons (.body rfl (.more (by decide)))
    apply Run.exists_cons (.body rfl (.copyHandler rfl))
    apply Run.exists_cons (.body rfl .callTarget)
    apply Run.exists_nil
  have ⟨s, hrun⟩ := hrun
  exact ⟨s, hrun, handlers_serialized hrun (by decide)⟩

end Group
end Fourier
