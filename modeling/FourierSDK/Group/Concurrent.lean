import FourierSDK.Group.Registry
import FourierSDK.Monitor.Atomic

/-!
This module contains a group that is used by any number of threads: the threads of the user call
`addFeedbackHandler` and `clearFeedbackHandlers`, the threads of the C library may call
`callAttachedHandlers` through `callbackWrapper` at any time, be the callback still registered or
not. All of them run under `handler_lock_`, as the operations of a lock-protected object.

A `Pc` is the position of a thread in one of the three member functions. A handler is a program of
its own, which goes on in steps and may call `addFeedbackHandler` and `clearFeedbackHandlers` on the
way. Its actions are a relation, so that they may depend on whatever the user's code looks at.
-/

namespace Fourier

open Transition Monitor

inductive Operation (T : Type) where
  | addFeedbackHandler (handler : GroupFeedbackHandler T)
  | clearFeedbackHandlers
  | callAttachedHandlers (group_feedback : FourierGroupFeedbackPtr)
  deriving DecidableEq, Repr

inductive Action (T Code : Type) where
  | goOn (code : Code)
  | returns
  | throws
  | addFeedbackHandler (handler : GroupFeedbackHandler T) (code : Code)
  | clearFeedbackHandlers (code : Code)

structure HandlerProgram (T Code : Type) where
  start : T → GroupFeedback → Code
  act : Code → Action T Code → Prop

inductive Pc (T Code : Type) where
  | pushBack (handler : GroupFeedbackHandler T)
  | testFirst
  | registerCallback
  | clearRegistrations
  | clearHandlers
  | testIndex (wrapped_fbk : GroupFeedback) (i : BitVec 32)
  | copyHandler (wrapped_fbk : GroupFeedback) (i : BitVec 32)
  | callHandler (wrapped_fbk : GroupFeedback) (i : BitVec 32) (handler : GroupFeedbackHandler T)
  | inHandler (wrapped_fbk : GroupFeedback) (i : BitVec 32) (code : Code)
  | unlock

inductive Label (T : Type) where
  | silent
  | invoke (handler : GroupFeedbackHandler T) (fbk : GroupFeedback)
  deriving DecidableEq, Repr

namespace Group

variable {R T Code : Type}

inductive Body (lib : HandlerLib R) (user : HandlerProgram T Code)
    : Pc T Code → Group R T → Label T → Pc T Code → Group R T → Prop where
  | pushBack {g handler}
    : Body lib user (.pushBack handler) g .silent .testFirst
        { g with handlers_ := g.handlers_ ++ [handler] }
  | first {g} (hsize : g.handlers_.length = 1)
    : Body lib user .testFirst g .silent .registerCallback g
  | notFirst {g} (hsize : g.handlers_.length ≠ 1)
    : Body lib user .testFirst g .silent .unlock g
  | registerCallback {g} (status : FourierStatusCode)
    : Body lib user .registerCallback g .silent .unlock
        {
          g with
          internal_ :=
            lib.fourierGroupRegisterFeedbackHandler g.internal_ g.registration status
        }
  | clearRegistrations {g}
    : Body lib user .clearRegistrations g .silent .clearHandlers
        { g with internal_ := lib.fourierGroupClearFeedbackHandlers g.internal_ }
  | clearHandlers {g}
    : Body lib user .clearHandlers g .silent .unlock { g with handlers_ := [] }
  | more {g wrapped_fbk i} (hsize : i.toNat < g.handlers_.length)
    : Body lib user (.testIndex wrapped_fbk i) g .silent (.copyHandler wrapped_fbk i) g
  | noMore {g wrapped_fbk i} (hsize : ¬i.toNat < g.handlers_.length)
    : Body lib user (.testIndex wrapped_fbk i) g .silent .unlock g
  | copyHandler {g wrapped_fbk i handler} (hhandler : g.handlers_[i.toNat]? = some handler)
    : Body lib user (.copyHandler wrapped_fbk i) g .silent (.callHandler wrapped_fbk i handler) g
  -- an empty function throws `std::bad_function_call`, which is caught
  | callEmpty {g wrapped_fbk i}
    : Body lib user (.callHandler wrapped_fbk i none) g (.invoke none wrapped_fbk)
        (.testIndex wrapped_fbk (i + 1)) g
  | callTarget {g wrapped_fbk i target}
    : Body lib user (.callHandler wrapped_fbk i (some target)) g (.invoke (some target) wrapped_fbk)
        (.inHandler wrapped_fbk i (user.start target wrapped_fbk)) g
  | goOn {g wrapped_fbk i code code'} (hact : user.act code (.goOn code'))
    : Body lib user (.inHandler wrapped_fbk i code) g .silent (.inHandler wrapped_fbk i code') g
  | returns {g wrapped_fbk i code} (hact : user.act code .returns)
    : Body lib user (.inHandler wrapped_fbk i code) g .silent (.testIndex wrapped_fbk (i + 1)) g
  | throws {g wrapped_fbk i code} (hact : user.act code .throws)
    : Body lib user (.inHandler wrapped_fbk i code) g .silent (.testIndex wrapped_fbk (i + 1)) g

inductive Calls (user : HandlerProgram T Code) : Pc T Code → Operation T → Pc T Code → Prop where
  | addFeedbackHandler {wrapped_fbk i code handler code'}
    (hact : user.act code (.addFeedbackHandler handler code'))
    : Calls user (.inHandler wrapped_fbk i code) (.addFeedbackHandler handler)
        (.inHandler wrapped_fbk i code')
  | clearFeedbackHandlers {wrapped_fbk i code code'}
    (hact : user.act code (.clearFeedbackHandlers code'))
    : Calls user (.inHandler wrapped_fbk i code) .clearFeedbackHandlers
        (.inHandler wrapped_fbk i code')

-- `wrapped_fbk` is built before the lock is taken, from nothing but the feedback.
def enter (feedbackLib : FeedbackLib) : Operation T → Pc T Code
  | .addFeedbackHandler handler => .pushBack handler
  | .clearFeedbackHandlers => .clearRegistrations
  | .callAttachedHandlers group_feedback => .testIndex (.ofHandle feedbackLib group_feedback) 0

def object (lib : HandlerLib R) (feedbackLib : FeedbackLib) (user : HandlerProgram T Code)
    : Object (Operation T) (Pc T Code) (Group R T) (Label T) where
  enter := enter feedbackLib
  body := Body lib user
  calls := Calls user
  final pc := pc = .unlock

end Group

def Label.invocation? {T : Type} : Label T → Option (GroupFeedbackHandler T × GroupFeedback)
  | .invoke handler fbk => some (handler, fbk)
  | .silent => none

def invocations {T : Type} (labels : List (Label T))
    : List (GroupFeedbackHandler T × GroupFeedback) :=
  labels.filterMap Label.invocation?

@[simp]
theorem invocations_nil {T : Type} : invocations ([] : List (Label T)) = [] := by
  rfl

@[simp]
theorem invocations_append {T : Type} (labels labels' : List (Label T))
    : invocations (labels ++ labels') = invocations labels ++ invocations labels' := by
  apply List.filterMap_append

@[simp]
theorem invocations_silent {T : Type} : invocations [(.silent : Label T)] = [] := by
  rfl

@[simp]
theorem invocations_invoke {T : Type} (handler : GroupFeedbackHandler T) (fbk : GroupFeedback)
    : invocations [.invoke handler fbk] = [(handler, fbk)] := by
  rfl

namespace Group

variable {R T Code : Type} {lib : HandlerLib R} {feedbackLib : FeedbackLib}
variable {user : HandlerProgram T Code} {g g' : Group R T}

/-! ### The operations alone -/

def AddProgress (lib : HandlerLib R) (g : Group R T) (handler : GroupFeedbackHandler T)
    (pc : Pc T Code) (g' : Group R T) : Prop :=
  match pc with
  | .pushBack handler' => handler' = handler ∧ g' = g
  | .testFirst => g' = { g with handlers_ := g.handlers_ ++ [handler] }
  | .registerCallback =>
    g.handlers_ = [] ∧ g' = { g with handlers_ := g.handlers_ ++ [handler] }
  | .unlock => ∃ status, g' = g.added lib handler status
  | _ => False

theorem AddProgress.step {handler : GroupFeedbackHandler T} {pc pc' : Pc T Code} {g₁ g₂ : Group R T}
    {label : Label T} (h : AddProgress lib g handler pc g₁)
    (hstep : Body lib user pc g₁ label pc' g₂) : AddProgress lib g handler pc' g₂ := by
  cases hstep with
  | pushBack =>
    have ⟨hhandler, hg⟩ := h
    subst hhandler hg
    rfl
  | first hsize =>
    unfold AddProgress at h
    subst h
    exact ⟨by simpa using hsize, rfl⟩
  | notFirst hsize =>
    unfold AddProgress at h
    subst h
    have hne : g.handlers_ ≠ [] := by simpa using hsize
    -- no status matters as no registration is attempted
    refine ⟨.FourierStatusFailure, ?_⟩
    simp [added, hne]
  | registerCallback status =>
    obtain ⟨hempty, hg⟩ := h
    subst hg
    refine ⟨status, ?_⟩
    simp [added, registration, hempty]
  | _ => exact h.elim

theorem addProgress_of_solo {handler : GroupFeedbackHandler T} {pc : Pc T Code}
    {labels : List (Label T)}
    (h : (object lib feedbackLib user).Solo
      (enter feedbackLib (.addFeedbackHandler handler), g) labels (pc, g'))
    : AddProgress lib g handler pc g' := by
  apply h.invariant (P := fun _ q => AddProgress lib g handler q.1 q.2)
  . exact ⟨rfl, rfl⟩
  . intro _ _ _ _ _ h hstep
    apply h.step hstep

theorem section_add {handler : GroupFeedbackHandler T}
    (h : (object lib feedbackLib user).Section g (.addFeedbackHandler handler) g')
    : ∃ status, g' = g.added lib handler status := by
  have ⟨labels, pc, hsolo, hfinal⟩ := h
  have hprogress := addProgress_of_solo hsolo
  rw [hfinal] at hprogress
  apply hprogress

def ClearProgress (lib : HandlerLib R) (g : Group R T) (pc : Pc T Code) (g' : Group R T) : Prop :=
  match pc with
  | .clearRegistrations => g' = g
  | .clearHandlers =>
    g' = { g with internal_ := lib.fourierGroupClearFeedbackHandlers g.internal_ }
  | .unlock => g' = g.cleared lib
  | _ => False

theorem ClearProgress.step {pc pc' : Pc T Code} {g₁ g₂ : Group R T} {label : Label T}
    (h : ClearProgress lib g pc g₁) (hstep : Body lib user pc g₁ label pc' g₂)
    : ClearProgress lib g pc' g₂ := by
  cases hstep with
  | clearRegistrations =>
    unfold ClearProgress at h
    subst h
    rfl
  | clearHandlers =>
    unfold ClearProgress at h
    subst h
    rfl
  | _ => exact h.elim

theorem clearProgress_of_solo {pc : Pc T Code} {labels : List (Label T)}
    (h : (object lib feedbackLib user).Solo
      (enter feedbackLib .clearFeedbackHandlers, g) labels (pc, g'))
    : ClearProgress lib g pc g' := by
  apply h.invariant (P := fun _ q => ClearProgress lib g q.1 q.2)
  . exact rfl
  . intro _ _ _ _ _ h hstep
    apply h.step hstep

theorem section_clear (h : (object lib feedbackLib user).Section g .clearFeedbackHandlers g')
    : g' = g.cleared lib := by
  have ⟨labels, pc, hsolo, hfinal⟩ := h
  have hprogress := clearProgress_of_solo hsolo
  rw [hfinal] at hprogress
  apply hprogress

-- The handlers are only invoked in order as long as the counter does not wrap around.
def Invoked (g : Group R T) (fbk : GroupFeedback) (labels : List (Label T)) (k : Nat) : Prop :=
  g.handlers_.length < 2 ^ 32 →
    k ≤ g.handlers_.length ∧ invocations labels = (g.handlers_.take k).map (·, fbk)

def DispatchProgress (g : Group R T) (fbk : GroupFeedback) (labels : List (Label T))
    (pc : Pc T Code) : Prop :=
  match pc with
  | .testIndex fbk' i => fbk' = fbk ∧ Invoked g fbk labels i.toNat
  | .copyHandler fbk' i => fbk' = fbk ∧ Invoked g fbk labels i.toNat
  | .callHandler fbk' i handler =>
    fbk' = fbk ∧ Invoked g fbk labels i.toNat ∧ g.handlers_[i.toNat]? = some handler
  | .inHandler fbk' i _ => fbk' = fbk ∧ Invoked g fbk labels (i + 1).toNat
  | .unlock => g.handlers_.length < 2 ^ 32 ∧ invocations labels = g.handlers_.map (·, fbk)
  | _ => False

theorem Invoked.silent {fbk : GroupFeedback} {labels : List (Label T)} {k : Nat}
    (h : Invoked g fbk labels k) : Invoked g fbk (labels ++ [.silent]) k := by
  simpa [Invoked] using h

theorem toNat_succ {i : BitVec 32} (h : i.toNat + 1 < 2 ^ 32) : (i + 1).toNat = i.toNat + 1 := by
  rw [BitVec.toNat_add]
  apply Nat.mod_eq_of_lt h

theorem Invoked.invoke {fbk : GroupFeedback} {labels : List (Label T)} {i : BitVec 32}
    {handler : GroupFeedbackHandler T} (h : Invoked g fbk labels i.toNat)
    (hhandler : g.handlers_[i.toNat]? = some handler)
    : Invoked g fbk (labels ++ [.invoke handler fbk]) (i + 1).toNat := by
  intro hsize
  have ⟨hi, hinvocations⟩ := h hsize
  have ⟨hlt, hget⟩ := List.getElem?_eq_some_iff.mp hhandler
  rw [toNat_succ (by omega)]
  refine ⟨hlt, ?_⟩
  rw [invocations_append, hinvocations, List.take_succ_eq_append_getElem hlt, hget]
  simp

theorem DispatchProgress.step {fbk : GroupFeedback} {pc pc' : Pc T Code} {label : Label T}
    {labels : List (Label T)} (h : DispatchProgress g fbk labels pc)
    (hstep : Body lib user pc g label pc' g')
    : g' = g ∧ DispatchProgress g fbk (labels ++ [label]) pc' := by
  cases hstep with
  | more hsize => exact ⟨rfl, h.left, h.right.silent⟩
  | copyHandler hhandler => exact ⟨rfl, h.left, h.right.silent, hhandler⟩
  | goOn hact => exact ⟨rfl, h.left, h.right.silent⟩
  | returns hact => exact ⟨rfl, h.left, h.right.silent⟩
  | throws hact => exact ⟨rfl, h.left, h.right.silent⟩
  | callEmpty =>
    have ⟨hfbk, hinvoked, hhandler⟩ := h
    subst hfbk
    exact ⟨rfl, rfl, hinvoked.invoke hhandler⟩
  | callTarget =>
    have ⟨hfbk, hinvoked, hhandler⟩ := h
    subst hfbk
    exact ⟨rfl, rfl, hinvoked.invoke hhandler⟩
  | @noMore _ i hsize =>
    refine ⟨rfl, ?_⟩
    have ⟨_, hinvoked⟩ := h
    have hlength : g.handlers_.length < 2 ^ 32 := by omega
    have ⟨_, hinvocations⟩ := hinvoked hlength
    refine ⟨hlength, ?_⟩
    rw [invocations_append, hinvocations, List.take_of_length_le (by omega)]
    simp
  | _ => exact h.elim

theorem dispatchProgress_of_solo {group_feedback : FourierGroupFeedbackPtr} {pc : Pc T Code}
    {labels : List (Label T)}
    (h : (object lib feedbackLib user).Solo
      (enter feedbackLib (.callAttachedHandlers group_feedback), g) labels (pc, g'))
    : g' = g ∧ DispatchProgress g (.ofHandle feedbackLib group_feedback) labels pc := by
  apply h.invariant
    (P := fun labels q =>
      q.2 = g ∧ DispatchProgress g (.ofHandle feedbackLib group_feedback) labels q.1)
  . exact ⟨rfl, rfl, by simp [Invoked]⟩
  . intro tr q₁ e q₂ _ ⟨hg, h⟩ hstep
    rw [hg] at hstep
    apply h.step hstep

theorem section_dispatch {group_feedback : FourierGroupFeedbackPtr}
    (h : (object lib feedbackLib user).Section g (.callAttachedHandlers group_feedback) g')
    : g' = g := by
  have ⟨labels, pc, hsolo, _⟩ := h
  exact (dispatchProgress_of_solo hsolo).left

end Group
end Fourier
