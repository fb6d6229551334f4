import FourierSDK.Group.Basic
import FourierSDK.Transition.Run

/-!
This module relates the handlers that a group stores to the callbacks that are registered for it
with the C library, over all sequences of `addFeedbackHandler` and `clearFeedbackHandlers` calls and
all statuses of the registration attempts that they make.
-/

namespace Fourier

open Cpp Cpp.Prog

variable {R T U E : Type}

inductive HandlerCall (T : Type) where
  | add (handler : GroupFeedbackHandler T) (status : FourierStatusCode)
  | clear
  deriving DecidableEq, Repr

namespace HandlerCall

def run (lib : HandlerLib R) : HandlerCall T → Prog (Exception E) (Program R T U) Unit
  | .add handler status => Group.addFeedbackHandler lib handler status
  | .clear => Group.clearFeedbackHandlers lib

def runAll (lib : HandlerLib R) (calls : List (HandlerCall T))
    : Prog (Exception E) (Program R T U) Unit :=
  forM calls (run lib)

end HandlerCall

namespace Group

def registration (g : Group R T) : Registration := ⟨.callbackWrapper, g.self⟩

/--
`callbackWrapper` is registered for the group exactly once if the group has handlers, and not at all
if it has none.
-/
def Linked (lib : HandlerLib R) (g : Group R T) : Prop :=
  (g.handlers_ ≠ [] → (lib.registered g.internal_).count g.registration = 1) ∧
  (g.handlers_ = [] → (lib.registered g.internal_).count g.registration = 0)

instance (lib : HandlerLib R) (g : Group R T) [DecidableEq T] : Decidable (Linked lib g) :=
  inferInstanceAs (Decidable (_ ∧ _))

def added (lib : HandlerLib R) (g : Group R T) (handler : GroupFeedbackHandler T)
    (status : FourierStatusCode) : Group R T :=
  {
    g with
    handlers_ := g.handlers_ ++ [handler]
    internal_ :=
      if g.handlers_ = [] then
        lib.fourierGroupRegisterFeedbackHandler g.internal_ g.registration status
      else
        g.internal_
  }

def cleared (lib : HandlerLib R) (g : Group R T) : Group R T :=
  {
    g with
    handlers_ := []
    internal_ := lib.fourierGroupClearFeedbackHandlers g.internal_
  }

variable (lib : HandlerLib R)

theorem addFeedbackHandler_run (p : Program R T U) (handler : GroupFeedbackHandler T)
    (status : FourierStatusCode) (h : p.handler_lock_ = false)
    : (addFeedbackHandler lib handler status : Prog (Exception E) _ _) p
        =
      some (.ok (), { p with group := p.group.added lib handler status }) := by
  unfold addFeedbackHandler
  by_cases hempty : p.group.handlers_ = []
  . rw [lockGuard_run h (r := .ok ())]
    rotate_left
    . rw [bind_of_returned (x := pushBack handler) rfl]
      rw [bind_of_returned (x := read _) rfl]
      simp only [Program.setLock, hempty, List.nil_append, List.length_singleton, ↓reduceIte]
      rfl
    . simp [Program.setLock, added, registration, h, hempty]
  . rw [lockGuard_run h (r := .ok ())]
    rotate_left
    . rw [bind_of_returned (x := pushBack handler) rfl]
      rw [bind_of_returned (x := read _) rfl]
      simp only [Program.setLock, List.length_append, List.length_singleton, Nat.add_eq_right,
        List.length_eq_zero_iff, hempty, ↓reduceIte]
      rfl
    . simp [Program.setLock, added, h, hempty]

theorem clearFeedbackHandlers_run (p : Program R T U) (h : p.handler_lock_ = false)
    : (clearFeedbackHandlers lib : Prog (Exception E) _ _) p
        =
      some (.ok (), { p with group := p.group.cleared lib }) := by
  unfold clearFeedbackHandlers
  rw [lockGuard_run h (r := .ok ()) rfl]
  simp [Program.setLock, cleared, h]

end Group

namespace HandlerCall

variable (lib : HandlerLib R)

def effect (g : Group R T) : HandlerCall T → Group R T
  | .add handler status => g.added lib handler status
  | .clear => g.cleared lib

def Registers (call : HandlerCall T) (g : Group R T) : Prop :=
  match call with
  | .add _ status => g.handlers_ = [] → status = .FourierStatusSuccess
  | .clear => True

theorem run_eq_effect (p : Program R T U) (call : HandlerCall T)
    (h : p.handler_lock_ = false)
    : (call.run lib : Prog (Exception E) _ _) p
        =
      some (.ok (), { p with group := effect lib p.group call }) := by
  cases call with
  | add handler status => apply Group.addFeedbackHandler_run lib p handler status h
  | clear => apply Group.clearFeedbackHandlers_run lib p h

theorem runAll_eq_foldl (p : Program R T U) (calls : List (HandlerCall T))
    (h : p.handler_lock_ = false)
    : (runAll lib calls : Prog (Exception E) _ _) p
        =
      some (.ok (), { p with group := calls.foldl (effect lib) p.group }) := by
  unfold runAll
  induction calls generalizing p with
  | nil => rfl
  | cons call calls ih =>
    rw [List.forM_cons, bind_of_returned (run_eq_effect lib p call h)]
    apply ih
    assumption

theorem runAll_returns_iff {p : Program R T U} (h : p.handler_lock_ = false)
    {Q : Group R T → Prop} (calls : List (HandlerCall T))
    : (runAll lib calls : Prog (Exception E) _ _).Returns p (fun _ p' => Q p'.group)
        ↔
      Q (calls.foldl (effect lib) p.group) := by
  rw [returns_iff_of_returned (runAll_eq_foldl lib p calls h)]

theorem effect_registration (g : Group R T) (call : HandlerCall T)
    : (effect lib g call).registration = g.registration := by
  cases call with
  | add => rfl
  | clear => rfl

variable [LawfulHandlerLib lib]

theorem linked_effect_iff (g : Group R T) (call : HandlerCall T) (h : g.Linked lib)
    : (effect lib g call).Linked lib ↔ call.Registers g := by
  cases call with
  | clear =>
    simp [effect, Registers, Group.Linked, Group.cleared]
  | add handler status =>
    have hreg := effect_registration lib g (.add handler status)
    unfold Group.Linked
    rw [hreg]
    by_cases hempty : g.handlers_ = []
    . have hcount := h.right hempty
      simp only [effect, Group.added, hempty, ↓reduceIte, HandlerLib.count_register, hcount]
      simp [Registers, hempty]
    . have hcount := h.left hempty
      simp [effect, Group.added, Registers, hempty, hcount]

end HandlerCall

namespace Group

theorem linked_iff_registrations_succeed (lib : HandlerLib R) [LawfulHandlerLib lib]
    (p : Program R T U) (hlock : p.handler_lock_ = false) (self : Addr) (internal_ : R)
    (hnew : p.group = new self internal_)
    (hfresh : ⟨.callbackWrapper, self⟩ ∉ lib.registered internal_) (calls : List (HandlerCall T))
    : (∀ pre, pre <+: calls →
        (HandlerCall.runAll lib pre : Prog (Exception E) _ _).Returns p
          (fun _ p' => p'.group.Linked lib))
        ↔
      (∀ pre call, pre ++ [call] <+: calls →
        (HandlerCall.runAll lib pre : Prog (Exception E) _ _).Returns p
          (fun _ p' => call.Registers p'.group)) := by
  have hlinked : p.group.Linked lib := by
    rw [hnew]
    simp [Linked, new, registration, List.count_eq_zero, hfresh]
  simp only [HandlerCall.runAll_returns_iff lib hlock (Q := Linked lib)]
  have hregisters (call : HandlerCall T) (pre : List (HandlerCall T)) :=
    HandlerCall.runAll_returns_iff lib (E := E) hlock (Q := call.Registers) pre
  simp only [hregisters]
  apply Transition.forall_reached_iff (Q := fun g (call : HandlerCall T) => call.Registers g)
  . intro g call h
    apply HandlerCall.linked_effect_iff lib g call h
  . assumption

abbrev newProgram : Program (List Registration) Nat Unit :=
  { group := new 1 [], handler_lock_ := false, user := (), invocations := [], released := [] }

-- The second add makes no attempt to register, so that its status does not matter.
theorem linked_iff_registrations_succeed_newGroup
    : let calls := [.add (some 0) .FourierStatusSuccess, .add none .FourierStatusFailure, .clear]
      ∀ pre, pre <+: calls →
        (HandlerCall.runAll HandlerLib.ofList pre : Prog (Exception Empty) _ _).Returns
          newProgram (fun _ p' => p'.group.Linked HandlerLib.ofList) := by
  intro calls
  apply (linked_iff_registrations_succeed HandlerLib.ofList newProgram rfl 1 [] rfl (by decide)
    calls).mpr
  intro pre call hpre
  rw [HandlerCall.runAll_returns_iff _ (by rfl) (Q := call.Registers)]
  rcases pre with _ | ⟨first, _ | ⟨second, _ | ⟨third, pre⟩⟩⟩
  all_goals
    simp only [calls, List.nil_append, List.cons_append, List.cons_prefix_cons] at hpre
  . rw [hpre.left]
    intro _
    rfl
  . rw [hpre.left, hpre.right.left]
    intro hempty
    contradiction
  . rw [hpre.right.right.left]
    trivial
  . simp at hpre

theorem not_linked_of_failed_registration
    : ¬(∀ pre, pre <+: [.add (some 0) .FourierStatusFailure, .add (some 1) .FourierStatusSuccess] →
        (HandlerCall.runAll HandlerLib.ofList pre : Prog (Exception Empty) _ _).Returns
          newProgram (fun _ p' => p'.group.Linked HandlerLib.ofList)) := by
  intro h
  have hlinked := h _ (List.prefix_refl _)
  rw [HandlerCall.runAll_returns_iff _ (by rfl) (Q := Linked HandlerLib.ofList)] at hlinked
  revert hlinked
  decide

theorem not_linked_of_adds (lib : HandlerLib R) (g : Group R T) (hne : g.handlers_ ≠ [])
    (hlost : g.registration ∉ lib.registered g.internal_)
    (adds : List (GroupFeedbackHandler T × FourierStatusCode))
    : ¬((adds.map (fun (h, s) => HandlerCall.add h s)).foldl (HandlerCall.effect lib) g).Linked lib
    := by
  induction adds generalizing g with
  | nil =>
    intro h
    have hcount := h.left hne
    rw [List.map_nil, List.foldl_nil, List.count_eq_zero.mpr hlost] at hcount
    contradiction
  | cons a adds ih =>
    rw [List.map_cons, List.foldl_cons]
    apply ih
    . simp [HandlerCall.effect, added]
    . simp only [HandlerCall.effect, added, hne, ↓reduceIte]
      apply hlost

end Group
end Fourier
