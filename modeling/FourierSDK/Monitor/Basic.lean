import Mathlib.Logic.Function.Basic
import FourierSDK.Transition.Run

/-!
This module contains objects whose operations run under one non-recursive lock, used by any number
of threads at once.

An operation that has acquired the lock goes through local states, and its `body` steps may change
the shared state. While it holds the lock, it may also call an operation of the same object
(`calls`), as an object does that runs code it does not know. A thread has a stack of frames, one
for each operation that it is in: it waits for the lock, it is inside the operation, or it has
released the lock and is about to return.

The steps of the system do not look whether a thread holds the lock when it goes on inside an
operation. That only the holder does so is what `Exclusive` says, and `FlatStep` lists what a step
can be in an exclusive state.
-/

namespace Monitor

structure Object (Op Local σ Label : Type) where
  enter : Op → Local
  body : Local → σ → Label → Local → σ → Prop
  calls : Local → Op → Local → Prop
  final : Local → Prop

inductive Frame (Op Local : Type) where
  | waiting (op : Op)
  | inside (op : Op) (l : Local)
  | leaving (op : Op)

def Frame.op {Op Local : Type} : Frame Op Local → Op
  | .waiting op => op
  | .inside op _ => op
  | .leaving op => op

structure State (Tid Op Local σ : Type) where
  shared : σ
  holder : Option Tid
  stack : Tid → List (Frame Op Local)

inductive Event (Tid Op Label : Type) where
  | call (t : Tid) (op : Op)
  | reenter (t : Tid) (op : Op)
  | acquire (t : Tid) (op : Op)
  | body (t : Tid) (label : Label)
  | release (t : Tid) (op : Op)
  | ret (t : Tid) (op : Op)
  deriving DecidableEq

variable {Tid Op Local σ Label : Type}

def State.start (shared : σ) : State Tid Op Local σ where
  shared := shared
  holder := none
  stack _ := []

inductive Outside : List (Frame Op Local) → Prop where
  | idle : Outside []
  | waiting {op} : Outside [.waiting op]
  | leaving {op} : Outside [.leaving op]

inductive Inside : List (Frame Op Local) → Prop where
  | running {op l} : Inside [.inside op l]
  | blocked {op' op l} : Inside [.waiting op', .inside op l]

structure Exclusive (s : State Tid Op Local σ) : Prop where
  inside : ∀ t, s.holder = some t → Inside (s.stack t)
  outside : ∀ t, s.holder ≠ some t → Outside (s.stack t)

variable {s s' : State Tid Op Local σ} {e : Event Tid Op Label}

namespace Exclusive

theorem start (shared : σ) : Exclusive (State.start shared : State Tid Op Local σ) := by
  constructor
  . intro t h
    simp [State.start] at h
  . intro t _
    apply Outside.idle

theorem not_holder_of_idle (h : Exclusive s) {t : Tid} (hstack : s.stack t = [])
    : s.holder ≠ some t := by
  intro hholder
  have hinside := h.inside t hholder
  rw [hstack] at hinside
  cases hinside

theorem holder_of_inside (h : Exclusive s) {t : Tid} {op : Op} {l : Local}
    {fs : List (Frame Op Local)} (hstack : s.stack t = .inside op l :: fs)
    : s.holder = some t ∧ fs = [] := by
  by_cases hholder : s.holder = some t
  . have hinside := h.inside t hholder
    rw [hstack] at hinside
    cases hinside
    exact ⟨hholder, rfl⟩
  . have houtside := h.outside t hholder
    rw [hstack] at houtside
    cases houtside

theorem not_holder_of_leaving (h : Exclusive s) {t : Tid} {op : Op} {fs : List (Frame Op Local)}
    (hstack : s.stack t = .leaving op :: fs) : s.holder ≠ some t ∧ fs = [] := by
  by_cases hholder : s.holder = some t
  . have hinside := h.inside t hholder
    rw [hstack] at hinside
    cases hinside
  . have houtside := h.outside t hholder
    rw [hstack] at houtside
    cases houtside
    exact ⟨hholder, rfl⟩

theorem waiting_of_free (h : Exclusive s) (hfree : s.holder = none) {t : Tid} {op : Op}
    {fs : List (Frame Op Local)} (hstack : s.stack t = .waiting op :: fs) : fs = [] := by
  have houtside := h.outside t (by simp [hfree])
  rw [hstack] at houtside
  cases houtside
  rfl

end Exclusive

variable [DecidableEq Tid]

namespace State

def setStack (s : State Tid Op Local σ) (t : Tid) (fs : List (Frame Op Local))
    : State Tid Op Local σ :=
  { s with stack := Function.update s.stack t fs }

variable (s) (t : Tid) (fs : List (Frame Op Local))

@[simp]
theorem setStack_holder : (s.setStack t fs).holder = s.holder := by
  rfl

@[simp]
theorem setStack_stack_self : (s.setStack t fs).stack t = fs := by
  simp [setStack]

theorem setStack_stack_of_ne {u : Tid} (h : u ≠ t) : (s.setStack t fs).stack u = s.stack u := by
  simp [setStack, h]

end State

variable (obj : Object Op Local σ Label)

inductive Step : State Tid Op Local σ → Event Tid Op Label → State Tid Op Local σ → Prop where
  | call {s t op} (hstack : s.stack t = [])
    : Step s (.call t op) (s.setStack t [.waiting op])
  | reenter {s t op l op' l' fs} (hstack : s.stack t = .inside op l :: fs)
    (hcalls : obj.calls l op' l')
    : Step s (.reenter t op') (s.setStack t (.waiting op' :: .inside op l' :: fs))
  | acquire {s t op fs} (hstack : s.stack t = .waiting op :: fs) (hfree : s.holder = none)
    : Step s (.acquire t op)
        ({ s with holder := some t }.setStack t (.inside op (obj.enter op) :: fs))
  | body {s t op l fs label l' shared} (hstack : s.stack t = .inside op l :: fs)
    (hbody : obj.body l s.shared label l' shared)
    : Step s (.body t label) ({ s with shared := shared }.setStack t (.inside op l' :: fs))
  | release {s t op l fs} (hstack : s.stack t = .inside op l :: fs) (hfinal : obj.final l)
    : Step s (.release t op) ({ s with holder := none }.setStack t (.leaving op :: fs))
  | ret {s t op fs} (hstack : s.stack t = .leaving op :: fs)
    : Step s (.ret t op) (s.setStack t fs)

inductive FlatStep : State Tid Op Local σ → Event Tid Op Label → State Tid Op Local σ → Prop where
  | call {s t op} (hholder : s.holder ≠ some t) (hstack : s.stack t = [])
    : FlatStep s (.call t op) (s.setStack t [.waiting op])
  | reenter {s t op l op' l'} (hholder : s.holder = some t) (hstack : s.stack t = [.inside op l])
    (hcalls : obj.calls l op' l')
    : FlatStep s (.reenter t op') (s.setStack t [.waiting op', .inside op l'])
  | acquire {s t op} (hholder : s.holder = none) (hstack : s.stack t = [.waiting op])
    : FlatStep s (.acquire t op)
        ({ s with holder := some t }.setStack t [.inside op (obj.enter op)])
  | body {s t op l label l' shared} (hholder : s.holder = some t)
    (hstack : s.stack t = [.inside op l]) (hbody : obj.body l s.shared label l' shared)
    : FlatStep s (.body t label) ({ s with shared := shared }.setStack t [.inside op l'])
  | release {s t op l} (hholder : s.holder = some t) (hstack : s.stack t = [.inside op l])
    (hfinal : obj.final l)
    : FlatStep s (.release t op) ({ s with holder := none }.setStack t [.leaving op])
  | ret {s t op} (hholder : s.holder ≠ some t) (hstack : s.stack t = [.leaving op])
    : FlatStep s (.ret t op) (s.setStack t [])

variable {obj}

theorem Exclusive.update (h : Exclusive s) (t : Tid) (fs : List (Frame Op Local)) (shared : σ)
    (holder : Option Tid) (hinside : holder = some t → Inside fs)
    (houtside : holder ≠ some t → Outside fs)
    (hothers : ∀ u, u ≠ t → (holder = some u ↔ s.holder = some u))
    : Exclusive (State.setStack { s with shared := shared, holder := holder } t fs) := by
  constructor
  . intro u hu
    by_cases htu : u = t
    . subst htu
      rw [State.setStack_stack_self]
      apply hinside hu
    . rw [State.setStack_stack_of_ne _ _ _ htu]
      apply h.inside u
      rw [← hothers u htu]
      apply hu
  . intro u hu
    by_cases htu : u = t
    . subst htu
      rw [State.setStack_stack_self]
      apply houtside hu
    . rw [State.setStack_stack_of_ne _ _ _ htu]
      apply h.outside u
      rw [ne_eq, ← hothers u htu]
      apply hu

theorem Step.flat (h : Exclusive s) (hstep : Step obj s e s') : FlatStep obj s e s' := by
  cases hstep with
  | call hstack => apply FlatStep.call (h.not_holder_of_idle hstack) hstack
  | reenter hstack hcalls =>
    have ⟨hholder, hfs⟩ := h.holder_of_inside hstack
    subst hfs
    apply FlatStep.reenter hholder hstack hcalls
  | acquire hstack hfree =>
    have hfs := h.waiting_of_free hfree hstack
    subst hfs
    apply FlatStep.acquire hfree hstack
  | body hstack hbody =>
    have ⟨hholder, hfs⟩ := h.holder_of_inside hstack
    subst hfs
    apply FlatStep.body hholder hstack hbody
  | release hstack hfinal =>
    have ⟨hholder, hfs⟩ := h.holder_of_inside hstack
    subst hfs
    apply FlatStep.release hholder hstack hfinal
  | ret hstack =>
    have ⟨hholder, hfs⟩ := h.not_holder_of_leaving hstack
    subst hfs
    apply FlatStep.ret hholder hstack

theorem FlatStep.exclusive (h : Exclusive s) (hstep : FlatStep obj s e s') : Exclusive s' := by
  cases hstep with
  | @call t op hholder hstack =>
    apply h.update t [.waiting op] s.shared s.holder
    . intro hh
      contradiction
    . intro _
      apply Outside.waiting
    . simp
  | @reenter t op l op' l' hholder hstack hcalls =>
    apply h.update t [.waiting op', .inside op l'] s.shared s.holder
    . intro _
      apply Inside.blocked
    . intro hh
      contradiction
    . simp
  | @acquire t op hholder hstack =>
    apply h.update t [.inside op (obj.enter op)] s.shared (some t)
    . intro _
      apply Inside.running
    . intro hh
      contradiction
    . intro u hu
      simp [hholder, hu.symm]
  | @body t op l label l' shared hholder hstack hbody =>
    apply h.update t [.inside op l'] shared s.holder
    . intro _
      apply Inside.running
    . intro hh
      contradiction
    . simp
  | @release t op l hholder hstack hfinal =>
    apply h.update t [.leaving op] s.shared none
    . intro hh
      contradiction
    . intro _
      apply Outside.leaving
    . intro u hu
      simp [hholder, hu.symm]
  | @ret t op hholder hstack =>
    apply h.update t [] s.shared s.holder
    . intro hh
      contradiction
    . intro _
      apply Outside.idle
    . simp

open Transition

variable {tr : List (Event Tid Op Label)}

theorem exclusive_of_run (h : Exclusive s) (hrun : Run (Step obj) s tr s') : Exclusive s' := by
  apply hrun.invariant (P := fun _ s' => Exclusive s')
  . assumption
  . intro _ _ _ _ _ hex hstep
    apply (hstep.flat hex).exclusive hex

end Monitor
