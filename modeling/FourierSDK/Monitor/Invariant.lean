import FourierSDK.Monitor.Atomic

/-!
This module contains the invariant rule for lock-protected objects: a condition on the shared state
that holds while the lock is free, and one for each local state of an operation. Nothing is said
about the steps of other threads, as these cannot get between the steps of the one with the lock.
-/

namespace Monitor

open Transition

variable {Tid Op Local σ Label : Type}

structure Object.Invariant (obj : Object Op Local σ Label) (free : σ → Prop)
    (inside : Local → σ → Prop) : Prop where
  enter : ∀ op shared, free shared → inside (obj.enter op) shared
  body : ∀ l shared label l' shared', inside l shared → obj.body l shared label l' shared' →
    inside l' shared'
  calls : ∀ l shared op l', inside l shared → obj.calls l op l' → inside l' shared
  final : ∀ l shared, inside l shared → obj.final l → free shared

inductive Kept (free : σ → Prop) (inside : Local → σ → Prop) (s : State Tid Op Local σ) : Prop where
  | free (hholder : s.holder = none) (hfree : free s.shared)
  | running {t op l} (hholder : s.holder = some t) (hstack : s.stack t = [.inside op l])
    (hinside : inside l s.shared)
  | blocked {t op' op l} (hholder : s.holder = some t)
    (hstack : s.stack t = [.waiting op', .inside op l]) (hinside : inside l s.shared)

variable [DecidableEq Tid] {obj : Object Op Local σ Label} {free : σ → Prop}
variable {inside : Local → σ → Prop} {s s' : State Tid Op Local σ} {e : Event Tid Op Label}
variable {tr : List (Event Tid Op Label)} {shared₀ : σ}

namespace Kept

omit [DecidableEq Tid] in
theorem of_free (h : Kept free inside s) (hholder : s.holder = none) : free s.shared := by
  cases h with
  | free _ hfree => exact hfree
  | running hholder' => simp [hholder] at hholder'
  | blocked hholder' => simp [hholder] at hholder'

omit [DecidableEq Tid] in
theorem of_inside (h : Kept free inside s) {t : Tid} {op : Op} {l : Local}
    (hholder : s.holder = some t) (hstack : s.stack t = [.inside op l]) : inside l s.shared := by
  cases h with
  | free hholder' => simp [hholder] at hholder'
  | running hholder' hstack' hinside =>
    rw [hholder, Option.some.injEq] at hholder'
    subst hholder'
    simp only [hstack, List.cons.injEq, Frame.inside.injEq, and_true] at hstack'
    rw [hstack'.right]
    exact hinside
  | blocked hholder' hstack' =>
    rw [hholder, Option.some.injEq] at hholder'
    subst hholder'
    simp [hstack] at hstack'

theorem setStack (h : Kept free inside s) {t : Tid} (hholder : s.holder ≠ some t)
    (fs : List (Frame Op Local)) : Kept free inside (s.setStack t fs) := by
  have hne {u : Tid} (hu : s.holder = some u) : u ≠ t := by
    intro hut
    subst hut
    contradiction
  cases h with
  | free hholder' hfree => exact .free hholder' hfree
  | @running u _ _ hholder' hstack hinside =>
    have hstack' := (State.setStack_stack_of_ne s t fs (hne hholder')).trans hstack
    exact .running (t := u) hholder' hstack' hinside
  | @blocked u _ _ _ hholder' hstack hinside =>
    have hstack' := (State.setStack_stack_of_ne s t fs (hne hholder')).trans hstack
    exact .blocked (t := u) hholder' hstack' hinside

theorem step (hinv : obj.Invariant free inside) (h : Kept free inside s)
    (hstep : FlatStep obj s e s') : Kept free inside s' := by
  cases hstep with
  | call hholder hstack => apply h.setStack hholder
  | ret hholder hstack => apply h.setStack hholder
  | @reenter t op l op' l' hholder hstack hcalls =>
    have hinside := hinv.calls _ _ _ _ (h.of_inside hholder hstack) hcalls
    exact .blocked (t := t) hholder (State.setStack_stack_self ..) hinside
  | @acquire t op hholder hstack =>
    have hinside := hinv.enter op _ (h.of_free hholder)
    exact .running (t := t) rfl (State.setStack_stack_self ..) hinside
  | @body t op l label l' shared hholder hstack hbody =>
    have hinside := hinv.body _ _ _ _ _ (h.of_inside hholder hstack) hbody
    exact .running (t := t) hholder (State.setStack_stack_self ..) hinside
  | release hholder hstack hfinal =>
    have hfree := hinv.final _ _ (h.of_inside hholder hstack) hfinal
    exact .free rfl hfree

omit [DecidableEq Tid] in
theorem imp {P : σ → Prop} (h : Kept free inside s) (hfree : ∀ shared, free shared → P shared)
    (hinside : ∀ l shared, inside l shared → P shared) : P s.shared := by
  cases h with
  | free _ h => apply hfree _ h
  | running _ _ h => apply hinside _ _ h
  | blocked _ _ h => apply hinside _ _ h

end Kept

theorem kept_of_run (hinv : obj.Invariant free inside) (hstart : free shared₀)
    (hrun : Run (Step obj) (.start shared₀) tr s) : Kept free inside s := by
  apply hrun.invariant (P := fun _ s => Kept free inside s)
  . exact .free rfl hstart
  . intro _ _ _ _ hrun h hstep
    apply h.step hinv (hstep.flat (exclusive_of_run (.start shared₀) hrun))

/-! ### The order of the steps inside -/

theorem holder_of_run {t : Tid} (hex : Exclusive s) (hholder : s.holder = some t)
    (hrun : Run (Step obj) s tr s') (hrelease : ∀ op, .release t op ∉ tr) : s'.holder = some t := by
  induction hrun with
  | nil => exact hholder
  | @snoc tr s₁ e s₂ init last ih =>
    simp only [List.mem_append, not_or, List.mem_singleton] at hrelease
    have hholder₁ := ih fun op => (hrelease op).left
    have hflat := last.flat (exclusive_of_run hex init)
    cases hflat with
    | call => exact hholder₁
    | ret => exact hholder₁
    | reenter => exact hholder₁
    | body => exact hholder₁
    | acquire hfree => simp [hholder₁] at hfree
    | @release u op l hholder₂ =>
      rw [hholder₁, Option.some.injEq] at hholder₂
      rw [hholder₂] at hrelease
      exact absurd rfl (hrelease op).right

theorem FlatStep.holder_of_body {t : Tid} {label : Label} (hstep : FlatStep obj s e s')
    (he : e = .body t label) : s.holder = some t ∧ s'.holder = some t := by
  cases hstep with
  | body hholder =>
    simp only [Event.body.injEq] at he
    rw [← he.left]
    exact ⟨hholder, hholder⟩
  | _ => simp at he

theorem acquired_of_run {u : Tid} (hex : Exclusive s) (hholder : s.holder ≠ some u)
    (hrun : Run (Step obj) s tr s') (hholder' : s'.holder = some u) : ∃ op, .acquire u op ∈ tr := by
  induction hrun with
  | nil => exact absurd hholder' hholder
  | @snoc tr s₁ e s₂ init last ih =>
    have hinit (h : s₁.holder = some u) : ∃ op, .acquire u op ∈ tr ++ [e] := by
      have ⟨op, hop⟩ := ih h
      exact ⟨op, List.mem_append_left _ hop⟩
    have hflat := last.flat (exclusive_of_run hex init)
    cases hflat with
    | call => apply hinit hholder'
    | ret => apply hinit hholder'
    | reenter => apply hinit hholder'
    | body => apply hinit hholder'
    | release => contradiction
    | @acquire t op =>
      have ht : some t = some u := hholder'
      rw [Option.some.injEq] at ht
      rw [ht]
      exact ⟨op, by simp⟩

theorem released_before_acquired {t u : Tid} {label label' : Label}
    {pre mid post : List (Event Tid Op Label)} (hne : t ≠ u)
    (hrun : Run (Step obj) (.start shared₀)
      (pre ++ .body t label :: (mid ++ .body u label' :: post)) s)
    : ∃ before op after op', mid = before ++ .release t op :: after ∧ .acquire u op' ∈ after := by
  have ⟨s₁, hpre, hrun⟩ := Run.append_iff.mp hrun
  have ⟨s₂, hfirst, hrun⟩ := Run.cons_iff.mp hrun
  have ⟨s₃, hmid, hrun⟩ := Run.append_iff.mp hrun
  have ⟨s₄, hsecond, _⟩ := Run.cons_iff.mp hrun
  have hex₁ := exclusive_of_run (.start shared₀) hpre
  have hflat₁ := hfirst.flat hex₁
  have hex₂ := hflat₁.exclusive hex₁
  have ⟨_, hholder₂⟩ := hflat₁.holder_of_body rfl
  have ⟨hholder₃, _⟩ := (hsecond.flat (exclusive_of_run hex₂ hmid)).holder_of_body rfl
  have hrelease : ∃ op, .release t op ∈ mid := by
    apply Classical.byContradiction
    intro hnot
    have hholder := holder_of_run hex₂ hholder₂ hmid fun op hop => hnot ⟨op, hop⟩
    rw [hholder, Option.some.injEq] at hholder₃
    exact hne hholder₃
  have ⟨_, hmem⟩ := hrelease
  have ⟨before, op, after, hmid', _⟩ := Event.first_release hmem
  rw [hmid'] at hmid
  have ⟨m₁, hbefore, hmid⟩ := Run.append_iff.mp hmid
  have ⟨m₂, hrel, hafter⟩ := Run.cons_iff.mp hmid
  have hexm := exclusive_of_run hex₂ hbefore
  have hflat := hrel.flat hexm
  have ⟨hfree, _⟩ := hflat.leaving_of_release rfl
  have ⟨op', hacquire⟩ := acquired_of_run (u := u) (hflat.exclusive hexm) (by simp [hfree]) hafter
    hholder₃
  exact ⟨before, op, after, op', hmid', hacquire⟩

end Monitor
