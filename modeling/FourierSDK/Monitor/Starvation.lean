import FourierSDK.Monitor.Progress

/-!
This module contains when every call of an operation of a lock-protected object returns. No thread
may wait for itself and every body must come to an end. The scheduler must not leave aside for ever a
thread that has made a call, and must let a thread have the lock that could get it again and again. A
thread need not make any calls. A mutex does not serve the threads in any order, so that with less
than strong fairness a thread may wait for ever.
-/

namespace Monitor

open Transition

variable {Tid Op Local σ Label : Type} [DecidableEq Tid] {obj : Object Op Local σ Label}
variable {s s' : State Tid Op Local σ} {e : Event Tid Op Label} {shared₀ : σ}

def Event.isAcquire (t : Tid) : Event Tid Op Label → Prop
  | .acquire u _ => u = t
  | _ => False

structure Terminating (E : Execution (Step obj) (State.start shared₀ : State Tid Op Local σ))
    : Prop where
  no_reenter : ∀ n t op, E.event n ≠ some (.reenter t op)
  completes : ∀ n t op, E.event n = some (.acquire t op) →
    obj.Completes (obj.enter op) (E.state n).shared

structure FairScheduler (E : Execution (Step obj) (State.start shared₀ : State Tid Op Local σ))
    : Prop where
  weakly : ∀ t, E.WeaklyFair (Event.goesOn t)
  strongly : ∀ t, E.StronglyFair (Event.isAcquire t)

theorem FairScheduler.of_rest
    (E : Execution (Step obj) (State.start shared₀ : State Tid Op Local σ)) {n : Nat}
    (hrest : ∀ m, n ≤ m → ∀ t, (E.state m).stack t = []) : FairScheduler E := by
  constructor
  . intro t
    apply weaklyFair_of_rest
    intro m hm
    apply hrest m hm
  . intro t k henabled
    have ⟨m, e, s', hm, hacquire, hstep⟩ := henabled (max k n) (Nat.le_max_left k n)
    have hgoesOn : e.goesOn t := by
      cases e with
      | acquire => exact hacquire
      | _ => exact hacquire.elim
    exact absurd (hrest m (Nat.le_trans (Nat.le_max_right k n) hm) t) (hstep.busy_of_goesOn hgoesOn)

/-! ### The lock is free again and again -/

def Completing (obj : Object Op Local σ Label) (s : State Tid Op Local σ) : Prop :=
  ∀ t, s.holder = some t →
    ∃ op l, s.stack t = [.inside op l] ∧ obj.Completes l s.shared

theorem Completing.setStack (h : Completing obj s) {t : Tid} (hholder : s.holder ≠ some t)
    (fs : List (Frame Op Local)) : Completing obj (s.setStack t fs) := by
  intro u hu
  have hne : u ≠ t := by
    intro hut
    subst hut
    contradiction
  have ⟨op, l, hstack, hcompletes⟩ := h u hu
  exact ⟨op, l, (State.setStack_stack_of_ne s t fs hne).trans hstack, hcompletes⟩

theorem Completing.step (h : Completing obj s) (hstep : FlatStep obj s e s')
    (hreenter : ∀ t op, e ≠ .reenter t op)
    (hacquire : ∀ t op, e = .acquire t op → obj.Completes (obj.enter op) s.shared)
    : Completing obj s' := by
  cases hstep with
  | call hholder => apply h.setStack hholder
  | ret hholder => apply h.setStack hholder
  | reenter => exact absurd rfl (hreenter _ _)
  | release =>
    intro u hu
    contradiction
  | @acquire t op hholder hstack =>
    intro u hu
    have htu : some t = some u := hu
    rw [Option.some.injEq] at htu
    subst htu
    exact ⟨op, obj.enter op, State.setStack_stack_self .., hacquire t op rfl⟩
  | @body t op l label l' shared hholder hstack hbody =>
    intro u hu
    have htu : some t = some u := hholder.symm.trans hu
    rw [Option.some.injEq] at htu
    subst htu
    have ⟨op₁, l₁, hstack₁, hcompletes⟩ := h t hholder
    simp only [hstack, List.cons.injEq, Frame.inside.injEq, and_true] at hstack₁
    rw [← hstack₁.right] at hcompletes
    cases hcompletes with
    | intro _ hnext => exact ⟨op, l', State.setStack_stack_self .., hnext _ _ _ hbody⟩

variable {E : Execution (Step obj) (State.start shared₀ : State Tid Op Local σ)}

theorem Terminating.completing (h : Terminating E) (n : Nat) : Completing obj (E.state n) := by
  induction n with
  | zero =>
    intro t ht
    rw [E.start] at ht
    contradiction
  | succ n ih =>
    cases he : E.event n with
    | none =>
      rw [E.idle n he]
      apply ih
    | some e =>
      apply ih.step (flat_of_event he)
      . intro t op hop
        rw [hop] at he
        exact h.no_reenter n t op he
      . intro t op hop
        rw [hop] at he
        apply h.completes n t op he

theorem Terminating.eventually_released (h : Terminating E) (hfair : FairScheduler E) {n : Nat}
    {t : Tid} {op : Op} {l : Local} (hcompletes : obj.Completes l (E.state n).shared)
    (hholder : (E.state n).holder = some t) (hstack : (E.state n).stack t = [.inside op l])
    : ∃ m, n ≤ m ∧ E.event m = some (.release t op) := by
  apply Monitor.eventually_released E hcompletes hholder hstack (hfair.weakly t)
  intro m op'
  apply h.no_reenter

theorem Terminating.eventually_free (h : Terminating E) (hfair : FairScheduler E) (n : Nat)
    : ∃ m, n ≤ m ∧ (E.state m).holder = none := by
  cases hholder : (E.state n).holder with
  | none => exact ⟨n, Nat.le_refl n, hholder⟩
  | some t =>
    have ⟨op, l, hstack, hcompletes⟩ := h.completing n t hholder
    have ⟨m, hm, he⟩ := h.eventually_released hfair hcompletes hholder hstack
    exact ⟨m + 1, by omega, ((flat_of_event he).leaving_of_release rfl).left⟩

/-! ### Every call returns -/

theorem FlatStep.waiting {t : Tid} {op : Op} (hstep : FlatStep obj s e s')
    (hstack : s.stack t = [.waiting op])
    : s'.stack t = [.waiting op] ∨ e = .acquire t op := by
  have hother {u : Tid} {fs : List (Frame Op Local)} {s₁ : State Tid Op Local σ}
      (hs₁ : s₁.stack = s.stack) (hu : s.stack u ≠ [.waiting op])
      : (s₁.setStack u fs).stack t = [.waiting op] := by
    have htu : t ≠ u := by
      intro htu
      subst htu
      contradiction
    rw [State.setStack_stack_of_ne _ _ _ htu, hs₁]
    exact hstack
  cases hstep with
  | call _ hstack' => exact .inl (hother rfl (by simp [hstack']))
  | ret _ hstack' => exact .inl (hother rfl (by simp [hstack']))
  | reenter _ hstack' => exact .inl (hother rfl (by simp [hstack']))
  | body _ hstack' => exact .inl (hother rfl (by simp [hstack']))
  | release _ hstack' => exact .inl (hother rfl (by simp [hstack']))
  | @acquire u op' _ hstack' =>
    by_cases htu : t = u
    . subst htu
      simp only [hstack, List.cons.injEq, Frame.waiting.injEq, and_true] at hstack'
      rw [hstack']
      exact .inr rfl
    . left
      rw [State.setStack_stack_of_ne _ _ _ htu]
      exact hstack

theorem FlatStep.leaving_or_ret {t : Tid} {op : Op} (hstep : FlatStep obj s e s')
    (hstack : s.stack t = [.leaving op])
    : s'.stack t = [.leaving op] ∧ e.thread ≠ t ∨ e = .ret t op := by
  have hother {u : Tid} {fs : List (Frame Op Local)} {s₁ : State Tid Op Local σ}
      (hs₁ : s₁.stack = s.stack) (hu : s.stack u ≠ [.leaving op])
      : (s₁.setStack u fs).stack t = [.leaving op] ∧ u ≠ t := by
    have htu : t ≠ u := by
      intro htu
      subst htu
      contradiction
    rw [State.setStack_stack_of_ne _ _ _ htu, hs₁]
    exact ⟨hstack, htu.symm⟩
  cases hstep with
  | call _ hstack' => exact .inl (hother rfl (by simp [hstack']))
  | reenter _ hstack' => exact .inl (hother rfl (by simp [hstack']))
  | body _ hstack' => exact .inl (hother rfl (by simp [hstack']))
  | release _ hstack' => exact .inl (hother rfl (by simp [hstack']))
  | acquire _ hstack' => exact .inl (hother rfl (by simp [hstack']))
  | @ret u op' _ hstack' =>
    by_cases htu : t = u
    . subst htu
      simp only [hstack, List.cons.injEq, Frame.leaving.injEq, and_true] at hstack'
      rw [hstack']
      exact .inr rfl
    . left
      rw [State.setStack_stack_of_ne _ _ _ htu]
      exact ⟨hstack, fun hut => htu hut.symm⟩

theorem Terminating.eventually_acquires (h : Terminating E) (hfair : FairScheduler E) {n : Nat}
    {t : Tid} {op : Op} (hstack : (E.state n).stack t = [.waiting op])
    : ∃ m, n ≤ m ∧ E.event m = some (.acquire t op) := by
  have hevent := (hfair.strongly t).eventually (I := fun s => s.stack t = [.waiting op])
    (J := fun s => s.holder = none) hstack
    (fun m _ => h.eventually_free hfair m)
    (fun m hstack hfree => ⟨.acquire t op, _, rfl, .acquire hstack hfree⟩)
  have ⟨m, e, hm, hstack', he, hacquire⟩ := hevent (by
    intro m hstack hother
    cases he : E.event m with
    | none =>
      rw [E.idle m he]
      exact hstack
    | some e =>
      cases (flat_of_event he).waiting hstack with
      | inl hstack' => exact hstack'
      | inr hacquire =>
        have hnot := hother e he
        rw [hacquire] at hnot
        exact absurd rfl hnot)
  refine ⟨m, hm, ?_⟩
  cases (flat_of_event he).waiting hstack' with
  | inr heq => rw [he, heq]
  | inl hstack'' =>
    -- the step gives the thread the lock, so that it does not wait any longer
    cases e with
    | acquire u op' =>
      have hu : u = t := hacquire
      subst hu
      have ⟨_, _, _, hinside⟩ := (flat_of_event he).holds_acquired rfl
      simp [hinside] at hstack''
    | _ => exact hacquire.elim

theorem eventually_returned (hfair : FairScheduler E) {n : Nat} {t : Tid} {op : Op}
    (hstack : (E.state n).stack t = [.leaving op])
    : ∃ m, n ≤ m ∧ E.event m = some (.ret t op) := by
  have hevent := (hfair.weakly t).eventually (I := fun s => s.stack t = [.leaving op]) hstack
    (fun m hstack => ⟨.ret t op, _, rfl, .ret hstack⟩)
  have ⟨m, e, hm, hstack', he, hgoesOn⟩ := hevent (by
    intro m hstack hother
    cases he : E.event m with
    | none =>
      rw [E.idle m he]
      exact hstack
    | some e =>
      cases (flat_of_event he).leaving_or_ret hstack with
      | inl h => exact h.left
      | inr hret =>
        have hnot := hother e he
        rw [hret] at hnot
        exact absurd rfl hnot)
  refine ⟨m, hm, ?_⟩
  cases (flat_of_event he).leaving_or_ret hstack' with
  | inl h => exact absurd (Event.goesOn_iff.mp hgoesOn).left h.right
  | inr hret => rw [he, hret]

theorem FlatStep.waiting_of_call {t : Tid} {op : Op} (hstep : FlatStep obj s e s')
    (he : e = .call t op) : s'.stack t = [.waiting op] := by
  cases hstep with
  | call =>
    simp only [Event.call.injEq] at he
    rw [← he.left, ← he.right]
    apply State.setStack_stack_self
  | _ => simp at he

theorem Terminating.eventually_left (h : Terminating E) (hfair : FairScheduler E) {n : Nat} {t : Tid}
    {f : Frame Op Local} (hstack : (E.state n).stack t = [f])
    : ∃ m, n ≤ m ∧ E.event m = some (.ret t f.op) := by
  have hleaving {n : Nat} {op : Op} (hrelease : E.event n = some (.release t op))
      : ∃ m, n < m ∧ E.event m = some (.ret t op) := by
    have ⟨_, hstack⟩ := (flat_of_event hrelease).leaving_of_release rfl
    have ⟨m, hm, hret⟩ := eventually_returned hfair hstack
    exact ⟨m, by omega, hret⟩
  cases f with
  | leaving op => apply eventually_returned hfair hstack
  | inside op l =>
    have hholder := ((exclusive_of_run (.start shared₀) (E.run n)).holder_of_inside hstack).left
    have ⟨op', l', hstack', hcompletes⟩ := h.completing n t hholder
    simp only [hstack, List.cons.injEq, Frame.inside.injEq, and_true] at hstack'
    rw [← hstack'.right] at hcompletes
    have ⟨m₁, hm₁, hrelease⟩ := h.eventually_released hfair hcompletes hholder hstack
    have ⟨m₂, hm₂, hret⟩ := hleaving hrelease
    exact ⟨m₂, by omega, hret⟩
  | waiting op =>
    have ⟨m₁, hm₁, hacquire⟩ := h.eventually_acquires hfair hstack
    have ⟨_, hshared, hholder, hstack'⟩ := (flat_of_event hacquire).holds_acquired rfl
    have hcompletes := h.completes m₁ t op hacquire
    rw [← hshared] at hcompletes
    have ⟨m₂, hm₂, hrelease⟩ := h.eventually_released hfair hcompletes hholder hstack'
    have ⟨m₃, hm₃, hret⟩ := hleaving hrelease
    exact ⟨m₃, by omega, hret⟩

theorem Terminating.returns (h : Terminating E) (hfair : FairScheduler E) {n : Nat} {t : Tid}
    {op : Op} (hcall : E.event n = some (.call t op))
    : ∃ m, n < m ∧ E.event m = some (.ret t op) := by
  have hwaiting := (flat_of_event hcall).waiting_of_call rfl
  have ⟨m, hm, hret⟩ := h.eventually_left hfair hwaiting
  exact ⟨m, by omega, hret⟩

end Monitor
