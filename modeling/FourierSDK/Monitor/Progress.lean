import FourierSDK.Monitor.Atomic
import FourierSDK.Transition.Execution

/-!
This module contains what blocks a lock-protected object and what does not. A thread that calls an
operation of the object while it is inside one waits for itself, and then nobody ever acquires the
lock again. As long as no thread does so, a thread that holds the lock completes its operation and
releases the lock, if its body comes to an end.
-/

namespace Monitor

open Transition

variable {Tid Op Local σ Label : Type}

def Event.thread : Event Tid Op Label → Tid
  | .call t _ => t
  | .reenter t _ => t
  | .acquire t _ => t
  | .body t _ => t
  | .release t _ => t
  | .ret t _ => t

def State.SelfWaiting (s : State Tid Op Local σ) (t : Tid) : Prop :=
  s.holder = some t ∧ ∃ op fs, s.stack t = .waiting op :: fs

variable [DecidableEq Tid] {obj : Object Op Local σ Label} {s s' : State Tid Op Local σ}
variable {e : Event Tid Op Label} {tr : List (Event Tid Op Label)} {shared₀ : σ}

theorem flat_of_event {E : Execution (Step obj) (State.start shared₀ : State Tid Op Local σ)}
    {n : Nat} (he : E.event n = some e) : FlatStep obj (E.state n) e (E.state (n + 1)) := by
  apply (E.next n e he).flat (exclusive_of_run (.start shared₀) (E.run n))

/-! ### Waiting for oneself -/

theorem FlatStep.selfWaiting_of_reenter {t : Tid} {op : Op} (hstep : FlatStep obj s e s')
    (he : e = .reenter t op) : s'.SelfWaiting t := by
  cases hstep with
  | reenter hholder hstack hcalls =>
    simp only [Event.reenter.injEq] at he
    rw [← he.left]
    exact ⟨hholder, _, _, State.setStack_stack_self ..⟩
  | _ => simp at he

theorem FlatStep.selfWaiting_or_reenter {t : Tid} (hstep : FlatStep obj s e s')
    (h : s'.SelfWaiting t) : s.SelfWaiting t ∨ ∃ op, e = .reenter t op := by
  have ⟨hholder', op', fs, hstack'⟩ := h
  cases hstep with
  | @call u _ hholder hstack =>
    have hne : t ≠ u := by
      intro htu
      subst htu
      contradiction
    rw [State.setStack_stack_of_ne _ _ _ hne] at hstack'
    exact .inl ⟨hholder', op', fs, hstack'⟩
  | @ret u _ hholder hstack =>
    have hne : t ≠ u := by
      intro htu
      subst htu
      contradiction
    rw [State.setStack_stack_of_ne _ _ _ hne] at hstack'
    exact .inl ⟨hholder', op', fs, hstack'⟩
  | @reenter u _ _ _ _ hholder hstack hcalls =>
    have hu : some u = some t := hholder.symm.trans hholder'
    simp only [Option.some.injEq] at hu
    rw [← hu]
    exact .inr ⟨_, rfl⟩
  | @acquire u _ hholder hstack =>
    have hu : some u = some t := hholder'
    simp only [Option.some.injEq] at hu
    rw [← hu, State.setStack_stack_self] at hstack'
    simp at hstack'
  | @body u _ _ _ _ _ hholder hstack hbody =>
    have hu : some u = some t := hholder.symm.trans hholder'
    simp only [Option.some.injEq] at hu
    rw [← hu, State.setStack_stack_self] at hstack'
    simp at hstack'
  | release hholder hstack hfinal => simp at hholder'

theorem not_selfWaiting_iff_no_reenter
    (E : Execution (Step obj) (State.start shared₀ : State Tid Op Local σ))
    : (∀ n t, ¬(E.state n).SelfWaiting t) ↔ (∀ n t op, E.event n ≠ some (.reenter t op)) := by
  constructor
  . intro h n t op he
    exact h (n + 1) t ((flat_of_event he).selfWaiting_of_reenter rfl)
  . intro h n
    induction n with
    | zero =>
      intro t ⟨hholder, _⟩
      rw [E.start] at hholder
      contradiction
    | succ n ih =>
      intro t hwaiting
      cases he : E.event n with
      | none =>
        rw [E.idle n he] at hwaiting
        exact ih t hwaiting
      | some e =>
        cases (flat_of_event he).selfWaiting_or_reenter hwaiting with
        | inl hwaiting => exact ih t hwaiting
        | inr hreenter =>
          have ⟨op, hop⟩ := hreenter
          rw [hop] at he
          exact h n t op he

theorem stuck_of_run {t : Tid} (hex : Exclusive s) (h : s.SelfWaiting t)
    (hrun : Run (Step obj) s tr s')
    : s'.SelfWaiting t ∧ ∀ u op, .acquire u op ∉ tr := by
  induction hrun with
  | nil => exact ⟨h, by simp⟩
  | @snoc tr s₁ e s₂ init last ih =>
    have ⟨⟨hholder, op', fs, hstack⟩, hacquire⟩ := ih
    have hflat := last.flat (exclusive_of_run hex init)
    have hstack' {u : Tid} (hu : t ≠ u) {fs' : List (Frame Op Local)}
        : (s₁.setStack u fs').SelfWaiting t := by
      refine ⟨hholder, op', fs, ?_⟩
      rw [State.setStack_stack_of_ne _ _ _ hu]
      apply hstack
    have hsame {u : Tid} (hu : s₁.holder = some u) : u = t := by
      rw [hholder, Option.some.injEq] at hu
      rw [hu]
    cases hflat with
    | @call u _ hholder' hstack'' =>
      refine ⟨hstack' (u := u) ?_, by simp [hacquire]⟩
      intro htu
      subst htu
      contradiction
    | @ret u _ hholder' hstack'' =>
      refine ⟨hstack' (u := u) ?_, by simp [hacquire]⟩
      intro htu
      subst htu
      contradiction
    | acquire hholder' => simp [hholder] at hholder'
    | reenter hholder' hstack'' =>
      rw [hsame hholder', hstack] at hstack''
      simp at hstack''
    | body hholder' hstack'' =>
      rw [hsame hholder', hstack] at hstack''
      simp at hstack''
    | release hholder' hstack'' =>
      rw [hsame hholder', hstack] at hstack''
      simp at hstack''

/-! ### Going on -/

def Event.goesOn (t : Tid) : Event Tid Op Label → Prop
  | .call _ _ => False
  | e => e.thread = t

omit [DecidableEq Tid] in
theorem Event.goesOn_iff {t : Tid} : e.goesOn t ↔ e.thread = t ∧ ∀ op, e ≠ .call t op := by
  cases e with
  | call u op =>
    constructor
    . intro h
      exact h.elim
    . intro ⟨hu, hne⟩
      have hut : u = t := hu
      rw [hut] at hne
      exact absurd rfl (hne op)
  | _ => simp [goesOn]

theorem Step.busy_of_goesOn (hstep : Step obj s e s') {t : Tid} (hgoesOn : e.goesOn t)
    : s.stack t ≠ [] := by
  have ⟨hthread, hcall⟩ := Event.goesOn_iff.mp hgoesOn
  subst hthread
  cases hstep with
  | call => exact absurd rfl (hcall _)
  | reenter hstack => simp [Event.thread, hstack]
  | acquire hstack => simp [Event.thread, hstack]
  | body hstack => simp [Event.thread, hstack]
  | release hstack => simp [Event.thread, hstack]
  | ret hstack => simp [Event.thread, hstack]

theorem weaklyFair_of_rest (E : Execution (Step obj) (State.start shared₀ : State Tid Op Local σ))
    {n : Nat} {t : Tid} (hrest : ∀ m, n ≤ m → (E.state m).stack t = [])
    : E.WeaklyFair (Event.goesOn t) := by
  intro k henabled
  have ⟨e, s', hgoesOn, hstep⟩ := henabled (max k n) (Nat.le_max_left k n)
  exact absurd (hrest _ (Nat.le_max_right k n)) (hstep.busy_of_goesOn hgoesOn)

/-! ### Completing an operation -/

/--
The body comes to an end from here, whichever steps it takes, provided that the operations that it
calls return.
-/
inductive Object.Completes (obj : Object Op Local σ Label) : Local → σ → Prop where
  | intro {l shared}
    (hnext : obj.final l ∨ (∃ label l' shared', obj.body l shared label l' shared')
      ∨ ∃ op l', obj.calls l op l')
    (hbody : ∀ label l' shared', obj.body l shared label l' shared' → Completes obj l' shared')
    : Completes obj l shared

theorem FlatStep.frame {t : Tid} (hstep : FlatStep obj s e s') (hholder : s.holder = some t)
    (hthread : e.thread ≠ t)
    : s'.holder = s.holder ∧ s'.stack t = s.stack t ∧ s'.shared = s.shared := by
  have hsame {u : Tid} (hu : s.holder = some u) : u = t := by
    rw [hholder, Option.some.injEq] at hu
    rw [hu]
  cases hstep with
  | call => exact ⟨rfl, State.setStack_stack_of_ne _ _ _ hthread.symm, rfl⟩
  | ret => exact ⟨rfl, State.setStack_stack_of_ne _ _ _ hthread.symm, rfl⟩
  | acquire hholder' => simp [hholder] at hholder'
  | reenter hholder' => exact absurd (hsame hholder') hthread
  | body hholder' => exact absurd (hsame hholder') hthread
  | release hholder' => exact absurd (hsame hholder') hthread

theorem FlatStep.of_holder {t : Tid} {op : Op} {l : Local} (hstep : FlatStep obj s e s')
    (hholder : s.holder = some t) (hstack : s.stack t = [.inside op l]) (hthread : e.thread = t)
    : (∃ op', e = .reenter t op') ∨ e = .release t op
        ∨ ∃ label l',
            obj.body l s.shared label l' s'.shared ∧ s'.holder = some t ∧
            s'.stack t = [.inside op l'] := by
  have hthread' {u : Tid} (hu : u = t) : s.holder = some u := by
    rw [hu]
    exact hholder
  cases hstep with
  | call hlock => exact absurd (hthread' hthread) hlock
  | ret hlock => exact absurd (hthread' hthread) hlock
  | acquire hlock => simp [hholder] at hlock
  | @reenter u _ _ op' =>
    have hu : u = t := hthread
    rw [hu]
    exact .inl ⟨op', rfl⟩
  | @release u op₁ l₁ hlock hinside hfinal =>
    have hu : u = t := hthread
    rw [hu, hstack] at hinside
    simp only [List.cons.injEq, Frame.inside.injEq, and_true] at hinside
    rw [hu, hinside.left]
    exact .inr (.inl rfl)
  | @body u op₁ l₁ label l' shared' hlock hinside hbody =>
    have hu : u = t := hthread
    rw [hu, hstack] at hinside
    simp only [List.cons.injEq, Frame.inside.injEq, and_true] at hinside
    rw [← hinside.right] at hbody
    refine .inr (.inr ⟨label, l', hbody, hholder, ?_⟩)
    rw [hu, hinside.left]
    apply State.setStack_stack_self

theorem eventually_released (E : Execution (Step obj) (.start shared₀)) {t : Tid} {op : Op}
    {l : Local} {n : Nat} (hcompletes : obj.Completes l (E.state n).shared)
    (hholder : (E.state n).holder = some t) (hstack : (E.state n).stack t = [.inside op l])
    (hfair : E.WeaklyFair (Event.goesOn t))
    (hreenter : ∀ m op', E.event m ≠ some (.reenter t op'))
    : ∃ m, n ≤ m ∧ E.event m = some (.release t op) := by
  generalize hshared : (E.state n).shared = shared at hcompletes
  induction hcompletes generalizing n with
  | @intro l shared hnext hbody ih =>
    have hevent : ∃ m e, n ≤ m ∧ ((E.state m).holder = some t
        ∧ (E.state m).stack t = [.inside op l] ∧ (E.state m).shared = shared)
        ∧ E.event m = some e ∧ e.goesOn t := by
      apply hfair.eventually
        (I := fun s => s.holder = some t ∧ s.stack t = [.inside op l] ∧ s.shared = shared)
      . exact ⟨hholder, hstack, hshared⟩
      . intro m ⟨_, hstack, hshared⟩
        rw [← hshared] at hnext
        rcases hnext with hfinal | ⟨label, l', shared', hbody⟩ | ⟨op', l', hcalls⟩
        . exact ⟨.release t op, _, rfl, Step.release hstack hfinal⟩
        . exact ⟨.body t label, _, rfl, Step.body hstack hbody⟩
        . exact ⟨.reenter t op', _, rfl, Step.reenter hstack hcalls⟩
      . intro m ⟨hholder, hstack, hshared⟩ hother
        cases he : E.event m with
        | none =>
          rw [E.idle m he]
          exact ⟨hholder, hstack, hshared⟩
        | some e =>
          have hne : e.thread ≠ t := by
            intro hthread
            apply hother e he
            apply Event.goesOn_iff.mpr ⟨hthread, _⟩
            intro op' hcall
            rw [hcall] at he
            have hflat := flat_of_event he
            generalize E.state (m + 1) = s' at hflat
            cases hflat with
            | call hlock => exact hlock hholder
          have ⟨hh, hs, hsh⟩ := (flat_of_event he).frame hholder hne
          exact ⟨hh.trans hholder, hs.trans hstack, hsh.trans hshared⟩
    have ⟨m, e, hm, ⟨hholder', hstack', hshared'⟩, he, hgoesOn⟩ := hevent
    cases (flat_of_event he).of_holder hholder' hstack' (Event.goesOn_iff.mp hgoesOn).left with
    | inl h =>
      have ⟨op', hop'⟩ := h
      rw [hop'] at he
      exact absurd he (hreenter m op')
    | inr h =>
      cases h with
      | inl h =>
        rw [h] at he
        exact ⟨m, hm, he⟩
      | inr h =>
        have ⟨label, l', hbody, hholder'', hstack''⟩ := h
        rw [hshared'] at hbody
        have ⟨m', hm', he'⟩ := ih label l' _ hbody hholder'' hstack'' rfl
        exact ⟨m', by omega, he'⟩

end Monitor
