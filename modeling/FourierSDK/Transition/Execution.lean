import FourierSDK.Transition.Run

/-!
This module contains infinite executions of labelled transition relations, weak and strong fairness.
An execution may also do nothing, so that a finite run is an execution that stops.
-/

namespace Transition

variable {σ ε : Type}

structure Execution (step : σ → ε → σ → Prop) (s : σ) where
  state : Nat → σ
  event : Nat → Option ε
  start : state 0 = s
  idle : ∀ n, event n = none → state (n + 1) = state n
  next : ∀ n e, event n = some e → step (state n) e (state (n + 1))

namespace Execution

variable {step : σ → ε → σ → Prop} {s s' : σ} {tr : List ε} (E : Execution step s)

def trace (n : Nat) : List ε := (List.range n).filterMap E.event

theorem trace_succ (n : Nat) : E.trace (n + 1) = E.trace n ++ (E.event n).toList := by
  unfold trace
  rw [List.range_succ, List.filterMap_append]
  cases h : E.event n with
  | none => simp [h]
  | some e => simp [h]

theorem length_trace_le (n : Nat) : (E.trace n).length ≤ n := by
  refine (List.length_filterMap_le _ _).trans ?_
  rw [List.length_range]

theorem run (n : Nat) : Run step s (E.trace n) (E.state n) := by
  induction n with
  | zero =>
    rw [E.start]
    apply Run.nil
  | succ n ih =>
    rw [trace_succ]
    cases h : E.event n with
    | none =>
      rw [E.idle n h]
      simpa using ih
    | some e => apply Run.snoc ih (E.next n e h)

theorem run_from {m n : Nat} (h : m ≤ n) : ∃ tr, E.trace n = E.trace m ++ tr
    ∧ Run step (E.state m) tr (E.state n) := by
  induction n with
  | zero =>
    have hm : m = 0 := by omega
    subst hm
    exact ⟨[], by simp, .nil⟩
  | succ n ih =>
    by_cases hm : m = n + 1
    . subst hm
      exact ⟨[], by simp, .nil⟩
    . have ⟨tr, htr, hrun⟩ := ih (by omega)
      refine ⟨tr ++ (E.event n).toList, by simp [trace_succ, htr], ?_⟩
      cases he : E.event n with
      | none =>
        rw [E.idle n he]
        simpa using hrun
      | some e => apply Run.snoc hrun (E.next n e he)

def WeaklyFair (P : ε → Prop) : Prop :=
  ∀ n, (∀ m, n ≤ m → ∃ e s', P e ∧ step (E.state m) e s') → ∃ m e, n ≤ m ∧ E.event m = some e ∧ P e

def StronglyFair (P : ε → Prop) : Prop :=
  ∀ n, (∀ m, n ≤ m → ∃ k e s', m ≤ k ∧ P e ∧ step (E.state k) e s') →
    ∃ m e, n ≤ m ∧ E.event m = some e ∧ P e

variable {E}

theorem keeps_unless {P : ε → Prop} {I : σ → Prop} {n : Nat} (h : I (E.state n))
    (hkeep : ∀ m, I (E.state m) → (∀ e, E.event m = some e → ¬P e) → I (E.state (m + 1)))
    (hnever : ¬∃ m e, n ≤ m ∧ I (E.state m) ∧ E.event m = some e ∧ P e)
    (m : Nat) (hm : n ≤ m) : I (E.state m) := by
  induction m with
  | zero =>
    have hn : n = 0 := by omega
    rw [← hn]
    apply h
  | succ m ih =>
    by_cases hn : n = m + 1
    . rw [← hn]
      apply h
    . have hi := ih (by omega)
      apply hkeep m hi
      intro e he hp
      exact hnever ⟨m, e, by omega, hi, he, hp⟩

theorem WeaklyFair.eventually {P : ε → Prop} {I : σ → Prop} (hfair : E.WeaklyFair P) {n : Nat}
    (h : I (E.state n)) (henabled : ∀ m, I (E.state m) → ∃ e s', P e ∧ step (E.state m) e s')
    (hkeep : ∀ m, I (E.state m) → (∀ e, E.event m = some e → ¬P e) → I (E.state (m + 1)))
    : ∃ m e, n ≤ m ∧ I (E.state m) ∧ E.event m = some e ∧ P e := by
  apply Classical.byContradiction
  intro hnever
  have hinvariant := keeps_unless h hkeep hnever
  have ⟨m, e, hm, he, hp⟩ := hfair n (fun m hm => henabled m (hinvariant m hm))
  exact hnever ⟨m, e, hm, hinvariant m hm, he, hp⟩

theorem StronglyFair.eventually {P : ε → Prop} {I J : σ → Prop} (hfair : E.StronglyFair P) {n : Nat}
    (h : I (E.state n)) (hagain : ∀ m, n ≤ m → ∃ k, m ≤ k ∧ J (E.state k))
    (henabled : ∀ m, I (E.state m) → J (E.state m) → ∃ e s', P e ∧ step (E.state m) e s')
    (hkeep : ∀ m, I (E.state m) → (∀ e, E.event m = some e → ¬P e) → I (E.state (m + 1)))
    : ∃ m e, n ≤ m ∧ I (E.state m) ∧ E.event m = some e ∧ P e := by
  apply Classical.byContradiction
  intro hnever
  have hinvariant := keeps_unless h hkeep hnever
  have hstep (m : Nat) (hm : n ≤ m) : ∃ k e s', m ≤ k ∧ P e ∧ step (E.state k) e s' := by
    have ⟨k, hk, hj⟩ := hagain m hm
    have ⟨e, s', hp, hstep⟩ := henabled k (hinvariant k (by omega)) hj
    exact ⟨k, e, s', hk, hp, hstep⟩
  have ⟨m, e, hm, he, hp⟩ := hfair n hstep
  exact hnever ⟨m, e, hm, hinvariant m hm, he, hp⟩

variable (E) in
theorem state_of_idle {n : Nat} (hidle : ∀ m, n ≤ m → E.event m = none) (m : Nat) (hm : n ≤ m)
    : E.state m = E.state n := by
  induction m, hm using Nat.le_induction with
  | base => rfl
  | succ m hm ih => rw [E.idle m (hidle m hm), ih]

theorem exists_of_run (hrun : Run step s tr s')
    : ∃ E : Execution step s, (∀ n, E.event n = tr[n]?) ∧ E.state tr.length = s' := by
  induction hrun with
  | nil =>
    refine ⟨⟨fun _ => s, fun _ => none, rfl, ?_, ?_⟩, ?_, rfl⟩
    . intros
      rfl
    . intros
      contradiction
    . intros
      rfl
  | @snoc tr s₁ e s₂ init last ih =>
    have ⟨E, hevent, hstate⟩ := ih
    have hend : ¬tr.length + 1 ≤ tr.length := by omega
    refine ⟨⟨fun n => if n ≤ tr.length then E.state n else s₂, fun n => (tr ++ [e])[n]?, ?_, ?_, ?_⟩,
      ?_, ?_⟩
    . simp [E.start]
    . intro n hn
      rw [List.getElem?_eq_none_iff, List.length_append, List.length_singleton] at hn
      have hle : ¬n ≤ tr.length := by omega
      have hle' : ¬n + 1 ≤ tr.length := by omega
      simp [hle, hle']
    . intro n e' hn
      by_cases hlt : n < tr.length
      . have hle : n ≤ tr.length := by omega
        have hle' : n + 1 ≤ tr.length := by omega
        rw [List.getElem?_append_left hlt, ← hevent] at hn
        simp only [hle, hle', ↓reduceIte]
        apply E.next n e' hn
      . have hn' : n = tr.length := by
          have hlt' := (List.getElem?_eq_some_iff.mp hn).1
          simp at hlt'
          omega
        subst hn'
        rw [List.getElem?_concat_length, Option.some.injEq] at hn
        rw [← hn]
        simp only [Nat.le_refl, ↓reduceIte, hstate, hend]
        apply last
    . intros
      rfl
    . simp only [List.length_append, List.length_singleton, hend, ↓reduceIte]

end Execution
end Transition
