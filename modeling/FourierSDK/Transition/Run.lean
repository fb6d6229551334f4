import Mathlib.Data.List.Infix

/-!
This module contains finite runs of labelled transition relations, the induction rule that carries
an invariant along a run, and the corresponding rule for runs of a step function.
-/

namespace Transition

variable {σ ε : Type}

inductive Run (step : σ → ε → σ → Prop) (s : σ) : List ε → σ → Prop where
  | nil : Run step s [] s
  | snoc {tr : List ε} {s' : σ} {e : ε} {s'' : σ} (init : Run step s tr s') (last : step s' e s'')
    : Run step s (tr ++ [e]) s''

namespace Run

variable {step : σ → ε → σ → Prop} {s s' s'' : σ} {tr tr' : List ε}

theorem single {e : ε} (h : step s e s') : Run step s [e] s' := by
  rw [← List.nil_append [e]]
  apply snoc
  . apply nil
  . assumption

theorem append (h : Run step s tr s') (h' : Run step s' tr' s'') : Run step s (tr ++ tr') s'' := by
  induction h' with
  | nil => simpa using h
  | snoc _ last ih =>
    rw [← List.append_assoc]
    apply snoc
    . apply ih
    . assumption

theorem cons {e : ε} (h : step s e s') (h' : Run step s' tr s'') : Run step s (e :: tr) s'' := by
  apply append (single h) h'

theorem exists_nil : ∃ s', Run step s [] s' := ⟨s, .nil⟩

theorem exists_cons {e : ε} (h : step s e s') (h' : ∃ s'', Run step s' tr s'')
    : ∃ s'', Run step s (e :: tr) s'' := by
  have ⟨s'', h'⟩ := h'
  exact ⟨s'', cons h h'⟩

theorem exists_cons_and {P : σ → Prop} {e : ε} (h : step s e s')
    (h' : ∃ s'', Run step s' tr s'' ∧ P s'') : ∃ s'', Run step s (e :: tr) s'' ∧ P s'' := by
  have ⟨s'', h', hp⟩ := h'
  exact ⟨s'', cons h h', hp⟩

@[simp]
theorem nil_iff : Run step s [] s' ↔ s' = s := by
  constructor
  . intro h
    generalize htr : ([] : List ε) = tr at h
    cases h with
    | nil => rfl
    | snoc => simp at htr
  . intro h
    rw [h]
    apply nil

theorem snoc_iff {e : ε} : Run step s (tr ++ [e]) s'' ↔ ∃ s', Run step s tr s' ∧ step s' e s'' := by
  constructor
  . intro h
    generalize htr : tr ++ [e] = tr' at h
    cases h with
    | nil => simp at htr
    | snoc init last =>
      simp only [List.append_singleton_inj] at htr
      rw [htr.left, htr.right]
      exact ⟨_, init, last⟩
  . intro ⟨s', init, last⟩
    apply snoc init last

theorem append_iff : Run step s (tr ++ tr') s'' ↔ ∃ s', Run step s tr s' ∧ Run step s' tr' s'' := by
  constructor
  . intro h
    induction tr' using List.reverseRecOn generalizing s'' with
    | nil => exact ⟨s'', by simpa using h, .nil⟩
    | append_singleton tr' e ih =>
      rw [← List.append_assoc, snoc_iff] at h
      cases h with
      | intro m h =>
        have ⟨m', hleft, hright⟩ := ih h.left
        exact ⟨m', hleft, .snoc hright h.right⟩
  . intro ⟨s', hleft, hright⟩
    apply append hleft hright

theorem cons_iff {e : ε} : Run step s (e :: tr) s'' ↔ ∃ s', step s e s' ∧ Run step s' tr s'' := by
  rw [← List.singleton_append, append_iff]
  have hsingle : ∀ m, Run step s [e] m ↔ step s e m := by
    intro m
    rw [← List.nil_append [e], snoc_iff]
    simp
  simp only [hsingle]

theorem det {s₁ s₂ : σ} (hdet : ∀ s e s₁ s₂, step s e s₁ → step s e s₂ → s₁ = s₂)
    (h₁ : Run step s tr s₁) (h₂ : Run step s tr s₂) : s₁ = s₂ := by
  induction tr using List.reverseRecOn generalizing s₁ s₂ with
  | nil => rw [nil_iff.mp h₁, nil_iff.mp h₂]
  | append_singleton tr e ih =>
    have ⟨m₁, hinit₁, hlast₁⟩ := snoc_iff.mp h₁
    have ⟨m₂, hinit₂, hlast₂⟩ := snoc_iff.mp h₂
    rw [ih hinit₁ hinit₂] at hlast₁
    apply hdet _ _ _ _ hlast₁ hlast₂

theorem invariant {P : List ε → σ → Prop} (h : Run step s tr s') (start : P [] s)
    (keep : ∀ tr s₁ e s₂, Run step s tr s₁ → P tr s₁ → step s₁ e s₂ → P (tr ++ [e]) s₂)
    : P tr s' := by
  induction h with
  | nil => assumption
  | snoc init last ih =>
    apply keep
    . apply init
    . apply ih
    . apply last

theorem mono {step' : σ → ε → σ → Prop} (hstep : ∀ s e s', step s e s' → step' s e s')
    (hrun : Run step s tr s') : Run step' s tr s' := by
  induction hrun with
  | nil => apply nil
  | snoc _ last ih => apply ih.snoc (hstep _ _ _ last)

theorem simulate {τ δ : Type} {T : τ → δ → τ → Prop} {I : σ → Prop} (f : ε → δ) (g : σ → τ)
    (hstep : ∀ s e s', I s → step s e s' → T (g s) (f e) (g s') ∧ I s')
    (hrun : Run step s tr s') (start : I s) : Run T (g s) (tr.map f) (g s') ∧ I s' := by
  induction hrun with
  | nil => exact ⟨.nil, start⟩
  | snoc _ last ih =>
    have ⟨hlast, hinvariant⟩ := hstep _ _ _ ih.right last
    rw [List.map_append]
    exact ⟨.snoc ih.left hlast, hinvariant⟩

end Run

variable {α : Type} {f : σ → α → σ}

/--
If a step from a good state ends in a good state exactly when it meets `Q`, then all states of a
run are good exactly when all of its steps meet `Q`.
-/
theorem forall_reached_iff {P : σ → Prop} {Q : σ → α → Prop}
    (hstep : ∀ s a, P s → (P (f s a) ↔ Q s a)) {s : σ} (hs : P s) (as : List α)
    : (∀ pre, pre <+: as → P (pre.foldl f s))
        ↔
      (∀ pre a, pre ++ [a] <+: as → Q (pre.foldl f s) a) := by
  constructor
  . intro h pre a hpre
    have hgood := h pre ((List.prefix_append pre [a]).trans hpre)
    have hnext := h (pre ++ [a]) hpre
    rw [List.foldl_append] at hnext
    rw [← hstep _ a hgood]
    apply hnext
  . intro h pre hpre
    induction pre using List.reverseRecOn with
    | nil => assumption
    | append_singleton pre a ih =>
      rw [List.foldl_append]
      have hgood := ih ((List.prefix_append pre [a]).trans hpre)
      apply (hstep _ a hgood).mpr
      apply h pre a hpre

end Transition
