import FourierSDK.Transition.Execution

/-!
This module contains projections of labelled transition relations. Of each step, the projection sees
a step of its own, or nothing at all, and then it does not see a change of the state either. What is
seen of a run is a run, what is seen of an execution is an execution.
-/

namespace Transition

variable {σ ε τ δ : Type} {step : σ → ε → σ → Prop} {step' : τ → δ → τ → Prop}

structure Projects (step : σ → ε → σ → Prop) (step' : τ → δ → τ → Prop) (I : σ → Prop)
    (see : σ → τ) (seen : ε → Option δ) : Prop where
  keep : ∀ s e s', I s → step s e s' → I s'
  shown : ∀ s e s' d, I s → step s e s' → seen e = some d → step' (see s) d (see s')
  hidden : ∀ s e s', I s → step s e s' → seen e = none → see s' = see s

variable {I : σ → Prop} {see : σ → τ} {seen : ε → Option δ} {s s' : σ} {tr : List ε}

theorem Run.keep (h : Projects step step' I see seen) (hrun : Run step s tr s') (hs : I s)
    : I s' := by
  apply hrun.invariant (P := fun _ s' => I s') hs
  intro tr s₁ e s₂ _ hi hstep
  apply h.keep _ _ _ hi hstep

theorem Run.project (h : Projects step step' I see seen) (hrun : Run step s tr s') (hs : I s)
    : Run step' (see s) (tr.filterMap seen) (see s') := by
  induction hrun with
  | nil => apply nil
  | @snoc tr s₁ e s₂ init last ih =>
    have hi := init.keep h hs
    rw [List.filterMap_append]
    cases hseen : seen e with
    | none =>
      rw [h.hidden _ _ _ hi last hseen]
      simpa [hseen] using ih
    | some d =>
      simp only [List.filterMap_cons, hseen, List.filterMap_nil]
      apply ih.snoc (h.shown _ _ _ _ hi last hseen)

namespace Execution

variable (E : Execution step s)

theorem keep (h : Projects step step' I see seen) (hs : I s) (n : Nat) : I (E.state n) := by
  apply (E.run n).keep h hs

def project (h : Projects step step' I see seen) (hs : I s) : Execution step' (see s) where
  state n := see (E.state n)
  event n := (E.event n).bind seen
  start := by rw [E.start]
  idle n hn := by
    cases he : E.event n with
    | none => rw [E.idle n he]
    | some e =>
      simp only [he, Option.bind_some] at hn
      apply h.hidden _ _ _ (E.keep h hs n) (E.next n e he) hn
  next n d hn := by
    cases he : E.event n with
    | none => simp [he] at hn
    | some e =>
      simp only [he, Option.bind_some] at hn
      apply h.shown _ _ _ _ (E.keep h hs n) (E.next n e he) hn

end Execution
end Transition
