import Mathlib.Order.WellFounded
import Mathlib.Logic.Relation
import FourierSDK.Monitor.Several

/-!
This module contains what an order of the objects is good for. If operations only call operations of
later objects, no threads wait for each other in a circle, so that each thread can go on or waits for
one that can.
-/

namespace Monitor.Several

open Transition

variable {G Tid Op Local σ Label : Type} [Preorder G]

def Event.Upward : Event G Tid Op Label → Prop
  | .callFrom _ caller g _ => caller < g
  | .reenter _ caller g _ => caller < g
  | _ => True

def Ascending (s : State G Tid Op Local σ) : Prop :=
  ∀ t, (s.stack t).Pairwise fun f f' => f'.1 < f.1

variable [DecidableEq G] [DecidableEq Tid] {objs : Objects G Op Local σ Label}
variable {s s' : State G Tid Op Local σ} {e : Event G Tid Op Label}
variable {tr : List (Event G Tid Op Label)} {shared₀ : G → σ}

omit [DecidableEq G] in
theorem Ascending.setStack (h : Ascending s) (t : Tid) (fs : List (G × Frame Op Local))
    (hfs : fs.Pairwise fun f f' => f'.1 < f.1) : Ascending (s.setStack t fs) := by
  intro u
  by_cases hut : u = t
  . rw [hut, State.setStack_stack_self]
    exact hfs
  . rw [State.setStack_stack_of_ne _ _ _ hut]
    apply h u

omit [DecidableEq G] [DecidableEq Tid] in
theorem Ascending.top (h : Ascending s) {t : Tid} {g : G} {f : Frame Op Local}
    {fs : List (G × Frame Op Local)} (hstack : s.stack t = (g, f) :: fs) (f' : Frame Op Local)
    : ((g, f') :: fs).Pairwise fun f f' => f'.1 < f.1 := by
  have hpairwise := h t
  rw [hstack, List.pairwise_cons] at hpairwise
  rw [List.pairwise_cons]
  exact hpairwise

omit [DecidableEq G] [DecidableEq Tid] in
theorem Ascending.push (h : Ascending s) {t : Tid} {g g' : G} {f : Frame Op Local}
    {fs : List (G × Frame Op Local)} (hstack : s.stack t = (g, f) :: fs) (hlt : g < g')
    (f' f'' : Frame Op Local)
    : ((g', f'') :: (g, f') :: fs).Pairwise fun f f' => f'.1 < f.1 := by
  have hpairwise := h.top hstack f'
  rw [List.pairwise_cons]
  refine ⟨?_, hpairwise⟩
  intro x hx
  cases hx with
  | head => exact hlt
  | tail _ hx => apply lt_trans (List.rel_of_pairwise_cons hpairwise hx) hlt

theorem Ascending.step (h : Ascending s) (hstep : Step objs s e s') (hup : e.Upward)
    : Ascending s' := by
  cases hstep with
  | call hstack => apply h.setStack _ _ (by simp)
  | callFrom hstack => apply h.setStack _ _ (h.push hstack hup _ _)
  | reenter hstack => apply h.setStack _ _ (h.push hstack hup _ _)
  | acquire hstack => exact Ascending.setStack (s := { s with holder := _ }) h _ _ (h.top hstack _)
  | body hstack => exact Ascending.setStack (s := { s with shared := _ }) h _ _ (h.top hstack _)
  | release hstack => exact Ascending.setStack (s := { s with holder := _ }) h _ _ (h.top hstack _)
  | @ret t g op fs hstack =>
    apply h.setStack
    have hpairwise := h t
    rw [hstack, List.pairwise_cons] at hpairwise
    exact hpairwise.right

theorem ascending_of_run (hrun : Run (Step objs) (.start shared₀) tr s)
    (hup : ∀ e ∈ tr, e.Upward) : Ascending s := by
  have hinvariant := hrun.invariant (P := fun tr s => (∀ e ∈ tr, e.Upward) → Ascending s)
  apply hinvariant
  . intro _ t
    apply List.Pairwise.nil
  . intro tr s₁ e s₂ _ ih hstep hup
    apply (ih fun e he => hup e (by simp [he])).step hstep
    apply hup
    simp
  . exact hup

/-! ### Some thread can go on -/

def State.WaitsFor (s : State G Tid Op Local σ) (t u : Tid) : Prop :=
  ∃ g op fs, s.stack t = (g, .waiting op) :: fs ∧ s.holder g = some u

def Objects.CanGoOn (objs : Objects G Op Local σ Label) (l : Local) (shared : σ) : Prop :=
  objs.final l ∨ (∃ label l' shared', objs.body l shared label l' shared')
    ∨ ∃ g op l', objs.calls l g op l'

def Going (objs : Objects G Op Local σ Label) (s : State G Tid Op Local σ) : Prop :=
  ∀ t g op l fs, s.stack t = (g, .inside op l) :: fs → objs.CanGoOn l (s.shared g)

omit [Preorder G] in
theorem Going.step_of_inside (h : Going objs s) {t : Tid} {g : G} {op : Op} {l : Local}
    {fs : List (G × Frame Op Local)} (hstack : s.stack t = (g, .inside op l) :: fs)
    : ∃ e s', e.thread = t ∧ Step objs s e s' := by
  rcases h t g op l fs hstack with hfinal | ⟨label, l', shared', hbody⟩ | ⟨g', op', l', hcalls⟩
  . exact ⟨.release t g op, _, rfl, .release hstack hfinal⟩
  . exact ⟨.body t g label, _, rfl, .body hstack hbody⟩
  . have ⟨e, s', he, hstep⟩ := Step.exists_call hstack hcalls
    refine ⟨e, s', ?_, hstep⟩
    rcases he with he | he
    . rw [he]
      rfl
    . rw [he]
      rfl

omit [Preorder G] in
theorem not_step_of_all_waiting (h : ∀ t, ∃ u, s.WaitsFor t u) : ¬Step objs s e s' := by
  intro hstep
  have ⟨u, g, op, fs, hstack, hholder⟩ := h e.thread
  cases hstep with
  | acquire hstack' hfree =>
    simp only [Event.thread, hstack', List.cons.injEq, Prod.mk.injEq] at hstack
    rw [hstack.left.left, hholder] at hfree
    contradiction
  | call hstack' => simp [Event.thread, hstack'] at hstack
  | callFrom hstack' => simp [Event.thread, hstack'] at hstack
  | reenter hstack' => simp [Event.thread, hstack'] at hstack
  | body hstack' => simp [Event.thread, hstack'] at hstack
  | release hstack' => simp [Event.thread, hstack'] at hstack
  | ret hstack' => simp [Event.thread, hstack'] at hstack

section

variable [WellFoundedGT G]

theorem step_of_waiting (h : Sound s) (hascending : Ascending s) (hgoing : Going objs s) (g : G)
    : ∀ t op fs, s.stack t = (g, .waiting op) :: fs →
        ∃ e s', Relation.ReflTransGen s.WaitsFor t e.thread ∧ s.stack e.thread ≠ [] ∧
          Step objs s e s' := by
  induction g using WellFoundedGT.induction with
  | ind g ih =>
    intro t op fs hstack
    cases hholder : s.holder g with
    | none => exact ⟨.acquire t g op, _, .refl, by simp [Event.thread, hstack], .acquire hstack hholder⟩
    | some u =>
      have hwaits : s.WaitsFor t u := ⟨g, op, fs, hstack, hholder⟩
      have hwithin := (h.holder g u).mp hholder
      cases hstack' : s.stack u with
      | nil => simp [hstack'] at hwithin
      | cons f fs' =>
        obtain ⟨g', f⟩ := f
        cases f with
        | inside op' l =>
          have ⟨e, s', hthread, hstep⟩ := hgoing.step_of_inside hstack'
          subst hthread
          exact ⟨e, s', .single hwaits, by simp [hstack'], hstep⟩
        | leaving op' =>
          exact ⟨.ret u g' op', _, .single hwaits, by simp [Event.thread, hstack'], .ret hstack'⟩
        | waiting op' =>
          -- the frame that holds the lock is below the one that waits, so that it is of an earlier
          -- object
          rw [hstack', within_cons_waiting] at hwithin
          have ⟨op'', l, hmem⟩ := hwithin
          have hpairwise := hascending u
          rw [hstack'] at hpairwise
          have hlt := List.rel_of_pairwise_cons hpairwise hmem
          have ⟨e, s', hchain, hbusy, hstep⟩ := ih g' hlt u op' fs' hstack'
          exact ⟨e, s', .head hwaits hchain, hbusy, hstep⟩

theorem step_of_busy (h : Sound s) (hascending : Ascending s) (hgoing : Going objs s) {t : Tid}
    (hbusy : s.stack t ≠ [])
    : ∃ e s', Relation.ReflTransGen s.WaitsFor t e.thread ∧ s.stack e.thread ≠ [] ∧
        Step objs s e s' := by
  cases hstack : s.stack t with
  | nil => contradiction
  | cons f fs =>
    obtain ⟨g, f⟩ := f
    cases f with
    | waiting op => apply step_of_waiting h hascending hgoing g t op fs hstack
    | leaving op => exact ⟨.ret t g op, _, .refl, by simp [Event.thread, hstack], .ret hstack⟩
    | inside op l =>
      have ⟨e, s', hthread, hstep⟩ := hgoing.step_of_inside hstack
      subst hthread
      exact ⟨e, s', .refl, by simp [hstack], hstep⟩

end

end Monitor.Several
