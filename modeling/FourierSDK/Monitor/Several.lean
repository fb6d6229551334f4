import Mathlib.Data.List.Nodup
import FourierSDK.Monitor.Basic
import FourierSDK.Transition.Projection

/-!
This module contains any number of lock-protected objects that are used by the same threads. An
operation of one object may call operations of the others while it holds its own lock, so that the
frames of a thread belong to different objects.

What is seen of one object is that object alone: a call that one of its operations makes is a step
of the body there, and what the thread does in other objects meanwhile is not seen. A thread that
calls an operation of an object which it is inside of already (`reenter`) waits for itself, be it
directly or by way of other objects. Of this nothing is seen but the frame that holds the lock.
-/

namespace Monitor.Several

open Transition

variable {G Tid Op Local σ Label : Type}

structure Objects (G Op Local σ Label : Type) where
  enter : Op → Local
  body : Local → σ → Label → Local → σ → Prop
  calls : Local → G → Op → Local → Prop
  final : Local → Prop

def Objects.alone (objs : Objects G Op Local σ Label) (silent : Label)
    : Object Op Local σ Label where
  enter := objs.enter
  body l shared label l' shared' :=
    objs.body l shared label l' shared'
      ∨ label = silent ∧ shared' = shared ∧ ∃ g op, objs.calls l g op l'
  calls _ _ _ := False
  final := objs.final

@[simp]
theorem Objects.alone_enter (objs : Objects G Op Local σ Label) (silent : Label) (op : Op)
    : (objs.alone silent).enter op = objs.enter op := by
  rfl

structure State (G Tid Op Local σ : Type) where
  shared : G → σ
  holder : G → Option Tid
  stack : Tid → List (G × Frame Op Local)

inductive Event (G Tid Op Label : Type) where
  | call (t : Tid) (g : G) (op : Op)
  | callFrom (t : Tid) (caller g : G) (op : Op)
  | reenter (t : Tid) (caller g : G) (op : Op)
  | acquire (t : Tid) (g : G) (op : Op)
  | body (t : Tid) (g : G) (label : Label)
  | release (t : Tid) (g : G) (op : Op)
  | ret (t : Tid) (g : G) (op : Op)
  deriving DecidableEq

def Event.thread : Event G Tid Op Label → Tid
  | .call t _ _ => t
  | .callFrom t _ _ _ => t
  | .reenter t _ _ _ => t
  | .acquire t _ _ => t
  | .body t _ _ => t
  | .release t _ _ => t
  | .ret t _ _ => t

def State.start (shared : G → σ) : State G Tid Op Local σ where
  shared := shared
  holder _ := none
  stack _ := []

/-! ### The frames of a thread -/

structure Nested (fs : List (G × Frame Op Local)) : Prop where
  inside : ∀ f ∈ fs, ∃ op l, f.2 = .inside op l
  distinct : (fs.map Prod.fst).Nodup

inductive Stacked : List (G × Frame Op Local) → Prop where
  | idle : Stacked []
  | waiting {g op fs} (h : Nested fs) : Stacked ((g, .waiting op) :: fs)
  | inside {g op l fs} (h : Nested ((g, .inside op l) :: fs)) : Stacked ((g, .inside op l) :: fs)
  | leaving {g op fs} (h : Nested fs) (hfresh : ∀ f ∈ fs, f.1 ≠ g)
    : Stacked ((g, .leaving op) :: fs)

def Within (g : G) (fs : List (G × Frame Op Local)) : Prop :=
  ∃ op l, (g, .inside op l) ∈ fs

section

variable {g g' : G} {op : Op} {l l' : Local} {fs : List (G × Frame Op Local)}

theorem Nested.nil : Nested ([] : List (G × Frame Op Local)) := by
  constructor
  . simp
  . simp

theorem nested_cons_iff
    : Nested ((g, .inside op l) :: fs) ↔ Nested fs ∧ ∀ f ∈ fs, f.1 ≠ g := by
  constructor
  . intro ⟨hinside, hdistinct⟩
    rw [List.map_cons, List.nodup_cons] at hdistinct
    refine ⟨⟨fun f hf => hinside f (List.mem_cons_of_mem _ hf), hdistinct.right⟩, ?_⟩
    intro f hf hg
    apply hdistinct.left
    rw [← hg]
    apply List.mem_map_of_mem hf
  . intro ⟨⟨hinside, hdistinct⟩, hfresh⟩
    constructor
    . intro f hf
      cases hf with
      | head => exact ⟨op, l, rfl⟩
      | tail _ hf => apply hinside f hf
    . rw [List.map_cons, List.nodup_cons]
      refine ⟨?_, hdistinct⟩
      intro hg
      have ⟨f, hf, hfg⟩ := List.mem_map.mp hg
      exact hfresh f hf hfg

theorem Nested.setLocal (h : Nested ((g, .inside op l) :: fs))
    : Nested ((g, .inside op l') :: fs) := by
  rw [nested_cons_iff] at h ⊢
  exact h

theorem Nested.stacked (h : Nested fs) : Stacked fs := by
  cases fs with
  | nil => apply Stacked.idle
  | cons f fs =>
    have ⟨op, l, hf⟩ := h.inside f (by simp)
    obtain ⟨g, f⟩ := f
    dsimp only at hf
    subst hf
    apply Stacked.inside h

theorem Nested.within_iff (h : Nested fs) : Within g fs ↔ ∃ f ∈ fs, f.1 = g := by
  constructor
  . intro ⟨op, l, hmem⟩
    exact ⟨_, hmem, rfl⟩
  . intro ⟨f, hmem, hg⟩
    have ⟨op, l, hf⟩ := h.inside f hmem
    refine ⟨op, l, ?_⟩
    rw [← hg, ← hf]
    apply hmem

theorem Nested.fresh (h : Nested fs) (hwithin : ¬Within g fs) : ∀ f ∈ fs, f.1 ≠ g := by
  intro f hf hg
  exact hwithin (h.within_iff.mpr ⟨f, hf, hg⟩)

theorem Stacked.of_waiting (h : Stacked ((g, .waiting op) :: fs)) : Nested fs := by
  cases h
  assumption

theorem Stacked.of_inside (h : Stacked ((g, .inside op l) :: fs))
    : Nested ((g, .inside op l) :: fs) := by
  cases h
  assumption

theorem Stacked.of_leaving (h : Stacked ((g, .leaving op) :: fs))
    : Nested fs ∧ ∀ f ∈ fs, f.1 ≠ g := by
  cases h with
  | leaving h hfresh => exact ⟨h, hfresh⟩

theorem Stacked.top_of_waiting (h : Stacked fs) (hmem : (g, .waiting op) ∈ fs)
    : ∃ fs', fs = (g, .waiting op) :: fs' := by
  have hnot {fs' : List (G × Frame Op Local)} (h : Nested fs') : (g, .waiting op) ∉ fs' := by
    intro hmem
    have ⟨_, _, hinside⟩ := h.inside _ hmem
    simp at hinside
  cases h with
  | idle => simp at hmem
  | inside h => exact absurd hmem (hnot h)
  | @waiting g' op' fs' h =>
    cases hmem with
    | head => exact ⟨fs', rfl⟩
    | tail _ hmem => exact absurd hmem (hnot h)
  | leaving h hfresh =>
    cases hmem with
    | tail _ hmem => exact absurd hmem (hnot h)

@[simp]
theorem not_within_nil : ¬Within g ([] : List (G × Frame Op Local)) := by
  intro ⟨_, _, h⟩
  simp at h

@[simp]
theorem within_cons_waiting : Within g ((g', .waiting op) :: fs) ↔ Within g fs := by
  simp [Within]

@[simp]
theorem within_cons_leaving : Within g ((g', .leaving op) :: fs) ↔ Within g fs := by
  simp [Within]

@[simp]
theorem within_cons_inside : Within g ((g', .inside op l) :: fs) ↔ g = g' ∨ Within g fs := by
  constructor
  . intro ⟨op', l', h⟩
    simp only [List.mem_cons, Prod.mk.injEq, Frame.inside.injEq] at h
    cases h with
    | inl h => exact .inl h.left
    | inr h => exact .inr ⟨op', l', h⟩
  . intro h
    cases h with
    | inl h => exact ⟨op, l, by simp [h]⟩
    | inr h =>
      have ⟨op', l', h⟩ := h
      exact ⟨op', l', List.mem_cons_of_mem _ h⟩

end

/-! ### The steps -/

variable [DecidableEq Tid]

namespace State

def setStack (s : State G Tid Op Local σ) (t : Tid) (fs : List (G × Frame Op Local))
    : State G Tid Op Local σ :=
  { s with stack := Function.update s.stack t fs }

variable (s : State G Tid Op Local σ) (t : Tid) (fs : List (G × Frame Op Local))

@[simp]
theorem setStack_stack_self : (s.setStack t fs).stack t = fs := by
  simp [setStack]

theorem setStack_stack_of_ne {u : Tid} (h : u ≠ t) : (s.setStack t fs).stack u = s.stack u := by
  simp [setStack, h]

end State

variable [DecidableEq G] (objs : Objects G Op Local σ Label)

inductive Step
    : State G Tid Op Local σ → Event G Tid Op Label → State G Tid Op Local σ → Prop where
  | call {s t g op} (hstack : s.stack t = [])
    : Step s (.call t g op) (s.setStack t [(g, .waiting op)])
  | callFrom {s t g op l g' op' l' fs} (hstack : s.stack t = (g, .inside op l) :: fs)
    (hcalls : objs.calls l g' op' l') (hfresh : ∀ f ∈ s.stack t, f.1 ≠ g')
    : Step s (.callFrom t g g' op')
        (s.setStack t ((g', .waiting op') :: (g, .inside op l') :: fs))
  | reenter {s t g op l g' op' l' fs} (hstack : s.stack t = (g, .inside op l) :: fs)
    (hcalls : objs.calls l g' op' l') (hinside : ∃ f ∈ s.stack t, f.1 = g')
    : Step s (.reenter t g g' op')
        (s.setStack t ((g', .waiting op') :: (g, .inside op l') :: fs))
  | acquire {s t g op fs} (hstack : s.stack t = (g, .waiting op) :: fs)
    (hfree : s.holder g = none)
    : Step s (.acquire t g op)
        ({ s with holder := Function.update s.holder g (some t) }.setStack t
          ((g, .inside op (objs.enter op)) :: fs))
  | body {s t g op l fs label l' shared} (hstack : s.stack t = (g, .inside op l) :: fs)
    (hbody : objs.body l (s.shared g) label l' shared)
    : Step s (.body t g label)
        ({ s with shared := Function.update s.shared g shared }.setStack t
          ((g, .inside op l') :: fs))
  | release {s t g op l fs} (hstack : s.stack t = (g, .inside op l) :: fs)
    (hfinal : objs.final l)
    : Step s (.release t g op)
        ({ s with holder := Function.update s.holder g none }.setStack t
          ((g, .leaving op) :: fs))
  | ret {s t g op fs} (hstack : s.stack t = (g, .leaving op) :: fs)
    : Step s (.ret t g op) (s.setStack t fs)

variable {objs} {s s' : State G Tid Op Local σ} {e : Event G Tid Op Label}

structure Sound (s : State G Tid Op Local σ) : Prop where
  stacked : ∀ t, Stacked (s.stack t)
  holder : ∀ g t, s.holder g = some t ↔ Within g (s.stack t)

omit [DecidableEq G] [DecidableEq Tid] in
theorem Sound.start (shared : G → σ) : Sound (State.start shared : State G Tid Op Local σ) := by
  constructor
  . intro t
    apply Stacked.idle
  . intro g t
    simp [State.start]

omit [DecidableEq G] in
theorem Sound.update (h : Sound s) (t : Tid) (fs : List (G × Frame Op Local)) (shared : G → σ)
    (holder : G → Option Tid) (hstacked : Stacked fs)
    (hself : ∀ g, holder g = some t ↔ Within g fs)
    (hothers : ∀ g u, u ≠ t → (holder g = some u ↔ s.holder g = some u))
    : Sound (State.setStack { s with shared := shared, holder := holder } t fs) := by
  constructor
  . intro u
    by_cases hut : u = t
    . rw [hut, State.setStack_stack_self]
      apply hstacked
    . rw [State.setStack_stack_of_ne _ _ _ hut]
      apply h.stacked u
  . intro g u
    by_cases hut : u = t
    . rw [hut, State.setStack_stack_self]
      apply hself
    . rw [State.setStack_stack_of_ne _ _ _ hut, ← h.holder g u]
      apply hothers g u hut

omit [DecidableEq G] [DecidableEq Tid] in
theorem Sound.nested (h : Sound s) {t : Tid} {g : G} {op : Op} {l : Local}
    {fs : List (G × Frame Op Local)} (hstack : s.stack t = (g, .inside op l) :: fs)
    : Nested ((g, .inside op l) :: fs) := by
  apply Stacked.of_inside
  rw [← hstack]
  apply h.stacked

theorem Sound.step (h : Sound s) (hstep : Step objs s e s') : Sound s' := by
  have hsame {t : Tid} {fs : List (G × Frame Op Local)} (hstacked : Stacked fs)
      (hwithin : ∀ g, Within g (s.stack t) ↔ Within g fs) (shared : G → σ)
      : Sound (State.setStack { s with shared := shared } t fs) := by
    apply h.update t fs shared s.holder hstacked
    . intro g
      rw [h.holder, hwithin]
    . intros
      rfl
  cases hstep with
  | @call t g op hstack =>
    apply hsame (Stacked.waiting .nil)
    simp [hstack]
  | @callFrom t g op l g' op' l' fs hstack hcalls hfresh =>
    apply hsame (Stacked.waiting (h.nested hstack).setLocal)
    simp [hstack]
  | @reenter t g op l g' op' l' fs hstack hcalls hinside =>
    apply hsame (Stacked.waiting (h.nested hstack).setLocal)
    simp [hstack]
  | @body t g op l fs label l' shared hstack hbody =>
    apply hsame (Stacked.inside (h.nested hstack).setLocal)
    simp [hstack]
  | @ret t g op fs hstack =>
    have hleaving : Stacked ((g, .leaving op) :: fs) := by
      rw [← hstack]
      apply h.stacked
    apply hsame hleaving.of_leaving.left.stacked
    simp [hstack]
  | @acquire t g op fs hstack hfree =>
    have hstacked := h.stacked t
    rw [hstack] at hstacked
    have hnested := hstacked.of_waiting
    have hout (u : Tid) : ¬Within g (s.stack u) := by
      rw [← h.holder, hfree]
      simp
    have hfresh : ¬Within g fs := by
      have hout := hout t
      simpa [hstack] using hout
    apply h.update t _ s.shared
    . apply Stacked.inside
      rw [nested_cons_iff]
      exact ⟨hnested, hnested.fresh hfresh⟩
    . intro g'
      by_cases hg : g' = g
      . simp [hg]
      . have hwithin := h.holder g' t
        simp [hg, hwithin, hstack]
    . intro g' u hut
      by_cases hg : g' = g
      . subst hg
        simp [hfree, hut.symm]
      . simp [hg]
  | @release t g op l fs hstack hfinal =>
    have ⟨hnested, hfresh⟩ := nested_cons_iff.mp (h.nested hstack)
    have hholder : s.holder g = some t := by
      rw [h.holder, hstack]
      simp
    apply h.update t _ s.shared
    . apply Stacked.leaving hnested hfresh
    . intro g'
      by_cases hg : g' = g
      . subst hg
        have hout : ¬Within g' fs := by
          rw [hnested.within_iff]
          intro ⟨f, hf, hfg⟩
          exact hfresh f hf hfg
        simp [hout]
      . have hwithin := h.holder g' t
        simp [hg, hwithin, hstack]
    . intro g' u hut
      by_cases hg : g' = g
      . subst hg
        simp [hholder, hut.symm]
      . simp [hg]

theorem Step.exists_call {t : Tid} {g g' : G} {op op' : Op} {l l' : Local}
    {fs : List (G × Frame Op Local)} (hstack : s.stack t = (g, .inside op l) :: fs)
    (hcalls : objs.calls l g' op' l')
    : ∃ e s', (e = .callFrom t g g' op' ∨ e = .reenter t g g' op') ∧ Step objs s e s' := by
  by_cases hinside : ∃ f ∈ s.stack t, f.1 = g'
  . exact ⟨_, _, .inr rfl, .reenter hstack hcalls hinside⟩
  . refine ⟨_, _, .inl rfl, .callFrom hstack hcalls ?_⟩
    intro f hf hg
    exact hinside ⟨f, hf, hg⟩

theorem Step.free_of_acquire (hstep : Step objs s e s') {t : Tid} {g : G} {op : Op}
    (he : e = .acquire t g op) : s.holder g = none := by
  cases hstep with
  | acquire hstack hfree =>
    cases he
    exact hfree
  | _ => cases he

theorem sound_of_run {shared₀ : G → σ} {tr : List (Event G Tid Op Label)}
    (hrun : Run (Step objs) (.start shared₀) tr s) : Sound s := by
  apply hrun.invariant (P := fun _ s' => Sound s') (.start shared₀)
  intro _ _ _ _ _ h hstep
  apply h.step hstep

/-! ### What is seen of one object -/

section

omit [DecidableEq Tid]

variable {g g' : G} {f : G × Frame Op Local} {fs : List (G × Frame Op Local)}

def oldest? (g : G) : List (G × Frame Op Local) → Option (Frame Op Local)
  | [] => none
  | f :: fs => (oldest? g fs).or (if f.1 = g then some f.2 else none)

theorem oldest?_eq_none_iff : oldest? g fs = none ↔ ∀ f ∈ fs, f.1 ≠ g := by
  induction fs with
  | nil => simp [oldest?]
  | cons f fs ih => simp [oldest?, ih, and_comm]

theorem oldest?_cons_of_ne (h : f.1 ≠ g) : oldest? g (f :: fs) = oldest? g fs := by
  simp [oldest?, h]

theorem oldest?_cons_of_fresh (h : ∀ f ∈ fs, f.1 ≠ g) (x : Frame Op Local)
    : oldest? g ((g, x) :: fs) = some x := by
  simp [oldest?, oldest?_eq_none_iff.mpr h]

theorem oldest?_cons_of_some {x : Frame Op Local} (h : oldest? g fs = some x)
    : oldest? g (f :: fs) = some x := by
  simp [oldest?, h]

theorem oldest?_cons_of_mem (h : ∃ f ∈ fs, f.1 = g) : oldest? g (f :: fs) = oldest? g fs := by
  cases holdest : oldest? g fs with
  | some x => apply oldest?_cons_of_some holdest
  | none =>
    have ⟨f, hf, hg⟩ := h
    exact absurd hg (oldest?_eq_none_iff.mp holdest f hf)

theorem mem_of_oldest? {x : Frame Op Local} (h : oldest? g fs = some x) : (g, x) ∈ fs := by
  induction fs with
  | nil => simp [oldest?] at h
  | cons f fs ih =>
    cases hrest : oldest? g fs with
    | some y =>
      rw [oldest?_cons_of_some hrest, ← hrest] at h
      apply List.mem_cons_of_mem
      apply ih h
    | none =>
      simp only [oldest?, hrest, Option.none_or, Option.ite_none_right_eq_some,
        Option.some.injEq] at h
      rw [← h.left, ← h.right]
      apply List.mem_cons_self

theorem oldest?_cons_congr {x y : Frame Op Local} (h : g' ≠ g)
    : oldest? g ((g', x) :: fs) = oldest? g ((g', y) :: fs) := by
  rw [oldest?_cons_of_ne h, oldest?_cons_of_ne h]

end

def State.at (s : State G Tid Op Local σ) (g : G) : Monitor.State Tid Op Local σ where
  shared := s.shared g
  holder := s.holder g
  stack t := (oldest? g (s.stack t)).toList

def Event.seen (silent : Label) (g : G) : Event G Tid Op Label → Option (Monitor.Event Tid Op Label)
  | .call t g' op => if g' = g then some (.call t op) else none
  | .callFrom t caller g' op =>
    if caller = g then some (.body t silent) else if g' = g then some (.call t op) else none
  | .reenter t caller _ _ => if caller = g then some (.body t silent) else none
  | .acquire t g' op => if g' = g then some (.acquire t op) else none
  | .body t g' label => if g' = g then some (.body t label) else none
  | .release t g' op => if g' = g then some (.release t op) else none
  | .ret t g' op => if g' = g then some (.ret t op) else none

theorem State.at_setStack (s : State G Tid Op Local σ) (t : Tid) (fs : List (G × Frame Op Local))
    (g : G) : (s.setStack t fs).at g = (s.at g).setStack t (oldest? g fs).toList := by
  unfold State.at Monitor.State.setStack
  congr 1
  funext u
  by_cases hut : u = t
  . simp [hut]
  . rw [setStack_stack_of_ne _ _ _ hut]
    simp [hut]

theorem State.at_setStack_of_eq (s : State G Tid Op Local σ) {t : Tid}
    {fs : List (G × Frame Op Local)} {g : G} (h : oldest? g fs = oldest? g (s.stack t))
    : (s.setStack t fs).at g = s.at g := by
  rw [at_setStack, h]
  unfold State.at Monitor.State.setStack
  simp

omit [DecidableEq Tid] in
theorem State.at_stack_of_fresh (s : State G Tid Op Local σ) {t : Tid} {g : G}
    {f : Frame Op Local} {fs : List (G × Frame Op Local)} (hstack : s.stack t = (g, f) :: fs)
    (hfresh : ∀ f ∈ fs, f.1 ≠ g) : (s.at g).stack t = [f] := by
  have holdest : oldest? g (s.stack t) = some f := by
    rw [hstack, oldest?_cons_of_fresh hfresh]
  simp [State.at, holdest]

omit [DecidableEq G] [DecidableEq Tid] in
theorem Sound.fresh (h : Sound s) {t : Tid} {g : G} {op : Op} {l : Local}
    {fs : List (G × Frame Op Local)} (hstack : s.stack t = (g, .inside op l) :: fs)
    : ∀ f ∈ fs, f.1 ≠ g := by
  exact (nested_cons_iff.mp (h.nested hstack)).right

omit [DecidableEq G] [DecidableEq Tid] in
theorem Sound.fresh_of_free (h : Sound s) {t : Tid} {g : G} {op : Op}
    {fs : List (G × Frame Op Local)} (hstack : s.stack t = (g, .waiting op) :: fs)
    (hfree : s.holder g = none) : ∀ f ∈ fs, f.1 ≠ g := by
  have hstacked := h.stacked t
  rw [hstack] at hstacked
  apply hstacked.of_waiting.fresh
  have hwithin := (h.holder g t).not
  rw [hstack, within_cons_waiting, hfree] at hwithin
  exact hwithin.mp (by simp)

variable {silent : Label} {g : G}

theorem Step.shown (h : Sound s) (hstep : Step objs s e s') {e' : Monitor.Event Tid Op Label}
    (he : e.seen silent g = some e')
    : Monitor.Step (objs.alone silent) (s.at g) e' (s'.at g) := by
  cases hstep with
  | @call t g' op hstack =>
    simp only [Event.seen, Option.ite_none_right_eq_some, Option.some.injEq] at he
    obtain ⟨hg, he⟩ := he
    subst hg he
    rw [State.at_setStack, oldest?_cons_of_fresh (by simp)]
    apply Monitor.Step.call
    simp [State.at, hstack, oldest?]
  | @callFrom t caller op l g' op' l' fs hstack hcalls hfresh =>
    by_cases hcaller : caller = g
    . simp only [Event.seen, hcaller, ↓reduceIte, Option.some.injEq] at he
      subst hcaller he
      have hinside : oldest? caller ((caller, .inside op l') :: fs) = some (.inside op l') := by
        apply oldest?_cons_of_fresh (h.fresh hstack)
      rw [State.at_setStack, oldest?_cons_of_some hinside]
      apply Monitor.Step.body (s.at_stack_of_fresh hstack (h.fresh hstack))
      exact .inr ⟨rfl, rfl, g', op', hcalls⟩
    . simp only [Event.seen, hcaller, ↓reduceIte, Option.ite_none_right_eq_some,
        Option.some.injEq] at he
      obtain ⟨hg, he⟩ := he
      subst hg he
      have hfresh' : ∀ f ∈ (caller, Frame.inside op l') :: fs, f.1 ≠ g' := by
        simpa [hstack] using hfresh
      rw [State.at_setStack, oldest?_cons_of_fresh hfresh']
      apply Monitor.Step.call
      simp [State.at, oldest?_eq_none_iff.mpr hfresh]
  | @reenter t caller op l g' op' l' fs hstack hcalls hinside =>
    simp only [Event.seen, Option.ite_none_right_eq_some, Option.some.injEq] at he
    obtain ⟨hcaller, he⟩ := he
    subst hcaller he
    have hinside : oldest? caller ((caller, .inside op l') :: fs) = some (.inside op l') := by
      apply oldest?_cons_of_fresh (h.fresh hstack)
    rw [State.at_setStack, oldest?_cons_of_some hinside]
    apply Monitor.Step.body (s.at_stack_of_fresh hstack (h.fresh hstack))
    exact .inr ⟨rfl, rfl, g', op', hcalls⟩
  | @acquire t g' op fs hstack hfree =>
    simp only [Event.seen, Option.ite_none_right_eq_some, Option.some.injEq] at he
    obtain ⟨hg, he⟩ := he
    subst hg he
    have hfresh := h.fresh_of_free hstack hfree
    rw [State.at_setStack, oldest?_cons_of_fresh hfresh]
    have hstep : Monitor.Step (objs.alone silent) (s.at g') (.acquire t op) _ :=
      .acquire (s.at_stack_of_fresh hstack hfresh) hfree
    simpa [State.at] using hstep
  | @body t g' op l fs label l' shared hstack hbody =>
    simp only [Event.seen, Option.ite_none_right_eq_some, Option.some.injEq] at he
    obtain ⟨hg, he⟩ := he
    subst hg he
    have hfresh := h.fresh hstack
    rw [State.at_setStack, oldest?_cons_of_fresh hfresh]
    have hstep : Monitor.Step (objs.alone silent) (s.at g') (.body t label) _ :=
      .body (s.at_stack_of_fresh hstack hfresh) (.inl hbody)
    simpa [State.at] using hstep
  | @release t g' op l fs hstack hfinal =>
    simp only [Event.seen, Option.ite_none_right_eq_some, Option.some.injEq] at he
    obtain ⟨hg, he⟩ := he
    subst hg he
    have hfresh := h.fresh hstack
    rw [State.at_setStack, oldest?_cons_of_fresh hfresh]
    have hstep : Monitor.Step (objs.alone silent) (s.at g') (.release t op) _ :=
      .release (s.at_stack_of_fresh hstack hfresh) hfinal
    simpa [State.at] using hstep
  | @ret t g' op fs hstack =>
    simp only [Event.seen, Option.ite_none_right_eq_some, Option.some.injEq] at he
    obtain ⟨hg, he⟩ := he
    subst hg he
    have hstacked := h.stacked t
    rw [hstack] at hstacked
    have hfresh := hstacked.of_leaving.right
    rw [State.at_setStack, oldest?_eq_none_iff.mpr hfresh]
    apply Monitor.Step.ret (s.at_stack_of_fresh hstack hfresh)

theorem Step.hidden (hstep : Step objs s e s') (he : e.seen silent g = none)
    : s'.at g = s.at g := by
  cases hstep with
  | @call t g' op hstack =>
    simp only [Event.seen, ite_eq_right_iff, reduceCtorEq, imp_false] at he
    apply State.at_setStack_of_eq
    rw [oldest?_cons_of_ne he, hstack]
  | @callFrom t caller op l g' op' l' fs hstack hcalls hfresh =>
    have hcaller : caller ≠ g := by
      intro hcaller
      simp [Event.seen, hcaller] at he
    have hg : g' ≠ g := by
      intro hg
      simp [Event.seen, hcaller, hg] at he
    apply State.at_setStack_of_eq
    rw [oldest?_cons_of_ne hg, oldest?_cons_congr hcaller, hstack]
  | @reenter t caller op l g' op' l' fs hstack hcalls hinside =>
    simp only [Event.seen, ite_eq_right_iff, reduceCtorEq, imp_false] at he
    apply State.at_setStack_of_eq
    by_cases hg : g' = g
    . subst hg
      rw [oldest?_cons_of_mem, oldest?_cons_congr he, hstack]
      simpa [hstack] using hinside
    . rw [oldest?_cons_of_ne hg, oldest?_cons_congr he, hstack]
  | @acquire t g' op fs hstack hfree =>
    simp only [Event.seen, ite_eq_right_iff, reduceCtorEq, imp_false] at he
    rw [State.at_setStack_of_eq]
    . simp [State.at, Ne.symm he]
    . rw [oldest?_cons_congr he]
      exact congrArg _ hstack.symm
  | @body t g' op l fs label l' shared hstack hbody =>
    simp only [Event.seen, ite_eq_right_iff, reduceCtorEq, imp_false] at he
    rw [State.at_setStack_of_eq]
    . simp [State.at, Ne.symm he]
    . rw [oldest?_cons_congr he]
      exact congrArg _ hstack.symm
  | @release t g' op l fs hstack hfinal =>
    simp only [Event.seen, ite_eq_right_iff, reduceCtorEq, imp_false] at he
    rw [State.at_setStack_of_eq]
    . simp [State.at, Ne.symm he]
    . rw [oldest?_cons_congr he]
      exact congrArg _ hstack.symm
  | @ret t g' op fs hstack =>
    simp only [Event.seen, ite_eq_right_iff, reduceCtorEq, imp_false] at he
    apply State.at_setStack_of_eq
    rw [hstack, oldest?_cons_of_ne he]

variable (Tid) in
theorem projects (objs : Objects G Op Local σ Label) (silent : Label) (g : G)
    : Projects (Step objs) (Monitor.Step (objs.alone silent)) Sound
        (fun s : State G Tid Op Local σ => s.at g) (Event.seen silent g) := by
  constructor
  . intro _ _ _ h hstep
    apply h.step hstep
  . intro _ _ _ _ h hstep he
    apply hstep.shown h he
  . intro _ _ _ _ hstep he
    apply hstep.hidden he

end Monitor.Several
