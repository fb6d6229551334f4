import FourierSDK.Monitor.Basic

/-!
This module contains the proof that the operations of a lock-protected object are atomic: in every
interleaving, the shared state goes through the operations one after the other, in the order in
which they release the lock, and each of them runs as if it were alone.

`Solo` is a run of the body of one operation, `Section` a whole operation that runs alone.
`performed` are the operations of a trace that have released the lock, `labelsOf` the body steps of
one thread.
-/

namespace Monitor

open Transition

variable {Tid Op Local σ Label : Type}

namespace Object

variable (obj : Object Op Local σ Label)

def Solo : Local × σ → List Label → Local × σ → Prop :=
  Run fun p label q => obj.body p.1 p.2 label q.1 q.2

def Section (shared : σ) (op : Op) (shared' : σ) : Prop :=
  ∃ labels l, obj.Solo (obj.enter op, shared) labels (l, shared') ∧ obj.final l

end Object

def Event.performed? : Event Tid Op Label → Option Op
  | .release _ op => some op
  | _ => none

def performed (tr : List (Event Tid Op Label)) : List Op := tr.filterMap Event.performed?

@[simp]
theorem performed_append (tr tr' : List (Event Tid Op Label))
    : performed (tr ++ tr') = performed tr ++ performed tr' := by
  apply List.filterMap_append

@[simp]
theorem performed_cons (e : Event Tid Op Label) (tr : List (Event Tid Op Label))
    : performed (e :: tr) = e.performed?.toList ++ performed tr := by
  unfold performed
  rw [List.filterMap_cons]
  cases e.performed? with
  | none => rfl
  | some => rfl

@[simp]
theorem performed_nil : performed ([] : List (Event Tid Op Label)) = [] := by
  rfl

theorem Event.first_release {t : Tid} {op : Op} {tr : List (Event Tid Op Label)}
    (h : .release t op ∈ tr)
    : ∃ mid op' post, tr = mid ++ .release t op' :: post ∧ ∀ op'', .release t op'' ∉ mid := by
  induction tr with
  | nil => simp at h
  | cons e tr ih =>
    by_cases he : ∃ op', e = .release t op'
    . have ⟨op', he⟩ := he
      exact ⟨[], op', tr, by simp [he], by simp⟩
    . have hne (op' : Op) : .release t op' ≠ e := fun h => he ⟨op', h.symm⟩
      have ⟨mid, op', post, htr, hmid⟩ := ih (List.mem_of_ne_of_mem (hne op) h)
      refine ⟨e :: mid, op', post, by simp [htr], ?_⟩
      intro op''
      simp [hne op'', hmid op'']

variable [DecidableEq Tid]

def Event.labelOf? (t : Tid) : Event Tid Op Label → Option Label
  | .body u label => if u = t then some label else none
  | _ => none

def labelsOf (t : Tid) (tr : List (Event Tid Op Label)) : List Label :=
  tr.filterMap (Event.labelOf? t)

theorem labelsOf_snoc (t : Tid) (tr : List (Event Tid Op Label)) (e : Event Tid Op Label)
    : labelsOf t (tr ++ [e]) = labelsOf t tr ++ (e.labelOf? t).toList := by
  unfold labelsOf
  rw [List.filterMap_append]
  cases h : e.labelOf? t with
  | none => simp [h]
  | some => simp [h]

variable {obj : Object Op Local σ Label} {s s' : State Tid Op Local σ} {e : Event Tid Op Label}
variable {tr pre mid post : List (Event Tid Op Label)} {shared₀ : σ}

inductive InProgress (obj : Object Op Local σ Label) (s : State Tid Op Local σ) (base : σ)
    : Prop where
  | free (hholder : s.holder = none) (hshared : s.shared = base)
  | running {t op labels l} (hholder : s.holder = some t) (hstack : s.stack t = [.inside op l])
    (hsolo : obj.Solo (obj.enter op, base) labels (l, s.shared))
  | blocked {t op' op l} (hholder : s.holder = some t)
    (hstack : s.stack t = [.waiting op', .inside op l])

theorem InProgress.setStack {base : σ} (h : InProgress obj s base) {t : Tid}
    (hholder : s.holder ≠ some t) (fs : List (Frame Op Local))
    : InProgress obj (s.setStack t fs) base := by
  have hne {u : Tid} (hu : s.holder = some u) : u ≠ t := by
    intro hut
    subst hut
    contradiction
  cases h with
  | free hholder' hshared => exact .free hholder' hshared
  | @running u _ _ _ hholder' hstack hsolo =>
    have hstack' := (State.setStack_stack_of_ne s t fs (hne hholder')).trans hstack
    exact .running (t := u) hholder' hstack' hsolo
  | @blocked u _ _ _ hholder' hstack =>
    have hstack' := (State.setStack_stack_of_ne s t fs (hne hholder')).trans hstack
    exact .blocked (t := u) hholder' hstack'

omit [DecidableEq Tid] in
theorem InProgress.shared_of_free {base : σ} (h : InProgress obj s base) (hholder : s.holder = none)
    : s.shared = base := by
  cases h with
  | free _ hshared => exact hshared
  | running hholder' => simp [hholder] at hholder'
  | blocked hholder' => simp [hholder] at hholder'

omit [DecidableEq Tid] in
theorem InProgress.solo {base : σ} (h : InProgress obj s base) {t : Tid} {op : Op} {l : Local}
    (hholder : s.holder = some t) (hstack : s.stack t = [.inside op l])
    : ∃ labels, obj.Solo (obj.enter op, base) labels (l, s.shared) := by
  cases h with
  | free hholder' => simp [hholder] at hholder'
  | @running _ _ labels _ hholder' hstack' hsolo =>
    rw [hholder, Option.some.injEq] at hholder'
    subst hholder'
    simp only [hstack, List.cons.injEq, Frame.inside.injEq, and_true] at hstack'
    rw [← hstack'.left, ← hstack'.right] at hsolo
    exact ⟨labels, hsolo⟩
  | blocked hholder' hstack' =>
    rw [hholder, Option.some.injEq] at hholder'
    subst hholder'
    simp [hstack] at hstack'

theorem FlatStep.inProgress {ops : List Op} {base : σ} (hops : Run obj.Section shared₀ ops base)
    (h : InProgress obj s base) (hstep : FlatStep obj s e s')
    : ∃ base', Run obj.Section shared₀ (ops ++ e.performed?.toList) base'
        ∧ InProgress obj s' base' := by
  cases hstep with
  | call hholder hstack =>
    refine ⟨base, by simpa [Event.performed?] using hops, ?_⟩
    apply h.setStack hholder
  | ret hholder hstack =>
    refine ⟨base, by simpa [Event.performed?] using hops, ?_⟩
    apply h.setStack hholder
  | @reenter t op l op' l' hholder hstack hcalls =>
    refine ⟨base, by simpa [Event.performed?] using hops, ?_⟩
    exact .blocked (t := t) hholder (State.setStack_stack_self ..)
  | @acquire t op hholder hstack =>
    refine ⟨base, by simpa [Event.performed?] using hops, ?_⟩
    have hshared := h.shared_of_free hholder
    subst hshared
    exact .running (t := t) rfl (State.setStack_stack_self ..) .nil
  | @body t op l label l' shared hholder hstack hbody =>
    refine ⟨base, by simpa [Event.performed?] using hops, ?_⟩
    have ⟨labels, hsolo⟩ := h.solo hholder hstack
    exact .running (t := t) hholder (State.setStack_stack_self ..) (.snoc hsolo hbody)
  | @release t op l hholder hstack hfinal =>
    have ⟨labels, hsolo⟩ := h.solo hholder hstack
    refine ⟨s.shared, ?_, InProgress.free rfl rfl⟩
    apply Run.snoc hops ⟨_, _, hsolo, hfinal⟩

theorem inProgress_of_run (hrun : Run (Step obj) (.start shared₀) tr s)
    : ∃ base, Run obj.Section shared₀ (performed tr) base ∧ InProgress obj s base := by
  apply hrun.invariant
    (P := fun tr s => ∃ base, Run obj.Section shared₀ (performed tr) base ∧ InProgress obj s base)
  . exact ⟨shared₀, .nil, .free rfl rfl⟩
  . intro tr s e s' hrun ⟨base, hops, h⟩ hstep
    have hflat := hstep.flat (exclusive_of_run (.start shared₀) hrun)
    rw [performed_append, performed_cons, performed_nil, List.append_nil]
    apply hflat.inProgress hops h

structure Holds (obj : Object Op Local σ Label) (s : State Tid Op Local σ) (t : Tid) (op : Op)
    (l₀ : Local) (base : σ) (labels : List Label) : Prop where
  holder : s.holder = some t
  stack : ∃ l, (s.stack t = [.inside op l] ∧ obj.Solo (l₀, base) labels (l, s.shared))
    ∨ ∃ op', s.stack t = [.waiting op', .inside op l]

theorem Holds.setStack {t : Tid} {op : Op} {l₀ : Local} {base : σ} {labels : List Label}
    (h : Holds obj s t op l₀ base labels) {u : Tid} (hu : s.holder ≠ some u)
    (fs : List (Frame Op Local)) : Holds obj (s.setStack u fs) t op l₀ base labels := by
  have hne : t ≠ u := by
    intro htu
    subst htu
    exact hu h.holder
  constructor
  . apply h.holder
  . rw [State.setStack_stack_of_ne _ _ _ hne]
    apply h.stack

omit [DecidableEq Tid] in
theorem Holds.inside {t : Tid} {op op' : Op} {l₀ l : Local} {base : σ} {labels : List Label}
    (h : Holds obj s t op l₀ base labels) (hstack : s.stack t = [.inside op' l])
    : op' = op ∧ obj.Solo (l₀, base) labels (l, s.shared) := by
  have ⟨l', hl⟩ := h.stack
  simp only [hstack, List.cons.injEq, Frame.inside.injEq, and_true, reduceCtorEq, false_and,
    exists_false, or_false] at hl
  have ⟨⟨hop, hlocal⟩, hsolo⟩ := hl
  rw [← hlocal] at hsolo
  exact ⟨hop, hsolo⟩

theorem FlatStep.holds {t : Tid} {op : Op} {l₀ : Local} {base : σ} {labels : List Label}
    (h : Holds obj s t op l₀ base labels) (hstep : FlatStep obj s e s')
    (hrelease : ∀ op', e ≠ .release t op')
    : Holds obj s' t op l₀ base (labels ++ (e.labelOf? t).toList) := by
  have hsame {u : Tid} (hu : s.holder = some u) : u = t := by
    rw [h.holder, Option.some.injEq] at hu
    rw [hu]
  cases hstep with
  | call hholder hstack => simpa [Event.labelOf?] using h.setStack hholder _
  | ret hholder hstack => simpa [Event.labelOf?] using h.setStack hholder _
  | acquire hholder hstack => simp [h.holder] at hholder
  | release hholder hstack hfinal =>
    have hu := hsame hholder
    subst hu
    simp at hrelease
  | @reenter u op₁ l op' l' hholder hstack hcalls =>
    have hu := hsame hholder
    subst hu
    have ⟨hop, _⟩ := h.inside hstack
    refine ⟨h.holder, l', .inr ⟨op', ?_⟩⟩
    rw [State.setStack_stack_self, hop]
  | @body u op₁ l label l' shared hholder hstack hbody =>
    have hu := hsame hholder
    subst hu
    have ⟨hop, hsolo⟩ := h.inside hstack
    subst hop
    refine ⟨h.holder, l', .inl ⟨State.setStack_stack_self .., ?_⟩⟩
    simp only [Event.labelOf?, ↓reduceIte, Option.toList_some]
    apply Run.snoc hsolo hbody

theorem holds_of_run {t : Tid} {op : Op} {l₀ : Local} (hex : Exclusive s)
    (h : Holds obj s t op l₀ s.shared []) (hrun : Run (Step obj) s tr s')
    (hrelease : ∀ op', .release t op' ∉ tr) : Holds obj s' t op l₀ s.shared (labelsOf t tr) := by
  induction hrun with
  | nil => assumption
  | @snoc tr s₁ e s₂ init last ih =>
    simp only [List.mem_append, not_or, List.mem_singleton] at hrelease
    have hflat := last.flat (exclusive_of_run hex init)
    rw [labelsOf_snoc]
    apply hflat.holds
    . apply ih
      intro op'
      exact (hrelease op').left
    . intro op'
      exact fun he => (hrelease op').right he.symm

theorem FlatStep.holds_acquired {t : Tid} {op : Op} (hstep : FlatStep obj s e s')
    (he : e = .acquire t op)
    : s.holder = none ∧ s'.shared = s.shared ∧ s'.holder = some t
        ∧ s'.stack t = [.inside op (obj.enter op)] := by
  cases hstep with
  | acquire hholder hstack =>
    simp only [Event.acquire.injEq] at he
    rw [← he.left, ← he.right]
    exact ⟨hholder, rfl, rfl, State.setStack_stack_self ..⟩
  | _ => simp at he

theorem FlatStep.leaving_of_release {t : Tid} {op : Op} (hstep : FlatStep obj s e s')
    (he : e = .release t op) : s'.holder = none ∧ s'.stack t = [.leaving op] := by
  cases hstep with
  | release =>
    simp only [Event.release.injEq] at he
    rw [← he.left, ← he.right]
    exact ⟨rfl, State.setStack_stack_self ..⟩
  | _ => simp at he

theorem solo_of_run {t : Tid} {op op' : Op} {s₁ s₂ s₃ s₄ : State Tid Op Local σ}
    (hex : Exclusive s₁) (hacquire : Step obj s₁ (.acquire t op) s₂)
    (hmid : Run (Step obj) s₂ mid s₃) (hrelease : ∀ op'', .release t op'' ∉ mid)
    (hrel : Step obj s₃ (.release t op') s₄)
    : ∃ l, obj.Solo (obj.enter op, s₁.shared) (labelsOf t mid) (l, s₃.shared) ∧ obj.final l
        ∧ op' = op := by
  have hflat := hacquire.flat hex
  have hex₂ := hflat.exclusive hex
  have ⟨_, hshared, hholder, hstack⟩ := hflat.holds_acquired rfl
  have hholds : Holds obj s₂ t op (obj.enter op) s₂.shared [] :=
    ⟨hholder, _, .inl ⟨hstack, .nil⟩⟩
  have hholds' := holds_of_run hex₂ hholds hmid hrelease
  rw [hshared] at hholds'
  cases hrel.flat (exclusive_of_run hex₂ hmid) with
  | @release _ _ l hholder hstack hfinal =>
    have ⟨hop, hsolo⟩ := hholds'.inside hstack
    exact ⟨l, hsolo, hfinal, hop⟩

/--
An operation that has been completed went through its body alone, from the shared state that the
operations performed before it had left.
-/
theorem section_of_run {t : Tid} {op op' : Op}
    (hrun : Run (Step obj) (.start shared₀)
      (pre ++ .acquire t op :: (mid ++ .release t op' :: post)) s)
    (hrelease : ∀ op'', .release t op'' ∉ mid)
    : ∃ base l shared,
        Run obj.Section shared₀ (performed pre) base ∧
        obj.Solo (obj.enter op, base) (labelsOf t mid) (l, shared) ∧ obj.final l ∧ op' = op := by
  have ⟨s₁, hpre, hrun⟩ := Run.append_iff.mp hrun
  have ⟨s₂, hacquire, hrun⟩ := Run.cons_iff.mp hrun
  have ⟨s₃, hmid, hrun⟩ := Run.append_iff.mp hrun
  have ⟨s₄, hrel, _⟩ := Run.cons_iff.mp hrun
  have hex := exclusive_of_run (.start shared₀) hpre
  have ⟨l, hsolo, hfinal, hop⟩ := solo_of_run hex hacquire hmid hrelease hrel
  have ⟨base, hops, hprogress⟩ := inProgress_of_run hpre
  have hfree := ((hacquire.flat hex).holds_acquired rfl).left
  rw [hprogress.shared_of_free hfree] at hsolo
  exact ⟨base, l, _, hops, hsolo, hfinal, hop⟩

theorem body_of_run {t : Tid} {label : Label}
    (hrun : Run (Step obj) (.start shared₀) (pre ++ .body t label :: post) s)
    : ∃ base op labels l shared l' shared',
        Run obj.Section shared₀ (performed pre) base ∧
        obj.Solo (obj.enter op, base) labels (l, shared) ∧ obj.body l shared label l' shared' := by
  have ⟨s₁, hpre, hrun⟩ := Run.append_iff.mp hrun
  have ⟨s₂, hstep, _⟩ := Run.cons_iff.mp hrun
  have ⟨base, hops, hprogress⟩ := inProgress_of_run hpre
  cases hstep.flat (exclusive_of_run (.start shared₀) hpre) with
  | @body _ op l _ l' shared' hholder hstack hbody =>
    have ⟨labels, hsolo⟩ := hprogress.solo hholder hstack
    exact ⟨base, op, labels, l, s₁.shared, l', shared', hops, hsolo, hbody⟩

theorem FlatStep.leaving {t : Tid} {op : Op} (hstep : FlatStep obj s e s')
    (hstack : s'.stack t = [.leaving op])
    : e = .release t op ∨ s.stack t = [.leaving op] ∧ ∀ op', e ≠ .release t op' := by
  -- a step of another thread leaves the stack as it is, of the own ones only a release leads here
  have hother {u : Tid} {fs : List (Frame Op Local)} {s₁ : State Tid Op Local σ}
      (hs₁ : s₁.stack = s.stack) (hne : fs ≠ [.leaving op])
      (h : (s₁.setStack u fs).stack t = [.leaving op]) : t ≠ u ∧ s.stack t = [.leaving op] := by
    by_cases htu : t = u
    . subst htu
      rw [State.setStack_stack_self] at h
      contradiction
    . rw [State.setStack_stack_of_ne _ _ _ htu, hs₁] at h
      exact ⟨htu, h⟩
  cases hstep with
  | call => exact .inr ⟨(hother rfl (by simp) hstack).right, by simp⟩
  | reenter => exact .inr ⟨(hother rfl (by simp) hstack).right, by simp⟩
  | acquire => exact .inr ⟨(hother rfl (by simp) hstack).right, by simp⟩
  | body => exact .inr ⟨(hother rfl (by simp) hstack).right, by simp⟩
  | ret => exact .inr ⟨(hother rfl (by simp) hstack).right, by simp⟩
  | @release u op' l hholder hstack' hfinal =>
    by_cases htu : t = u
    . subst htu
      rw [State.setStack_stack_self] at hstack
      simp only [List.cons.injEq, Frame.leaving.injEq, and_true] at hstack
      rw [hstack]
      exact .inl rfl
    . rw [State.setStack_stack_of_ne _ _ _ htu] at hstack
      refine .inr ⟨hstack, ?_⟩
      intro _ he
      simp only [Event.release.injEq] at he
      exact htu he.left.symm

theorem released_of_run {t : Tid} {op : Op}
    (hrun : Run (Step obj) (.start shared₀) (pre ++ .ret t op :: post) s)
    : ∃ before after, pre = before ++ .release t op :: after
        ∧ ∀ op', .release t op' ∉ after := by
  have ⟨s₁, hpre, hrun⟩ := Run.append_iff.mp hrun
  have ⟨s₂, hstep, _⟩ := Run.cons_iff.mp hrun
  have hleaving : s₁.stack t = [.leaving op] := by
    cases hstep.flat (exclusive_of_run (.start shared₀) hpre) with
    | ret _ hstack => exact hstack
  have hinvariant := hpre.invariant
    (P := fun tr s => s.stack t = [.leaving op] →
      ∃ before after, tr = before ++ .release t op :: after ∧ ∀ op', .release t op' ∉ after)
  apply hinvariant
  . intro h
    simp [State.start] at h
  . intro tr s₁ e s₂ hrun ih hstep hstack
    have hflat := hstep.flat (exclusive_of_run (.start shared₀) hrun)
    cases hflat.leaving hstack with
    | inl he =>
      rw [he]
      exact ⟨tr, [], rfl, by simp⟩
    | inr h =>
      obtain ⟨before, after, htr, hafter⟩ := ih h.left
      refine ⟨before, after ++ [e], by simp [htr], ?_⟩
      intro op'
      simp [hafter op', (h.right op').symm]
  . exact hleaving

end Monitor
