import FourierSDK.Monitor.Ordered
import FourierSDK.Monitor.Starvation

/-!
This module contains when every call of an operation returns, where operations call operations of
later objects. What is seen of one object is a fair execution of that object alone, if all calls of
later objects return: a thread that is in one of those comes back to the frame that made the call.
-/

namespace Monitor.Several

open Transition

variable {G Tid Op Local σ Label : Type} [DecidableEq G] [DecidableEq Tid]
variable {objs : Objects G Op Local σ Label} {s s' : State G Tid Op Local σ}
variable {e : Event G Tid Op Label} {shared₀ : G → σ} {silent : Label} {g : G} {t : Tid}

/-! ### What one step does to the frames of its thread -/

theorem Step.stack_of_ne (hstep : Step objs s e s') {t : Tid} (h : t ≠ e.thread)
    : s'.stack t = s.stack t := by
  cases hstep with
  | _ => apply State.setStack_stack_of_ne _ _ _ h

theorem Step.keeps_frame (hstep : Step objs s e s') {t : Tid} {g : G}
    {above fs : List (G × Frame Op Local)} {f : Frame Op Local}
    (hstack : s.stack t = above ++ (g, f) :: fs) (hret : ∀ op, e ≠ .ret t g op)
    : ∃ above' f', s'.stack t = above' ++ (g, f') :: fs := by
  by_cases ht : t = e.thread
  . subst ht
    have htop {g₁ : G} {f₁ : Frame Op Local} {fs₁ : List (G × Frame Op Local)}
        (hstack' : s.stack e.thread = (g₁, f₁) :: fs₁) (new : List (G × Frame Op Local))
        (f₂ : Frame Op Local)
        : ∃ above' f', new ++ (g₁, f₂) :: fs₁ = above' ++ (g, f') :: fs := by
      rw [hstack'] at hstack
      cases above with
      | nil =>
        simp only [List.nil_append, List.cons.injEq, Prod.mk.injEq] at hstack
        obtain ⟨⟨hg, _⟩, hfs⟩ := hstack
        subst hg hfs
        exact ⟨new, f₂, rfl⟩
      | cons x above =>
        simp only [List.cons_append, List.cons.injEq] at hstack
        rw [hstack.right]
        exact ⟨new ++ (g₁, f₂) :: above, f, by simp⟩
    cases hstep with
    | call hstack' => simp [Event.thread, hstack'] at hstack
    | callFrom hstack' =>
      rw [Event.thread, State.setStack_stack_self]
      apply htop hstack' [_]
    | reenter hstack' =>
      rw [Event.thread, State.setStack_stack_self]
      apply htop hstack' [_]
    | acquire hstack' =>
      rw [Event.thread, State.setStack_stack_self]
      apply htop hstack' []
    | body hstack' =>
      rw [Event.thread, State.setStack_stack_self]
      apply htop hstack' []
    | release hstack' =>
      rw [Event.thread, State.setStack_stack_self]
      apply htop hstack' []
    | @ret t g₁ op fs₁ hstack' =>
      rw [Event.thread, State.setStack_stack_self]
      simp only [Event.thread, hstack'] at hstack
      cases above with
      | nil =>
        simp only [List.nil_append, List.cons.injEq, Prod.mk.injEq] at hstack
        rw [hstack.left.left] at hret
        exact absurd rfl (hret op)
      | cons x above =>
        simp only [List.cons_append, List.cons.injEq] at hstack
        exact ⟨above, f, hstack.right⟩
  . rw [hstep.stack_of_ne ht]
    exact ⟨above, f, hstack⟩

theorem Step.acquire_of_waiting (hstep : Step objs s e s') {op : Op}
    {fs : List (G × Frame Op Local)} (hstack : s.stack e.thread = (g, .waiting op) :: fs)
    : e = .acquire e.thread g op := by
  cases hstep with
  | @acquire t g' op' fs' hstack' =>
    simp only [Event.thread, hstack', List.cons.injEq, Prod.mk.injEq, Frame.waiting.injEq]
      at hstack
    rw [hstack.left.left, hstack.left.right]
    rfl
  | call hstack' => simp [Event.thread, hstack'] at hstack
  | callFrom hstack' => simp [Event.thread, hstack'] at hstack
  | reenter hstack' => simp [Event.thread, hstack'] at hstack
  | body hstack' => simp [Event.thread, hstack'] at hstack
  | release hstack' => simp [Event.thread, hstack'] at hstack
  | ret hstack' => simp [Event.thread, hstack'] at hstack

/-! ### What is seen of the events -/

omit [DecidableEq Tid] in
theorem Event.of_seen_acquire {silent : Label} {g : G} {t : Tid} {op : Op}
    (h : e.seen silent g = some (.acquire t op)) : e = .acquire t g op := by
  cases e with
  | acquire u g' op' =>
    simp only [seen, Option.ite_none_right_eq_some, Option.some.injEq,
      Monitor.Event.acquire.injEq] at h
    rw [h.left, h.right.left, h.right.right]
  | callFrom u caller g' op' =>
    simp only [seen] at h
    split at h
    . simp at h
    . simp at h
  | _ => simp [seen] at h

omit [DecidableEq Tid] in
theorem Event.of_seen_ret {silent : Label} {g : G} {t : Tid} {op : Op}
    (h : e.seen silent g = some (.ret t op)) : e = .ret t g op := by
  cases e with
  | ret u g' op' =>
    simp only [seen, Option.ite_none_right_eq_some, Option.some.injEq,
      Monitor.Event.ret.injEq] at h
    rw [h.left, h.right.left, h.right.right]
  | callFrom u caller g' op' =>
    simp only [seen] at h
    split at h
    . simp at h
    . simp at h
  | _ => simp [seen] at h

omit [DecidableEq Tid] in
theorem Event.seen_ne_reenter {silent : Label} {g : G} {t : Tid} {op : Op}
    : e.seen silent g ≠ some (.reenter t op) := by
  intro h
  cases e with
  | callFrom u caller g' op' =>
    simp only [seen] at h
    split at h
    . simp at h
    . simp at h
  | _ => simp [seen] at h

variable (silent) in
theorem Step.seen_call (hstep : Step objs s e s') {op : Op}
    (he : e = .call t g op ∨ ∃ caller, e = .callFrom t caller g op)
    : e.seen silent g = some (.call t op) := by
  rcases he with he | ⟨caller, he⟩
  . simp [he, Event.seen]
  . subst he
    cases hstep with
    | callFrom hstack _ hfresh =>
      have hne : caller ≠ g := by
        apply hfresh (caller, _)
        rw [hstack]
        apply List.mem_cons_self
      simp [Event.seen, hne]

/-! ### Fair schedulers -/

def Event.goesOn (t : Tid) : Event G Tid Op Label → Prop
  | .call _ _ _ => False
  | e => e.thread = t

def Event.isAcquire (t : Tid) : Event G Tid Op Label → Prop
  | .acquire u _ _ => u = t
  | _ => False

structure FairScheduler
    (E : Execution (Step objs) (State.start shared₀ : State G Tid Op Local σ)) : Prop where
  weakly : ∀ t, E.WeaklyFair (Event.goesOn t)
  strongly : ∀ t, E.StronglyFair (Event.isAcquire t)

omit [DecidableEq G] [DecidableEq Tid] in
theorem Event.thread_of_goesOn {t : Tid} (h : Event.goesOn t e) : e.thread = t := by
  cases e with
  | call => exact h.elim
  | _ => exact h

omit [DecidableEq G] [DecidableEq Tid] in
theorem Event.isAcquire.goesOn {t : Tid} (h : Event.isAcquire t e) : e.goesOn t := by
  cases e with
  | acquire => exact h
  | _ => exact h.elim

theorem Step.busy_of_goesOn (hstep : Step objs s e s') {t : Tid} (hgoesOn : Event.goesOn t e)
    : s.stack t ≠ [] := by
  have hthread := Event.thread_of_goesOn hgoesOn
  subst hthread
  cases hstep with
  | call => exact hgoesOn.elim
  | callFrom hstack => simp [Event.thread, hstack]
  | reenter hstack => simp [Event.thread, hstack]
  | acquire hstack => simp [Event.thread, hstack]
  | body hstack => simp [Event.thread, hstack]
  | release hstack => simp [Event.thread, hstack]
  | ret hstack => simp [Event.thread, hstack]

theorem FairScheduler.of_rest
    (E : Execution (Step objs) (State.start shared₀ : State G Tid Op Local σ)) {n : Nat}
    (hrest : ∀ m, n ≤ m → ∀ t, (E.state m).stack t = []) : FairScheduler E := by
  constructor
  . intro t k henabled
    have ⟨e, s', hgoesOn, hstep⟩ := henabled (max k n) (Nat.le_max_left k n)
    exact absurd (hrest _ (Nat.le_max_right k n) t) (hstep.busy_of_goesOn hgoesOn)
  . intro t k henabled
    have ⟨m, e, s', hm, hacquire, hstep⟩ := henabled (max k n) (Nat.le_max_left k n)
    exact absurd (hrest m (Nat.le_trans (Nat.le_max_right k n) hm) t)
      (hstep.busy_of_goesOn hacquire.goesOn)

/-! ### What is seen of an execution -/

def seenFrom (silent : Label)
    (E : Execution (Step objs) (State.start shared₀ : State G Tid Op Local σ)) (g : G)
    : Execution (Monitor.Step (objs.alone silent))
        (Monitor.State.start (shared₀ g) : Monitor.State Tid Op Local σ) :=
  E.project (projects Tid objs silent g) (.start shared₀)

variable {E : Execution (Step objs) (State.start shared₀ : State G Tid Op Local σ)} {n : Nat}

theorem event_of_seenFrom {e' : Monitor.Event Tid Op Label}
    (h : (seenFrom silent E g).event n = some e')
    : ∃ e, E.event n = some e ∧ e.seen silent g = some e' := by
  apply Option.bind_eq_some_iff.mp h

theorem seenFrom_event {e' : Monitor.Event Tid Op Label} (he : E.event n = some e)
    (hseen : e.seen silent g = some e') : (seenFrom silent E g).event n = some e' := by
  apply Option.bind_eq_some_iff.mpr ⟨e, he, hseen⟩

theorem stack_of_idle {fs : List (G × Frame Op Local)} (hstack : (E.state n).stack t = fs)
    (hidle : ∀ m e, n ≤ m → (E.state m).stack t = fs → E.event m = some e → e.thread ≠ t)
    (m : Nat) (hm : n ≤ m) : (E.state m).stack t = fs := by
  induction m, hm using Nat.le_induction with
  | base => exact hstack
  | succ m hm ih =>
    cases he : E.event m with
    | none =>
      rw [E.idle m he]
      exact ih
    | some e =>
      rw [(E.next m e he).stack_of_ne (hidle m e hm ih he).symm]
      exact ih

omit [DecidableEq Tid] in
theorem State.frame_of_at (h : (s.at g).stack t ≠ [])
    : ∃ above f fs, s.stack t = above ++ (g, f) :: fs := by
  cases holdest : oldest? g (s.stack t) with
  | none => simp [State.at, holdest] at h
  | some f =>
    obtain ⟨above, fs, hstack⟩ := List.append_of_mem (mem_of_oldest? holdest)
    exact ⟨above, f, fs, hstack⟩

theorem Step.of_seen {f : Frame Op Local} {fs : List (G × Frame Op Local)}
    (hstack : s.stack t = (g, f) :: fs) (hfresh : ∀ f ∈ fs, f.1 ≠ g)
    {e' : Monitor.Event Tid Op Label} {s₁ : Monitor.State Tid Op Local σ}
    (hstep : Monitor.Step (objs.alone silent) (s.at g) e' s₁) (hgoesOn : e'.goesOn t)
    : ∃ e s', Event.goesOn t e ∧ Step objs s e s' := by
  have ⟨hthread, _⟩ := Monitor.Event.goesOn_iff.mp hgoesOn
  subst hthread
  have htop {f' : Frame Op Local} {fs' : List (Frame Op Local)}
      (hstack' : (s.at g).stack e'.thread = f' :: fs') : s.stack e'.thread = (g, f') :: fs := by
    rw [s.at_stack_of_fresh hstack hfresh, List.cons.injEq] at hstack'
    rw [hstack, hstack'.left]
  cases hstep with
  | call => exact hgoesOn.elim
  | reenter _ hcalls => exact hcalls.elim
  | @acquire t op _ hstack' hfree =>
    exact ⟨.acquire t g op, _, rfl, .acquire (htop hstack') hfree⟩
  | @release t op l _ hstack' hfinal =>
    exact ⟨.release t g op, _, rfl, .release (htop hstack') hfinal⟩
  | @ret t op _ hstack' => exact ⟨.ret t g op, _, rfl, .ret (htop hstack')⟩
  | @body t op l _ label l' shared hstack' hbody =>
    rcases hbody with hbody | ⟨_, _, g', op', hcalls⟩
    . exact ⟨.body t g label, _, rfl, .body (htop hstack') hbody⟩
    . have ⟨e, s', he, hstep⟩ := Step.exists_call (htop hstack') hcalls
      refine ⟨e, s', ?_, hstep⟩
      rcases he with he | he
      . rw [he]
        rfl
      . rw [he]
        rfl

variable (silent) in
theorem Step.seen_of_top {f : Frame Op Local} {fs : List (G × Frame Op Local)}
    (hstep : Step objs s e s') (hstack : s.stack e.thread = (g, f) :: fs)
    : ∃ e', e.seen silent g = some e' ∧ e'.goesOn e.thread := by
  have hg {g' : G} {f' : Frame Op Local} {fs' : List (G × Frame Op Local)}
      (hstack' : s.stack e.thread = (g', f') :: fs') : g' = g := by
    rw [hstack] at hstack'
    simp only [List.cons.injEq, Prod.mk.injEq] at hstack'
    exact hstack'.left.left.symm
  cases hstep with
  | call hstack' => simp [Event.thread, hstack'] at hstack
  | @callFrom t _ _ _ _ _ _ _ hstack' =>
    exact ⟨.body t silent, by simp [Event.seen, hg hstack'], rfl⟩
  | @reenter t _ _ _ _ _ _ _ hstack' =>
    exact ⟨.body t silent, by simp [Event.seen, hg hstack'], rfl⟩
  | @acquire t _ op _ hstack' => exact ⟨.acquire t op, by simp [Event.seen, hg hstack'], rfl⟩
  | @body t _ _ _ _ label _ _ hstack' =>
    exact ⟨.body t label, by simp [Event.seen, hg hstack'], rfl⟩
  | @release t _ op _ _ hstack' => exact ⟨.release t op, by simp [Event.seen, hg hstack'], rfl⟩
  | @ret t _ op _ hstack' => exact ⟨.ret t op, by simp [Event.seen, hg hstack'], rfl⟩

theorem State.waiting_of_at (h : Sound s) {e' : Monitor.Event Tid Op Label}
    {s₁ : Monitor.State Tid Op Local σ}
    (hstep : Monitor.Step (objs.alone silent) (s.at g) e' s₁) (hacquire : e'.isAcquire t)
    : ∃ op, (∃ fs, s.stack t = (g, .waiting op) :: fs) ∧ s.holder g = none := by
  cases hstep with
  | @acquire u op fs hstack hfree =>
    have hu : u = t := hacquire
    subst hu
    refine ⟨op, ?_, hfree⟩
    apply (h.stacked u).top_of_waiting
    apply mem_of_oldest?
    cases holdest : oldest? g (s.stack u) with
    | none => simp [State.at, holdest] at hstack
    | some f =>
      simp only [State.at, holdest, Option.toList_some, List.cons.injEq] at hstack
      rw [hstack.left]
  | _ => exact hacquire.elim

theorem strongly_seenFrom (hfair : FairScheduler E) (g : G) (t : Tid)
    : (Several.seenFrom silent E g).StronglyFair (Monitor.Event.isAcquire t) := by
  intro n henabled
  apply Classical.byContradiction
  intro hnever
  have hwaiting (m : Nat) (hm : n ≤ m)
      : ∃ k op fs, m ≤ k ∧ (E.state k).stack t = (g, .waiting op) :: fs ∧
          (E.state k).holder g = none := by
    obtain ⟨k, e', s₁, hk, hacquire, hstep⟩ := henabled m hm
    obtain ⟨op, ⟨fs, hstack⟩, hfree⟩ := State.waiting_of_at (sound_of_run (E.run k)) hstep hacquire
    exact ⟨k, op, fs, hk, hstack, hfree⟩
  obtain ⟨n₁, op, fs, hn₁, hstack₁, _⟩ := hwaiting n (Nat.le_refl n)
  have hnone (m : Nat) (e : Event G Tid Op Label) (hm : n ≤ m)
      (hstack : (E.state m).stack t = (g, .waiting op) :: fs) (he : E.event m = some e)
      : e.thread ≠ t := by
    intro hthread
    subst hthread
    have hacquire := (E.next m e he).acquire_of_waiting hstack
    apply hnever ⟨m, .acquire e.thread op, hm, ?_, rfl⟩
    apply seenFrom_event he
    rw [hacquire]
    simp [Event.seen, Event.thread]
  have hkept := stack_of_idle hstack₁ fun m e hm => hnone m e (by omega)
  obtain ⟨m, e, hm, he, hacquire⟩ := hfair.strongly t n₁ (by
    intro m hm
    obtain ⟨k, op', fs', hk, hstack, hfree⟩ := hwaiting m (by omega)
    exact ⟨k, .acquire t g op', _, hk, rfl, .acquire hstack hfree⟩)
  exact hnone m e (by omega) (hkept m hm) he (Event.thread_of_goesOn hacquire.goesOn)

/-! ### Every call returns -/

variable [Preorder G]

theorem Step.stack_of_ret (hstep : Step objs s e s') (hascending : Ascending s) {t : Tid} {g : G}
    {op : Op} (he : e = .ret t g op) {above fs : List (G × Frame Op Local)} {f : Frame Op Local}
    (hstack : s.stack t = above ++ (g, f) :: fs) : s'.stack t = fs := by
  cases hstep with
  | @ret t g₁ op fs₁ hstack' =>
    simp only [Event.ret.injEq] at he
    obtain ⟨ht, hg, _⟩ := he
    subst ht hg
    rw [State.setStack_stack_self]
    have hpairwise := hascending t
    rw [hstack'] at hstack hpairwise
    cases above with
    | nil =>
      simp only [List.nil_append, List.cons.injEq] at hstack
      exact hstack.right
    | cons x above =>
      simp only [List.cons_append, List.cons.injEq] at hstack
      have hmem : (g₁, f) ∈ fs₁ := by
        rw [hstack.right]
        simp
      exact absurd (List.rel_of_pairwise_cons hpairwise hmem) (lt_irrefl g₁)
  | _ => simp at he

structure Terminating (silent : Label)
    (E : Execution (Step objs) (State.start shared₀ : State G Tid Op Local σ)) : Prop where
  upward : ∀ n e, E.event n = some e → e.Upward
  completes : ∀ n t g op, E.event n = some (.acquire t g op) →
    (objs.alone silent).Completes (objs.enter op) ((E.state n).shared g)

theorem Terminating.seenFrom (h : Terminating silent E) (g : G)
    : Monitor.Terminating (seenFrom silent E g) := by
  constructor
  . intro n t op hreenter
    have ⟨e, he, hseen⟩ := event_of_seenFrom hreenter
    exact Event.seen_ne_reenter hseen
  . intro n t op hacquire
    have ⟨e, he, hseen⟩ := event_of_seenFrom hacquire
    rw [Event.of_seen_acquire hseen] at he
    apply h.completes n t g op he

theorem Terminating.ascending (h : Terminating silent E) (n : Nat) : Ascending (E.state n) := by
  apply ascending_of_run (E.run n)
  intro e he
  have ⟨m, _, hm⟩ := List.mem_filterMap.mp he
  apply h.upward m e hm

theorem Terminating.fresh (h : Terminating silent E) {f : Frame Op Local}
    {fs : List (G × Frame Op Local)} (hstack : (E.state n).stack t = (g, f) :: fs)
    : ∀ f ∈ fs, f.1 ≠ g := by
  have hpairwise := h.ascending n t
  rw [hstack] at hpairwise
  intro f hf
  apply ne_of_lt (List.rel_of_pairwise_cons hpairwise hf)

theorem Terminating.eventually_popped (h : Terminating silent E)
    (hfair : Monitor.FairScheduler (Several.seenFrom silent E g)) {f : Frame Op Local}
    {fs : List (G × Frame Op Local)} (hstack : (E.state n).stack t = (g, f) :: fs)
    : ∃ m, n ≤ m ∧ (E.state m).stack t = fs := by
  have hseen := State.at_stack_of_fresh _ hstack (h.fresh hstack)
  have ⟨m₁, hm₁, hret⟩ := (h.seenFrom g).eventually_left hfair hseen
  have ⟨e₁, he₁, hseen₁⟩ := event_of_seenFrom hret
  have he₁' := Event.of_seen_ret hseen₁
  have hfirst : ∃ m e, n ≤ m ∧ (∃ above f', (E.state m).stack t = above ++ (g, f') :: fs)
      ∧ E.event m = some e ∧ ∃ op, e = .ret t g op := by
    apply Classical.byContradiction
    intro hnever
    have hkept := Execution.keeps_unless (E := E) (n := n)
      (I := fun s => ∃ above f', s.stack t = above ++ (g, f') :: fs)
      (P := fun e => ∃ op, e = .ret t g op) ⟨[], f, hstack⟩ ?_ hnever m₁ hm₁
    . exact hnever ⟨m₁, e₁, hm₁, hkept, he₁, _, he₁'⟩
    . intro m ⟨above, f', hstack'⟩ hother
      cases he : E.event m with
      | none =>
        rw [E.idle m he]
        exact ⟨above, f', hstack'⟩
      | some e =>
        apply (E.next m e he).keeps_frame hstack'
        intro op hop
        exact hother e he ⟨op, hop⟩
  have ⟨m, e, hm, ⟨above, f', hstack'⟩, he, op, hop⟩ := hfirst
  refine ⟨m + 1, by omega, ?_⟩
  apply (E.next m e he).stack_of_ret (h.ascending m) hop hstack'

theorem Terminating.eventually_top (h : Terminating silent E) {above fs : List (G × Frame Op Local)}
    (hfair : ∀ f ∈ above, Monitor.FairScheduler (Several.seenFrom silent E f.1))
    (hstack : (E.state n).stack t = above ++ fs) : ∃ m, n ≤ m ∧ (E.state m).stack t = fs := by
  induction above generalizing n with
  | nil => exact ⟨n, Nat.le_refl n, hstack⟩
  | cons f above ih =>
    have ⟨m₁, hm₁, hstack₁⟩ := h.eventually_popped (hfair f (by simp)) hstack
    have ⟨m₂, hm₂, hstack₂⟩ := ih (fun f hf => hfair f (by simp [hf])) hstack₁
    exact ⟨m₂, by omega, hstack₂⟩

theorem Terminating.weakly_seenFrom (h : Terminating silent E) (hfair : FairScheduler E)
    (hlater : ∀ g', g < g' → Monitor.FairScheduler (Several.seenFrom silent E g')) (t : Tid)
    : (Several.seenFrom silent E g).WeaklyFair (Monitor.Event.goesOn t) := by
  intro n henabled
  apply Classical.byContradiction
  intro hnever
  have ⟨e', s₁, hgoesOn, hstep⟩ := henabled n (Nat.le_refl n)
  have ⟨above, f, fs, hstack⟩ := State.frame_of_at (hstep.busy_of_goesOn hgoesOn)
  have hpairwise := h.ascending n t
  rw [hstack, List.pairwise_append] at hpairwise
  have habove : ∀ f' ∈ above, Monitor.FairScheduler (Several.seenFrom silent E f'.1) := by
    intro f' hf'
    apply hlater
    apply hpairwise.right.right f' hf' (g, f)
    apply List.mem_cons_self
  have ⟨n₁, hn₁, hstack₁⟩ := h.eventually_top habove hstack
  have hnone (m : Nat) (e : Event G Tid Op Label) (hm : n ≤ m)
      (hstack : (E.state m).stack t = (g, f) :: fs) (he : E.event m = some e) : e.thread ≠ t := by
    intro hthread
    subst hthread
    have ⟨e', hseen, hgoesOn⟩ := (E.next m e he).seen_of_top silent hstack
    exact hnever ⟨m, e', hm, seenFrom_event he hseen, hgoesOn⟩
  have hkept := stack_of_idle hstack₁ fun m e hm => hnone m e (by omega)
  have ⟨m, e, hm, he, hgoesOn⟩ := hfair.weakly t n₁ (by
    intro m hm
    have ⟨e', s₁, hgoesOn, hstep⟩ := henabled m (by omega)
    apply Step.of_seen (hkept m hm) (h.fresh (hkept m hm)) hstep hgoesOn)
  exact hnone m e (by omega) (hkept m hm) he (Event.thread_of_goesOn hgoesOn)

theorem Terminating.fair_seenFrom [WellFoundedGT G] (h : Terminating silent E)
    (hfair : FairScheduler E) (g : G) : Monitor.FairScheduler (Several.seenFrom silent E g) := by
  induction g using WellFoundedGT.induction with
  | ind g ih =>
    constructor
    . apply h.weakly_seenFrom hfair ih
    . apply strongly_seenFrom hfair g

theorem Terminating.returns [WellFoundedGT G] (h : Terminating silent E) (hfair : FairScheduler E)
    {op : Op} {e : Event G Tid Op Label} (he : E.event n = some e)
    (hcall : e = .call t g op ∨ ∃ caller, e = .callFrom t caller g op)
    : ∃ m, n < m ∧ E.event m = some (.ret t g op) := by
  have hseen := (E.next n e he).seen_call silent hcall
  have ⟨m, hm, hret⟩ := (h.seenFrom g).returns (h.fair_seenFrom hfair g) (seenFrom_event he hseen)
  have ⟨e', he', hseen'⟩ := event_of_seenFrom hret
  rw [Event.of_seen_ret hseen'] at he'
  exact ⟨m, hm, he'⟩

end Monitor.Several
