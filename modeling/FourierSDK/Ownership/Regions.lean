import FourierSDK.Transition.History
import FourierSDK.Transition.Run
import Mathlib.Logic.Function.Basic

/-!
This module contains memory that is divided into regions, one for each handle that is live. A handle
is created with a region apart from those of the live ones, and whoever uses or drops it leaves
everything outside of its region as it is. Hence the cells of a handle depend on nothing but the
operations that have used it since it was created, and `stores_of_created` says how.
-/

namespace Ownership

open Transition

structure Regions (H A : Type) where
  size : H → Nat
  cell : H → Nat → A

structure Store (H A V : Type) where
  live : H → Prop
  heap : A → V

inductive Access (H : Type) where
  | create (h : H)
  | use (h : H)
  | drop (h : H)
  | skip
  deriving DecidableEq, Repr

namespace Regions

variable {H A V : Type} (r : Regions H A)

def Outside (h : H) (a : A) : Prop := ∀ i, i < r.size h → a ≠ r.cell h i

def Apart (h h' : H) : Prop := ∀ i, i < r.size h → r.Outside h' (r.cell h i)

def Frame (h : H) (heap heap' : A → V) : Prop := ∀ a, r.Outside h a → heap' a = heap a

def write [DecidableEq A] (h : H) (values : Nat → V) (heap : A → V) : A → V :=
  (List.range (r.size h)).foldl (fun heap i => Function.update heap (r.cell h i) (values i)) heap

def contents (h : H) (heap : A → V) : List V :=
  (List.range (r.size h)).map fun i => heap (r.cell h i)

def Same (h : H) (heap heap' : A → V) : Prop :=
  ∀ i, i < r.size h → heap' (r.cell h i) = heap (r.cell h i)

inductive Step : Store H A V → Access H → Store H A V → Prop where
  | create {s s' h} (hfresh : ¬s.live h) (hapart : ∀ h', s.live h' → r.Apart h' h)
    (hlive : ∀ h', s'.live h' ↔ s.live h' ∨ h' = h) (hframe : r.Frame h s.heap s'.heap)
    : Step s (.create h) s'
  | use {s s' h} (huse : s.live h) (hlive : ∀ h', s'.live h' ↔ s.live h')
    (hframe : r.Frame h s.heap s'.heap) : Step s (.use h) s'
  | drop {s s' h} (hdrop : s.live h) (hlive : ∀ h', s'.live h' ↔ s.live h' ∧ h' ≠ h)
    (hframe : r.Frame h s.heap s'.heap) : Step s (.drop h) s'
  | skip {s s'} (hlive : ∀ h', s'.live h' ↔ s.live h') (hheap : s'.heap = s.heap)
    : Step s .skip s'

def AllApart (s : Store H A V) : Prop := ∀ h h', s.live h → s.live h' → h ≠ h' → r.Apart h h'

variable {r} {h h' : H} {heap heap' : A → V} {s s' : Store H A V} {a : Access H}

theorem Apart.symm (hapart : r.Apart h h') : r.Apart h' h := by
  intro i hi j hj heq
  exact hapart j hj i hi heq.symm

theorem write_frame [DecidableEq A] (h : H) (values : Nat → V) (heap : A → V)
    : r.Frame h heap (r.write h values heap) := by
  intro a ha
  unfold write
  unfold Outside at ha
  generalize r.size h = n at ha
  induction n with
  | zero => rfl
  | succ n ih =>
    rw [List.range_succ, List.foldl_append]
    rw [List.foldl_cons, List.foldl_nil]
    rw [Function.update_of_ne (ha n (Nat.lt_succ_self n))]
    apply ih
    intro i hi
    apply ha i (Nat.lt_succ_of_lt hi)

theorem write_cell [DecidableEq A] {h : H}
    (hdistinct : ∀ i j, i < r.size h → j < r.size h → r.cell h i = r.cell h j → i = j)
    (values : Nat → V) (heap : A → V) {i : Nat} (hi : i < r.size h)
    : r.write h values heap (r.cell h i) = values i := by
  unfold write
  generalize r.size h = n at hi hdistinct
  induction n with
  | zero => contradiction
  | succ n ih =>
    rw [List.range_succ, List.foldl_append]
    rw [List.foldl_cons, List.foldl_nil]
    by_cases heq : i = n
    . rw [heq, Function.update_self]
    . have hlt : i < n := by omega
      have hne : r.cell h i ≠ r.cell h n := by
        intro hcell
        exact heq (hdistinct i n hi (Nat.lt_succ_self n) hcell)
      rw [Function.update_of_ne hne]
      apply ih hlt
      intro j k hj hk
      apply hdistinct j k (Nat.lt_succ_of_lt hj) (Nat.lt_succ_of_lt hk)

theorem Frame.same (hframe : r.Frame h' heap heap') (hapart : r.Apart h h')
    : r.Same h heap heap' := by
  intro i hi
  apply hframe
  apply hapart i hi

theorem Step.live_or_create (hstep : r.Step s a s') (hlive : s'.live h)
    : s.live h ∨ a = .create h := by
  cases hstep with
  | create _ _ hlive' =>
    cases (hlive' h).mp hlive with
    | inl hlive => exact .inl hlive
    | inr heq =>
      rw [heq]
      exact .inr rfl
  | use _ hlive' => exact .inl ((hlive' h).mp hlive)
  | drop _ hlive' => exact .inl ((hlive' h).mp hlive).1
  | skip hlive' => exact .inl ((hlive' h).mp hlive)

theorem AllApart.step (hapart : r.AllApart s) (hstep : r.Step s a s') : r.AllApart s' := by
  intro h h' hlive hlive' hne
  cases hstep.live_or_create hlive with
  | inl hold =>
    cases hstep.live_or_create hlive' with
    | inl hold' => apply hapart h h' hold hold' hne
    | inr hnew' =>
      subst hnew'
      cases hstep with
      | create _ hapart' => apply hapart' h hold
  | inr hnew =>
    subst hnew
    cases hstep.live_or_create hlive' with
    | inl hold' =>
      cases hstep with
      | create _ hapart' => apply (hapart' h' hold').symm
    | inr hnew' =>
      cases hnew'
      contradiction

theorem Step.same (hstep : r.Step s a s') (hapart : r.AllApart s) (hlive : s.live h)
    (hlive' : s'.live h) (hne : a ≠ .use h) : r.Same h s.heap s'.heap := by
  cases hstep with
  | create _ hapart' _ hframe => apply hframe.same (hapart' h hlive)
  | @use _ h₀ huse _ hframe =>
    apply hframe.same
    apply hapart h h₀ hlive huse
    intro heq
    rw [heq] at hne
    contradiction
  | drop hdrop hlive'' hframe =>
    apply hframe.same
    apply hapart h _ hlive hdrop ((hlive'' h).mp hlive').2
  | skip _ hheap =>
    intro i _
    rw [hheap]

end Regions

/-! ### Systems -/

/--
The steps of a system access the regions of a store, and `on` says which of its operations use a
handle.
-/
structure Accesses {H A V σ Op : Type} (r : Regions H A) (step : σ → Op → σ → Prop)
    (store : σ → Store H A V) (access : σ → Op → Access H) (on : H → Op → Bool) : Prop where
  accesses : ∀ s op s', step s op s' → r.Step (store s) (access s op) (store s')
  uses : ∀ s op s' h, step s op s' → (on h op = true ↔ access s op = .use h)

namespace Accesses

variable {H A V σ Op : Type} {r : Regions H A} {step : σ → Op → σ → Prop}
  {store : σ → Store H A V} {access : σ → Op → Access H} {on : H → Op → Bool}

def During (r : Regions H A) (step : σ → Op → σ → Prop) (store : σ → Store H A V) (h : H) (s : σ)
    (op : Op) (s' : σ) : Prop :=
  step s op s' ∧ r.AllApart (store s) ∧ (store s).live h ∧ (store s').live h

structure Created (r : Regions H A) (step : σ → Op → σ → Prop) (store : σ → Store H A V)
    (access : σ → Op → Access H) (h : H) (start : σ) (pre : List Op) (s₁ : σ) (op : Op) (s₂ : σ)
    (post : List Op) (s : σ) : Prop where
  before : Run step start pre s₁
  create : step s₁ op s₂
  access : access s₁ op = .create h
  after : Run (During r step store h) s₂ post s

variable (hsystem : Accesses r step store access on) {start s : σ} {tr : List Op} {h : H}

include hsystem

theorem allApart_of_run (hstart : ∀ h, ¬(store start).live h) (hrun : Run step start tr s)
    : r.AllApart (store s) := by
  apply hrun.invariant (P := fun _ s => r.AllApart (store s))
  . intro h h' hlive
    exact absurd hlive (hstart h)
  . intro _ s op s' _ hapart hstep
    apply hapart.step (hsystem.accesses s op s' hstep)

theorem created_of_run (hstart : ∀ h, ¬(store start).live h) (hrun : Run step start tr s)
    (hlive : (store s).live h)
    : ∃ pre s₁ op s₂ post, tr = pre ++ op :: post ∧
        Created r step store access h start pre s₁ op s₂ post s := by
  induction hrun with
  | nil => exact absurd hlive (hstart h)
  | @snoc tr s op s' init last ih =>
    by_cases hold : (store s).live h
    . have ⟨pre, s₁, op₁, s₂, post, htr, hcreated⟩ := ih hold
      have hapart := hsystem.allApart_of_run hstart init
      refine ⟨pre, s₁, op₁, s₂, post ++ [op], by simp [htr], ?_⟩
      constructor
      . apply hcreated.before
      . apply hcreated.create
      . apply hcreated.access
      . apply hcreated.after.snoc ⟨last, hapart, hold, hlive⟩
    . have hcreate := (hsystem.accesses s op s' last).live_or_create hlive
      exact ⟨tr, s, op, s', [], rfl, init, last, hcreate.resolve_left hold, .nil⟩

/--
If the operations on a handle write a record, and nothing but the cells of the handle counts, then
the handle stores what has been recorded since it was created.
-/
theorem stores_of_created {K : Type} {W : K → Type} {recorder : Recorder Op K W}
    {Stores : σ → ((k : K) → Option (W k)) → Prop}
    (hframe : ∀ s s' record, r.Same h (store s).heap (store s').heap → Stores s record →
      Stores s' record)
    (huse : ∀ s op s' record, step s op s' → on h op = true → Stores s record →
      Stores s' (recorder.step record op))
    {pre post : List Op} {s₁ s₂ : σ} {op : Op}
    (hcreated : Created r step store access h start pre s₁ op s₂ post s)
    (hstores : Stores s₂ (fun _ => none)) : Stores s (recorder.run (post.filter (on h))) := by
  apply hcreated.after.invariant
    (P := fun post s => Stores s (recorder.run (post.filter (on h))))
  . apply hstores
  . intro post s op s' _ hstores ⟨hstep, hapart, hlive, hlive'⟩
    rw [List.filter_append, List.filter_singleton]
    cases hon : on h op with
    | true =>
      rw [cond_true, Recorder.run_snoc]
      apply huse s op s' _ hstep hon hstores
    | false =>
      rw [cond_false, List.append_nil]
      apply hframe s s' _ _ hstores
      apply (hsystem.accesses s op s' hstep).same hapart hlive hlive'
      intro haccess
      rw [(hsystem.uses s op s' h hstep).mpr haccess] at hon
      contradiction

end Accesses
end Ownership
