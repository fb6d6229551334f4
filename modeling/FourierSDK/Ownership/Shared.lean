import FourierSDK.Ownership.Ledger

/-!
This module contains pointers that share the ownership of an object, as `std::shared_ptr` does it:
the pointers to an object refer to one control block, which counts them, and the object is disposed
of when the count becomes zero.

A variable is `none` once it is gone, and then `some none` for a null pointer. The operations are
those of the class. `Counted` is what they keep: the count is the number of the variables that refer
to the block, and each object that nobody refers to has been disposed of once.
-/

namespace Ownership

open Transition

variable {H : Type}

structure Control (H : Type) where
  target : H
  use_count : Nat
  deriving DecidableEq, Repr

structure Shares (H : Type) where
  vars : List (Option (Option Nat))
  blocks : List (Control H)
  disposed : List H
  deriving DecidableEq, Repr

inductive SharedOp (H : Type) where
  | make (h : H)
  | null
  | copy (i : Nat)
  | move (i : Nat)
  | assign (i j : Nat)
  | moveAssign (i j : Nat)
  | reset (i : Nat)
  | drop (i : Nat)
  deriving DecidableEq, Repr

def SharedOp.made : SharedOp H → List H
  | make h => [h]
  | _ => []

namespace Shares

def empty : Shares H := ⟨[], [], []⟩

def addRef (s : Shares H) : Option Nat → Shares H
  | none => s
  | some b =>
    match s.blocks[b]? with
    | none => s
    | some c => { s with blocks := s.blocks.set b { c with use_count := c.use_count + 1 } }

def release (s : Shares H) : Option Nat → Shares H
  | none => s
  | some b =>
    match s.blocks[b]? with
    | none => s
    | some c =>
      {
        s with
        blocks := s.blocks.set b { c with use_count := c.use_count - 1 }
        disposed := s.disposed ++ if c.use_count = 1 then [c.target] else []
      }

def step (s : Shares H) : SharedOp H → Option (Shares H)
  | .make h =>
    some {
      s with
      vars := s.vars ++ [some (some s.blocks.length)]
      blocks := s.blocks ++ [⟨h, 1⟩]
    }
  | .null => some { s with vars := s.vars ++ [some none] }
  | .copy i => do
    let p ← s.vars[i]?.join
    let s := s.addRef p
    return { s with vars := s.vars ++ [some p] }
  | .move i => do
    let p ← s.vars[i]?.join
    return { s with vars := s.vars.set i (some none) ++ [some p] }
  | .assign i j => do
    let p ← s.vars[i]?.join
    let q ← s.vars[j]?.join
    let s := (s.addRef q).release p
    return { s with vars := s.vars.set i (some q) }
  | .moveAssign i j => do
    let p ← s.vars[i]?.join
    let q ← s.vars[j]?.join
    if i = j then
      return s
    else
      let s := s.release p
      return { s with vars := (s.vars.set i (some q)).set j (some none) }
  | .reset i => do
    let p ← s.vars[i]?.join
    let s := s.release p
    return { s with vars := s.vars.set i (some none) }
  | .drop i => do
    let p ← s.vars[i]?.join
    let s := s.release p
    return { s with vars := s.vars.set i none }

def Step (s : Shares H) (op : SharedOp H) (s' : Shares H) : Prop := s.step op = some s'

def get (s : Shares H) (p : Option Nat) : Option H :=
  p.bind (fun b => s.blocks[b]?.map Control.target)

def alive? (s : Shares H) (b : Nat) : Option H :=
  match s.blocks[b]? with
  | none => none
  | some c => if c.use_count = 0 then none else some c.target

def held (s : Shares H) : List H := s.vars.filterMap (·.bind s.get)

def refs (s : Shares H) (b : Nat) : Nat := s.vars.count (some (some b))

@[simp]
theorem addRef_vars (s : Shares H) (p : Option Nat) : (s.addRef p).vars = s.vars := by
  unfold addRef
  split
  . rfl
  . split <;> rfl

@[simp]
theorem release_vars (s : Shares H) (p : Option Nat) : (s.release p).vars = s.vars := by
  unfold release
  split
  . rfl
  . split <;> rfl

theorem map_set_of_eq {α β : Type} {f : α → β} {xs : List α} {i : Nat} {a b : α}
    (h : xs[i]? = some a) (hf : f b = f a) : (xs.set i b).map f = xs.map f := by
  have ⟨hi, ha⟩ := List.getElem?_eq_some_iff.mp h
  have hi' : i < (xs.map f).length := by simpa using hi
  rw [List.map_set, hf, ← ha, ← List.getElem_map f (h := hi')]
  apply List.set_getElem_self

@[simp]
theorem addRef_targets (s : Shares H) (p : Option Nat)
    : (s.addRef p).blocks.map Control.target = s.blocks.map Control.target := by
  unfold addRef
  split
  . rfl
  . split
    . rfl
    . rename_i hblock
      exact map_set_of_eq hblock rfl

@[simp]
theorem release_targets (s : Shares H) (p : Option Nat)
    : (s.release p).blocks.map Control.target = s.blocks.map Control.target := by
  unfold release
  split
  . rfl
  . split
    . rfl
    . rename_i hblock
      exact map_set_of_eq hblock rfl

/-! ### Counting -/

variable [DecidableEq H]

def gone (h : H) (c : Control H) : Bool := c.target = h ∧ c.use_count = 0

structure Counts (s : Shares H) (r : Nat → Nat) : Prop where
  use_count : ∀ b c, s.blocks[b]? = some c → c.use_count = r b
  known : ∀ b, 0 < r b → b < s.blocks.length
  disposed : ∀ h, s.disposed.count h = s.blocks.countP (gone h)

variable {s s' : Shares H} {r r' : Nat → Nat} {p : Option Nat}

theorem Counts.congr (h : Counts s r) (hr : ∀ b, r' b = r b) : Counts s r' := by
  have heq : r' = r := funext hr
  rw [heq]
  apply h

theorem Counts.vars (h : Counts s r) (vars : List (Option (Option Nat)))
    : Counts { s with vars } r := by
  constructor
  . apply h.use_count
  . apply h.known
  . apply h.disposed

theorem Counts.addRef (h : Counts s r) (hp : ∀ b, p = some b → 0 < r b)
    (hr : ∀ b, r' b = r b + (if p = some b then 1 else 0)) : Counts (s.addRef p) r' := by
  cases p with
  | none =>
    apply h.congr
    intro b
    simp [hr b]
  | some b =>
    have hb := h.known b (hp b rfl)
    have hblock := List.getElem?_eq_getElem hb
    have hcount := h.use_count b _ hblock
    have hpos := hp b rfl
    simp only [Shares.addRef, hblock]
    constructor
    . intro b' c hc
      rw [List.getElem?_set] at hc
      by_cases hbb : b = b'
      . subst hbb
        simp only [↓reduceIte, hb, Option.some.injEq] at hc
        rw [← hc, hr b]
        simp [hcount]
      . simp only [hbb, ↓reduceIte] at hc
        rw [hr b', h.use_count b' c hc]
        simp [hbb]
    . intro b' hb'
      rw [List.length_set]
      rw [hr b'] at hb'
      split at hb'
      . rename_i heq
        rw [Option.some.injEq] at heq
        rw [← heq]
        exact hb
      . exact h.known b' hb'
    . intro x
      have hset := countP_set_add hblock { s.blocks[b] with use_count := s.blocks[b].use_count + 1 }
        (gone x)
      rw [h.disposed x]
      have hne : s.blocks[b].use_count ≠ 0 := by omega
      simpa [gone, hne] using hset.symm

theorem Counts.release (h : Counts s r)
    (hr : ∀ b, r' b + (if p = some b then 1 else 0) = r b) : Counts (s.release p) r' := by
  cases p with
  | none =>
    apply h.congr
    intro b
    simp [← hr b]
  | some b =>
    have hrb := hr b
    simp only [↓reduceIte] at hrb
    have hb := h.known b (by omega)
    have hblock := List.getElem?_eq_getElem hb
    have hcount := h.use_count b _ hblock
    simp only [Shares.release, hblock]
    constructor
    . intro b' c hc
      rw [List.getElem?_set] at hc
      by_cases hbb : b = b'
      . subst hbb
        simp only [↓reduceIte, hb, Option.some.injEq] at hc
        rw [← hc]
        dsimp only
        omega
      . simp only [hbb, ↓reduceIte] at hc
        have hrb' := hr b'
        simp only [Option.some.injEq, hbb, ↓reduceIte, Nat.add_zero] at hrb'
        rw [h.use_count b' c hc, hrb']
    . intro b' hb'
      rw [List.length_set]
      apply h.known b'
      have hrb' := hr b'
      omega
    . intro x
      have hset := countP_set_add hblock { s.blocks[b] with use_count := s.blocks[b].use_count - 1 }
        (gone x)
      rw [List.count_append, h.disposed x]
      have hne : s.blocks[b].use_count ≠ 0 := by omega
      by_cases hone : s.blocks[b].use_count = 1
      . by_cases hx : s.blocks[b].target = x
        . simpa [gone, hone, hx] using hset.symm
        . simpa [gone, hone, hx] using hset.symm
      . have hpred : s.blocks[b].use_count - 1 ≠ 0 := by omega
        simpa [gone, hone, hne, hpred] using hset.symm

def Counted (s : Shares H) : Prop := Counts s s.refs

theorem refs_append (vars : List (Option (Option Nat))) (v : Option (Option Nat)) (b : Nat)
    : (vars ++ [v]).count (some (some b))
        =
      vars.count (some (some b)) + (if v = some (some b) then 1 else 0) := by
  rw [List.count_append, List.count_singleton]
  simp only [beq_iff_eq]

theorem refs_set {vars : List (Option (Option Nat))} {i : Nat} {p : Option Nat}
    (h : vars[i]? = some (some p)) (v : Option (Option Nat)) (b : Nat)
    : (vars.set i v).count (some (some b)) + (if p = some b then 1 else 0)
        =
      vars.count (some (some b)) + (if v = some (some b) then 1 else 0) := by
  have hcount := countP_set_add h v (· == some (some b))
  simpa only [List.count_eq_countP, beq_iff_eq, Option.some.injEq] using hcount

theorem refs_pos {vars : List (Option (Option Nat))} {i b : Nat}
    (h : vars[i]? = some (some (some b))) : 0 < vars.count (some (some b)) := by
  apply List.count_pos_iff.mpr
  apply List.mem_of_getElem? h

theorem Counted.step {op : SharedOp H} (h : Counted s) (hstep : Step s op s') : Counted s' := by
  unfold Step at hstep
  cases op with
  | make x =>
    cases hstep
    constructor
    . intro b c hc
      unfold refs
      rw [refs_append]
      by_cases hb : b < s.blocks.length
      . rw [List.getElem?_append_left hb] at hc
        have hne : s.blocks.length ≠ b := by omega
        have hcount := h.use_count b c hc
        unfold refs at hcount
        simpa [hne] using hcount
      . have hzero : s.refs b = 0 := by
          have hknown := h.known b
          omega
        have hlt := (List.getElem?_eq_some_iff.mp hc).1
        have hb' : b = s.blocks.length := by
          rw [List.length_append, List.length_singleton] at hlt
          omega
        subst hb'
        rw [List.getElem?_concat_length, Option.some.injEq] at hc
        unfold refs at hzero
        simp [← hc, hzero]
    . intro b hb
      rw [List.length_append, List.length_singleton]
      unfold refs at hb
      rw [refs_append] at hb
      have hknown := h.known b
      unfold refs at hknown
      split at hb
      . rename_i heq
        simp only [Option.some.injEq] at heq
        omega
      . have := hknown hb
        omega
    . intro y
      rw [List.countP_append, h.disposed y]
      simp [gone]
  | null =>
    cases hstep
    apply (h.vars _).congr
    intro b
    unfold refs
    rw [refs_append]
    simp
  | copy i =>
    simp only [Shares.step, Option.bind_eq_bind, Option.bind_eq_some_iff, Option.join_eq_some_iff,
      Option.pure_def, Option.some.injEq] at hstep
    obtain ⟨p, hp, hs⟩ := hstep
    rw [← hs]
    apply Counts.vars
    apply h.addRef
    . intro b hb
      subst hb
      apply refs_pos hp
    . intro b
      simp only [refs, addRef_vars]
      rw [refs_append]
      simp only [Option.some.injEq]
  | move i =>
    simp only [Shares.step, Option.bind_eq_bind, Option.bind_eq_some_iff, Option.join_eq_some_iff,
      Option.pure_def, Option.some.injEq] at hstep
    obtain ⟨p, hp, hs⟩ := hstep
    rw [← hs]
    apply (h.vars _).congr
    intro b
    have hset := refs_set hp (some none) b
    simp only [refs]
    rw [refs_append]
    simp only [Option.some.injEq, reduceCtorEq, ↓reduceIte] at hset ⊢
    omega
  | assign i j =>
    simp only [Shares.step, Option.bind_eq_bind, Option.bind_eq_some_iff, Option.join_eq_some_iff,
      Option.pure_def, Option.some.injEq] at hstep
    obtain ⟨p, hp, q, hq, hs⟩ := hstep
    rw [← hs]
    apply Counts.vars
    have hadd : Counts (s.addRef q) (fun b => s.refs b + (if q = some b then 1 else 0)) := by
      apply h.addRef
      . intro b hb
        subst hb
        apply refs_pos hq
      . intro b
        rfl
    apply hadd.release
    intro b
    have hset := refs_set hp (some q) b
    simp only [refs, release_vars, addRef_vars]
    simpa only [Option.some.injEq] using hset
  | moveAssign i j =>
    simp only [Shares.step, Option.bind_eq_bind, Option.bind_eq_some_iff, Option.join_eq_some_iff,
      Option.pure_def] at hstep
    obtain ⟨p, hp, q, hq, hs⟩ := hstep
    by_cases hij : i = j
    . simp only [hij, ↓reduceIte, Option.some.injEq] at hs
      rw [← hs]
      apply h
    . simp only [hij, ↓reduceIte, Option.some.injEq] at hs
      rw [← hs]
      apply Counts.vars
      apply h.release
      intro b
      have hset := refs_set hp (some q) b
      have hq' : (s.vars.set i (some q))[j]? = some (some q) := by
        rw [List.getElem?_set_ne hij]
        apply hq
      have hset' := refs_set hq' (some none) b
      simp only [refs, release_vars]
      simp only [Option.some.injEq, reduceCtorEq, ↓reduceIte] at hset hset' ⊢
      omega
  | reset i =>
    simp only [Shares.step, Option.bind_eq_bind, Option.bind_eq_some_iff, Option.join_eq_some_iff,
      Option.pure_def, Option.some.injEq] at hstep
    obtain ⟨p, hp, hs⟩ := hstep
    rw [← hs]
    apply Counts.vars
    apply h.release
    intro b
    have hset := refs_set hp (some none) b
    simpa only [refs, release_vars, Option.some.injEq, reduceCtorEq, ↓reduceIte, Nat.add_zero]
      using hset
  | drop i =>
    simp only [Shares.step, Option.bind_eq_bind, Option.bind_eq_some_iff, Option.join_eq_some_iff,
      Option.pure_def, Option.some.injEq] at hstep
    obtain ⟨p, hp, hs⟩ := hstep
    rw [← hs]
    apply Counts.vars
    apply h.release
    intro b
    have hset := refs_set hp none b
    simpa only [refs, release_vars, reduceCtorEq, ↓reduceIte, Nat.add_zero] using hset

theorem counted_of_run {ops : List (SharedOp H)} (hrun : Run Step .empty ops s) : Counted s := by
  apply hrun.invariant (P := fun _ s => Counted s)
  . constructor
    . simp [Shares.empty]
    . simp [Shares.empty, refs]
    . simp [Shares.empty]
  . intro _ _ _ _ _ h hstep
    apply h.step hstep

/-! ### The objects -/

omit [DecidableEq H] in
theorem targets_of_step {op : SharedOp H} (hstep : Step s op s')
    : s'.blocks.map Control.target = s.blocks.map Control.target ++ op.made := by
  unfold Step at hstep
  cases op with
  | make =>
    cases hstep
    simp [SharedOp.made]
  | null =>
    cases hstep
    simp [SharedOp.made]
  | moveAssign i j =>
    simp only [Shares.step, Option.bind_eq_bind, Option.bind_eq_some_iff, Option.pure_def] at hstep
    obtain ⟨_, _, _, _, hs⟩ := hstep
    split at hs
    . cases hs
      simp [SharedOp.made]
    . cases hs
      simp [SharedOp.made]
  | _ =>
    simp only [Shares.step, Option.bind_eq_bind, Option.bind_eq_some_iff, Option.pure_def,
      Option.some.injEq] at hstep
    grind [SharedOp.made, addRef_targets, release_targets]

omit [DecidableEq H] in
theorem targets_append_of_run {ops : List (SharedOp H)} (hrun : Run Step s ops s')
    : s'.blocks.map Control.target = s.blocks.map Control.target ++ ops.flatMap SharedOp.made := by
  apply hrun.invariant (P := fun ops s' =>
    s'.blocks.map Control.target = s.blocks.map Control.target ++ ops.flatMap SharedOp.made)
  . simp
  . intro ops s₁ op s₂ _ h hstep
    rw [targets_of_step hstep, h]
    simp

omit [DecidableEq H] in
theorem targets_of_run {ops : List (SharedOp H)} (hrun : Run Step .empty ops s)
    : s.blocks.map Control.target = ops.flatMap SharedOp.made :=
  targets_append_of_run hrun

omit [DecidableEq H] in
theorem target_of_alive? {b : Nat} {x : H} (h : s.alive? b = some x)
    : (s.blocks.map Control.target)[b]? = some x := by
  unfold alive? at h
  cases hblock : s.blocks[b]? with
  | none =>
    rw [hblock] at h
    contradiction
  | some c =>
    rw [hblock] at h
    simp only [Option.ite_none_left_eq_some, Option.some.injEq] at h
    simp [hblock, h.2]

theorem Counted.alive?_iff (h : Counted s) {b : Nat} {x : H}
    (hx : (s.blocks.map Control.target)[b]? = some x)
    : s.alive? b = some x ↔ some (some b) ∈ s.vars := by
  rw [List.getElem?_map, Option.map_eq_some_iff] at hx
  have ⟨c, hc, htarget⟩ := hx
  have hcount := h.use_count b c hc
  unfold alive?
  rw [hc]
  simp only [htarget, Option.ite_none_left_eq_some, and_true, hcount]
  have hcount_pos : 0 < s.refs b ↔ some (some b) ∈ s.vars := List.count_pos_iff
  rw [← hcount_pos]
  omega

theorem countP_gone {blocks : List (Control H)} (hnodup : (blocks.map Control.target).Nodup)
    {b : Nat} {c : Control H} (hc : blocks[b]? = some c)
    : blocks.countP (gone c.target) = if c.use_count = 0 then 1 else 0 := by
  induction blocks generalizing b with
  | nil => contradiction
  | cons c' blocks ih =>
    rw [List.map_cons, List.nodup_cons] at hnodup
    rw [List.countP_cons]
    cases b with
    | zero =>
      rw [List.getElem?_cons_zero, Option.some.injEq] at hc
      subst hc
      have hrest : blocks.countP (gone c'.target) = 0 := by
        rw [List.countP_eq_zero]
        intro c hmem hgone
        simp only [gone, decide_eq_true_eq] at hgone
        apply hnodup.1
        rw [← hgone.1]
        apply List.mem_map_of_mem hmem
      simp [hrest, gone]
    | succ b =>
      rw [List.getElem?_cons_succ] at hc
      have hne : c'.target ≠ c.target := by
        intro heq
        apply hnodup.1
        rw [heq]
        apply List.mem_map_of_mem (List.mem_of_getElem? hc)
      rw [ih hnodup.2 hc]
      simp [gone, hne]

omit [DecidableEq H] in
theorem mem_held_iff {x : H}
    : x ∈ s.held ↔ ∃ b c, some (some b) ∈ s.vars ∧ s.blocks[b]? = some c ∧ c.target = x := by
  simp only [held, get, List.mem_filterMap, Option.bind_eq_some_iff, Option.map_eq_some_iff]
  constructor
  . intro ⟨v, hv, p, hp, b, hb, c, hc, hx⟩
    subst hb
    subst hp
    exact ⟨b, c, hv, hc, hx⟩
  . intro ⟨b, c, hv, hc, hx⟩
    exact ⟨_, hv, some b, rfl, b, rfl, c, hc, hx⟩

omit [DecidableEq H] in
theorem mem_held_of_getElem? (hnodup : (s.blocks.map Control.target).Nodup) {b : Nat}
    {c : Control H} (hc : s.blocks[b]? = some c) : c.target ∈ s.held ↔ some (some b) ∈ s.vars := by
  rw [mem_held_iff]
  constructor
  . intro ⟨b', c', hv, hc', htarget⟩
    have hb : b < (s.blocks.map Control.target).length := by
      rw [List.length_map]
      exact (List.getElem?_eq_some_iff.mp hc).1
    have heq : b = b' := by
      rw [← List.getElem?_inj hb hnodup]
      simp [hc, hc', htarget]
    rw [heq]
    exact hv
  . intro hv
    exact ⟨b, c, hv, hc, rfl⟩

theorem count_disposed {ops : List (SharedOp H)} (hrun : Run Step .empty ops s)
    (hnodup : (ops.flatMap SharedOp.made).Nodup) (x : H)
    : s.disposed.count x = if x ∈ ops.flatMap SharedOp.made ∧ x ∉ s.held then 1 else 0 := by
  have hcounted := counted_of_run hrun
  rw [← targets_of_run hrun] at hnodup ⊢
  rw [hcounted.disposed x]
  by_cases hx : x ∈ s.blocks.map Control.target
  . have ⟨c, hmem, htarget⟩ := List.mem_map.mp hx
    have ⟨b, hc⟩ := List.mem_iff_getElem?.mp hmem
    subst htarget
    rw [countP_gone hnodup hc, hcounted.use_count b c hc]
    have hzero : s.refs b = 0 ↔ some (some b) ∉ s.vars := List.count_eq_zero
    simp only [hzero, hx, true_and, mem_held_of_getElem? hnodup hc]
  . rw [if_neg (fun h => hx h.1), List.countP_eq_zero]
    intro c hmem hgone
    simp only [gone, decide_eq_true_eq] at hgone
    apply hx
    rw [← hgone.1]
    apply List.mem_map_of_mem hmem

end Shares
end Ownership
