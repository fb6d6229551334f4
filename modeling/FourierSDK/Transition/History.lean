import Mathlib.Data.List.DropRight

/-!
This module contains what a history of operations says about the present: the operations since the
last one that resets everything, and for a record with several keys, the value that was last written
to a key since then. A `Recorder` says which operations reset the record and what an operation
writes.
-/

namespace Transition

variable {Op K : Type} {V : K → Type}

def sinceReset (resets : Op → Bool) (ops : List Op) : List Op := ops.rtakeWhile (!resets ·)

section

variable {resets : Op → Bool}

@[simp]
theorem sinceReset_nil : sinceReset resets [] = [] := by
  rfl

theorem sinceReset_snoc (ops : List Op) (op : Op)
    : sinceReset resets (ops ++ [op])
        =
      if resets op then [] else sinceReset resets ops ++ [op] := by
  unfold sinceReset
  cases h : resets op with
  | false => simp [h]
  | true => simp [h]

theorem sinceReset_reset (ops ops' : List Op) {op : Op} (h : resets op = true)
    : sinceReset resets (ops ++ op :: ops') = sinceReset resets ops' := by
  induction ops' using List.reverseRecOn with
  | nil =>
    rw [sinceReset_snoc]
    simp [h]
  | append_singleton ops' op' ih =>
    rw [← List.cons_append, ← List.append_assoc, sinceReset_snoc, ih, ← sinceReset_snoc]

theorem mem_of_sinceReset {ops : List Op} {op : Op} (h : op ∈ sinceReset resets ops)
    : op ∈ ops := by
  apply (List.rtakeWhile_suffix _ _).subset h

theorem mem_sinceReset (ops : List Op) {op : Op} {ops' : List Op} (hop : resets op = false)
    (h : ∀ op' ∈ ops', resets op' = false) : op ∈ sinceReset resets (ops ++ op :: ops') := by
  induction ops' using List.reverseRecOn with
  | nil =>
    rw [sinceReset_snoc]
    simp [hop]
  | append_singleton ops' op' ih =>
    simp only [List.mem_append, List.mem_singleton] at h
    rw [← List.cons_append, ← List.append_assoc, sinceReset_snoc, h op' (.inr rfl)]
    have hmem := ih fun op hop => h op (.inl hop)
    simp [hmem]

end

structure Recorder (Op K : Type) (V : K → Type) where
  resets : Op → Bool
  writes : Op → (k : K) → Option (V k)

namespace Recorder

variable (r : Recorder Op K V)

def step (record : (k : K) → Option (V k)) (op : Op) : (k : K) → Option (V k) := fun k =>
  if r.resets op then none else (r.writes op k).or (record k)

def run (ops : List Op) : (k : K) → Option (V k) := ops.foldl r.step fun _ => none

def last (ops : List Op) (k : K) : Option (V k) :=
  (sinceReset r.resets ops).reverse.findSome? (r.writes · k)

theorem run_snoc (ops : List Op) (op : Op) : r.run (ops ++ [op]) = r.step (r.run ops) op := by
  unfold run
  rw [List.foldl_append]
  rfl

theorem run_eq_last (ops : List Op) (k : K) : r.run ops k = r.last ops k := by
  induction ops using List.reverseRecOn with
  | nil => rfl
  | append_singleton ops op ih =>
    rw [run_snoc]
    unfold step last
    rw [sinceReset_snoc]
    cases r.resets op with
    | true => rfl
    | false =>
      simp only [Bool.false_eq_true, ↓reduceIte, List.reverse_append, List.reverse_singleton,
        List.singleton_append, List.findSome?_cons]
      rw [ih]
      cases r.writes op k with
      | none => rfl
      | some v => rfl

end Recorder
end Transition
