import FourierSDK.Cpp.Prog

/-!
This module contains ranges of bidirectional iterators. A `BidirectionalRange` of length `n` has the
iterators `at_ 0`, ..., `at_ n`, of which the last one is past the end. Nothing is said about what
the operations do beyond these, so that they may as well wrap around there.

`forEach` and `forEachBack` are the loops `for (it = begin; it != end; ++it) body(it)` and
`for (it = end; it != begin;) { --it; body(it); }`.
-/

namespace Cpp

structure BidirectionalRange (ι : Type) (n : Nat) where
  at_ : Nat → ι
  next : ι → ι
  prev : ι → ι
  equal : ι → ι → Bool
  next_at : ∀ k, k < n → next (at_ k) = at_ (k + 1)
  prev_at : ∀ k, k < n → prev (at_ (k + 1)) = at_ k
  equal_at : ∀ j k, j ≤ n → k ≤ n → equal (at_ j) (at_ k) = decide (j = k)

namespace BidirectionalRange

variable {ι ε σ : Type} {n : Nat} (range : BidirectionalRange ι n) (body : ι → Prog ε σ Unit)

def forEach (fuel : Nat) : Prog ε σ ι :=
  Prog.whileLoop (fun it => pure !range.equal it (range.at_ n))
    (fun it => do body it; pure (range.next it)) fuel (range.at_ 0)

def forEachBack (fuel : Nat) : Prog ε σ ι :=
  Prog.whileLoop (fun it => pure !range.equal it (range.at_ 0))
    (fun it => do body (range.prev it); pure (range.prev it)) fuel (range.at_ n)

theorem forEach_eq_forM {fuel : Nat} (hfuel : n < fuel)
    : range.forEach body fuel
        =
      forM (List.range n) (fun k => body (range.at_ k)) >>= fun _ => pure (range.at_ n) := by
  unfold forEach
  rw [List.range_eq_range']
  refine Prog.whileLoop_eq_forM ?_ ?_ (Nat.zero_le n) hfuel
  . intro k hk
    rw [range.equal_at k n hk (Nat.le_refl n)]
    congr 1
    simp only [← decide_not, decide_eq_decide]
    omega
  . intro k hk
    rw [range.next_at k hk]

theorem forEachBack_eq_forM {fuel : Nat} (hfuel : n < fuel)
    : range.forEachBack body fuel
        =
      forM (List.range n).reverse (fun k => body (range.at_ k)) >>= fun _ => pure (range.at_ 0) := by
  have hloop : range.forEachBack body fuel
      = forM (List.range' 0 (n - 0)) (fun k => body (range.at_ (n - 1 - k))) >>= fun _ =>
        pure (range.at_ (n - n)) := by
    -- the loop variable counts down
    refine Prog.whileLoop_eq_forM (a := fun k => range.at_ (n - k)) ?_ ?_ (Nat.zero_le n) hfuel
    . intro k hk
      rw [range.equal_at (n - k) 0 (Nat.sub_le n k) (Nat.zero_le n)]
      congr 1
      simp only [← decide_not, decide_eq_decide]
      omega
    . intro k hk
      have hsucc : n - k = n - 1 - k + 1 := by omega
      have hpred : n - (k + 1) = n - 1 - k := by omega
      rw [hsucc, hpred, range.prev_at (n - 1 - k) (by omega)]
  rw [hloop, Nat.sub_self, Nat.sub_zero, List.range_eq_range', List.reverse_range', List.forM_map]
  simp only [Nat.zero_add, List.range_eq_range']

end BidirectionalRange
end Cpp
