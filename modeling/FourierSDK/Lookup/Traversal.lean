import FourierSDK.Cpp.Range
import FourierSDK.Lookup.Decoding
import Mathlib.Data.List.Infix

/-!
This module contains the iterators of a `Lookup::EntryList` and the loops over its entries.

An operator that moves an iterator has a result and leaves the iterator somewhere else, in this
order. It refers to a list by an `L`, which is the list itself where it cannot change or go away.
`subscript` is `operator[]` as part of a program whose state is `σ`, and a `Machine` says what the
allocations and the indeterminate length of `operator[]` are like in each state. The loops are the
ones of the users of the SDK, with any body.
-/

namespace Fourier

open Cpp Cpp.Prog

structure Machine (σ : Type) where
  memory : σ → Memory
  garbage : σ → Nat

structure EntryList where
  lookup_list_ : FourierLookupEntryListPtr
  deriving DecidableEq, Repr

namespace EntryList

structure Iterator (L : Type) where
  list_ : L
  current_ : BitVec 64
  deriving DecidableEq, Repr

variable {σ L : Type}

def size (lib : SizedEntryListLib) (list : EntryList) : BitVec 64 :=
  lib.fourierLookupEntryListGetSize list.lookup_list_

def begin (list : EntryList) : Iterator EntryList := ⟨list, 0⟩

def «end» (lib : SizedEntryListLib) (list : EntryList) : Iterator EntryList := ⟨list, list.size lib⟩

def subscript (lib : SizedEntryListLib) (machine : Machine σ) (list : EntryList)
    (index : BitVec 64) : Prog StdException σ Entry :=
  fun s =>
    locally (start (machine.garbage s))
      (operatorIndex lib.toEntryListLib (machine.memory s) list.lookup_list_ index.toNat) s

namespace Iterator

def deref (lib : SizedEntryListLib) (machine : Machine σ) (it : Iterator EntryList)
    : Prog StdException σ Entry :=
  it.list_.subscript lib machine it.current_

def preIncrement (it : Iterator L) : Iterator L × Iterator L :=
  let it := { it with current_ := it.current_ + 1 }
  (it, it)

def postIncrement (it : Iterator L) : Iterator L × Iterator L :=
  let tmp := it
  let it := { it with current_ := it.current_ + 1 }
  (tmp, it)

def preDecrement (it : Iterator L) : Iterator L × Iterator L :=
  let it := { it with current_ := it.current_ - 1 }
  (it, it)

def postDecrement (it : Iterator L) : Iterator L × Iterator L :=
  let tmp := it
  let it := { it with current_ := it.current_ - 1 }
  (tmp, it)

def equal (it rhs : Iterator L) : Bool := it.current_ == rhs.current_

def notEqual (it rhs : Iterator L) : Bool := !it.equal rhs

end Iterator

inductive Move where
  | preIncrement
  | postIncrement
  | preDecrement
  | postDecrement
  deriving DecidableEq, Repr

namespace Move

def apply : Move → Iterator L → Iterator L × Iterator L
  | preIncrement => Iterator.preIncrement
  | postIncrement => Iterator.postIncrement
  | preDecrement => Iterator.preDecrement
  | postDecrement => Iterator.postDecrement

def increments : Move → Bool
  | preIncrement => true
  | postIncrement => true
  | preDecrement => false
  | postDecrement => false

def isPostfix : Move → Bool
  | preIncrement => false
  | postIncrement => true
  | preDecrement => false
  | postDecrement => true

def net (moves : List Move) : Int :=
  moves.countP Move.increments - moves.countP (fun m => !m.increments)

-- From the position `p`, every part of the moves leads to a position between 0 and `n`.
def Stays (n : Nat) (p : Int) (moves : List Move) : Prop :=
  ∀ pre, pre <+: moves → 0 ≤ p + net pre ∧ p + net pre ≤ n

end Move

def Iterator.run (moves : List Move) (it : Iterator L) : Iterator L :=
  moves.foldl (fun it move => (move.apply it).2) it

def Iterator.plus (it : Iterator L) (k : Int) : Iterator L :=
  { it with current_ := it.current_ + BitVec.ofInt 64 k }

-- `for (auto it = list.begin(); it != list.end(); ++it) body(*it);`
def forEach (lib : SizedEntryListLib) (machine : Machine σ) (list : EntryList)
    (body : Entry → Prog StdException σ Unit) (fuel : Nat) : Prog StdException σ Unit := do
  let _ ← whileLoop
    (fun it => pure (it.notEqual (list.end lib)))
    (fun it => do
      body (← it.deref lib machine)
      return it.preIncrement.2)
    fuel
    list.begin

-- `for (auto it = list.end(); it != list.begin();) { --it; body(*it); }`
def forEachBack (lib : SizedEntryListLib) (machine : Machine σ) (list : EntryList)
    (body : Entry → Prog StdException σ Unit) (fuel : Nat) : Prog StdException σ Unit := do
  let _ ← whileLoop
    (fun it => pure (it.notEqual list.begin))
    (fun it => do
      let it := it.preDecrement.2
      body (← it.deref lib machine)
      return it)
    fuel
    (list.end lib)

/-! ### Moves -/

namespace Move

@[simp]
theorem net_nil : net [] = 0 := by
  rfl

theorem net_single (move : Move) : net [move] = if move.increments then 1 else -1 := by
  cases move <;> rfl

theorem net_snoc (moves : List Move) (move : Move)
    : net (moves ++ [move]) = net moves + net [move] := by
  unfold net
  rw [List.countP_append, List.countP_append]
  omega

end Move

namespace Iterator

theorem plus_zero (it : Iterator L) : it.plus 0 = it := by
  simp [plus]

theorem plus_plus (it : Iterator L) (j k : Int) : (it.plus j).plus k = it.plus (j + k) := by
  simp only [plus, BitVec.ofInt_add, BitVec.add_assoc]

theorem apply_eq_plus (move : Move) (it : Iterator L)
    : (move.apply it).2 = it.plus (Move.net [move]) := by
  rw [Move.net_single]
  have hminus : BitVec.ofInt 64 (-1) = -1 := by decide
  cases move with
  | preIncrement => simp [Move.apply, preIncrement, Move.increments, plus]
  | postIncrement => simp [Move.apply, postIncrement, Move.increments, plus]
  | preDecrement =>
    simp [Move.apply, preDecrement, Move.increments, plus, hminus, BitVec.sub_eq_add_neg]
  | postDecrement =>
    simp [Move.apply, postDecrement, Move.increments, plus, hminus, BitVec.sub_eq_add_neg]

theorem run_eq_plus (moves : List Move) (it : Iterator L)
    : it.run moves = it.plus (Move.net moves) := by
  induction moves using List.reverseRecOn with
  | nil => rw [Move.net_nil, plus_zero]; rfl
  | append_singleton moves move ih =>
    unfold run at ih ⊢
    rw [List.foldl_append, ih, Move.net_snoc, ← plus_plus]
    apply apply_eq_plus

theorem apply_apply {move move' : Move} (h : move.increments ≠ move'.increments) (it : Iterator L)
    : (move'.apply (move.apply it).2).2 = it := by
  have hnet : Move.net [move] + Move.net [move'] = 0 := by
    rw [Move.net_single, Move.net_single]
    cases hmove : move.increments <;> cases hmove' : move'.increments <;> simp_all
  rw [apply_eq_plus, apply_eq_plus, plus_plus, hnet, plus_zero]

theorem apply_result (move : Move) (it : Iterator L)
    : (move.apply it).1 = if move.isPostfix then it else (move.apply it).2 := by
  cases move <;> rfl

end Iterator

/-! ### The positions of a list -/

variable {lib : SizedEntryListLib} {machine : Machine σ} {list : EntryList} {n : Nat}

theorem begin_plus (list : EntryList) (k : Nat)
    : list.begin.plus k = ⟨list, BitVec.ofNat 64 k⟩ := by
  simp [begin, Iterator.plus]

theorem equal_plus {j k : Nat} (hj : j < 2 ^ 64) (hk : k < 2 ^ 64)
    : (list.begin.plus j).equal (list.begin.plus k) = decide (j = k) := by
  rw [begin_plus, begin_plus]
  unfold Iterator.equal
  rw [Bool.eq_iff_iff, beq_iff_eq, decide_eq_true_eq, ← BitVec.toNat_inj, BitVec.toNat_ofNat,
    BitVec.toNat_ofNat, Nat.mod_eq_of_lt hj, Nat.mod_eq_of_lt hk]

def range (list : EntryList) (hn : n < 2 ^ 64) : BidirectionalRange (Iterator EntryList) n where
  at_ k := list.begin.plus k
  next it := it.preIncrement.2
  prev it := it.preDecrement.2
  equal := Iterator.equal
  next_at k hk := by
    rw [show (list.begin.plus k).preIncrement.2 = _ from Iterator.apply_eq_plus .preIncrement _]
    rw [Iterator.plus_plus]
    rfl
  prev_at k hk := by
    rw [show (list.begin.plus _).preDecrement.2 = _ from Iterator.apply_eq_plus .preDecrement _]
    rw [Iterator.plus_plus, Move.net_single]
    simp [Move.increments]
  equal_at j k hj hk := by
    apply equal_plus
    . omega
    . omega

theorem size_lt (hsize : (list.size lib).toNat = n) : n < 2 ^ 64 := by
  rw [← hsize]
  apply BitVec.isLt

theorem end_eq (hsize : (list.size lib).toNat = n) : list.end lib = list.begin.plus n := by
  rw [begin_plus, ← hsize, BitVec.ofNat_toNat, BitVec.setWidth_eq]
  rfl

theorem deref_plus (list : EntryList) (k : Nat)
    : (list.begin.plus k).deref lib machine
        =
      list.subscript lib machine (BitVec.ofNat 64 k) := by
  rw [begin_plus]
  rfl

theorem forEach_eq_forM (hsize : (list.size lib).toNat = n)
    (body : Entry → Prog StdException σ Unit) {fuel : Nat} (hfuel : n < fuel)
    : list.forEach lib machine body fuel
        =
      forM (List.range n) (fun i => list.subscript lib machine (BitVec.ofNat 64 i) >>= body) := by
  have hloop := (list.range (size_lt hsize)).forEach_eq_forM
    (fun it => it.deref lib machine >>= body) hfuel
  unfold BidirectionalRange.forEach at hloop
  simp only [Prog.bind_assoc, range, deref_plus, Nat.cast_zero, Iterator.plus_zero] at hloop
  unfold forEach
  rw [end_eq hsize]
  apply discard_bind_pure hloop

theorem forEachBack_eq_forM (hsize : (list.size lib).toNat = n)
    (body : Entry → Prog StdException σ Unit) {fuel : Nat} (hfuel : n < fuel)
    : list.forEachBack lib machine body fuel
        =
      forM (List.range n).reverse
        (fun i => list.subscript lib machine (BitVec.ofNat 64 i) >>= body) := by
  have hloop := (list.range (size_lt hsize)).forEachBack_eq_forM
    (fun it => it.deref lib machine >>= body) hfuel
  unfold BidirectionalRange.forEachBack at hloop
  simp only [Prog.bind_assoc, range, deref_plus, Nat.cast_zero, Iterator.plus_zero] at hloop
  unfold forEachBack
  rw [end_eq hsize]
  apply discard_bind_pure hloop

def count (lib : SizedEntryListLib) (list : EntryList) : Nat :=
  (lib.entries list.lookup_list_).length

structure At (lib : SizedEntryListLib) (machine : Machine σ) (list : EntryList) (n k : Nat)
    (it : Iterator EntryList) : Prop where
  iterator : it = list.begin.plus k
  deref : k < n → it.deref lib machine = list.subscript lib machine (BitVec.ofNat 64 k)
  equal_end : it.equal (list.end lib) = true ↔ k = n

theorem at_plus (hsize : (list.size lib).toNat = n) {k : Nat} (hk : k ≤ n)
    : At lib machine list n k (list.begin.plus k) := by
  have hn := size_lt hsize
  constructor
  . rfl
  . intro _
    apply deref_plus
  . rw [end_eq hsize, equal_plus (by omega) hn, decide_eq_true_eq]

theorem at_of_stays (machine : Machine σ) (hsize : (list.size lib).toNat = n) {moves : List Move}
    {p : Nat} (hstays : Move.Stays n p moves)
    : ∃ k : Nat, (k : Int) = p + Move.net moves ∧
        At lib machine list n k ((list.begin.plus p).run moves) := by
  have ⟨hlower, hupper⟩ := hstays moves (List.prefix_refl moves)
  have hk : ((p + Move.net moves).toNat : Int) = p + Move.net moves := by omega
  refine ⟨(p + Move.net moves).toNat, hk, ?_⟩
  rw [Iterator.run_eq_plus, Iterator.plus_plus, ← hk]
  apply at_plus hsize
  omega

/--
However it goes on with an entry, the loop has the entries at these indices, one after the other. It
ends if this goes on without an exception.
-/
structure VisitsInOrder (lib : SizedEntryListLib) (machine : Machine σ) (list : EntryList)
    (entry : Nat → σ → Entry) (order : List Nat)
    (loop : (Entry → Prog StdException σ Unit) → Nat → Prog StdException σ Unit) : Prop where
  visits : ∀ body fuel, list.count lib < fuel →
    loop body fuel
      =
    forM order (fun i => list.subscript lib machine (BitVec.ofNat 64 i) >>= body)
  ends : ∀ (visit : Entry → σ → σ) fuel s, list.count lib < fuel →
    loop (fun e => modify (visit e)) fuel s
      =
    some (.ok (), order.foldl (fun s i => visit (entry i s) s) s)

theorem visitsInOrder {entry : Nat → σ → Entry} {order : List Nat}
    {loop : (Entry → Prog StdException σ Unit) → Nat → Prog StdException σ Unit}
    (hentry : ∀ i s, i ∈ order →
      list.subscript lib machine (BitVec.ofNat 64 i) s = some (.ok (entry i s), s))
    (hloop : ∀ body fuel, list.count lib < fuel →
      loop body fuel
        =
      forM order (fun i => list.subscript lib machine (BitVec.ofNat 64 i) >>= body))
    : VisitsInOrder lib machine list entry order loop := by
  constructor
  . apply hloop
  . intro visit fuel s hfuel
    rw [hloop _ fuel hfuel]
    apply forM_run
    intro i hi s
    rw [bind_of_returned (hentry i s hi)]
    rfl

theorem traversal_exact (lib : SizedEntryListLib) (machine : Machine σ) (list : EntryList)
    (hsize : (list.size lib).toNat = list.count lib) (entry : Nat → σ → Entry)
    (hentry : ∀ i s, i < list.count lib →
      list.subscript lib machine (BitVec.ofNat 64 i) s = some (.ok (entry i s), s))
    : let n := list.count lib
      (∀ moves, Move.Stays n 0 moves →
        ∃ k : Nat, (k : Int) = Move.net moves ∧
          At lib machine list n k (list.begin.run moves)) ∧
      (∀ moves, Move.Stays n n moves →
        ∃ k : Nat, (k : Int) = n + Move.net moves ∧
          At lib machine list n k ((list.end lib).run moves)) ∧
      (∀ (move : Move) (it : Iterator EntryList),
        (move.apply it).1 = if move.isPostfix then it else (move.apply it).2) ∧
      (∀ (move move' : Move) (it : Iterator EntryList), move.increments ≠ move'.increments →
        (move'.apply (move.apply it).2).2 = it) ∧
      VisitsInOrder lib machine list entry (List.range n) (forEach lib machine list) ∧
      VisitsInOrder lib machine list entry (List.range n).reverse (forEachBack lib machine list) := by
  intro n
  refine ⟨?_, ?_, ?_, ?_, ?_, ?_⟩
  . intro moves hstays
    have ⟨k, hk, hat⟩ := at_of_stays (p := 0) machine hsize hstays
    rw [Nat.cast_zero, Iterator.plus_zero] at hat
    exact ⟨k, by omega, hat⟩
  . intro moves hstays
    rw [end_eq hsize]
    apply at_of_stays machine hsize hstays
  . intro move it
    apply Iterator.apply_result
  . intro move move' it h
    apply Iterator.apply_apply h
  . apply visitsInOrder
    . intro i s hi
      apply hentry i s (List.mem_range.mp hi)
    . intro body fuel hfuel
      apply forEach_eq_forM hsize body hfuel
  . apply visitsInOrder
    . intro i s hi
      rw [List.mem_reverse] at hi
      apply hentry i s (List.mem_range.mp hi)
    . intro body fuel hfuel
      apply forEachBack_eq_forM hsize body hfuel

def twoEntries : List StoredEntry :=
  [
    ⟨⟨[77, 49], by decide⟩, ⟨[70], by decide⟩, ⟨[], by decide⟩⟩,
    ⟨⟨[77, 50], by decide⟩, ⟨[70], by decide⟩, ⟨[49], by decide⟩⟩
  ]

def decoded (stored : StoredEntry) : Entry :=
  ⟨stored.name.terminated.map (.written · ⟨.name, .FourierStatusSuccess⟩),
    stored.family.terminated.map (.written · ⟨.family, .FourierStatusSuccess⟩),
    stored.serial_number.terminated.map (.written · ⟨.serial_number, .FourierStatusSuccess⟩)⟩

theorem traversal_exact_twoEntries
    : let machine : Machine (List Entry) := ⟨fun _ => .plenty, fun _ => 0⟩
      let visit : Entry → List Entry → List Entry := fun e visited => visited ++ [e]
      (⟨1⟩ : EntryList).forEach (.ofEntries twoEntries) machine (fun e => modify (visit e)) 3 []
          =
        some (.ok (), twoEntries.map decoded) ∧
      (⟨1⟩ : EntryList).forEachBack (.ofEntries twoEntries) machine (fun e => modify (visit e)) 3 []
          =
        some (.ok (), (twoEntries.map decoded).reverse) := by
  intro machine visit
  have ⟨_, _, _, _, hforwards, hbackwards⟩ := traversal_exact (.ofEntries twoEntries) machine ⟨1⟩ rfl
    (fun i _ => (twoEntries[i]?.map decoded).getD ⟨[], [], []⟩)
    (fun i s hi =>
      match i, hi with
      | 0, _ => rfl
      | 1, _ => rfl)
  constructor
  . rw [hforwards.ends visit 3 [] (by decide)]
    rfl
  . rw [hbackwards.ends visit 3 [] (by decide)]
    rfl

theorem end_not_begin_plus_net
    : let lib := SizedEntryListLib.ofEntries twoEntries
      let list : EntryList := ⟨1⟩
      (list.size lib).toNat = list.count lib ∧
        Move.Stays (list.count lib) (list.count lib) [.preDecrement] ∧
        (list.end lib).run [.preDecrement] ≠ list.begin.plus (Move.net [.preDecrement]) := by
  intro lib list
  refine ⟨rfl, ?_, by decide⟩
  intro pre hpre
  cases List.prefix_cons_iff.mp hpre with
  | inl heq =>
    rw [heq]
    decide
  | inr h =>
    obtain ⟨rest, heq, hrest⟩ := h
    rw [heq, List.prefix_nil.mp hrest]
    decide

end EntryList
end Fourier
