import FourierSDK.Transition.Run
import Mathlib.Data.List.Nodup
import Mathlib.Data.List.Perm.Subperm

/-!
This module contains a ledger of references to resources that must be released by hand. A reference
owns its target, and then releases it when it is dropped, or borrows a target that somebody else
owns. References can be copied, and a reference can be rebound to the target of another one that is
of the same kind. A resource is leaked when it is created and no reference to it is.

`Safe` is what a ledger must look like for the resources to be well managed, `Clean` are the
operations that keep exactly one owner for each resource.
-/

namespace Ownership

open Transition

variable {H : Type}

structure Ref (H : Type) where
  target : H
  owns : Bool
  deriving DecidableEq

structure Ledger (H : Type) where
  refs : List (Option (Ref H))
  created : List H
  borrowed : List H
  released : List H

inductive Op (H : Type) where
  | create (h : H)
  | leak (h : H)
  | borrow (h : H)
  | lend (h : H)
  | copy (i : Nat)
  | rebind (i j : Nat)
  | use (i : Nat)
  | drop (i : Nat)

def Ref.releases (r : Ref H) : List H := if r.owns then [r.target] else []

namespace Ledger

def empty : Ledger H := ⟨[], [], [], []⟩

def AllGone (l : Ledger H) : Prop := ∀ r, some r ∉ l.refs

structure Safe [DecidableEq H] (l : Ledger H) : Prop where
  released_once : ∀ h ∈ l.created, l.released.count h ≤ 1
  released_all : l.AllGone → ∀ h ∈ l.created, l.released.count h = 1
  live : ∀ r, some r ∈ l.refs → r.target ∉ l.released
  borrowed : ∀ h ∈ l.borrowed, h ∉ l.released

def Clean (l : Ledger H) (op : Op H) : Prop :=
  match op with
  | .leak _ => False
  | .copy i => ∀ r, l.refs[i]? = some (some r) → r.owns = false
  | .rebind i j => ∀ r r', l.refs[i]? = some (some r) → l.refs[j]? = some (some r') →
    r.owns = false ∨ r = r'
  | _ => True

end Ledger

inductive Step : Ledger H → Op H → Ledger H → Prop where
  | create {l h} (hfresh : h ∉ l.created) (hborrowed : h ∉ l.borrowed)
    : Step l (.create h)
        { l with refs := l.refs ++ [some ⟨h, true⟩], created := l.created ++ [h] }
  | leak {l h} (hfresh : h ∉ l.created) (hborrowed : h ∉ l.borrowed)
    : Step l (.leak h) { l with created := l.created ++ [h] }
  | borrow {l h} (hcreated : h ∉ l.created)
    : Step l (.borrow h)
        { l with refs := l.refs ++ [some ⟨h, false⟩], borrowed := l.borrowed ++ [h] }
  | lend {l h} (hcreated : h ∉ l.created)
    : Step l (.lend h) { l with borrowed := l.borrowed ++ [h] }
  | copy {l i r} (href : l.refs[i]? = some (some r))
    : Step l (.copy i) { l with refs := l.refs ++ [some r] }
  | rebind {l i j r r'} (hleft : l.refs[i]? = some (some r)) (hright : l.refs[j]? = some (some r'))
    (hkind : r.owns = r'.owns) : Step l (.rebind i j) { l with refs := l.refs.set i (some r') }
  | use {l i r} (href : l.refs[i]? = some (some r)) : Step l (.use i) l
  | drop {l i r} (href : l.refs[i]? = some (some r))
    : Step l (.drop i)
        { l with refs := l.refs.set i none, released := l.released ++ r.releases }

variable {l l' : Ledger H} {op : Op H} {ops : List (Op H)}

/-! ### What holds in every run -/

def Ref.Known (r : Ref H) (created borrowed : List H) : Prop :=
  r.target ∈ if r.owns then created else borrowed

theorem Ref.Known.mono {r : Ref H} {created created' borrowed borrowed' : List H}
    (h : r.Known created borrowed) (hcreated : created ⊆ created') (hborrowed : borrowed ⊆ borrowed')
    : r.Known created' borrowed' := by
  unfold Known at h ⊢
  cases howns : r.owns with
  | true =>
    rw [howns] at h
    apply hcreated h
  | false =>
    rw [howns] at h
    apply hborrowed h

structure Sound (l : Ledger H) : Prop where
  created : l.created.Nodup
  borrowed : ∀ h ∈ l.borrowed, h ∉ l.created
  released : ∀ h ∈ l.released, h ∈ l.created
  known : ∀ r, some r ∈ l.refs → r.Known l.created l.borrowed

theorem Sound.empty : Sound (Ledger.empty : Ledger H) := by
  constructor <;> simp [Ledger.empty]

theorem Sound.target_of_owns (h : Sound l) {r : Ref H} (hr : some r ∈ l.refs)
    (howns : r.owns = true) : r.target ∈ l.created := by
  have hknown := h.known r hr
  unfold Ref.Known at hknown
  rw [howns] at hknown
  apply hknown

theorem Sound.target_of_not_owns (h : Sound l) {r : Ref H} (hr : some r ∈ l.refs)
    (howns : r.owns = false) : r.target ∈ l.borrowed := by
  have hknown := h.known r hr
  unfold Ref.Known at hknown
  rw [howns] at hknown
  apply hknown

theorem Ref.mem_releases {r : Ref H} {h : H}
    : h ∈ r.releases ↔ r.owns = true ∧ h = r.target := by
  unfold releases
  cases r.owns <;> simp

theorem Sound.leak (h : Sound l) {x : H} (hfresh : x ∉ l.created) (hborrowed : x ∉ l.borrowed)
    : Sound { l with created := l.created ++ [x] } := by
  constructor
  . have hnodup := List.Nodup.concat hfresh h.created
    rw [List.concat_eq_append] at hnodup
    apply hnodup
  . intro y hy
    simp only [List.mem_append, List.mem_singleton, not_or]
    refine ⟨h.borrowed y hy, ?_⟩
    intro hxy
    rw [hxy] at hy
    contradiction
  . intro y hy
    exact List.mem_append_left _ (h.released y hy)
  . intro r hr
    apply (h.known r hr).mono (List.subset_append_left _ _) (List.Subset.refl _)

theorem Sound.lend (h : Sound l) {x : H} (hcreated : x ∉ l.created)
    : Sound { l with borrowed := l.borrowed ++ [x] } := by
  constructor
  . apply h.created
  . intro y hy
    simp only [List.mem_append, List.mem_singleton] at hy
    cases hy with
    | inl hy => apply h.borrowed y hy
    | inr hy =>
      rw [hy]
      apply hcreated
  . apply h.released
  . intro r hr
    apply (h.known r hr).mono (List.Subset.refl _) (List.subset_append_left _ _)

theorem Sound.refer (h : Sound l) {r : Ref H} (hr : r.Known l.created l.borrowed)
    : Sound { l with refs := l.refs ++ [some r] } := by
  refine ⟨h.created, h.borrowed, h.released, ?_⟩
  intro r' hr'
  simp only [List.mem_append, List.mem_singleton, Option.some.injEq] at hr'
  cases hr' with
  | inl hr' => apply h.known r' hr'
  | inr hr' =>
    rw [hr']
    apply hr

theorem Sound.step (h : Sound l) (hstep : Step l op l') : Sound l' := by
  cases hstep with
  | create hfresh hborrowed =>
    apply (h.leak hfresh hborrowed).refer
    simp [Ref.Known]
  | leak hfresh hborrowed => apply h.leak hfresh hborrowed
  | borrow hcreated =>
    apply (h.lend hcreated).refer
    simp [Ref.Known]
  | lend hcreated => apply h.lend hcreated
  | copy href => apply h.refer (h.known _ (List.mem_of_getElem? href))
  | @rebind i j r r' hleft hright hkind =>
    refine ⟨h.created, h.borrowed, h.released, ?_⟩
    intro r'' hr''
    cases List.mem_or_eq_of_mem_set hr'' with
    | inl hr'' => apply h.known r'' hr''
    | inr hr'' =>
      rw [Option.some.injEq] at hr''
      rw [hr'']
      apply h.known r' (List.mem_of_getElem? hright)
  | use => exact h
  | @drop i r href =>
    refine ⟨h.created, h.borrowed, ?_, ?_⟩
    . intro x hx
      cases List.mem_append.mp hx with
      | inl hx => apply h.released x hx
      | inr hx =>
        have ⟨howns, htarget⟩ := Ref.mem_releases.mp hx
        rw [htarget]
        apply h.target_of_owns (List.mem_of_getElem? href) howns
    . intro r' hr'
      cases List.mem_or_eq_of_mem_set hr' with
      | inl hr' => apply h.known r' hr'
      | inr hr' => contradiction

theorem sound_of_run (hrun : Run Step .empty ops l) : Sound l := by
  apply hrun.invariant (P := fun _ l => Sound l)
  . apply Sound.empty
  . intro _ _ _ _ _ h hstep
    apply h.step hstep

/-! ### What a step does to the number of owners -/

theorem Step.det (l : Ledger H) (op : Op H) (l₁ l₂ : Ledger H) (h₁ : Step l op l₁)
    (h₂ : Step l op l₂) : l₁ = l₂ := by
  cases h₁ with
  | create => cases h₂; rfl
  | leak => cases h₂; rfl
  | borrow => cases h₂; rfl
  | lend => cases h₂; rfl
  | use => cases h₂; rfl
  | copy href =>
    cases h₂ with
    | copy href' =>
      rw [href, Option.some.injEq, Option.some.injEq] at href'
      rw [href']
  | rebind hleft hright hkind =>
    cases h₂ with
    | rebind hleft' hright' hkind' =>
      rw [hright, Option.some.injEq, Option.some.injEq] at hright'
      rw [hright']
  | drop href =>
    cases h₂ with
    | drop href' =>
      rw [href, Option.some.injEq, Option.some.injEq] at href'
      rw [href']

def Ledger.owners (l : Ledger H) : Nat := l.refs.countP (·.any Ref.owns)

def Ledger.copied (l : Ledger H) (op : Op H) : Nat :=
  match op with
  | .copy i => if (l.refs[i]?.join).any Ref.owns then 1 else 0
  | _ => 0

def Op.leaked : Op H → Nat
  | .leak _ => 1
  | _ => 0

theorem countP_set_add {α : Type} {xs : List α} {i : Nat} {a : α} (h : xs[i]? = some a) (b : α)
    (p : α → Bool)
    : (xs.set i b).countP p + (if p a then 1 else 0) = xs.countP p + (if p b then 1 else 0) := by
  have ⟨hi, ha⟩ := List.getElem?_eq_some_iff.mp h
  rw [List.countP_set hi, ha]
  cases hp : p a with
  | false =>
    simp only [Bool.false_eq_true, ↓reduceIte]
    omega
  | true =>
    have hpos : 0 < xs.countP p := by
      rw [List.countP_pos_iff]
      exact ⟨a, List.mem_of_getElem? h, hp⟩
    simp only [↓reduceIte]
    omega

theorem Step.balance (hstep : Step l op l')
    : l'.owners + l'.released.length + l.created.length + op.leaked
        =
      l.owners + l.released.length + l'.created.length + l.copied op := by
  unfold Ledger.owners Ledger.copied Op.leaked
  cases hstep with
  | create =>
    simp only [List.countP_append, List.length_append]
    simp
    omega
  | leak =>
    simp only [List.length_append]
    simp
    omega
  | borrow =>
    simp
  | lend => rfl
  | copy href =>
    simp only [List.countP_append, List.countP_singleton, href, Option.join_some]
    omega
  | @rebind i j r r' hleft hright hkind =>
    have hcount := countP_set_add hleft (some r') (·.any Ref.owns)
    simp only [Option.any_some, hkind] at hcount
    dsimp only
    omega
  | use => rfl
  | @drop i r href =>
    have hcount := countP_set_add href none (·.any Ref.owns)
    unfold Ref.releases
    cases howns : r.owns with
    | false =>
      simp [howns] at hcount ⊢
      omega
    | true =>
      simp [howns] at hcount ⊢
      omega

theorem Op.leaked_eq_zero (hclean : l.Clean op) : op.leaked = 0 := by
  cases op with
  | leak => contradiction
  | _ => rfl

def Covered (l : Ledger H) : Prop := l.created.length ≤ l.owners + l.released.length

theorem Covered.step (h : Covered l) (hclean : l.Clean op) (hstep : Step l op l') : Covered l' := by
  have hbalance := hstep.balance
  rw [Op.leaked_eq_zero hclean] at hbalance
  unfold Covered at h ⊢
  omega

def Excess (l : Ledger H) : Prop := l.created.length < l.owners + l.released.length

theorem Excess.step (h : Excess l) (hleaked : op.leaked = 0) (hstep : Step l op l')
    : Excess l' := by
  have hbalance := hstep.balance
  unfold Excess at h ⊢
  omega

def AllClean (ops : List (Op H)) : Prop :=
  ∀ pre op l, pre ++ [op] <+: ops → Run Step .empty pre l → l.Clean op

theorem AllClean.nil : AllClean ([] : List (Op H)) := by
  intro pre op l' hpre
  simp at hpre

theorem AllClean.snoc (h : AllClean ops) (hrun : Run Step .empty ops l) (hclean : l.Clean op)
    : AllClean (ops ++ [op]) := by
  intro pre op' l' hpre hrun'
  cases List.prefix_concat_iff.mp hpre with
  | inl heq =>
    simp only [List.append_singleton_inj] at heq
    rw [heq.left] at hrun'
    rw [heq.right, Run.det Step.det hrun' hrun]
    apply hclean
  | inr hpre => apply h pre op' l' hpre hrun'

/-! ### One owner for each resource -/

variable [DecidableEq H]

def Ledger.shares (l : Ledger H) (h : H) : Nat :=
  l.refs.count (some ⟨h, true⟩) + l.released.count h

def Owned (l : Ledger H) : Prop := ∀ h ∈ l.created, l.shares h = 1

theorem Owned.safe (h : Owned l) (hsound : Sound l) : l.Safe := by
  constructor
  . intro x hx
    have hshares := h x hx
    unfold Ledger.shares at hshares
    omega
  . intro hgone x hx
    have hshares := h x hx
    unfold Ledger.shares at hshares
    rw [List.count_eq_zero.mpr (hgone _)] at hshares
    omega
  . intro r hr hreleased
    have hcreated := hsound.released _ hreleased
    cases howns : r.owns with
    | true =>
      have hshares := h _ hcreated
      have hcount : 0 < l.refs.count (some ⟨r.target, true⟩) := by
        rw [List.count_pos_iff, ← howns]
        apply hr
      have hcount' : 0 < l.released.count r.target := by
        rw [List.count_pos_iff]
        apply hreleased
      unfold Ledger.shares at hshares
      omega
    | false => exact hsound.borrowed _ (hsound.target_of_not_owns hr howns) hcreated
  . intro x hx hreleased
    exact hsound.borrowed x hx (hsound.released x hreleased)

theorem Sound.shares_eq_zero (h : Sound l) {x : H} (hx : x ∉ l.created) : l.shares x = 0 := by
  unfold Ledger.shares
  rw [Nat.add_eq_zero_iff, List.count_eq_zero, List.count_eq_zero]
  constructor
  . intro hr
    exact hx (h.target_of_owns hr rfl)
  . intro hreleased
    exact hx (h.released x hreleased)

theorem shares_drop {i : Nat} {r : Ref H} (href : l.refs[i]? = some (some r)) (x : H)
    : { l with refs := l.refs.set i none, released := l.released ++ r.releases }.shares x
        =
      l.shares x := by
  have hcount := countP_set_add href none (· == some ⟨x, true⟩)
  have ⟨target, owns⟩ := r
  unfold Ledger.shares Ref.releases
  rw [List.count_append]
  simp only [List.count_eq_countP] at hcount ⊢
  cases owns with
  | false => simpa using hcount
  | true =>
    by_cases hx : target = x
    . simp [hx] at hcount ⊢
      omega
    . simpa [hx] using hcount

theorem shares_rebind {i : Nat} {r : Ref H} (href : l.refs[i]? = some (some r)) (r' : Ref H) (x : H)
    : { l with refs := l.refs.set i (some r') }.shares x + (if r = ⟨x, true⟩ then 1 else 0)
        =
      l.shares x + (if r' = ⟨x, true⟩ then 1 else 0) := by
  have hcount := countP_set_add href (some r') (· == some ⟨x, true⟩)
  unfold Ledger.shares
  simp only [List.count_eq_countP, beq_iff_eq, Option.some.injEq] at hcount ⊢
  omega

theorem Owned.step (h : Owned l) (hsound : Sound l) (hclean : l.Clean op) (hstep : Step l op l')
    : Owned l' := by
  intro x hx
  cases hstep with
  | @create y hfresh hborrowed =>
    unfold Ledger.shares
    rw [List.count_append]
    by_cases hxy : x = y
    . have hzero := hsound.shares_eq_zero hfresh
      unfold Ledger.shares at hzero
      rw [hxy]
      simp only [List.count_singleton_self]
      omega
    . have hcreated : x ∈ l.created := by
        simpa [hxy] using hx
      have hshares := h x hcreated
      unfold Ledger.shares at hshares
      have hyx : y ≠ x := fun hyx => hxy hyx.symm
      simpa [hyx] using hshares
  | leak => contradiction
  | @borrow y hcreated =>
    have hshares := h x hx
    unfold Ledger.shares at hshares
    simpa [Ledger.shares] using hshares
  | lend => apply h x hx
  | @copy i r href =>
    have hshares := h x hx
    have hne : r ≠ ⟨x, true⟩ := by
      intro hr
      have howns := hclean r href
      rw [hr] at howns
      contradiction
    unfold Ledger.shares at hshares
    simpa [Ledger.shares, hne] using hshares
  | @rebind i j r r' hleft hright hkind =>
    have hshares := h x hx
    have hcount := shares_rebind hleft r' x
    cases hclean r r' hleft hright with
    | inl howns =>
      have hne : r ≠ ⟨x, true⟩ := by
        intro hr
        rw [hr] at howns
        contradiction
      have hne' : r' ≠ ⟨x, true⟩ := by
        intro hr
        rw [hkind, hr] at howns
        contradiction
      simpa [hne, hne', hshares] using hcount
    | inr hsame =>
      subst hsame
      omega
  | use => apply h x hx
  | drop href =>
    rw [shares_drop href]
    apply h x hx

/-! ### Runs that are not clean -/

def Lost (l : Ledger H) : Prop := ∃ h ∈ l.created, l.shares h = 0

theorem Sound.lost_of_leak (h : Sound l) {x : H} (hstep : Step l (.leak x) l') : Lost l' := by
  cases hstep with
  | leak hfresh _ => exact ⟨x, by simp, h.shares_eq_zero hfresh⟩

theorem Lost.step (h : Lost l) (hstep : Step l op l') : Lost l' := by
  have ⟨x, hx, hshares⟩ := h
  have hnone {r : Ref H} (hr : some r ∈ l.refs) : r ≠ ⟨x, true⟩ := by
    intro hrx
    rw [hrx, ← List.count_pos_iff] at hr
    unfold Ledger.shares at hshares
    omega
  refine ⟨x, ?_, ?_⟩
  . cases hstep with
    | create => exact List.mem_append_left _ hx
    | leak => exact List.mem_append_left _ hx
    | _ => exact hx
  . cases hstep with
    | @create y hfresh hborrowed =>
      have hne : y ≠ x := by
        intro hyx
        rw [hyx] at hfresh
        contradiction
      unfold Ledger.shares at hshares ⊢
      simpa [hne] using hshares
    | leak => exact hshares
    | borrow =>
      unfold Ledger.shares at hshares ⊢
      simpa using hshares
    | lend => exact hshares
    | @copy i r href =>
      have hne := hnone (List.mem_of_getElem? href)
      unfold Ledger.shares at hshares ⊢
      simpa [hne] using hshares
    | @rebind i j r r' hleft hright hkind =>
      have hcount := shares_rebind hleft r' x
      have hne := hnone (List.mem_of_getElem? hright)
      simp only [hne, ↓reduceIte] at hcount
      omega
    | use => exact hshares
    | drop href =>
      rw [shares_drop href]
      exact hshares

theorem Owned.not_clean (h : Owned l) (hsound : Sound l) (hcovered : Covered l)
    (hclean : ¬l.Clean op) (hstep : Step l op l') : Excess l' ∨ Lost l' := by
  have hbalance := hstep.balance
  cases hstep with
  | leak hfresh hborrowed => exact .inr (hsound.lost_of_leak (.leak hfresh hborrowed))
  | @copy i r href =>
    have howns : r.owns = true := by
      apply Classical.byContradiction
      intro howns
      apply hclean
      intro r' href'
      rw [href, Option.some.injEq, Option.some.injEq] at href'
      rw [← href']
      simpa using howns
    simp only [Ledger.copied, href, Option.join_some, Option.any_some, howns, ↓reduceIte]
      at hbalance
    left
    unfold Covered at hcovered
    unfold Excess
    dsimp only [Op.leaked] at hbalance ⊢
    omega
  | @rebind i j r r' hleft hright hkind =>
    have hne : r.owns = true ∧ r' ≠ r := by
      apply Classical.byContradiction
      intro hne
      apply hclean
      intro r₁ r₂ hleft' hright'
      rw [hleft, Option.some.injEq, Option.some.injEq] at hleft'
      rw [hright, Option.some.injEq, Option.some.injEq] at hright'
      rw [← hleft', ← hright']
      cases howns : r.owns with
      | false => exact .inl rfl
      | true =>
        right
        apply Classical.byContradiction
        intro hrr
        exact hne ⟨howns, fun hr => hrr hr.symm⟩
    have ⟨howns, hrr⟩ := hne
    have hr : r = ⟨r.target, true⟩ := by rw [← howns]
    have hcreated := hsound.target_of_owns (List.mem_of_getElem? hleft) howns
    have hshares := h r.target hcreated
    have hcount := shares_rebind hleft r' r.target
    rw [← hr] at hcount
    simp only [↓reduceIte, hrr, Nat.add_zero, hshares, Nat.add_eq_right] at hcount
    exact .inr ⟨r.target, hcreated, hcount⟩
  | _ => exact absurd trivial hclean

/-! ### Runs -/

theorem owned_of_clean (hrun : Run Step .empty ops l) (hclean : AllClean ops) : Owned l := by
  apply hrun.invariant (P := fun tr l => tr <+: ops → Owned l)
  . intro _ x hx
    contradiction
  . intro tr l₁ op l₂ hrun ih hstep hpre
    have howned := ih ((List.prefix_append tr [op]).trans hpre)
    apply howned.step (sound_of_run hrun) (hclean tr op l₁ hpre hrun) hstep
  . apply List.prefix_refl

theorem safe_of_clean (hrun : Run Step .empty ops l) (hclean : AllClean ops) : l.Safe := by
  apply (owned_of_clean hrun hclean).safe (sound_of_run hrun)

theorem clean_or_excess_or_lost (hrun : Run Step .empty ops l)
    : (AllClean ops ∧ Owned l ∧ Covered l) ∨ Excess l ∨ Lost l := by
  apply hrun.invariant
    (P := fun ops l => (AllClean ops ∧ Owned l ∧ Covered l) ∨ Excess l ∨ Lost l)
  . left
    refine ⟨.nil, ?_, Nat.zero_le _⟩
    intro x hx
    contradiction
  . intro ops l₁ op l₂ hrun ih hstep
    have hsound := sound_of_run hrun
    rcases ih with ⟨hclean, howned, hcovered⟩ | hexcess | hlost
    . by_cases hop : l₁.Clean op
      . left
        exact ⟨hclean.snoc hrun hop, howned.step hsound hop hstep, hcovered.step hop hstep⟩
      . exact .inr (howned.not_clean hsound hcovered hop hstep)
    . cases hop : op with
      | leak =>
        rw [hop] at hstep
        exact .inr (.inr (hsound.lost_of_leak hstep))
      | _ => exact .inr (.inl (hexcess.step (by rw [hop]; rfl) hstep))
    . exact .inr (.inr (hlost.step hstep))

theorem Excess.not_safe (h : Excess l) (hsound : Sound l) (hgone : l.AllGone) : ¬l.Safe := by
  intro hsafe
  have howners : l.owners = 0 := by
    unfold Ledger.owners
    rw [List.countP_eq_zero]
    intro r hr
    cases r with
    | none => simp
    | some r => exact absurd hr (hgone r)
  have hnodup : l.released.Nodup := by
    rw [List.nodup_iff_count_le_one]
    intro x
    by_cases hx : x ∈ l.created
    . apply hsafe.released_once x hx
    . rw [List.count_eq_zero.mpr fun hreleased => hx (hsound.released x hreleased)]
      omega
  have hle : l.released.length ≤ l.created.length :=
    (List.Nodup.subperm hnodup hsound.released).length_le
  unfold Excess at h
  omega

theorem Lost.not_safe (h : Lost l) (hgone : l.AllGone) : ¬l.Safe := by
  intro hsafe
  have ⟨x, hx, hshares⟩ := h
  have hreleased := hsafe.released_all hgone x hx
  unfold Ledger.shares at hshares
  omega

theorem safe_iff_clean (hrun : Run Step .empty ops l) (hgone : l.AllGone)
    : l.Safe ↔ AllClean ops := by
  constructor
  . intro hsafe
    rcases clean_or_excess_or_lost hrun with ⟨hclean, _⟩ | hexcess | hlost
    . exact hclean
    . exact absurd hsafe (hexcess.not_safe (sound_of_run hrun) hgone)
    . exact absurd hsafe (hlost.not_safe hgone)
  . intro hclean
    apply safe_of_clean hrun hclean

end Ownership
