import Mathlib.Data.BitVec
import Mathlib.Data.List.Infix

/-!
This module contains a shallow embedding of C++ code that changes a state, throws exceptions and
relies on destructors, together with the rules that take apart the total correctness of such code:

* a `Prog` ends in a new state with a value or with an exception, `none` stands for code that does
  not end (it blocks, or a loop goes on for ever) or whose behaviour is undefined,
* `catchAll body` is `try { body } catch (...) {}`,
* `withLocal ctor dtor body` is a block with a local object, which is destroyed at the end of the
  block, also when the block is left by an exception,
* `locally init body` runs `body` on local variables of its own, whose initial values are `init`,
* `onPart get set body` runs `body` on a part of the state,
* `forLoop cond body fuel i` is `for (; cond; i++) body` with an unsigned counter of `w` bits, cut
  off after `fuel` tests of the condition,
* `whileLoop cond body fuel a` is `while (cond) body` with a local variable `a`, cut off likewise.
-/

namespace Cpp

def Prog (ε σ α : Type) := σ → Option (Except ε α × σ)

namespace Prog

variable {ε σ α β γ : Type}

protected def pure (a : α) : Prog ε σ α := fun s => some (.ok a, s)

protected def bind (x : Prog ε σ α) (f : α → Prog ε σ β) : Prog ε σ β := fun s =>
  match x s with
  | none => none
  | some (.error e, s') => some (.error e, s')
  | some (.ok a, s') => f a s'

instance : Monad (Prog ε σ) where
  pure := Prog.pure
  bind := Prog.bind

def throwing (e : ε) : Prog ε σ α := fun s => some (.error e, s)

def undefined : Prog ε σ α := fun _ => none

def read (f : σ → α) : Prog ε σ α := fun s => some (.ok (f s), s)

def modify (f : σ → σ) : Prog ε σ Unit := fun s => some (.ok (), f s)

def catchAll (body : Prog ε σ Unit) : Prog ε σ Unit := fun s =>
  match body s with
  | none => none
  | some (_, s') => some (.ok (), s')

def withLocal (ctor : Prog ε σ α) (dtor : α → Prog ε σ Unit) (body : α → Prog ε σ β)
    : Prog ε σ β := do
  let a ← ctor
  fun s =>
    match body a s with
    | none => none
    | some (r, s') =>
      match dtor a s' with
      | none => none
      | some (_, s'') => some (r, s'')

def locally {τ : Type} (init : τ) (body : Prog ε τ α) : Prog ε σ α := fun s =>
  match body init with
  | none => none
  | some (r, _) => some (r, s)

def onPart {τ : Type} (get : σ → τ) (set : τ → σ → σ) (body : Prog ε τ α) : Prog ε σ α := fun s =>
  match body (get s) with
  | none => none
  | some (r, t) => some (r, set t s)

def forLoop {w : Nat} (cond : BitVec w → σ → Bool) (body : BitVec w → Prog ε σ Unit)
    : (fuel : Nat) → (i : BitVec w) → Prog ε σ Unit
  | 0, _ => undefined
  | fuel + 1, i => do
    if ← read (cond i) then
      body i
      forLoop cond body fuel (i + 1)
    else
      pure ()

def whileLoop (cond : α → Prog ε σ Bool) (body : α → Prog ε σ α) : (fuel : Nat) → α → Prog ε σ α
  | 0, _ => undefined
  | fuel + 1, a => do
    if ← cond a then
      whileLoop cond body fuel (← body a)
    else
      pure a

/-! ### Equations -/

protected theorem id_map (x : Prog ε σ α) : id <$> x = x := by
  funext s
  show Prog.bind x Prog.pure s = x s
  unfold Prog.bind
  cases x s with
  | none => rfl
  | some result =>
    have ⟨r, s'⟩ := result
    cases r <;> rfl

protected theorem pure_bind (a : α) (f : α → Prog ε σ β) : pure a >>= f = f a := by
  rfl

protected theorem bind_assoc (x : Prog ε σ α) (f : α → Prog ε σ β) (g : β → Prog ε σ γ)
    : x >>= f >>= g = x >>= fun a => f a >>= g := by
  funext s
  show Prog.bind (Prog.bind x f) g s = Prog.bind x _ s
  unfold Prog.bind
  cases x s with
  | none => rfl
  | some result =>
    have ⟨r, s'⟩ := result
    cases r <;> rfl

instance : LawfulMonad (Prog ε σ) := .mk' _ Prog.id_map Prog.pure_bind Prog.bind_assoc

theorem discard_bind_pure {x : Prog ε σ α} {y : Prog ε σ Unit} {a : α}
    (h : x = y >>= fun _ => pure a) : x >>= (fun _ => pure ()) = y := by
  rw [h, Prog.bind_assoc]
  simp only [Prog.pure_bind]
  apply bind_pure_unit

theorem forM_run {l : List β} {x : β → Prog ε σ Unit} {f : σ → β → σ}
    (h : ∀ b ∈ l, ∀ s, x b s = some (.ok (), f s b)) (s : σ)
    : forM l x s = some (.ok (), l.foldl f s) := by
  induction l generalizing s with
  | nil => rfl
  | cons b l ih =>
    rw [List.forM_cons, List.foldl_cons]
    show Prog.bind (x b) (fun _ => forM l x) s = _
    unfold Prog.bind
    rw [h b List.mem_cons_self]
    apply ih
    intro b' hb'
    apply h b' (List.mem_cons_of_mem b hb')

theorem whileLoop_eq_forM {cond : α → Prog ε σ Bool} {body : α → Prog ε σ α} {a : Nat → α}
    {x : Nat → Prog ε σ Unit} {n : Nat} (hcond : ∀ k, k ≤ n → cond (a k) = pure (decide (k < n)))
    (hbody : ∀ k, k < n → body (a k) = (x k >>= fun _ => pure (a (k + 1)))) {fuel k : Nat}
    (hk : k ≤ n) (hfuel : n - k < fuel)
    : whileLoop cond body fuel (a k)
        =
      forM (List.range' k (n - k)) x >>= fun _ => pure (a n) := by
  induction fuel generalizing k with
  | zero => omega
  | succ fuel ih =>
    unfold whileLoop
    rw [hcond k hk, Prog.pure_bind]
    by_cases hlt : k < n
    . have hrange : List.range' k (n - k) = k :: List.range' (k + 1) (n - (k + 1)) := by
        rw [← List.range'_succ]
        congr 1
        omega
      rw [hbody k hlt, hrange, List.forM_cons]
      simp only [hlt, decide_true, ↓reduceIte, Prog.bind_assoc, Prog.pure_bind]
      rw [ih]
      . omega
      . omega
    . have heq : k = n := by omega
      subst heq
      simp

/-! ### Total correctness -/

def Ends (x : Prog ε σ α) (s : σ) (Q : Except ε α → σ → Prop) : Prop :=
  ∃ r s', x s = some (r, s') ∧ Q r s'

def Returns (x : Prog ε σ α) (s : σ) (Q : α → σ → Prop) : Prop :=
  ∃ a s', x s = some (.ok a, s') ∧ Q a s'

variable {x : Prog ε σ α} {s : σ}

theorem Returns.mono {Q Q' : α → σ → Prop} (h : x.Returns s Q) (hq : ∀ a s', Q a s' → Q' a s')
    : x.Returns s Q' := by
  have ⟨a, s', hx, h⟩ := h
  exact ⟨a, s', hx, hq a s' h⟩

theorem returns_iff_of_returned {Q : α → σ → Prop} {a : α} {s' : σ} (h : x s = some (.ok a, s'))
    : x.Returns s Q ↔ Q a s' := by
  unfold Returns
  rw [h]
  simp

@[simp]
theorem returns_pure {a : α} {Q : α → σ → Prop} : (pure a : Prog ε σ α).Returns s Q ↔ Q a s := by
  apply returns_iff_of_returned
  rfl

@[simp]
theorem returns_read {f : σ → α} {Q : α → σ → Prop}
    : (read f : Prog ε σ α).Returns s Q ↔ Q (f s) s := by
  apply returns_iff_of_returned
  rfl

@[simp]
theorem returns_modify {f : σ → σ} {Q : Unit → σ → Prop}
    : (modify f : Prog ε σ Unit).Returns s Q ↔ Q () (f s) := by
  apply returns_iff_of_returned
  rfl

theorem bind_of_returned {f : α → Prog ε σ β} {a : α} {s' : σ} (h : x s = some (.ok a, s'))
    : (x >>= f) s = f a s' := by
  show Prog.bind x f s = f a s'
  unfold Prog.bind
  rw [h]

theorem bind_eq_none {f : α → Prog ε σ β} (h : x s = none) : (x >>= f) s = none := by
  show Prog.bind x f s = none
  unfold Prog.bind
  rw [h]

theorem returns_bind_iff {f : α → Prog ε σ β} {Q : β → σ → Prop} {a : α} {s' : σ}
    (h : x s = some (.ok a, s')) : (x >>= f).Returns s Q ↔ (f a).Returns s' Q := by
  unfold Returns
  rw [bind_of_returned h]

theorem Returns.bind {f : α → Prog ε σ β} {Q : α → σ → Prop} {Q' : β → σ → Prop}
    (h : x.Returns s Q) (hf : ∀ a s', Q a s' → (f a).Returns s' Q') : (x >>= f).Returns s Q' := by
  have ⟨a, s', hx, hq⟩ := h
  have ⟨b, s'', hf, hq'⟩ := hf a s' hq
  refine ⟨b, s'', ?_, hq'⟩
  rw [bind_of_returned hx]
  apply hf

theorem Ends.catchAll {x : Prog ε σ Unit} {Q : σ → Prop} (h : x.Ends s (fun _ s' => Q s'))
    : x.catchAll.Returns s (fun _ s' => Q s') := by
  have ⟨r, s', hx, hq⟩ := h
  refine ⟨(), s', ?_, hq⟩
  unfold Prog.catchAll
  rw [hx]

theorem withLocal_run {ctor : Prog ε σ α} {dtor : α → Prog ε σ Unit} {body : α → Prog ε σ β}
    {a : α} {r : Except ε β} {rd : Except ε Unit} {s₁ s₂ s₃ : σ}
    (hctor : ctor s = some (.ok a, s₁)) (hbody : body a s₁ = some (r, s₂))
    (hdtor : dtor a s₂ = some (rd, s₃)) : Prog.withLocal ctor dtor body s = some (r, s₃) := by
  unfold Prog.withLocal
  refine (bind_of_returned hctor).trans ?_
  simp only [hbody, hdtor]

theorem withLocal_eq_none {ctor : Prog ε σ α} {dtor : α → Prog ε σ Unit}
    {body : α → Prog ε σ β} {a : α} {s₁ : σ} (hctor : ctor s = some (.ok a, s₁))
    (hbody : body a s₁ = none) : Prog.withLocal ctor dtor body s = none := by
  unfold Prog.withLocal
  refine (bind_of_returned hctor).trans ?_
  simp only [hbody]

theorem onPart_run {τ : Type} {get : σ → τ} {set : τ → σ → σ} {body : Prog ε τ α}
    {r : Except ε α} {t : τ} (h : body (get s) = some (r, t))
    : Prog.onPart get set body s = some (r, set t s) := by
  unfold Prog.onPart
  rw [h]

theorem onPart_eq_none {τ : Type} {get : σ → τ} {set : τ → σ → σ} {body : Prog ε τ α}
    (h : body (get s) = none) : Prog.onPart get set body s = none := by
  unfold Prog.onPart
  rw [h]

/-! ### Programs that end, and what they keep however they end -/

theorem ends_iff_of_run {Q : Except ε α → σ → Prop} {r : Except ε α} {s' : σ}
    (h : x s = some (r, s')) : x.Ends s Q ↔ Q r s' := by
  unfold Ends
  rw [h]
  simp

theorem bind_of_thrown {f : α → Prog ε σ β} {e : ε} {s' : σ} (h : x s = some (.error e, s'))
    : (x >>= f) s = some (.error e, s') := by
  show Prog.bind x f s = _
  unfold Prog.bind
  rw [h]

theorem ends_bind_iff {f : α → Prog ε σ β} {Q : Except ε β → σ → Prop} {a : α} {s' : σ}
    (h : x s = some (.ok a, s')) : (x >>= f).Ends s Q ↔ (f a).Ends s' Q := by
  unfold Ends
  rw [bind_of_returned h]

def Always (x : Prog ε σ α) (s : σ) (P : σ → Prop) : Prop := ∀ r s', x s = some (r, s') → P s'

def Keeps (x : Prog ε σ α) (P : σ → Prop) : Prop := ∀ s, P s → x.Always s P

theorem Always.bind {P : σ → Prop} {f : α → Prog ε σ β} (hx : x.Always s P)
    (hf : ∀ a, (f a).Keeps P) : (x >>= f).Always s P := by
  intro r s' hrun
  cases hx' : x s with
  | none =>
    rw [bind_eq_none hx'] at hrun
    contradiction
  | some result =>
    have ⟨r₁, s₁⟩ := result
    have hs₁ := hx r₁ s₁ hx'
    cases r₁ with
    | error e =>
      rw [bind_of_thrown hx'] at hrun
      cases hrun
      exact hs₁
    | ok a =>
      rw [bind_of_returned hx'] at hrun
      apply hf a s₁ hs₁ r s' hrun

theorem Always.not_ends {P : σ → Prop} {Q : Except ε α → σ → Prop} (h : x.Always s P)
    (hq : ∀ r s', Q r s' → ¬P s') : ¬x.Ends s Q := by
  intro ⟨r, s', hrun, hq'⟩
  exact hq r s' hq' (h r s' hrun)

theorem Keeps.bind {P : σ → Prop} {f : α → Prog ε σ β} (hx : x.Keeps P)
    (hf : ∀ a, (f a).Keeps P) : (x >>= f).Keeps P := by
  intro s hs
  apply (hx s hs).bind hf

theorem keeps_pure {P : σ → Prop} (a : α) : (pure a : Prog ε σ α).Keeps P := by
  intro s hs r s' hrun
  cases hrun
  exact hs

theorem keeps_throwing {P : σ → Prop} (e : ε) : (throwing e : Prog ε σ α).Keeps P := by
  intro s hs r s' hrun
  cases hrun
  exact hs

theorem keeps_undefined {P : σ → Prop} : (undefined : Prog ε σ α).Keeps P := by
  intro s hs r s' hrun
  contradiction

theorem keeps_read {P : σ → Prop} (f : σ → α) : (read f : Prog ε σ α).Keeps P := by
  intro s hs r s' hrun
  cases hrun
  exact hs

theorem keeps_modify {P : σ → Prop} {f : σ → σ} (hf : ∀ s, P s → P (f s))
    : (modify f : Prog ε σ Unit).Keeps P := by
  intro s hs r s' hrun
  cases hrun
  apply hf s hs

/-! ### Loops -/

theorem Returns.forM {l : List β} {x : β → Prog ε σ Unit} {step : γ → β → γ} {c : γ}
    {R : γ → σ → Prop} (hs : R c s)
    (hx : ∀ pre b s, pre ++ [b] <+: l → R (pre.foldl step c) s →
      (x b).Returns s (fun _ s' => R (step (pre.foldl step c) b) s'))
    : (forM l x : Prog ε σ PUnit).Returns s (fun _ s' => R (l.foldl step c) s') := by
  induction l generalizing c s with
  | nil => exact ⟨(), s, rfl, hs⟩
  | cons b l ih =>
    rw [List.forM_cons]
    have hfirst := hx [] b s (by simp) hs
    apply hfirst.bind
    intro _ s' hs'
    apply ih hs'
    intro pre b' s'' hpre hr
    apply hx (b :: pre) b' s'' _ hr
    rw [List.cons_append]
    exact List.cons_prefix_cons.mpr ⟨rfl, hpre⟩

def Outcome (I : σ → Prop) (Q : ε → σ → Prop) : Except ε α → σ → Prop
  | .ok _, s => I s
  | .error e, s => Q e s

/--
Invariant rule for a loop over a list that an exception may leave: `I pre` describes the state after
the part `pre` of the list, and `Q` the one after the exception.
-/
theorem ends_forM {l : List β} {x : β → Prog ε σ Unit} {I : List β → σ → Prop} {Q : ε → σ → Prop}
    (hs : I [] s)
    (hx : ∀ pre b s, pre ++ [b] <+: l → I pre s → (x b).Ends s (Outcome (I (pre ++ [b])) Q))
    : (forM l x : Prog ε σ PUnit).Ends s (Outcome (I l) Q) := by
  suffices h : ∀ pre post s, pre ++ post = l → I pre s →
      (forM post x : Prog ε σ PUnit).Ends s (Outcome (I l) Q) by
    apply h [] l s rfl hs
  intro pre post
  induction post generalizing pre with
  | nil =>
    intro s hl hi
    rw [List.append_nil] at hl
    rw [← hl]
    exact ⟨.ok (), s, rfl, hi⟩
  | cons b post ih =>
    intro s hl hi
    have hl' : (pre ++ [b]) ++ post = l := by
      rw [← hl, List.append_assoc, List.singleton_append]
    have ⟨r, s', hrun, hr⟩ := hx pre b s ⟨post, hl'⟩ hi
    rw [List.forM_cons]
    cases r with
    | error e => exact ⟨.error e, s', bind_of_thrown hrun, hr⟩
    | ok =>
      rw [ends_bind_iff hrun]
      apply ih (pre ++ [b]) s' hl' hr

theorem returns_iff_ends {I : σ → Prop}
    : x.Returns s (fun _ => I) ↔ x.Ends s (Outcome I fun _ _ => False) := by
  constructor
  . intro ⟨a, s', hrun, hi⟩
    exact ⟨.ok a, s', hrun, hi⟩
  . intro ⟨r, s', hrun, hr⟩
    cases r with
    | ok a => exact ⟨a, s', hrun, hr⟩
    | error e => contradiction

/--
Invariant rule for a counting loop that an exception may leave: `I k` describes the state before
iteration `k`, and `Q` the one after the exception. The counter must be wide enough for the bound,
otherwise it wraps around before the loop ends.
-/
theorem Ends.forLoop {w n : Nat} {cond : BitVec w → σ → Bool} {body : BitVec w → Prog ε σ Unit}
    {I : Nat → σ → Prop} {Q : ε → σ → Prop} (hn : n < 2 ^ w)
    (hcond : ∀ k s, k ≤ n → I k s → cond (BitVec.ofNat w k) s = decide (k < n))
    (hbody : ∀ k s, k < n → I k s → (body (BitVec.ofNat w k)).Ends s (Outcome (I (k + 1)) Q))
    {fuel k : Nat} (hk : k ≤ n) (hfuel : n - k < fuel) (h : I k s)
    : (Prog.forLoop cond body fuel (BitVec.ofNat w k)).Ends s (Outcome (I n) Q) := by
  induction fuel generalizing k s with
  | zero => omega
  | succ fuel ih =>
    unfold Prog.forLoop
    rw [ends_bind_iff (x := read _) rfl, hcond k s hk h]
    by_cases hlt : k < n
    . simp only [hlt, decide_true, ↓reduceIte]
      have ⟨r, s', hrun, hr⟩ := hbody k s hlt h
      cases r with
      | error e => exact ⟨.error e, s', bind_of_thrown hrun, hr⟩
      | ok =>
        rw [ends_bind_iff hrun]
        have hsucc : BitVec.ofNat w k + 1 = BitVec.ofNat w (k + 1) := by
          rw [BitVec.ofNat_add]
          rfl
        rw [hsucc]
        apply ih
        . omega
        . omega
        . exact hr
    . have : k = n := by omega
      subst this
      simp only [Nat.lt_irrefl, decide_false, Bool.false_eq_true, ↓reduceIte]
      exact ⟨.ok (), s, rfl, h⟩

theorem Returns.forLoop {w n : Nat} {cond : BitVec w → σ → Bool}
    {body : BitVec w → Prog ε σ Unit} {I : Nat → σ → Prop} (hn : n < 2 ^ w)
    (hcond : ∀ k s, k ≤ n → I k s → cond (BitVec.ofNat w k) s = decide (k < n))
    (hbody : ∀ k s, k < n → I k s → (body (BitVec.ofNat w k)).Returns s (fun _ => I (k + 1)))
    {fuel k : Nat} (hk : k ≤ n) (hfuel : n - k < fuel) (h : I k s)
    : (Prog.forLoop cond body fuel (BitVec.ofNat w k)).Returns s (fun _ => I n) := by
  rw [returns_iff_ends]
  apply Ends.forLoop hn hcond _ hk hfuel h
  intro k s hk hi
  rw [← returns_iff_ends]
  apply hbody k s hk hi

theorem forLoop_eq_none {w : Nat} {cond : BitVec w → σ → Bool} {body : BitVec w → Prog ε σ Unit}
    {I : σ → Prop} (hcond : ∀ i s, I s → cond i s = true)
    (hbody : ∀ i s, I s → (body i).Returns s (fun _ => I)) (fuel : Nat) (i : BitVec w) (h : I s)
    : Prog.forLoop cond body fuel i s = none := by
  induction fuel generalizing i s with
  | zero => rfl
  | succ fuel ih =>
    unfold Prog.forLoop
    rw [bind_of_returned (x := read _) rfl]
    simp only [hcond i s h, ↓reduceIte]
    have ⟨_, s', hrun, hi⟩ := hbody i s h
    rw [bind_of_returned hrun]
    apply ih
    apply hi

end Prog
end Cpp
