import FourierSDK.GroupCommand.Record

/-!
This module contains what becomes of a `GroupCommand` when `fourierGroupCommandSetType` fails. The
setters do not look at what it returns, so that an accepted setter then writes its values under the
type of an earlier one.
-/

namespace Fourier

open Transition

theorem PayloadField.set_eq_self_iff {f : PayloadField} {v : f.Value} {c : Command}
    : f.set v c = c ↔ f.get c = v := by
  constructor
  . intro h
    rw [← h, get_set_self]
  . intro h
    subst h
    cases f <;> rfl

namespace GroupCommand

variable {lib : CommandLib} (cmd : GroupCommand lib)

def FullEffect (s : Setting) (heap heap' : CommandHeap) : Prop :=
  s.values.length = cmd.number_of_modules_ ∧
  ∀ i v, i < cmd.number_of_modules_ → s.values[i]? = some v →
    heap' (cmd.slot i) = s.field.set v { heap (cmd.slot i) with commandEnum := s.type }

def Unchanged (heap heap' : CommandHeap) : Prop :=
  ∀ i, i < cmd.number_of_modules_ → heap' (cmd.slot i) = heap (cmd.slot i)

def HasType (s : Setting) (heap : CommandHeap) : Prop :=
  ∀ i, i < cmd.number_of_modules_ → (heap (cmd.slot i)).commandEnum = s.type

def HasValues (s : Setting) (heap : CommandHeap) : Prop :=
  ∀ i v, i < cmd.number_of_modules_ → s.values[i]? = some v → s.field.get (heap (cmd.slot i)) = v

/--
The type can be set, or else the setter writes nothing new: the vector has the wrong length, or its
values are already there.
-/
def Harmless (s : Setting) (typeSet : Bool) (heap : CommandHeap) : Prop :=
  typeSet = true ∨ s.values.length ≠ cmd.number_of_modules_ ∨ cmd.HasValues s heap

def AllOrNothingStep (s : Setting) (typeSet : Bool) (heap heap' : CommandHeap) : Prop :=
  (typeSet = true ∧ cmd.FullEffect s heap heap') ∨ cmd.Unchanged heap heap'

section

variable {cmd} {s : Setting} {typeSet : Bool} {heap heap' : CommandHeap}

theorem exists_value (hvalues : s.values.length = cmd.number_of_modules_) {i : Nat}
    (hi : i < cmd.number_of_modules_) : ∃ v, s.values[i]? = some v := by
  rw [← hvalues] at hi
  exact ⟨s.values[i], by simp⟩

theorem unchanged_iff_hasValues (hvalues : s.values.length = cmd.number_of_modules_)
    (hwritten : ∀ i v, i < cmd.number_of_modules_ → s.values[i]? = some v →
      heap' (cmd.slot i) = s.field.set v (heap (cmd.slot i)))
    : cmd.Unchanged heap heap' ↔ cmd.HasValues s heap := by
  constructor
  . intro h i v hi hv
    have hslot := (hwritten i v hi hv).symm.trans (h i hi)
    apply PayloadField.set_eq_self_iff.mp hslot
  . intro h i hi
    have ⟨v, hv⟩ := exists_value hvalues hi
    apply (hwritten i v hi hv).trans
    apply PayloadField.set_eq_self_iff.mpr (h i v hi hv)

variable [LawfulCommandLib lib]

theorem fullEffect_of_typeSet
    (hrun : cmd.setFields s.type s.field.set s.values true heap = some heap')
    (hvalues : s.values.length = cmd.number_of_modules_) : cmd.FullEffect s heap heap' := by
  have ⟨heap'', hrun', hwritten, _⟩ :=
    cmd.setFields_accepted s.field.set s.values s.type true heap hvalues
  rw [hrun, Option.some.injEq] at hrun'
  rw [hrun']
  exact ⟨hvalues, hwritten⟩

theorem all_or_nothing_of_setFields_iff
    (hrun : cmd.setFields s.type s.field.set s.values typeSet heap = some heap')
    : cmd.AllOrNothingStep s typeSet heap heap' ↔ cmd.Harmless s typeSet heap := by
  unfold AllOrNothingStep Harmless
  by_cases hvalues : s.values.length = cmd.number_of_modules_
  . cases typeSet with
    | true =>
      constructor
      . intro _
        exact .inl rfl
      . intro _
        exact .inl ⟨rfl, fullEffect_of_typeSet hrun hvalues⟩
    | false =>
      have ⟨heap'', hrun', hwritten, _⟩ :=
        cmd.setFields_accepted s.field.set s.values s.type false heap hvalues
      rw [hrun, Option.some.injEq] at hrun'
      rw [← hrun'] at hwritten
      rw [unchanged_iff_hasValues hvalues hwritten]
      simp [hvalues]
  . rw [cmd.setFields_rejected _ _ _ _ hvalues, Option.some.injEq] at hrun
    constructor
    . intro _
      exact .inr (.inl hvalues)
    . intro _
      rw [hrun]
      exact .inr fun _ _ => rfl

end

/-! ### Runs -/

def Tags (call : CommandCall × Bool) (s : Setting) : Prop :=
  call.1.setting? = some s ∧ s.values.length = cmd.number_of_modules_ ∧ call.2 = true

/--
`s` belongs to the accepted call that set the current type: no later call has set a type, and there
is no later clear.
-/
def TaggedBy (calls : List (CommandCall × Bool)) (s : Setting) : Prop :=
  ∃ before call after,
    calls = before ++ call :: after ∧ cmd.Tags call s ∧
    ∀ later ∈ after, later.1 ≠ .clear ∧ ∀ s', ¬cmd.Tags later s'

def Coherent (calls : List (CommandCall × Bool)) (heap : CommandHeap) : Prop :=
  ∀ s, cmd.TaggedBy calls s → cmd.HasType s heap ∧ cmd.HasValues s heap

variable (created : CommandHeap) (calls : List (CommandCall × Bool))

-- `P` holds of every setter of the run that starts from `created`, in the state that it finds.
def ForAllSetters (P : CommandCall → Bool → Setting → CommandHeap → Prop) : Prop :=
  ∀ pre call typeSet s heap, pre ++ [(call, typeSet)] <+: calls → call.setting? = some s →
    CommandCall.runAll cmd pre created = some heap → P call typeSet s heap

def AllOrNothing : Prop :=
  cmd.ForAllSetters created calls fun call typeSet s heap =>
    ∀ heap', call.run cmd typeSet heap = some heap' → cmd.AllOrNothingStep s typeSet heap heap'

def AlwaysCoherent : Prop :=
  ∀ pre heap, pre <+: calls → CommandCall.runAll cmd pre created = some heap →
    cmd.Coherent pre heap

def AllHarmless : Prop :=
  cmd.ForAllSetters created calls fun _ typeSet s heap => cmd.Harmless s typeSet heap

variable {cmd} {created} {calls}

theorem AllHarmless.nil : cmd.AllHarmless created [] := by
  intro pre call typeSet s heap hpre
  simp at hpre

theorem AllHarmless.snoc (h : cmd.AllHarmless created calls) {call : CommandCall} {typeSet : Bool}
    (hlast : ∀ s heap, call.setting? = some s →
      CommandCall.runAll cmd calls created = some heap → cmd.Harmless s typeSet heap)
    : cmd.AllHarmless created (calls ++ [(call, typeSet)]) := by
  intro pre call' typeSet' s heap hpre hsetting hheap
  cases List.prefix_concat_iff.mp hpre with
  | inl heq =>
    simp only [List.append_singleton_inj, Prod.mk.injEq] at heq
    rw [heq.left] at hheap
    rw [heq.right.left] at hsetting
    rw [heq.right.right]
    apply hlast s heap hsetting hheap
  | inr hpre => apply h pre call' typeSet' s heap hpre hsetting hheap

theorem FullEffect.holds {s : Setting} {heap heap' : CommandHeap}
    (h : cmd.FullEffect s heap heap') : cmd.HasType s heap' ∧ cmd.HasValues s heap' := by
  have ⟨hvalues, hslot⟩ := h
  constructor
  . intro i hi
    rw [hslot i s.values[i] hi (by simp)]
    simp
  . intro i v hi hv
    rw [hslot i v hi hv]
    simp

theorem Unchanged.holds {s : Setting} {heap heap' : CommandHeap} (h : cmd.Unchanged heap heap')
    (htype : cmd.HasType s heap) (hvalues : cmd.HasValues s heap)
    : cmd.HasType s heap' ∧ cmd.HasValues s heap' := by
  constructor
  . intro i hi
    rw [h i hi]
    apply htype i hi
  . intro i v hi hv
    rw [h i hi]
    apply hvalues i v hi hv

theorem TaggedBy.of_snoc {call : CommandCall × Bool} {s : Setting}
    (h : cmd.TaggedBy (calls ++ [call]) s)
    : cmd.Tags call s ∨
      (cmd.TaggedBy calls s ∧ call.1 ≠ .clear ∧ ∀ s', ¬cmd.Tags call s') := by
  have ⟨before, tagging, after, hcalls, htags, hafter⟩ := h
  cases after using List.reverseRecOn with
  | nil =>
    left
    simp only [List.append_singleton_inj] at hcalls
    rw [hcalls.right]
    apply htags
  | append_singleton after last =>
    right
    rw [← List.cons_append, ← List.append_assoc, List.append_singleton_inj] at hcalls
    rw [hcalls.right]
    refine ⟨⟨before, tagging, after, hcalls.left, htags, ?_⟩, hafter last (by simp)⟩
    intro later hlater
    apply hafter later (List.mem_append_left _ hlater)

theorem Coherent.clear (typeSet : Bool) (heap : CommandHeap)
    : cmd.Coherent (calls ++ [(.clear, typeSet)]) heap := by
  intro s hs
  cases hs.of_snoc with
  | inl htags => exact absurd htags.left (by simp [CommandCall.setting?])
  | inr hs => exact absurd rfl hs.right.left

theorem Coherent.unchanged {heap heap' : CommandHeap} (h : cmd.Coherent calls heap)
    (hunchanged : cmd.Unchanged heap heap') {call : CommandCall × Bool}
    (htags : ∀ s, ¬cmd.Tags call s) : cmd.Coherent (calls ++ [call]) heap' := by
  intro s hs
  cases hs.of_snoc with
  | inl hs => exact absurd hs (htags s)
  | inr hs =>
    have ⟨htype, hvalues⟩ := h s hs.left
    apply hunchanged.holds htype hvalues

theorem Coherent.fullEffect {heap heap' : CommandHeap} {s : Setting}
    (hfull : cmd.FullEffect s heap heap') {call : CommandCall × Bool} (htags : cmd.Tags call s)
    : cmd.Coherent (calls ++ [call]) heap' := by
  intro s' hs'
  cases hs'.of_snoc with
  | inl htags' =>
    have hsame := htags.left
    rw [htags'.left, Option.some.injEq] at hsame
    rw [hsame]
    apply hfull.holds
  | inr hs' => exact absurd htags (hs'.right.right s)

variable [LawfulCommandLib lib]

theorem Coherent.setting {heap heap' : CommandHeap}
    (h : cmd.Coherent calls heap) {call : CommandCall} {s : Setting} {typeSet : Bool}
    (hsetting : call.setting? = some s)
    (hrun : cmd.setFields s.type s.field.set s.values typeSet heap = some heap')
    (hstep : cmd.AllOrNothingStep s typeSet heap heap')
    : cmd.Coherent (calls ++ [(call, typeSet)]) heap' := by
  by_cases hset : s.values.length = cmd.number_of_modules_ ∧ typeSet = true
  . rw [hset.right] at hrun
    apply Coherent.fullEffect (fullEffect_of_typeSet hrun hset.left) ⟨hsetting, hset⟩
  . have htags (s' : Setting) : ¬cmd.Tags (call, typeSet) s' := by
      intro htags
      have hsame := htags.left
      rw [hsetting, Option.some.injEq] at hsame
      rw [hsame] at hset
      exact hset htags.right
    cases hstep with
    | inl hfull => exact absurd ⟨hfull.right.left, hfull.left⟩ hset
    | inr hunchanged => apply h.unchanged hunchanged htags

theorem AlwaysCoherent.of_allOrNothing (h : cmd.AllOrNothing created calls)
    : cmd.AlwaysCoherent created calls := by
  intro pre heap' hpre hheap'
  induction pre using List.reverseRecOn generalizing heap' with
  | nil =>
    intro s ⟨before, call, after, hcalls, _⟩
    simp at hcalls
  | append_singleton pre call ih =>
    rw [CommandCall.runAll_snoc, Option.bind_eq_some_iff] at hheap'
    have ⟨heap, hheap, hrun⟩ := hheap'
    have ⟨call, typeSet⟩ := call
    cases hsetting : call.setting? with
    | none =>
      rw [CommandCall.setting?_eq_none_iff.mp hsetting]
      apply Coherent.clear
    | some s =>
      have hcoherent := ih heap ((List.prefix_append pre _).trans hpre) hheap
      have hdone := h pre call typeSet s heap hpre hsetting hheap heap' hrun
      rw [CommandCall.run_setting cmd hsetting] at hrun
      apply hcoherent.setting hsetting hrun hdone

theorem allOrNothing_iff_allHarmless (calls : List (CommandCall × Bool))
    (hclear : ∀ heap i, i < cmd.number_of_modules_ →
      cmd.clear heap (cmd.slot i) = created (cmd.slot i))
    : cmd.AllOrNothing created calls ↔ cmd.AllHarmless created calls := by
  constructor
  . intro h pre call typeSet s heap hpre hsetting hheap
    have ⟨heap', hrun, _⟩ := (represents_of_runAll hclear hheap).run hclear call typeSet
    have hdone := h pre call typeSet s heap hpre hsetting hheap heap' hrun
    rw [CommandCall.run_setting cmd hsetting] at hrun
    apply (all_or_nothing_of_setFields_iff hrun).mp hdone
  . intro h pre call typeSet s heap hpre hsetting hheap heap' hrun
    rw [CommandCall.run_setting cmd hsetting] at hrun
    apply (all_or_nothing_of_setFields_iff hrun).mpr
    apply h pre call typeSet s heap hpre hsetting hheap

theorem all_or_nothing_iff (lib : CommandLib) [LawfulCommandLib lib] (n : Nat) (heap : CommandHeap)
    (calls : List (CommandCall × Bool))
    : let (cmd, created) := new lib n heap
      cmd.AllOrNothing created calls ∧ cmd.AlwaysCoherent created calls
        ↔
      cmd.AllHarmless created calls := by
  have hclear (heap' : CommandHeap) (i : Nat) (hi : i < (new lib n heap).1.number_of_modules_)
      : (new lib n heap).1.clear heap' ((new lib n heap).1.slot i)
          =
        (new lib n heap).2 ((new lib n heap).1.slot i) :=
    new_clear lib n heap heap' hi
  have hiff := allOrNothing_iff_allHarmless calls hclear
  constructor
  . intro ⟨hdone, _⟩
    apply hiff.mp hdone
  . intro h
    have hdone := hiff.mpr h
    exact ⟨hdone, AlwaysCoherent.of_allOrNothing hdone⟩

theorem all_or_nothing_iff_packed
    : let calls := [(.setPosition [1], true), (.setVelocity [1], false), (.clear, true)]
      let (cmd, created) := new .packed 1 fun _ => ⟨0, false, ⟨0, 0, 0⟩, 0, 0, 0, 0, .UNKNOW⟩
      cmd.AllOrNothing created calls ∧ cmd.AlwaysCoherent created calls := by
  let zero : Command := ⟨0, false, ⟨0, 0, 0⟩, 0, 0, 0, 0, .UNKNOW⟩
  let cmd := (new .packed 1 fun _ => zero).1
  let created := (new .packed 1 fun _ => zero).2
  apply (all_or_nothing_iff .packed 1 (fun _ => zero) _).mpr
  have hposition : cmd.AllHarmless created [(.setPosition [1], true)] := by
    apply AllHarmless.nil.snoc
    intro s heap hsetting hheap
    exact .inl rfl
  have hvelocity
      : cmd.AllHarmless created [(.setPosition [1], true), (.setVelocity [1], false)] := by
    apply hposition.snoc
    intro s heap hsetting hheap
    cases hsetting
    cases hheap
    refine .inr (.inr ?_)
    intro i v hi hv
    have hzero : i = 0 := Nat.lt_one_iff.mp hi
    subst hzero
    cases hv
    rfl
  apply hvelocity.snoc
  intro s heap hsetting hheap
  contradiction

theorem velocity_sent_as_position
    : let calls := [(.setPosition [1], true), (.setVelocity [2], false)]
      let (cmd, created) := new .packed 1 fun _ => ⟨0, false, ⟨0, 0, 0⟩, 0, 0, 0, 0, .UNKNOW⟩
      (∃ heap, CommandCall.runAll cmd calls created = some heap ∧
        (heap (cmd.slot 0)).commandEnum = .FourierCommandPosition ∧
        (heap (cmd.slot 0)).float_fields_ = 2) ∧
      ¬cmd.AllOrNothing created calls ∧ ¬cmd.AlwaysCoherent created calls := by
  intro calls
  refine ⟨⟨_, rfl, rfl, rfl⟩, ?_, ?_⟩
  . intro h
    have hdone := h [(.setPosition [1], true)] (.setVelocity [2]) false _ _ (List.prefix_refl _)
      rfl rfl _ rfl
    cases hdone with
    | inl hfull => exact absurd hfull.left (by decide)
    | inr hunchanged =>
      have hslot := congrArg Command.float_fields_ (hunchanged 0 (by decide))
      revert hslot
      decide
  . intro h
    have ⟨_, hvalues⟩ := h calls _ (List.prefix_refl _) rfl
      ⟨.FourierCommandPosition, .float_fields_, [1]⟩
      ⟨[], (.setPosition [1], true), [(.setVelocity [2], false)], rfl, ⟨rfl, rfl, rfl⟩,
        by simp [Tags]⟩
    have hvalue := hvalues 0 1 (by decide) rfl
    revert hvalue
    decide

end GroupCommand
end Fourier
