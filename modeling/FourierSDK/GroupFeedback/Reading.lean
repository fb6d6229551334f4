import FourierSDK.Aios.Group
import FourierSDK.GroupFeedback.Basic

/-!
This module contains programs with any number of `GroupFeedback`s, and what they read through
`operator[]`.

`Group::getNextFeedback` hands the handle of an object with as many modules to the C library.
`lend` and `withdraw` are what the C library does around a call of `callbackWrapper` with a feedback
of its own. A handle that is released takes the objects that refer to it along: a run in which one
of them is used is not considered.
-/

namespace Fourier

open Transition Ownership

structure FeedbackWorld (V : Type) where
  feedbacks : List GroupFeedback
  handles : List FourierGroupFeedbackPtr
  heap : FourierFeedbackPtr → V

inductive FeedbackOp (V : Type) where
  | newGroupFeedback (number_of_modules : Nat) (internal_ : FourierGroupFeedbackPtr)
  | lend (group_feedback : FourierGroupFeedbackPtr)
  | wrapGroupFeedback (group_feedback : FourierGroupFeedbackPtr)
  | copy (fbk : GroupFeedback)
  | getNextFeedback (group : FourierGroupPtr) (fbk : GroupFeedback) (timeout_ms : Int)
    (status : FourierStatusCode) (received : Nat → V)
  | assign (fbk : GroupFeedback) (index : Nat) (feedback : V)
  | destroy (fbk : GroupFeedback)
  | withdraw (group_feedback : FourierGroupFeedbackPtr)

namespace FeedbackWorld

variable {V : Type}

structure Fresh (lib : FeedbackLib) (w : FeedbackWorld V) (handle : FourierGroupFeedbackPtr)
    : Prop where
  unused : handle ∉ w.handles
  apart : ∀ handle' ∈ w.handles, lib.regions.Apart handle' handle

def without (w : FeedbackWorld V) (released : List FourierGroupFeedbackPtr)
    (heap : FourierFeedbackPtr → V) : FeedbackWorld V :=
  ⟨w.feedbacks.filter (·.internal_ ∉ released), w.handles.filter (· ∉ released), heap⟩

inductive Step (lib : FeedbackLib) (group_lib : GroupLib V)
    : FeedbackWorld V → FeedbackOp V → FeedbackWorld V → Prop where
  | newGroupFeedback {w number_of_modules internal_ heap} (hfresh : w.Fresh lib internal_)
    (hsize : lib.fourierGroupFeedbackGetSize internal_ = number_of_modules)
    (hframe : lib.regions.Frame internal_ w.heap heap)
    : Step lib group_lib w (.newGroupFeedback number_of_modules internal_)
        ⟨w.feedbacks ++ [.ofSize lib number_of_modules internal_], w.handles ++ [internal_], heap⟩
  | lend {w group_feedback heap} (hfresh : w.Fresh lib group_feedback)
    (hframe : lib.regions.Frame group_feedback w.heap heap)
    : Step lib group_lib w (.lend group_feedback) ⟨w.feedbacks, w.handles ++ [group_feedback], heap⟩
  | wrapGroupFeedback {w group_feedback} (hlive : group_feedback ∈ w.handles)
    : Step lib group_lib w (.wrapGroupFeedback group_feedback)
        { w with feedbacks := w.feedbacks ++ [.ofHandle lib group_feedback] }
  | copy {w fbk} (hfbk : fbk ∈ w.feedbacks)
    : Step lib group_lib w (.copy fbk) { w with feedbacks := w.feedbacks ++ [fbk] }
  | getNextFeedback {w group fbk timeout_ms status received} (hfbk : fbk ∈ w.feedbacks)
    (hsize : group_lib.fourierGroupGetSize group = fbk.size)
    : Step lib group_lib w (.getNextFeedback group fbk timeout_ms status received)
        {
          w with
          heap :=
            group_lib.fourierGroupGetNextFeedback group fbk.internal_ timeout_ms status received
              w.heap
        }
  | assign {w fbk index feedback p} (hfbk : fbk ∈ w.feedbacks) (hp : fbk.get index = some p)
    : Step lib group_lib w (.assign fbk index feedback)
        { w with heap := Function.update w.heap p feedback }
  | destroy {w fbk heap} (hfbk : fbk ∈ w.feedbacks)
    (hframe : ∀ p, (∀ handle ∈ fbk.destroyed, lib.regions.Outside handle p) → heap p = w.heap p)
    : Step lib group_lib w (.destroy fbk)
        ({ w with feedbacks := w.feedbacks.erase fbk }.without fbk.destroyed heap)
  | withdraw {w group_feedback heap} (hlive : group_feedback ∈ w.handles)
    (hframe : lib.regions.Frame group_feedback w.heap heap)
    : Step lib group_lib w (.withdraw group_feedback) (w.without [group_feedback] heap)

def empty (heap : FourierFeedbackPtr → V) : FeedbackWorld V := ⟨[], [], heap⟩

end FeedbackWorld

/-! ### The objects -/

structure GroupFeedback.Refers (lib : FeedbackLib) (fbk : GroupFeedback) : Prop where
  size_eq : fbk.number_of_modules_ = lib.fourierGroupFeedbackGetSize fbk.internal_
  feedbacks_eq :
    fbk.feedbacks_
      =
    (List.range fbk.number_of_modules_).map
      (lib.fourierGroupFeedbackGetModuleFeedback fbk.internal_)

theorem GroupFeedback.refers_ofSize {lib : FeedbackLib} {n : Nat} {created : FourierGroupFeedbackPtr}
    (h : lib.fourierGroupFeedbackGetSize created = n) : (ofSize lib n created).Refers lib := by
  constructor
  . exact h.symm
  . apply emplaceFeedbacks_eq_map

theorem GroupFeedback.refers_ofHandle (lib : FeedbackLib) (group_feedback : FourierGroupFeedbackPtr)
    : (ofHandle lib group_feedback).Refers lib := by
  constructor
  . rfl
  . apply emplaceFeedbacks_eq_map

theorem GroupFeedback.Refers.get_of_lt {lib : FeedbackLib} {fbk : GroupFeedback}
    (h : fbk.Refers lib) {index : Nat} (hindex : index < fbk.size)
    : fbk.get index = some (lib.regions.cell fbk.internal_ index) := by
  unfold get
  unfold size at hindex
  rw [h.feedbacks_eq, List.getElem?_map, List.getElem?_range hindex]
  rfl

theorem GroupFeedback.Refers.get_eq {lib : FeedbackLib} {fbk : GroupFeedback}
    (h : fbk.Refers lib) {index : Nat} {p : FourierFeedbackPtr} (hp : fbk.get index = some p)
    : index < lib.regions.size fbk.internal_ ∧ p = lib.regions.cell fbk.internal_ index := by
  unfold get at hp
  rw [h.feedbacks_eq, List.getElem?_map, h.size_eq] at hp
  have ⟨i, hi, hcell⟩ := Option.map_eq_some_iff.mp hp
  have ⟨hlt, hget⟩ := List.getElem?_eq_some_iff.mp hi
  rw [List.length_range] at hlt
  rw [List.getElem_range] at hget
  rw [← hget] at hcell
  exact ⟨hlt, hcell.symm⟩

namespace FeedbackWorld

variable {V : Type} {lib : FeedbackLib} {group_lib : GroupLib V} {w w' : FeedbackWorld V}
  {op : FeedbackOp V} {ops : List (FeedbackOp V)} {heap : FourierFeedbackPtr → V}

def Valid (lib : FeedbackLib) (w : FeedbackWorld V) : Prop :=
  ∀ fbk ∈ w.feedbacks, fbk.Refers lib ∧ fbk.internal_ ∈ w.handles

theorem Valid.append (h : w.Valid lib) {fbk : GroupFeedback} (hrefers : fbk.Refers lib)
    {handles : List FourierGroupFeedbackPtr} (hhandles : w.handles ⊆ handles)
    (hlive : fbk.internal_ ∈ handles) : Valid lib ⟨w.feedbacks ++ [fbk], handles, heap⟩ := by
  intro fbk' hfbk'
  cases List.mem_append.mp hfbk' with
  | inl hfbk' => exact ⟨(h fbk' hfbk').left, hhandles (h fbk' hfbk').right⟩
  | inr hfbk' =>
    rw [List.mem_singleton.mp hfbk']
    exact ⟨hrefers, hlive⟩

theorem Valid.without (h : w.Valid lib) {feedbacks : List GroupFeedback}
    (hfeedbacks : feedbacks ⊆ w.feedbacks) (released : List FourierGroupFeedbackPtr)
    : ({ w with feedbacks }.without released heap).Valid lib := by
  intro fbk hfbk
  have ⟨hmem, hreleased⟩ := List.mem_filter.mp hfbk
  have ⟨hrefers, hlive⟩ := h fbk (hfeedbacks hmem)
  exact ⟨hrefers, List.mem_filter.mpr ⟨hlive, hreleased⟩⟩

theorem Valid.step (h : w.Valid lib) (hstep : Step lib group_lib w op w') : w'.Valid lib := by
  cases hstep with
  | newGroupFeedback hfresh hsize =>
    apply h.append (GroupFeedback.refers_ofSize hsize) (List.subset_append_left _ _)
    apply List.mem_append_right _ (List.mem_singleton_self _)
  | lend =>
    intro fbk hfbk
    exact ⟨(h fbk hfbk).left, List.mem_append_left _ (h fbk hfbk).right⟩
  | wrapGroupFeedback hlive =>
    apply h.append (GroupFeedback.refers_ofHandle lib _) (List.Subset.refl _) hlive
  | copy hfbk => apply h.append (h _ hfbk).left (List.Subset.refl _) (h _ hfbk).right
  | getNextFeedback => exact h
  | assign => exact h
  | destroy => apply h.without List.erase_subset
  | withdraw => apply h.without (List.Subset.refl _)

/-! ### The accesses -/

def store (w : FeedbackWorld V) : Store FourierGroupFeedbackPtr FourierFeedbackPtr V where
  live handle := handle ∈ w.handles
  heap := w.heap

def access : FeedbackOp V → Access FourierGroupFeedbackPtr
  | .newGroupFeedback _ internal_ => .create internal_
  | .lend group_feedback => .create group_feedback
  | .getNextFeedback _ fbk _ _ _ => .use fbk.internal_
  | .assign fbk _ _ => .use fbk.internal_
  | .destroy fbk => if fbk.destroyed = [] then .skip else .drop fbk.internal_
  | .withdraw group_feedback => .drop group_feedback
  | _ => .skip

def ValidStep (lib : FeedbackLib) (group_lib : GroupLib V) (w : FeedbackWorld V) (op : FeedbackOp V)
    (w' : FeedbackWorld V) : Prop :=
  Step lib group_lib w op w' ∧ w.Valid lib

theorem live_without (released : List FourierGroupFeedbackPtr) (handle : FourierGroupFeedbackPtr)
    : (store (w.without released heap)).live handle
        ↔
      (store w).live handle ∧ handle ∉ released := by
  simp [store, without]

theorem live_append (feedbacks : List GroupFeedback) (handle handle' : FourierGroupFeedbackPtr)
    : (store (⟨feedbacks, w.handles ++ [handle], heap⟩ : FeedbackWorld V)).live handle'
        ↔
      (store w).live handle' ∨ handle' = handle := by
  simp [store]

theorem Step.accesses [ReceivesFeedback lib group_lib] (hstep : Step lib group_lib w op w')
    (hvalid : w.Valid lib)
    : lib.regions.Step (store w) (access op) (store w') := by
  cases hstep with
  | newGroupFeedback hfresh hsize hframe =>
    apply Regions.Step.create hfresh.unused hfresh.apart (live_append _ _) hframe
  | lend hfresh hframe =>
    apply Regions.Step.create hfresh.unused hfresh.apart (live_append _ _) hframe
  | wrapGroupFeedback => exact .skip (fun _ => Iff.rfl) rfl
  | copy => exact .skip (fun _ => Iff.rfl) rfl
  | getNextFeedback hfbk _ =>
    constructor
    . exact (hvalid _ hfbk).right
    . exact fun _ => Iff.rfl
    . apply ReceivesFeedback.getNextFeedback_frame
  | assign hfbk hp =>
    constructor
    . exact (hvalid _ hfbk).right
    . exact fun _ => Iff.rfl
    . have ⟨hindex, hcell⟩ := (hvalid _ hfbk).left.get_eq hp
      intro p' hp'
      apply Function.update_of_ne
      rw [hcell]
      apply hp' _ hindex
  | @destroy fbk heap hfbk hframe =>
    simp only [access]
    by_cases hnone : fbk.destroyed = []
    . rw [if_pos hnone]
      constructor
      . intro handle
        rw [live_without, hnone]
        simp [store]
      . funext p
        apply hframe
        simp [hnone]
    . rw [if_neg hnone]
      have hdestroyed : fbk.destroyed = [fbk.internal_] := by
        unfold GroupFeedback.destroyed at hnone ⊢
        split
        . rfl
        . simp_all
      rw [hdestroyed] at hframe ⊢
      constructor
      . exact (hvalid fbk hfbk).right
      . intro handle
        rw [live_without, List.mem_singleton]
        rfl
      . intro p hp
        apply hframe p
        intro handle hhandle
        rw [List.mem_singleton.mp hhandle]
        exact hp
  | withdraw hlive hframe =>
    apply Regions.Step.drop hlive _ hframe
    intro handle
    rw [live_without, List.mem_singleton]

end FeedbackWorld

/-! ### The record of each handle -/

def FeedbackOp.on {V : Type} (handle : FourierGroupFeedbackPtr) : FeedbackOp V → Bool
  | getNextFeedback _ fbk _ _ _ => fbk.internal_ = handle
  | assign fbk _ _ => fbk.internal_ = handle
  | _ => false

def feedbackRecorder (V : Type) : Recorder (FeedbackOp V) Nat (fun _ => V) where
  resets _ := false
  writes op i :=
    match op with
    | .getNextFeedback _ _ _ status received =>
      if status = .FourierStatusSuccess then some (received i) else none
    | .assign _ index feedback => if index = i then some feedback else none
    | _ => none

def lastReceived {V : Type} (handle : FourierGroupFeedbackPtr) (ops : List (FeedbackOp V)) (i : Nat)
    : Option V :=
  (feedbackRecorder V).last (ops.filter (·.on handle)) i

namespace FeedbackWorld

variable {V : Type} {lib : FeedbackLib} {group_lib : GroupLib V} {w w' : FeedbackWorld V}
  {op : FeedbackOp V} {ops : List (FeedbackOp V)} {handle : FourierGroupFeedbackPtr}
  {heap created : FourierFeedbackPtr → V}

theorem accesses [ReceivesFeedback lib group_lib]
    : Accesses lib.regions (ValidStep lib group_lib) (store (V := V)) (fun _ => access)
        FeedbackOp.on where
  accesses _ _ _ hstep := hstep.left.accesses hstep.right
  uses w op w' handle _ := by
    cases op with
    | destroy fbk =>
      simp only [FeedbackOp.on, access, Bool.false_eq_true, false_iff]
      split <;> simp
    | _ => simp [FeedbackOp.on, access]

def Stores (lib : FeedbackLib) (handle : FourierGroupFeedbackPtr) (created : FourierFeedbackPtr → V)
    (w : FeedbackWorld V) (record : Nat → Option V) : Prop :=
  ∀ i, i < lib.regions.size handle →
    w.heap (lib.regions.cell handle i) = (record i).getD (created (lib.regions.cell handle i))

theorem Step.stores [LawfulFeedbackLib lib] [ReceivesFeedback lib group_lib]
    {record : Nat → Option V} (hstep : Step lib group_lib w op w') (hvalid : w.Valid lib)
    (hon : op.on handle = true) (hstores : Stores lib handle created w record)
    : Stores lib handle created w' ((feedbackRecorder V).step record op) := by
  intro i hi
  cases hstep with
  | @getNextFeedback group fbk timeout_ms status received hfbk hsize =>
    cases of_decide_eq_true hon
    simp only [feedbackRecorder, Recorder.step, Bool.false_eq_true, ↓reduceIte]
    cases status with
    | FourierStatusSuccess =>
      have hsize' : group_lib.fourierGroupGetSize group = lib.fourierGroupFeedbackGetSize _ :=
        hsize.trans (hvalid fbk hfbk).left.size_eq
      apply ReceivesFeedback.getNextFeedback_success _ _ _ _ _ _ hsize' hi
    | FourierStatusFailure =>
      rw [ReceivesFeedback.getNextFeedback_failure lib]
      apply hstores i hi
  | @assign fbk index feedback p hfbk hp =>
    cases of_decide_eq_true hon
    have ⟨hindex, hcell⟩ := (hvalid fbk hfbk).left.get_eq hp
    subst hcell
    simp only [feedbackRecorder, Recorder.step, Bool.false_eq_true, ↓reduceIte]
    by_cases heq : index = i
    . rw [heq, Function.update_self]
      simp
    . have hne : lib.regions.cell fbk.internal_ i ≠ lib.regions.cell fbk.internal_ index := by
        intro hcell
        exact heq (LawfulFeedbackLib.distinct _ _ _ hi hindex hcell).symm
      rw [Function.update_of_ne hne]
      simpa [heq] using hstores i hi
  | _ => contradiction

theorem valid_of_run (hrun : Run (Step lib group_lib) (empty heap) ops w)
    : Run (ValidStep lib group_lib) (empty heap) ops w ∧ w.Valid lib := by
  have hstart : (empty heap).Valid lib := fun _ hfbk => absurd hfbk List.not_mem_nil
  have h := hrun.simulate (T := ValidStep lib group_lib) id id
    (fun _ _ _ hvalid hstep => ⟨⟨hstep, hvalid⟩, hvalid.step hstep⟩) hstart
  rw [List.map_id] at h
  exact h

end FeedbackWorld
end Fourier
