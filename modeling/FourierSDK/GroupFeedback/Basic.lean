import FourierSDK.Aios.Feedback

/-!
This module contains the class `GroupFeedback`, a view of the feedback of all modules of a group.

`emplaceFeedbacks` is the loop of both constructors, `ofSize` the constructor that creates a handle,
which `fourierGroupFeedbackCreate` returns as `created`, `ofHandle` the one for a handle that the C
library owns, `get` is `operator[]` with `none` for an index past the end, and `destroyed` are
the handles that the destructor passes to `fourierGroupFeedbackRelease`.
-/

namespace Fourier

structure GroupFeedback where
  internal_ : FourierGroupFeedbackPtr
  manage_pointer_lifetime_ : Bool
  number_of_modules_ : Nat
  feedbacks_ : List FourierFeedbackPtr
  deriving DecidableEq, Repr

namespace GroupFeedback

def emplaceFeedbacks (lib : FeedbackLib) (internal_ : FourierGroupFeedbackPtr)
    (number_of_modules_ : Nat) : List FourierFeedbackPtr :=
  (List.range number_of_modules_).foldl
    (fun feedbacks_ i => feedbacks_ ++ [lib.fourierGroupFeedbackGetModuleFeedback internal_ i])
    []

def ofSize (lib : FeedbackLib) (number_of_modules : Nat) (created : FourierGroupFeedbackPtr)
    : GroupFeedback :=
  {
    internal_ := created
    manage_pointer_lifetime_ := true
    number_of_modules_ := number_of_modules
    feedbacks_ := emplaceFeedbacks lib created number_of_modules
  }

def ofHandle (lib : FeedbackLib) (group_feedback : FourierGroupFeedbackPtr) : GroupFeedback :=
  let number_of_modules_ := lib.fourierGroupFeedbackGetSize group_feedback
  {
    internal_ := group_feedback
    manage_pointer_lifetime_ := false
    number_of_modules_ := number_of_modules_
    feedbacks_ := emplaceFeedbacks lib group_feedback number_of_modules_
  }

def size (fbk : GroupFeedback) : Nat := fbk.number_of_modules_

def get (fbk : GroupFeedback) (index : Nat) : Option FourierFeedbackPtr := fbk.feedbacks_[index]?

def destroyed (fbk : GroupFeedback) : List FourierGroupFeedbackPtr :=
  if fbk.manage_pointer_lifetime_ && fbk.internal_ != nullptr then [fbk.internal_] else []

theorem emplaceFeedbacks_eq_map (lib : FeedbackLib) (internal_ : FourierGroupFeedbackPtr)
    (number_of_modules_ : Nat)
    : emplaceFeedbacks lib internal_ number_of_modules_
        =
      (List.range number_of_modules_).map
        (lib.fourierGroupFeedbackGetModuleFeedback internal_) := by
  unfold emplaceFeedbacks
  rw [List.foldl_append_eq_append]
  rw [List.nil_append]
  rw [← List.flatMap_def]
  rw [← List.map_eq_flatMap]

variable (lib : FeedbackLib) (group_feedback : FourierGroupFeedbackPtr)

@[simp]
theorem size_ofHandle
    : (ofHandle lib group_feedback).size = lib.fourierGroupFeedbackGetSize group_feedback := by
  rfl

@[simp]
theorem get_ofHandle {i : Nat} (hi : i < lib.fourierGroupFeedbackGetSize group_feedback)
    : (ofHandle lib group_feedback).get i
        =
      some (lib.fourierGroupFeedbackGetModuleFeedback group_feedback i) := by
  unfold get ofHandle
  dsimp
  rw [emplaceFeedbacks_eq_map]
  simp [hi]

@[simp]
theorem destroyed_ofHandle : (ofHandle lib group_feedback).destroyed = [] := by
  simp [destroyed, ofHandle]

end GroupFeedback
end Fourier
