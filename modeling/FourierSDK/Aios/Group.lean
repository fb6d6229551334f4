import FourierSDK.Aios.Command
import FourierSDK.Aios.Feedback
import FourierSDK.Ownership.Regions

/-!
This module contains the part of `aios.h` that sends commands to the modules of a group and gets
their feedback. `V` is the `struct Feedback` of a module.

The functions get the status that they return as an argument, and what the modules have answered.
Nothing is assumed about what a failed call sends. That a failed call leaves the feedback as it was
is not written in `aios.h`, but the loop of `05_feedback_command_async.cpp` does without the status.
-/

namespace Fourier

open Ownership

structure GroupLib (V : Type) where
  fourierGroupGetSize : FourierGroupPtr → Nat
  fourierGroupSendCommand :
    FourierGroupPtr → FourierGroupCommandPtr → FourierStatusCode → CommandHeap →
      List Command × CommandHeap
  fourierGroupGetNextFeedback :
    FourierGroupPtr → FourierGroupFeedbackPtr → Int → FourierStatusCode → (Nat → V) →
      (FourierFeedbackPtr → V) → FourierFeedbackPtr → V

def CommandLib.regions (lib : CommandLib) : Regions FourierGroupCommandPtr FourierCommandPtr :=
  ⟨lib.fourierGroupCommandGetSize, lib.fourierGroupCommandGetModuleCommand⟩

def FeedbackLib.regions (lib : FeedbackLib) : Regions FourierGroupFeedbackPtr FourierFeedbackPtr :=
  ⟨lib.fourierGroupFeedbackGetSize, lib.fourierGroupFeedbackGetModuleFeedback⟩

class SendsCommands {V : Type} (commandLib : CommandLib) (lib : GroupLib V) : Prop where
  sendCommand_success : ∀ group command heap,
    lib.fourierGroupGetSize group = commandLib.fourierGroupCommandGetSize command →
    (lib.fourierGroupSendCommand group command .FourierStatusSuccess heap).1
      =
    commandLib.regions.contents command heap
  sendCommand_heap : ∀ group command status heap,
    (lib.fourierGroupSendCommand group command status heap).2 = heap

class ReceivesFeedback {V : Type} (feedbackLib : FeedbackLib) (lib : GroupLib V) : Prop where
  getNextFeedback_success : ∀ group feedback timeout_ms received heap i,
    lib.fourierGroupGetSize group = feedbackLib.fourierGroupFeedbackGetSize feedback →
    i < feedbackLib.fourierGroupFeedbackGetSize feedback →
    lib.fourierGroupGetNextFeedback group feedback timeout_ms .FourierStatusSuccess received heap
        (feedbackLib.fourierGroupFeedbackGetModuleFeedback feedback i)
      =
    received i
  getNextFeedback_failure : ∀ group feedback timeout_ms received heap,
    lib.fourierGroupGetNextFeedback group feedback timeout_ms .FourierStatusFailure received heap
      =
    heap
  getNextFeedback_frame : ∀ group feedback timeout_ms status received heap,
    feedbackLib.regions.Frame feedback heap
      (lib.fourierGroupGetNextFeedback group feedback timeout_ms status received heap)

-- The handle of a group is the number of its modules.
def GroupLib.sized (V : Type) (commandLib : CommandLib) (feedbackLib : FeedbackLib)
    : GroupLib V where
  fourierGroupGetSize group := group
  fourierGroupSendCommand _ command status heap :=
    match status with
    | .FourierStatusSuccess => (commandLib.regions.contents command heap, heap)
    | .FourierStatusFailure => ([], heap)
  fourierGroupGetNextFeedback _ feedback _ status received heap :=
    match status with
    | .FourierStatusSuccess => feedbackLib.regions.write feedback received heap
    | .FourierStatusFailure => heap

instance (V : Type) (commandLib : CommandLib) (feedbackLib : FeedbackLib)
    : SendsCommands commandLib (GroupLib.sized V commandLib feedbackLib) where
  sendCommand_success _ _ _ _ := rfl
  sendCommand_heap _ _ status _ := by cases status <;> rfl

instance (V : Type) (commandLib : CommandLib) (feedbackLib : FeedbackLib)
    [LawfulFeedbackLib feedbackLib]
    : ReceivesFeedback feedbackLib (GroupLib.sized V commandLib feedbackLib) where
  getNextFeedback_success _ feedback _ received heap i _ hi := by
    apply Regions.write_cell (LawfulFeedbackLib.distinct feedback) _ _ hi
  getNextFeedback_failure _ _ _ _ _ := rfl
  getNextFeedback_frame _ feedback _ status received heap := by
    cases status with
    | FourierStatusSuccess => apply Regions.write_frame
    | FourierStatusFailure => exact fun _ _ => rfl

end Fourier
