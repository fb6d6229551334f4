import FourierSDK.Aios.Handlers

/-!
This module contains the part of `aios.h` that reads the feedback of a group of modules. The
functions do not change the feedback, they depend on nothing but the handle.
-/

namespace Fourier

abbrev FourierGroupFeedbackPtr := Addr

abbrev FourierFeedbackPtr := Addr

structure FeedbackLib where
  fourierGroupFeedbackGetSize : FourierGroupFeedbackPtr → Nat
  fourierGroupFeedbackGetModuleFeedback : FourierGroupFeedbackPtr → Nat → FourierFeedbackPtr

class LawfulFeedbackLib (lib : FeedbackLib) : Prop where
  distinct : ∀ feedback i j,
    i < lib.fourierGroupFeedbackGetSize feedback → j < lib.fourierGroupFeedbackGetSize feedback →
    lib.fourierGroupFeedbackGetModuleFeedback feedback i
      =
    lib.fourierGroupFeedbackGetModuleFeedback feedback j →
    i = j

def FeedbackLib.twoModules : FeedbackLib where
  fourierGroupFeedbackGetSize _ := 2
  fourierGroupFeedbackGetModuleFeedback feedback i := feedback + 64 * (i + 1)

instance : LawfulFeedbackLib FeedbackLib.twoModules where
  distinct feedback i j _ _ h :=
    Nat.succ.inj (Nat.eq_of_mul_eq_mul_left (by decide : 0 < 64) (Nat.add_left_cancel h))

end Fourier
