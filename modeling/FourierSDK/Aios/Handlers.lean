import Mathlib.Data.List.Count

/-!
This module contains the part of `aios.h` that deals with feedback handlers: the status codes, the
callbacks of a C group and what the SDK relies on when it registers and clears them.

An address is `0` for `nullptr`. The C library is not part of the sources, so that its functions are
the fields of `HandlerLib`, over the state `R` of the C group that `internal_` points to. The state
after a registration attempt depends on the status that the attempt returned.
-/

namespace Fourier

abbrev Addr := Nat

def nullptr : Addr := 0

abbrev FourierGroupPtr := Addr

inductive FourierStatusCode where
  | FourierStatusFailure
  | FourierStatusSuccess
  deriving DecidableEq, Repr

inductive GroupFeedbackHandlerFunction where
  | callbackWrapper
  | other (function : Addr)
  deriving DecidableEq, Repr

structure Registration where
  handler : GroupFeedbackHandlerFunction
  user_data : Addr
  deriving DecidableEq, Repr

structure HandlerLib (R : Type) where
  registered : R → List Registration
  fourierGroupRegisterFeedbackHandler : R → Registration → FourierStatusCode → R
  fourierGroupClearFeedbackHandlers : R → R

class LawfulHandlerLib {R : Type} (lib : HandlerLib R) : Prop where
  registered_success : ∀ r registration,
      lib.registered
          (lib.fourierGroupRegisterFeedbackHandler r registration .FourierStatusSuccess)
        =
      lib.registered r ++ [registration]
  registered_failure : ∀ r registration,
      lib.registered
          (lib.fourierGroupRegisterFeedbackHandler r registration .FourierStatusFailure)
        =
      lib.registered r
  registered_clear : ∀ r, lib.registered (lib.fourierGroupClearFeedbackHandlers r) = []

def HandlerLib.ofList : HandlerLib (List Registration) where
  registered := id
  fourierGroupRegisterFeedbackHandler r registration status :=
    match status with
    | .FourierStatusSuccess => r ++ [registration]
    | .FourierStatusFailure => r
  fourierGroupClearFeedbackHandlers _ := []

instance : LawfulHandlerLib HandlerLib.ofList where
  registered_success := by intros; rfl
  registered_failure := by intros; rfl
  registered_clear := by intros; rfl

namespace HandlerLib

variable {R : Type} (lib : HandlerLib R) [LawfulHandlerLib lib]

@[simp]
theorem count_clear (r : R) (registration : Registration)
    : (lib.registered (lib.fourierGroupClearFeedbackHandlers r)).count registration = 0 := by
  rw [LawfulHandlerLib.registered_clear]
  rfl

theorem count_register (r : R) (registration : Registration) (status : FourierStatusCode)
    : (lib.registered
          (lib.fourierGroupRegisterFeedbackHandler r registration status)).count registration
        =
      (lib.registered r).count registration
        + (if status = .FourierStatusSuccess then 1 else 0) := by
  cases status with
  | FourierStatusFailure =>
    rw [LawfulHandlerLib.registered_failure]
    simp
  | FourierStatusSuccess =>
    rw [LawfulHandlerLib.registered_success]
    simp

end HandlerLib
end Fourier
