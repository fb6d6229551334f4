import FourierSDK.Aios.Handlers
import Mathlib.Logic.Function.Basic
import Mathlib.Data.Nat.Pairing

/-!
This module contains the part of `aios.h` that deals with the commands of a group of modules, and
what the SDK relies on there. A `float` is copied bit by bit, so that it is a bit vector here.

`fourierGroupCommandSetType` gets what it returns as an argument: the state after the call depends
on it.
-/

namespace Fourier

abbrev Float32Bits := BitVec 32

structure PosPtInfo where
  pos : Float32Bits
  vel : Float32Bits
  torque : Float32Bits
  deriving DecidableEq, Repr

inductive FourierCommandEnum where
  | UNKNOW
  | FourierCommandCurrent
  | FourierCommandVelocity
  | FourierCommandPosition
  | FourierCommandVelocityRamp
  | FourierCommandTrapezoidal
  | FourierCommandTorquePt
  | FourierCommandVelocityPt
  | FourierCommandPositionPt
  | FourierCommandEnable
  | FourierCommandReboot
  | FourierCommandGetError
  | FourierCommandClearError
  | FourierCommandResetLinearCount
  | FourierCommandMotionControllerConfig
  | FourierCommandMotorConfig
  | FourierCommandTrapTraj
  | FourierCommandSaveConfig
  | FourierCommandNetworkSetting
  | FourierCommandLatencyTest
  | FourierCommandCtrlBoxPower
  deriving DecidableEq, Repr

structure Command where
  float_fields_ : Float32Bits
  bool_fields_ : Bool
  pos_pt_info_ : PosPtInfo
  motion_ctrl_config : Addr
  motor_config : Addr
  trap_traj : Addr
  network_setting : Addr
  commandEnum : FourierCommandEnum
  deriving DecidableEq, Repr

abbrev FourierCommandPtr := Addr

abbrev FourierGroupCommandPtr := Addr

abbrev CommandHeap := FourierCommandPtr → Command

structure CommandLib where
  fourierGroupCommandCreate : Nat → CommandHeap → FourierGroupCommandPtr × CommandHeap
  fourierGroupCommandGetSize : FourierGroupCommandPtr → Nat
  fourierGroupCommandGetModuleCommand : FourierGroupCommandPtr → Nat → FourierCommandPtr
  fourierGroupCommandSetType :
    FourierGroupCommandPtr → FourierCommandEnum → Bool → CommandHeap → CommandHeap
  fourierGroupCommandClear : FourierGroupCommandPtr → CommandHeap → CommandHeap

class LawfulCommandLib (lib : CommandLib) : Prop where
  size_create : ∀ n heap,
    lib.fourierGroupCommandGetSize (lib.fourierGroupCommandCreate n heap).1 = n
  distinct : ∀ command i j,
    i < lib.fourierGroupCommandGetSize command → j < lib.fourierGroupCommandGetSize command →
    lib.fourierGroupCommandGetModuleCommand command i
      =
    lib.fourierGroupCommandGetModuleCommand command j →
    i = j
  setType_true : ∀ command type heap i, i < lib.fourierGroupCommandGetSize command →
    lib.fourierGroupCommandSetType command type true heap
        (lib.fourierGroupCommandGetModuleCommand command i)
      =
    { heap (lib.fourierGroupCommandGetModuleCommand command i) with commandEnum := type }
  setType_true_frame : ∀ command type heap p,
    (∀ i, i < lib.fourierGroupCommandGetSize command →
      p ≠ lib.fourierGroupCommandGetModuleCommand command i) →
    lib.fourierGroupCommandSetType command type true heap p = heap p
  setType_false : ∀ command type heap,
    lib.fourierGroupCommandSetType command type false heap = heap
  clear : ∀ n heap heap' i, i < n →
    let (command, created) := lib.fourierGroupCommandCreate n heap
    lib.fourierGroupCommandClear command heap' (lib.fourierGroupCommandGetModuleCommand command i)
      =
    created (lib.fourierGroupCommandGetModuleCommand command i)

-- The commands of a group of `n` modules are at the addresses below `n`, and its handle is `n + 1`.
def CommandLib.packed : CommandLib where
  fourierGroupCommandCreate n heap :=
    (n + 1, fun p => if p < n then ⟨0, false, ⟨0, 0, 0⟩, 0, 0, 0, 0, .UNKNOW⟩ else heap p)
  fourierGroupCommandGetSize command := command - 1
  fourierGroupCommandGetModuleCommand _ i := i
  fourierGroupCommandSetType command type ok heap p :=
    if ok && p < command - 1 then { heap p with commandEnum := type } else heap p
  fourierGroupCommandClear command heap p :=
    if p < command - 1 then ⟨0, false, ⟨0, 0, 0⟩, 0, 0, 0, 0, .UNKNOW⟩ else heap p

instance : LawfulCommandLib CommandLib.packed where
  size_create n heap := rfl
  distinct command i j hi hj h := h
  setType_true command type heap i hi := by
    simp only [CommandLib.packed] at hi ⊢
    simp [hi]
  setType_true_frame command type heap p h := by
    simp only [CommandLib.packed] at h ⊢
    have hp : ¬p < command - 1 := fun hp => h p hp rfl
    simp [hp]
  setType_false command type heap := by
    funext p
    simp [CommandLib.packed]
  clear n heap heap' i hi := by
    simp [CommandLib.packed, hi]

class SeparateCommandLib (lib : CommandLib) : Prop extends LawfulCommandLib lib where
  create_frame : ∀ n heap p,
    let (command, created) := lib.fourierGroupCommandCreate n heap
    (∀ i, i < n → p ≠ lib.fourierGroupCommandGetModuleCommand command i) → created p = heap p
  clear_frame : ∀ command heap p,
    (∀ i, i < lib.fourierGroupCommandGetSize command →
      p ≠ lib.fourierGroupCommandGetModuleCommand command i) →
    lib.fourierGroupCommandClear command heap p = heap p

def CommandLib.paired : CommandLib where
  fourierGroupCommandCreate n heap :=
    (n + 1, fun p => if ∃ i < n, p = Nat.pair n i then zero else heap p)
  fourierGroupCommandGetSize command := command - 1
  fourierGroupCommandGetModuleCommand command i := Nat.pair (command - 1) i
  fourierGroupCommandSetType command type ok heap p :=
    if ok ∧ ∃ i < command - 1, p = Nat.pair (command - 1) i then
      { heap p with commandEnum := type }
    else
      heap p
  fourierGroupCommandClear command heap p :=
    if ∃ i < command - 1, p = Nat.pair (command - 1) i then zero else heap p
where
  zero : Command := ⟨0, false, ⟨0, 0, 0⟩, 0, 0, 0, 0, .UNKNOW⟩

instance : SeparateCommandLib CommandLib.paired where
  size_create n heap := rfl
  distinct command i j hi hj h := (Nat.pair_eq_pair.mp h).2
  setType_true command type heap i hi := by
    simp only [CommandLib.paired] at hi ⊢
    simp [hi]
  setType_true_frame command type heap p h := by
    simp only [CommandLib.paired] at h ⊢
    have hp : ¬∃ i < command - 1, p = Nat.pair (command - 1) i := fun ⟨i, hi, hp⟩ => h i hi hp
    simp only [hp, and_false, ↓reduceIte]
  setType_false command type heap := by
    funext p
    simp [CommandLib.paired]
  clear n heap heap' i hi := by
    simp [CommandLib.paired, hi]
  create_frame n heap p := by
    simp only [CommandLib.paired, Nat.add_sub_cancel]
    intro h
    have hp : ¬∃ i < n, p = Nat.pair n i := fun ⟨i, hi, hp⟩ => h i hi hp
    simp only [hp, ↓reduceIte]
  clear_frame command heap p h := by
    simp only [CommandLib.paired] at h ⊢
    have hp : ¬∃ i < command - 1, p = Nat.pair (command - 1) i := fun ⟨i, hi, hp⟩ => h i hi hp
    simp only [hp, ↓reduceIte]

end Fourier
