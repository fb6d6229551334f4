import FourierSDK.Aios.Command

/-!
This module contains the class `GroupCommand`, a list of commands for the modules of a group.

A setter writes one payload field of all commands after it has set their type. All of them are
`setFields` with the type and the assignment of the setter. The result is `none` if an index is out
of range. `typeSet` is what `fourierGroupCommandSetType` returns, should the setter call it.
-/

namespace Fourier

structure GroupCommand (lib : CommandLib) where
  internal_ : FourierGroupCommandPtr
  number_of_modules_ : Nat
  commands_ : List FourierCommandPtr
  size_eq : lib.fourierGroupCommandGetSize internal_ = number_of_modules_
  commands_eq :
    commands_
      =
    (List.range number_of_modules_).map (lib.fourierGroupCommandGetModuleCommand internal_)

namespace GroupCommand

variable {lib : CommandLib}

def emplaceCommands (lib : CommandLib) (internal_ : FourierGroupCommandPtr)
    (number_of_modules_ : Nat) : List FourierCommandPtr :=
  (List.range number_of_modules_).foldl
    (fun commands_ i => commands_ ++ [lib.fourierGroupCommandGetModuleCommand internal_ i])
    []

theorem emplaceCommands_eq_map (internal_ : FourierGroupCommandPtr) (number_of_modules_ : Nat)
    : emplaceCommands lib internal_ number_of_modules_
        =
      (List.range number_of_modules_).map (lib.fourierGroupCommandGetModuleCommand internal_) := by
  unfold emplaceCommands
  rw [List.foldl_append_eq_append]
  rw [List.nil_append]
  rw [← List.flatMap_def]
  rw [← List.map_eq_flatMap]

def new (lib : CommandLib) [LawfulCommandLib lib] (number_of_modules : Nat) (heap : CommandHeap)
    : GroupCommand lib × CommandHeap :=
  let created := lib.fourierGroupCommandCreate number_of_modules heap
  ({
    internal_ := created.1
    number_of_modules_ := number_of_modules
    commands_ := emplaceCommands lib created.1 number_of_modules
    size_eq := LawfulCommandLib.size_create number_of_modules heap
    commands_eq := emplaceCommands_eq_map created.1 number_of_modules
  }, created.2)

def size (cmd : GroupCommand lib) : Nat := cmd.number_of_modules_

def slot (cmd : GroupCommand lib) (i : Nat) : FourierCommandPtr :=
  lib.fourierGroupCommandGetModuleCommand cmd.internal_ i

variable (cmd : GroupCommand lib)

def clear (heap : CommandHeap) : CommandHeap := lib.fourierGroupCommandClear cmd.internal_ heap

def writeFields {α : Type} (write : α → Command → Command) (values : List α)
    (number_of_modules_ : Nat) (heap : CommandHeap) : Option CommandHeap :=
  (List.range number_of_modules_).foldlM
    (fun heap i => do
      let command ← cmd.commands_[i]?
      let value ← values[i]?
      return Function.update heap command (write value (heap command)))
    heap

def setFields {α : Type} (type : FourierCommandEnum) (write : α → Command → Command)
    (values : List α) (typeSet : Bool) (heap : CommandHeap) : Option CommandHeap :=
  if values.length ≠ cmd.number_of_modules_ then
    some heap
  else
    cmd.writeFields write values cmd.number_of_modules_
      (lib.fourierGroupCommandSetType cmd.internal_ type typeSet heap)

def setPosition (position : List Float32Bits) :=
  cmd.setFields .FourierCommandPosition (fun v c => { c with float_fields_ := v }) position

def setTrapezoidalMove (val : List Float32Bits) :=
  cmd.setFields .FourierCommandTrapezoidal (fun v c => { c with float_fields_ := v }) val

def setVelocity (velocity : List Float32Bits) :=
  cmd.setFields .FourierCommandVelocity (fun v c => { c with float_fields_ := v }) velocity

def setVelocityRamp (velocity : List Float32Bits) :=
  cmd.setFields .FourierCommandVelocityRamp (fun v c => { c with float_fields_ := v }) velocity

def setCurrent (current : List Float32Bits) :=
  cmd.setFields .FourierCommandCurrent (fun v c => { c with float_fields_ := v }) current

def enable (status : List Float32Bits) :=
  cmd.setFields .FourierCommandEnable (fun v c => { c with float_fields_ := v }) status

def reboot (flag : List Bool) :=
  cmd.setFields .FourierCommandReboot (fun v c => { c with bool_fields_ := v }) flag

def getError (flag : List Bool) :=
  cmd.setFields .FourierCommandGetError (fun v c => { c with bool_fields_ := v }) flag

def clearError (flag : List Bool) :=
  cmd.setFields .FourierCommandClearError (fun v c => { c with bool_fields_ := v }) flag

def resetLinearCount (linearCount : List Float32Bits) :=
  cmd.setFields .FourierCommandResetLinearCount (fun v c => { c with float_fields_ := v })
    linearCount

def setMotionCtrlConfig (config : List Addr) :=
  cmd.setFields .FourierCommandMotionControllerConfig
    (fun v c => { c with motion_ctrl_config := v }) config

def setMotorConfig (config : List Addr) :=
  cmd.setFields .FourierCommandMotorConfig (fun v c => { c with motor_config := v }) config

def setTrapTraj (config : List Addr) :=
  cmd.setFields .FourierCommandTrapTraj (fun v c => { c with trap_traj := v }) config

def saveConfig (flag : List Bool) :=
  cmd.setFields .FourierCommandSaveConfig (fun v c => { c with bool_fields_ := v }) flag

def setNetworkSetting (config : List Addr) :=
  cmd.setFields .FourierCommandNetworkSetting (fun v c => { c with network_setting := v }) config

def ctrlBoxEnable (status : List Float32Bits) :=
  cmd.setFields .FourierCommandCtrlBoxPower (fun v c => { c with float_fields_ := v }) status

def setLatencyTest (flag : List Bool) :=
  cmd.setFields .FourierCommandLatencyTest (fun v c => { c with bool_fields_ := v }) flag

def setInputPositionPt (param : List PosPtInfo) :=
  cmd.setFields .FourierCommandPositionPt
    (fun v c =>
      let c := { c with pos_pt_info_ := { c.pos_pt_info_ with pos := v.pos } }
      let c := { c with pos_pt_info_ := { c.pos_pt_info_ with vel := v.vel } }
      { c with pos_pt_info_ := { c.pos_pt_info_ with torque := v.torque } })
    param

def setInputVelocityPt (param : List Float32Bits) :=
  cmd.setFields .FourierCommandVelocityPt (fun v c => { c with float_fields_ := v }) param

def setInputTorquePt (param : List Float32Bits) :=
  cmd.setFields .FourierCommandTorquePt (fun v c => { c with float_fields_ := v }) param

/-! ### What the setters do -/

theorem getElem?_commands {i : Nat} (hi : i < cmd.number_of_modules_)
    : cmd.commands_[i]? = some (cmd.slot i) := by
  rw [cmd.commands_eq]
  simp [hi, slot]

theorem setFields_rejected {α : Type} (type : FourierCommandEnum) (write : α → Command → Command)
    {values : List α} (typeSet : Bool) (heap : CommandHeap)
    (hvalues : values.length ≠ cmd.number_of_modules_)
    : cmd.setFields type write values typeSet heap = some heap := by
  unfold setFields
  rw [if_pos hvalues]

section

variable [LawfulCommandLib lib] {α : Type} (write : α → Command → Command) (values : List α)

theorem slot_injective {i j : Nat} (hi : i < cmd.number_of_modules_)
    (hj : j < cmd.number_of_modules_) (h : cmd.slot i = cmd.slot j) : i = j := by
  rw [← cmd.size_eq] at hi hj
  apply LawfulCommandLib.distinct _ _ _ hi hj h

theorem writeFields_run (hvalues : values.length = cmd.number_of_modules_) (k : Nat)
    (hk : k ≤ cmd.number_of_modules_) (heap : CommandHeap)
    : ∃ heap',
        cmd.writeFields write values k heap = some heap' ∧
        (∀ i v, i < k → values[i]? = some v →
          heap' (cmd.slot i) = write v (heap (cmd.slot i))) ∧
        (∀ p, (∀ i, i < k → p ≠ cmd.slot i) → heap' p = heap p) := by
  induction k with
  | zero => exact ⟨heap, rfl, by simp, by simp⟩
  | succ k ih =>
    have ⟨heap', hrun, hwritten, hframe⟩ := ih (by omega)
    have hk' : k < cmd.number_of_modules_ := by omega
    have hvalue : values[k]? = some values[k] := by simp
    have hfresh : heap' (cmd.slot k) = heap (cmd.slot k) := by
      apply hframe
      intro i hi hslot
      have := cmd.slot_injective hk' (by omega) hslot
      omega
    refine ⟨Function.update heap' (cmd.slot k) (write values[k] (heap' (cmd.slot k))), ?_, ?_, ?_⟩
    . unfold writeFields at hrun ⊢
      rw [List.range_succ, List.foldlM_append, hrun]
      simp [cmd.getElem?_commands hk', hvalue]
    . intro i v hi hv
      by_cases hik : i = k
      . subst hik
        rw [hvalue, Option.some.injEq] at hv
        rw [Function.update_self, hfresh, hv]
      . have hne : cmd.slot i ≠ cmd.slot k := by
          intro hslot
          exact hik (cmd.slot_injective (by omega) hk' hslot)
        rw [Function.update_of_ne hne]
        apply hwritten i v (by omega) hv
    . intro p hp
      rw [Function.update_of_ne (hp k (by omega))]
      apply hframe
      intro i hi
      apply hp i (by omega)

variable (type : FourierCommandEnum) (typeSet : Bool) (heap : CommandHeap)

theorem setFields_accepted (hvalues : values.length = cmd.number_of_modules_)
    : ∃ heap',
        cmd.setFields type write values typeSet heap = some heap' ∧
        (∀ i v, i < cmd.number_of_modules_ → values[i]? = some v →
          heap' (cmd.slot i)
            =
          write v
            (if typeSet then
              { heap (cmd.slot i) with commandEnum := type }
            else
              heap (cmd.slot i))) ∧
        (∀ p, (∀ i, i < cmd.number_of_modules_ → p ≠ cmd.slot i) → heap' p = heap p) := by
  have ⟨heap', hrun, hwritten, hframe⟩ := cmd.writeFields_run write values hvalues
    cmd.number_of_modules_ (Nat.le_refl _)
    (lib.fourierGroupCommandSetType cmd.internal_ type typeSet heap)
  refine ⟨heap', ?_, ?_, ?_⟩
  . unfold setFields
    rw [if_neg (by simp [hvalues])]
    apply hrun
  . intro i v hi hv
    rw [hwritten i v hi hv]
    cases typeSet with
    | false =>
      rw [LawfulCommandLib.setType_false]
      rfl
    | true =>
      unfold slot
      rw [LawfulCommandLib.setType_true _ _ _ _ (by rw [cmd.size_eq]; exact hi)]
      rfl
  . intro p hp
    rw [hframe p hp]
    cases typeSet with
    | false => rw [LawfulCommandLib.setType_false]
    | true =>
      rw [LawfulCommandLib.setType_true_frame]
      rw [cmd.size_eq]
      apply hp

end

theorem new_clear (lib : CommandLib) [LawfulCommandLib lib] (n : Nat) (heap heap' : CommandHeap)
    {i : Nat} (hi : i < n)
    : (new lib n heap).1.clear heap' ((new lib n heap).1.slot i)
        =
      (new lib n heap).2 ((new lib n heap).1.slot i) := by
  apply LawfulCommandLib.clear n heap heap' i hi

end GroupCommand
end Fourier
