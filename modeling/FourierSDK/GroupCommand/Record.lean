import FourierSDK.GroupCommand.Basic
import FourierSDK.Transition.History

/-!
This module contains the abstract view of a `GroupCommand`: a record with one command type and one
vector for each payload field, where the last writer wins. A `Setting` is what a setter is for: the
type, the field, and the values of the modules.
-/

namespace Fourier

open Transition

inductive PayloadField where
  | float_fields_
  | bool_fields_
  | pos_pt_info_
  | motion_ctrl_config
  | motor_config
  | trap_traj
  | network_setting
  deriving DecidableEq, Repr

namespace PayloadField

abbrev Value : PayloadField → Type
  | float_fields_ => Float32Bits
  | bool_fields_ => Bool
  | pos_pt_info_ => PosPtInfo
  | motion_ctrl_config => Addr
  | motor_config => Addr
  | trap_traj => Addr
  | network_setting => Addr

def get (c : Command) : (f : PayloadField) → f.Value
  | float_fields_ => c.float_fields_
  | bool_fields_ => c.bool_fields_
  | pos_pt_info_ => c.pos_pt_info_
  | motion_ctrl_config => c.motion_ctrl_config
  | motor_config => c.motor_config
  | trap_traj => c.trap_traj
  | network_setting => c.network_setting

def set : (f : PayloadField) → f.Value → Command → Command
  | float_fields_, v, c => { c with float_fields_ := v }
  | bool_fields_, v, c => { c with bool_fields_ := v }
  | pos_pt_info_, v, c => { c with pos_pt_info_ := v }
  | motion_ctrl_config, v, c => { c with motion_ctrl_config := v }
  | motor_config, v, c => { c with motor_config := v }
  | trap_traj, v, c => { c with trap_traj := v }
  | network_setting, v, c => { c with network_setting := v }

@[simp]
theorem get_set_self (f : PayloadField) (v : f.Value) (c : Command) : f.get (f.set v c) = v := by
  cases f <;> rfl

@[simp]
theorem get_set_of_ne {f f' : PayloadField} (h : f ≠ f') (v : f.Value) (c : Command)
    : f'.get (f.set v c) = f'.get c := by
  cases f <;> cases f' <;> first | contradiction | rfl

@[simp]
theorem commandEnum_set (f : PayloadField) (v : f.Value) (c : Command)
    : (f.set v c).commandEnum = c.commandEnum := by
  cases f <;> rfl

@[simp]
theorem get_commandEnum (f : PayloadField) (type : FourierCommandEnum) (c : Command)
    : f.get { c with commandEnum := type } = f.get c := by
  cases f <;> rfl

end PayloadField

structure Setting where
  type : FourierCommandEnum
  field : PayloadField
  values : List field.Value

inductive CommandCall where
  | clear
  | setPosition (position : List Float32Bits)
  | setTrapezoidalMove (val : List Float32Bits)
  | setVelocity (velocity : List Float32Bits)
  | setVelocityRamp (velocity : List Float32Bits)
  | setCurrent (current : List Float32Bits)
  | enable (status : List Float32Bits)
  | reboot (flag : List Bool)
  | getError (flag : List Bool)
  | clearError (flag : List Bool)
  | resetLinearCount (linearCount : List Float32Bits)
  | setMotionCtrlConfig (config : List Addr)
  | setMotorConfig (config : List Addr)
  | setTrapTraj (config : List Addr)
  | saveConfig (flag : List Bool)
  | setNetworkSetting (config : List Addr)
  | ctrlBoxEnable (status : List Float32Bits)
  | setLatencyTest (flag : List Bool)
  | setInputPositionPt (param : List PosPtInfo)
  | setInputVelocityPt (param : List Float32Bits)
  | setInputTorquePt (param : List Float32Bits)
  deriving DecidableEq, Repr

namespace CommandCall

variable {lib : CommandLib} (cmd : GroupCommand lib)

def run (call : CommandCall) (typeSet : Bool) (heap : CommandHeap) : Option CommandHeap :=
  match call with
  | clear => some (cmd.clear heap)
  | setPosition position => cmd.setPosition position typeSet heap
  | setTrapezoidalMove val => cmd.setTrapezoidalMove val typeSet heap
  | setVelocity velocity => cmd.setVelocity velocity typeSet heap
  | setVelocityRamp velocity => cmd.setVelocityRamp velocity typeSet heap
  | setCurrent current => cmd.setCurrent current typeSet heap
  | enable status => cmd.enable status typeSet heap
  | reboot flag => cmd.reboot flag typeSet heap
  | getError flag => cmd.getError flag typeSet heap
  | clearError flag => cmd.clearError flag typeSet heap
  | resetLinearCount linearCount => cmd.resetLinearCount linearCount typeSet heap
  | setMotionCtrlConfig config => cmd.setMotionCtrlConfig config typeSet heap
  | setMotorConfig config => cmd.setMotorConfig config typeSet heap
  | setTrapTraj config => cmd.setTrapTraj config typeSet heap
  | saveConfig flag => cmd.saveConfig flag typeSet heap
  | setNetworkSetting config => cmd.setNetworkSetting config typeSet heap
  | ctrlBoxEnable status => cmd.ctrlBoxEnable status typeSet heap
  | setLatencyTest flag => cmd.setLatencyTest flag typeSet heap
  | setInputPositionPt param => cmd.setInputPositionPt param typeSet heap
  | setInputVelocityPt param => cmd.setInputVelocityPt param typeSet heap
  | setInputTorquePt param => cmd.setInputTorquePt param typeSet heap

def runAll (calls : List (CommandCall × Bool)) (heap : CommandHeap) : Option CommandHeap :=
  calls.foldlM (fun heap (call, typeSet) => call.run cmd typeSet heap) heap

theorem runAll_snoc (calls : List (CommandCall × Bool)) (call : CommandCall × Bool)
    (heap : CommandHeap)
    : runAll cmd (calls ++ [call]) heap = (runAll cmd calls heap).bind (call.1.run cmd call.2) := by
  unfold runAll
  rw [List.foldlM_append]
  simp only [List.foldlM_cons, List.foldlM_nil, bind_pure]
  rfl

def setting? : CommandCall → Option Setting
  | clear => none
  | setPosition position => some ⟨.FourierCommandPosition, .float_fields_, position⟩
  | setTrapezoidalMove val => some ⟨.FourierCommandTrapezoidal, .float_fields_, val⟩
  | setVelocity velocity => some ⟨.FourierCommandVelocity, .float_fields_, velocity⟩
  | setVelocityRamp velocity => some ⟨.FourierCommandVelocityRamp, .float_fields_, velocity⟩
  | setCurrent current => some ⟨.FourierCommandCurrent, .float_fields_, current⟩
  | enable status => some ⟨.FourierCommandEnable, .float_fields_, status⟩
  | reboot flag => some ⟨.FourierCommandReboot, .bool_fields_, flag⟩
  | getError flag => some ⟨.FourierCommandGetError, .bool_fields_, flag⟩
  | clearError flag => some ⟨.FourierCommandClearError, .bool_fields_, flag⟩
  | resetLinearCount linearCount =>
    some ⟨.FourierCommandResetLinearCount, .float_fields_, linearCount⟩
  | setMotionCtrlConfig config =>
    some ⟨.FourierCommandMotionControllerConfig, .motion_ctrl_config, config⟩
  | setMotorConfig config => some ⟨.FourierCommandMotorConfig, .motor_config, config⟩
  | setTrapTraj config => some ⟨.FourierCommandTrapTraj, .trap_traj, config⟩
  | saveConfig flag => some ⟨.FourierCommandSaveConfig, .bool_fields_, flag⟩
  | setNetworkSetting config => some ⟨.FourierCommandNetworkSetting, .network_setting, config⟩
  | ctrlBoxEnable status => some ⟨.FourierCommandCtrlBoxPower, .float_fields_, status⟩
  | setLatencyTest flag => some ⟨.FourierCommandLatencyTest, .bool_fields_, flag⟩
  | setInputPositionPt param => some ⟨.FourierCommandPositionPt, .pos_pt_info_, param⟩
  | setInputVelocityPt param => some ⟨.FourierCommandVelocityPt, .float_fields_, param⟩
  | setInputTorquePt param => some ⟨.FourierCommandTorquePt, .float_fields_, param⟩

theorem run_clear {call : CommandCall} (h : call.setting? = none) (typeSet : Bool)
    (heap : CommandHeap) : call.run cmd typeSet heap = some (cmd.clear heap) := by
  cases call with
  | clear => rfl
  | _ => simp [setting?] at h

theorem run_setting {call : CommandCall} {s : Setting} (h : call.setting? = some s)
    (typeSet : Bool) (heap : CommandHeap)
    : call.run cmd typeSet heap = cmd.setFields s.type s.field.set s.values typeSet heap := by
  cases call with
  | clear => simp [setting?] at h
  | _ =>
    simp only [setting?, Option.some.injEq] at h
    subst h
    rfl

end CommandCall

/-! ### The record -/

inductive Key where
  | type
  | payload (f : PayloadField)
  deriving DecidableEq, Repr

namespace Key

abbrev Value : Key → Type
  | type => FourierCommandEnum
  | payload f => f.Value

def get (c : Command) : (k : Key) → k.Value
  | type => c.commandEnum
  | payload f => f.get c

-- A record of a group of `n` modules has one type, and one value of each field for each module.
abbrev Content (n : Nat) : Key → Type
  | type => FourierCommandEnum
  | payload f => Fin n → f.Value

def module {n : Nat} : (k : Key) → k.Content n → Fin n → k.Value
  | type, t, _ => t
  | payload _, v, i => v i

def held {n : Nat} (k : Key) (content : Option (k.Content n)) (i : Fin n) (created : Command)
    : k.Value :=
  match content with
  | some v => k.module v i
  | none => k.get created

end Key

def Setting.content? (s : Setting) (n : Nat) (typeSet : Bool) : (k : Key) → Option (k.Content n)
  | .type => if s.values.length = n ∧ typeSet then some s.type else none
  | .payload f =>
    if h : s.values.length = n ∧ s.field = f then
      some (fun i => h.right ▸ s.values.get (i.cast h.left.symm))
    else
      none

theorem CommandCall.setting?_eq_none_iff {call : CommandCall}
    : call.setting? = none ↔ call = .clear := by
  cases call <;> simp [setting?]

def recorder (n : Nat) : Recorder (CommandCall × Bool) Key (Key.Content n) where
  resets call := call.1 = .clear
  writes call k := call.1.setting?.bind (·.content? n call.2 k)

theorem recorder_step_clear {n : Nat} (record : (k : Key) → Option (k.Content n)) (typeSet : Bool)
    : (recorder n).step record (.clear, typeSet) = fun _ => none := by
  funext k
  simp [Recorder.step, recorder]

theorem recorder_step_setting {n : Nat} (record : (k : Key) → Option (k.Content n))
    {call : CommandCall} {s : Setting} (h : call.setting? = some s) (typeSet : Bool) (k : Key)
    : (recorder n).step record (call, typeSet) k = (s.content? n typeSet k).or (record k) := by
  have hne : call ≠ .clear := by
    intro hclear
    rw [hclear] at h
    simp [CommandCall.setting?] at h
  simp [Recorder.step, recorder, hne, h]

theorem Setting.content?_rejected {s : Setting} {n : Nat} (h : s.values.length ≠ n)
    (typeSet : Bool) (k : Key) : s.content? n typeSet k = none := by
  cases k with
  | type => simp [content?, h]
  | payload f => simp [content?, h]

namespace GroupCommand

variable {lib : CommandLib} (cmd : GroupCommand lib) (created : CommandHeap)

def Represents (heap : CommandHeap)
    (record : (k : Key) → Option (k.Content cmd.number_of_modules_)) : Prop :=
  ∀ (i : Fin cmd.number_of_modules_) (k : Key),
    k.get (heap (cmd.slot i)) = k.held (record k) i (created (cmd.slot i))

variable {cmd created} [LawfulCommandLib lib]

theorem Represents.setFields {heap : CommandHeap}
    {record : (k : Key) → Option (k.Content cmd.number_of_modules_)}
    (h : cmd.Represents created heap record) (s : Setting) (typeSet : Bool)
    : ∃ heap',
        cmd.setFields s.type s.field.set s.values typeSet heap = some heap' ∧
        cmd.Represents created heap' fun k =>
          (s.content? cmd.number_of_modules_ typeSet k).or (record k) := by
  by_cases hvalues : s.values.length = cmd.number_of_modules_
  . have ⟨heap', hrun, hwritten, _⟩ :=
      cmd.setFields_accepted s.field.set s.values s.type typeSet heap hvalues
    refine ⟨heap', hrun, ?_⟩
    intro i k
    have hslot := hwritten i (s.values.get (i.cast hvalues.symm)) i.isLt (by simp [hvalues])
    rw [hslot]
    cases k with
    | type =>
      cases typeSet with
      | true => simp [Key.get, Key.held, Key.module, Setting.content?, hvalues]
      | false =>
        have hsame := h i .type
        simp only [Key.get] at hsame
        simpa [Key.get, Setting.content?] using hsame
    | payload f =>
      by_cases hf : s.field = f
      . subst hf
        simp [Key.get, Key.held, Key.module, Setting.content?, hvalues]
      . have hsame := h i (.payload f)
        simp only [Key.get] at hsame
        cases typeSet with
        | true => simpa [Key.get, Setting.content?, hf] using hsame
        | false => simpa [Key.get, Setting.content?, hf] using hsame
  . refine ⟨heap, cmd.setFields_rejected _ _ _ _ hvalues, ?_⟩
    intro i k
    simp only [Setting.content?_rejected hvalues, Option.none_or]
    apply h i k

theorem Represents.run {heap : CommandHeap}
    {record : (k : Key) → Option (k.Content cmd.number_of_modules_)}
    (h : cmd.Represents created heap record)
    (hclear : ∀ heap i, i < cmd.number_of_modules_ →
      cmd.clear heap (cmd.slot i) = created (cmd.slot i))
    (call : CommandCall) (typeSet : Bool)
    : ∃ heap', call.run cmd typeSet heap = some heap' ∧
        cmd.Represents created heap'
          ((recorder cmd.number_of_modules_).step record (call, typeSet)) := by
  cases hsetting : call.setting? with
  | none =>
    refine ⟨_, CommandCall.run_clear cmd hsetting typeSet heap, ?_⟩
    rw [CommandCall.setting?_eq_none_iff.mp hsetting, recorder_step_clear]
    intro i k
    rw [hclear heap i i.isLt]
    rfl
  | some s =>
    have ⟨heap', hrun, h'⟩ := h.setFields s typeSet
    refine ⟨heap', ?_, ?_⟩
    . rw [CommandCall.run_setting cmd hsetting]
      apply hrun
    . intro i k
      rw [recorder_step_setting record hsetting]
      apply h' i k

theorem Represents.runAll
    (hclear : ∀ heap i, i < cmd.number_of_modules_ →
      cmd.clear heap (cmd.slot i) = created (cmd.slot i))
    (calls : List (CommandCall × Bool))
    : ∃ heap', CommandCall.runAll cmd calls created = some heap' ∧
        cmd.Represents created heap' ((recorder cmd.number_of_modules_).run calls) := by
  induction calls using List.reverseRecOn with
  | nil => exact ⟨created, rfl, fun _ _ => rfl⟩
  | append_singleton calls call ih =>
    have ⟨heap, hrun, h⟩ := ih
    have ⟨heap', hstep, h'⟩ := h.run hclear call.1 call.2
    refine ⟨heap', ?_, ?_⟩
    . rw [CommandCall.runAll_snoc, hrun]
      apply hstep
    . rw [Recorder.run_snoc]
      apply h'

theorem represents_of_runAll
    (hclear : ∀ heap i, i < cmd.number_of_modules_ →
      cmd.clear heap (cmd.slot i) = created (cmd.slot i))
    {calls : List (CommandCall × Bool)} {heap : CommandHeap}
    (hrun : CommandCall.runAll cmd calls created = some heap)
    : cmd.Represents created heap ((recorder cmd.number_of_modules_).run calls) := by
  have ⟨heap', hrun', h⟩ := Represents.runAll hclear calls
  rw [hrun, Option.some.injEq] at hrun'
  rw [hrun']
  apply h

end GroupCommand

def lastAccepted (n : Nat) (calls : List CommandCall) (k : Key) : Option (k.Content n) :=
  (recorder n).last (calls.map (·, true)) k

namespace GroupCommand

theorem last_writer_wins (lib : CommandLib) [LawfulCommandLib lib] (n : Nat) (heap : CommandHeap)
    (calls : List CommandCall)
    : let (cmd, created) := new lib n heap
      (∀ pre call s, pre ++ [call] <+: calls → call.setting? = some s → s.values.length ≠ n →
        ∃ before,
          CommandCall.runAll cmd (pre.map (·, true)) created = some before ∧
          call.run cmd true before = some before) ∧
      ∃ after,
        CommandCall.runAll cmd (calls.map (·, true)) created = some after ∧
        ∀ (i : Fin n) (k : Key),
          k.get (after (cmd.slot i)) = k.held (lastAccepted n calls k) i (created (cmd.slot i)) := by
  have hall (calls : List CommandCall)
      : ∃ after, CommandCall.runAll (new lib n heap).1 (calls.map (·, true)) (new lib n heap).2
          =
        some after ∧ Represents (new lib n heap).1 (new lib n heap).2 after
          ((recorder n).run (calls.map (·, true))) :=
    Represents.runAll (fun heap' i hi => new_clear lib n heap heap' hi) (calls.map (·, true))
  constructor
  . intro pre call s _ hsetting hvalues
    have ⟨before, hrun, _⟩ := hall pre
    refine ⟨before, hrun, ?_⟩
    rw [CommandCall.run_setting _ hsetting]
    apply setFields_rejected _ _ _ _ _ hvalues
  . have ⟨after, hrun, h⟩ := hall calls
    refine ⟨after, hrun, ?_⟩
    intro i k
    unfold lastAccepted
    rw [← Recorder.run_eq_last]
    apply h i k

theorem last_writer_wins_packed
    : let calls := [.setPosition [1, 2], .clear, .setVelocity [3, 4], .setCurrent [5]]
      let (cmd, created) := new .packed 2 fun _ => ⟨0, false, ⟨0, 0, 0⟩, 0, 0, 0, 0, .UNKNOW⟩
      ∃ after,
        CommandCall.runAll cmd (calls.map (·, true)) created = some after ∧
        (after (cmd.slot 0)).commandEnum = .FourierCommandVelocity ∧
        (after (cmd.slot 1)).float_fields_ = 4 := by
  intro calls
  have ⟨_, after, hrun, h⟩ := last_writer_wins .packed 2
    (fun _ => ⟨0, false, ⟨0, 0, 0⟩, 0, 0, 0, 0, .UNKNOW⟩) calls
  exact ⟨after, hrun, h 0 .type, h 1 (.payload .float_fields_)⟩

end GroupCommand
end Fourier
