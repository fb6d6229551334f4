import FourierSDK.Aios.Group
import FourierSDK.GroupCommand.Record

/-!
This module contains programs with any number of `GroupCommand`s, and what they send.

A copy of a `GroupCommand` has the members of its original, so that an operation names the object by
its handle. `assign` writes to a command through the pointer that `operator[]` returns. The
destructor of an object releases its handle, and takes the other objects with this handle along: a
run in which one of them is used is not considered.
-/

namespace Fourier

open Transition Ownership

def Key.set : (k : Key) → k.Value → Command → Command
  | .type, t, c => { c with commandEnum := t }
  | .payload f, v, c => f.set v c

@[simp]
theorem Key.get_set_self (k : Key) (v : k.Value) (c : Command) : k.get (k.set v c) = v := by
  cases k with
  | type => rfl
  | payload f => apply PayloadField.get_set_self

theorem Key.get_set_of_ne {k k' : Key} (h : k ≠ k') (v : k.Value) (c : Command)
    : k'.get (k.set v c) = k'.get c := by
  cases k with
  | type =>
    cases k' with
    | type => contradiction
    | payload f' => apply PayloadField.get_commandEnum
  | payload f =>
    cases k' with
    | type => apply PayloadField.commandEnum_set
    | payload f' =>
      apply PayloadField.get_set_of_ne
      intro hf
      rw [hf] at h
      contradiction

structure CommandWorld (lib : CommandLib) where
  commands : List (GroupCommand lib)
  heap : CommandHeap

inductive CommandOp where
  | new (number_of_modules : Nat)
  | copy (command : FourierGroupCommandPtr)
  | call (command : FourierGroupCommandPtr) (call : CommandCall) (typeSet : Bool)
  | assign (command : FourierGroupCommandPtr) (index : Nat) (k : Key) (v : k.Value)
  | sendCommand (group : FourierGroupPtr) (command : FourierGroupCommandPtr)
    (status : FourierStatusCode)
  | destroy (command : FourierGroupCommandPtr)

namespace CommandWorld

variable {lib : CommandLib}

structure Fresh (w : CommandWorld lib) (cmd : GroupCommand lib) : Prop where
  handle : ∀ cmd' ∈ w.commands, cmd'.internal_ ≠ cmd.internal_
  apart : ∀ cmd' ∈ w.commands, lib.regions.Apart cmd'.internal_ cmd.internal_

inductive Step {V : Type} (lib : CommandLib) [LawfulCommandLib lib] (group_lib : GroupLib V)
    : CommandWorld lib → CommandOp → CommandWorld lib → Prop where
  | new {w n} (hfresh : w.Fresh (GroupCommand.new lib n w.heap).1)
    : Step lib group_lib w (.new n)
        ⟨w.commands ++ [(GroupCommand.new lib n w.heap).1], (GroupCommand.new lib n w.heap).2⟩
  | copy {w cmd} (hcmd : cmd ∈ w.commands)
    : Step lib group_lib w (.copy cmd.internal_) ⟨w.commands ++ [cmd], w.heap⟩
  | call {w cmd call typeSet heap} (hcmd : cmd ∈ w.commands)
    (hrun : call.run cmd typeSet w.heap = some heap)
    : Step lib group_lib w (.call cmd.internal_ call typeSet) ⟨w.commands, heap⟩
  | assign {w cmd index k v p} (hcmd : cmd ∈ w.commands) (hp : cmd.commands_[index]? = some p)
    : Step lib group_lib w (.assign cmd.internal_ index k v)
        ⟨w.commands, Function.update w.heap p (k.set v (w.heap p))⟩
  | sendCommand {w group cmd status} (hcmd : cmd ∈ w.commands)
    : Step lib group_lib w (.sendCommand group cmd.internal_ status)
        ⟨w.commands, (group_lib.fourierGroupSendCommand group cmd.internal_ status w.heap).2⟩
  | destroy {w cmd heap} (hcmd : cmd ∈ w.commands)
    (hframe : lib.regions.Frame cmd.internal_ w.heap heap)
    : Step lib group_lib w (.destroy cmd.internal_)
        ⟨w.commands.filter (·.internal_ ≠ cmd.internal_), heap⟩

end CommandWorld

/-! ### The record of each handle -/

def CommandOp.on (command : FourierGroupCommandPtr) : CommandOp → Bool
  | call command' _ _ => command' = command
  | assign command' _ _ _ => command' = command
  | _ => false

def slotRecorder (n : Nat) : Recorder CommandOp (Fin n × Key) (fun x => x.2.Value) where
  resets op :=
    match op with
    | .call _ .clear _ => true
    | _ => false
  writes op x :=
    match op with
    | .call _ call typeSet =>
      (call.setting?.bind (·.content? n typeSet x.2)).map (x.2.module · x.1)
    | .assign _ index k v =>
      if h : index = x.1 ∧ k = x.2 then some (h.2 ▸ v) else none
    | _ => none

theorem slotRecorder_step_setting {n : Nat} (record : (x : Fin n × Key) → Option x.2.Value)
    (command : FourierGroupCommandPtr) {call : CommandCall} {s : Setting}
    (h : call.setting? = some s) (typeSet : Bool) (i : Fin n) (k : Key)
    : (slotRecorder n).step record (.call command call typeSet) (i, k)
        =
      ((s.content? n typeSet k).map (k.module · i)).or (record (i, k)) := by
  have hresets : (slotRecorder n).resets (.call command call typeSet) = false := by
    cases call with
    | clear => contradiction
    | _ => rfl
  unfold Recorder.step
  rw [if_neg (by simp [hresets])]
  simp only [slotRecorder, h, Option.bind_some]

def lastWritten (command : FourierGroupCommandPtr) (n : Nat) (ops : List CommandOp) (i : Fin n)
    (k : Key) : Option k.Value :=
  (slotRecorder n).last (ops.filter (·.on command)) (i, k)

namespace GroupCommand

variable {lib : CommandLib} (cmd : GroupCommand lib) (created heap : CommandHeap)

def Stores (record : (x : Fin cmd.number_of_modules_ × Key) → Option x.2.Value) : Prop :=
  ∀ (i : Fin cmd.number_of_modules_) (k : Key),
    k.get (heap (cmd.slot i)) = (record (i, k)).getD (k.get (created (cmd.slot i)))

section

variable {cmd} {created heap} {heap' : CommandHeap}
  {record : (x : Fin cmd.number_of_modules_ × Key) → Option x.2.Value}

theorem Stores.call [LawfulCommandLib lib] (h : cmd.Stores created heap record)
    (hclear : ∀ heap i, i < cmd.number_of_modules_ →
      cmd.clear heap (cmd.slot i) = created (cmd.slot i))
    (command : FourierGroupCommandPtr) {call : CommandCall} {typeSet : Bool}
    (hrun : call.run cmd typeSet heap = some heap')
    : cmd.Stores created heap'
        ((slotRecorder cmd.number_of_modules_).step record (.call command call typeSet)) := by
  intro i k
  cases hsetting : call.setting? with
  | none =>
    rw [CommandCall.run_clear cmd hsetting, Option.some.injEq] at hrun
    rw [CommandCall.setting?_eq_none_iff.mp hsetting, ← hrun, hclear heap i i.isLt]
    rfl
  | some s =>
    have hself : cmd.Represents heap heap (fun _ => none) := fun _ _ => rfl
    have ⟨heap'', hrun', hslots⟩ := hself.setFields s typeSet
    rw [CommandCall.run_setting cmd hsetting, hrun', Option.some.injEq] at hrun
    rw [← hrun, hslots i k, slotRecorder_step_setting record command hsetting]
    simp only [Option.or_none]
    cases s.content? cmd.number_of_modules_ typeSet k with
    | some v => rfl
    | none => apply h i k

theorem slot_of_getElem? {index : Nat} {p : FourierCommandPtr}
    (hp : cmd.commands_[index]? = some p) : index < cmd.number_of_modules_ ∧ p = cmd.slot index := by
  have hindex : index < cmd.number_of_modules_ := by
    have hlt := (List.getElem?_eq_some_iff.mp hp).1
    rw [cmd.commands_eq] at hlt
    simpa using hlt
  rw [cmd.getElem?_commands hindex, Option.some.injEq] at hp
  exact ⟨hindex, hp.symm⟩

theorem Stores.assign [LawfulCommandLib lib] (h : cmd.Stores created heap record)
    (command : FourierGroupCommandPtr) {index : Nat} {p : FourierCommandPtr}
    (hp : cmd.commands_[index]? = some p) (k : Key) (v : k.Value)
    : cmd.Stores created (Function.update heap p (k.set v (heap p)))
        ((slotRecorder cmd.number_of_modules_).step record (.assign command index k v)) := by
  have ⟨hindex, hslot⟩ := slot_of_getElem? hp
  subst hslot
  intro i k'
  simp only [Recorder.step, slotRecorder, Bool.false_eq_true, ↓reduceIte]
  by_cases hi : index = i
  . subst hi
    rw [Function.update_self]
    by_cases hk : k = k'
    . subst hk
      simp
    . rw [Key.get_set_of_ne hk]
      simpa [hk] using h i k'
  . have hne : cmd.slot i ≠ cmd.slot index := by
      intro hslot
      exact hi (cmd.slot_injective i.isLt hindex hslot).symm
    rw [Function.update_of_ne hne]
    simpa [hi] using h i k'

theorem run_frame [SeparateCommandLib lib] {call : CommandCall} {typeSet : Bool}
    (hrun : call.run cmd typeSet heap = some heap') : lib.regions.Frame cmd.internal_ heap heap' := by
  intro p hp
  cases hsetting : call.setting? with
  | none =>
    rw [CommandCall.run_clear cmd hsetting, Option.some.injEq] at hrun
    rw [← hrun]
    apply SeparateCommandLib.clear_frame _ _ _ hp
  | some s =>
    rw [CommandCall.run_setting cmd hsetting] at hrun
    by_cases hvalues : s.values.length = cmd.number_of_modules_
    . have ⟨heap'', hrun', _, hframe⟩ :=
        cmd.setFields_accepted s.field.set s.values s.type typeSet heap hvalues
      rw [hrun, Option.some.injEq] at hrun'
      rw [hrun']
      apply hframe p
      rw [← cmd.size_eq]
      apply hp
    . rw [cmd.setFields_rejected _ _ _ _ hvalues, Option.some.injEq] at hrun
      rw [hrun]

end

theorem contents_eq_map
    : lib.regions.contents cmd.internal_ heap
        =
      (List.range cmd.size).map fun i => heap (cmd.slot i) := by
  unfold Regions.contents
  unfold size
  rw [← cmd.size_eq]
  rfl

theorem eq_of_internal {cmd cmd' : GroupCommand lib} (h : cmd.internal_ = cmd'.internal_)
    : cmd = cmd' := by
  have hsize := cmd.size_eq
  rw [h, cmd'.size_eq] at hsize
  have hcommands := cmd.commands_eq
  rw [h, ← hsize, ← cmd'.commands_eq] at hcommands
  cases cmd
  cases cmd'
  simp_all

end GroupCommand

/-! ### Runs -/

namespace CommandWorld

variable {V : Type} {lib : CommandLib} [SeparateCommandLib lib] {group_lib : GroupLib V}
  {w w' : CommandWorld lib} {op : CommandOp} {ops : List CommandOp} {cmd : GroupCommand lib}

def empty (lib : CommandLib) (heap : CommandHeap) : CommandWorld lib := ⟨[], heap⟩

def store (w : CommandWorld lib) : Store FourierGroupCommandPtr FourierCommandPtr Command where
  live command := ∃ cmd ∈ w.commands, cmd.internal_ = command
  heap := w.heap

def access (w : CommandWorld lib) : CommandOp → Access FourierGroupCommandPtr
  | .new n => .create (GroupCommand.new lib n w.heap).1.internal_
  | .call command _ _ => .use command
  | .assign command _ _ _ => .use command
  | .destroy command => .drop command
  | _ => .skip

omit [SeparateCommandLib lib] in
theorem live_append (commands : List (GroupCommand lib)) (cmd : GroupCommand lib)
    (heap : CommandHeap) (command : FourierGroupCommandPtr)
    : (store ⟨commands ++ [cmd], heap⟩).live command
        ↔
      (store ⟨commands, heap⟩).live command ∨ command = cmd.internal_ := by
  simp only [store, List.mem_append, List.mem_singleton, or_and_right, exists_or, exists_eq_left]
  rw [eq_comm (a := command)]

theorem accesses [SendsCommands lib group_lib]
    : Accesses lib.regions (Step lib group_lib) store access CommandOp.on where
  accesses w op w' hstep := by
    cases hstep with
    | @new n hfresh =>
      constructor
      . intro ⟨cmd, hcmd, heq⟩
        exact hfresh.handle cmd hcmd heq
      . intro command ⟨cmd, hcmd, heq⟩
        rw [← heq]
        apply hfresh.apart cmd hcmd
      . apply live_append
      . intro p hp
        apply SeparateCommandLib.create_frame
        intro i hi
        apply hp i
        have hsize : lib.regions.size _ = n := (GroupCommand.new lib n w.heap).1.size_eq
        rw [hsize]
        exact hi
    | @copy cmd hcmd =>
      constructor
      . intro command
        rw [live_append]
        constructor
        . intro h
          apply h.elim id
          intro heq
          exact ⟨cmd, hcmd, heq.symm⟩
        . exact .inl
      . rfl
    | @call cmd _ _ _ hcmd hrun =>
      constructor
      . exact ⟨cmd, hcmd, rfl⟩
      . exact fun _ => Iff.rfl
      . apply GroupCommand.run_frame hrun
    | @assign cmd index _ _ p hcmd hp =>
      constructor
      . exact ⟨cmd, hcmd, rfl⟩
      . exact fun _ => Iff.rfl
      . have ⟨hindex, hslot⟩ := GroupCommand.slot_of_getElem? hp
        intro p' hp'
        apply Function.update_of_ne
        rw [hslot]
        apply hp' index
        rw [← cmd.size_eq] at hindex
        exact hindex
    | sendCommand =>
      constructor
      . exact fun _ => Iff.rfl
      . apply SendsCommands.sendCommand_heap lib
    | @destroy cmd _ hcmd hframe =>
      constructor
      . exact ⟨cmd, hcmd, rfl⟩
      . intro command
        simp only [store, List.mem_filter, decide_eq_true_eq]
        constructor
        . intro ⟨cmd', ⟨hcmd', hne⟩, heq⟩
          rw [heq] at hne
          exact ⟨⟨cmd', hcmd', heq⟩, hne⟩
        . intro ⟨⟨cmd', hcmd', heq⟩, hne⟩
          rw [← heq] at hne
          exact ⟨cmd', ⟨hcmd', hne⟩, heq⟩
      . apply hframe
  uses w op w' command hstep := by
    cases hstep <;> simp [CommandOp.on, access]

theorem Step.new_of_access {command : FourierGroupCommandPtr} (hstep : Step lib group_lib w op w')
    (haccess : w.access op = .create command)
    : ∃ n, op = .new n ∧ (GroupCommand.new lib n w.heap).1.internal_ = command ∧
        w'.heap = (GroupCommand.new lib n w.heap).2 := by
  cases hstep with
  | @new n hfresh =>
    cases haccess
    exact ⟨n, rfl, rfl, rfl⟩
  | _ => cases haccess

section

variable {created : CommandHeap}
  (hclear : ∀ heap i, i < cmd.number_of_modules_ →
    cmd.clear heap (cmd.slot i) = created (cmd.slot i))

include hclear

theorem Step.stores {record : (x : Fin cmd.number_of_modules_ × Key) → Option x.2.Value}
    (hstep : Step lib group_lib w op w') (hon : op.on cmd.internal_ = true)
    (hstores : cmd.Stores created w.heap record)
    : cmd.Stores created w'.heap ((slotRecorder cmd.number_of_modules_).step record op) := by
  cases hstep with
  | call hcmd hrun =>
    cases GroupCommand.eq_of_internal (of_decide_eq_true hon)
    apply hstores.call hclear _ hrun
  | assign hcmd hp =>
    cases GroupCommand.eq_of_internal (of_decide_eq_true hon)
    apply hstores.assign _ hp
  | _ => contradiction

theorem stores_of_created [SendsCommands lib group_lib] {start w₁ w₂ : CommandWorld lib}
    {pre post : List CommandOp}
    (hcreated :
      Accesses.Created lib.regions (Step lib group_lib) store access cmd.internal_ start pre w₁ op w₂
        post w)
    (hheap : w₂.heap = created)
    : cmd.Stores created w.heap
        ((slotRecorder cmd.number_of_modules_).run (post.filter (·.on cmd.internal_))) := by
  have hframe : ∀ (w w' : CommandWorld lib) record,
      lib.regions.Same cmd.internal_ w.heap w'.heap → cmd.Stores created w.heap record →
      cmd.Stores created w'.heap record := by
    intro w w' record hsame hstores i k
    have hi : i.val < lib.fourierGroupCommandGetSize cmd.internal_ := by
      rw [cmd.size_eq]
      exact i.isLt
    have hslot : w'.heap (cmd.slot i) = w.heap (cmd.slot i) := hsame i hi
    rw [hslot]
    apply hstores
  apply accesses.stores_of_created hframe (fun _ _ _ _ hstep => hstep.stores hclear) hcreated
  intro i k
  rw [hheap]
  rfl

end

end CommandWorld
end Fourier
