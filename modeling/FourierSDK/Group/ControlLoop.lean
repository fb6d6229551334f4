import FourierSDK.Aios.Group
import FourierSDK.GroupCommand.Sending
import FourierSDK.GroupFeedback.Reading
import FourierSDK.Cpp.Prog

/-!
This module contains the loop of `05_feedback_command_async.cpp`, which gets the next feedback of a
group and commands each module to go to a position next to the one that it has reported. `plus` is
the addition of `.1` in `double`, rounded to a `float`.

`Relay` is what the loop is for: the positions, the commands of the modules and what has been sent,
without handles and pointers. What is sent is known of the successful calls only, so that `sent`
keeps nothing else.
-/

namespace Fourier

open Cpp Cpp.Prog

-- The field of `struct Feedback` that the loop computes with.
structure Feedback where
  position : Float32Bits
  deriving DecidableEq, Repr

namespace Float32Bits

def isNaN (f : Float32Bits) : Bool := f &&& 0x7f800000 == 0x7f800000 && f &&& 0x007fffff != 0

def isZero (f : Float32Bits) : Bool := f &&& 0x7fffffff == 0

def differs (f f' : Float32Bits) : Bool :=
  isNaN f || isNaN f' || (f != f' && !(isZero f && isZero f'))

def quiet_NaN : Float32Bits := 0x7fc00000

end Float32Bits

structure Reply where
  status : FourierStatusCode
  received : Nat → Feedback
  typeSet : Bool
  sendStatus : FourierStatusCode

structure Session where
  feedbacks : FourierFeedbackPtr → Feedback
  commands : CommandHeap
  pos_pt_infos : List PosPtInfo
  sent : List (List Command)

namespace Session

variable (group_lib : GroupLib Feedback) (plus : Float32Bits → Float32Bits)
  (group : FourierGroupPtr) (feedback : GroupFeedback) {commandLib : CommandLib}
  (group_command : GroupCommand commandLib)

def getNextFeedback (timeout_ms : Int) (reply : Reply) : Prog Empty Session Bool := fun s =>
  let feedbacks :=
    group_lib.fourierGroupGetNextFeedback group feedback.internal_ timeout_ms reply.status
      reply.received s.feedbacks
  some (.ok (reply.status == .FourierStatusSuccess), { s with feedbacks })

def pushPosition (mod_idx : BitVec 64) : Prog Empty Session Unit :=
  match feedback.get mod_idx.toNat with
  | none => undefined
  | some p => do
    let position ← read fun s => (s.feedbacks p).position
    if Float32Bits.differs position Float32Bits.quiet_NaN then
      modify fun s => { s with pos_pt_infos := s.pos_pt_infos ++ [⟨plus position, 0, 0⟩] }
    else
      pure ()

def setInputPositionPt (typeSet : Bool) : Prog Empty Session Unit := fun s =>
  match group_command.setInputPositionPt s.pos_pt_infos typeSet s.commands with
  | none => none
  | some commands => some (.ok (), { s with commands })

def sendCommand (status : FourierStatusCode) : Prog Empty Session Bool := fun s =>
  let (sent, commands) :=
    group_lib.fourierGroupSendCommand group group_command.internal_ status s.commands
  some (.ok (status == .FourierStatusSuccess), {
    s with
    commands
    sent := if status = .FourierStatusSuccess then s.sent ++ [sent] else s.sent
  })

def iteration (fuel : Nat) (reply : Reply) : Prog Empty Session Unit := do
  let _ ← getNextFeedback group_lib group feedback 2 reply
  forLoop (fun mod_idx _ => mod_idx.toNat < feedback.size) (pushPosition plus feedback) fuel 0
  setInputPositionPt group_command reply.typeSet
  let _ ← sendCommand group_lib group group_command reply.sendStatus
  modify fun s => { s with pos_pt_infos := [] }

end Session

/-! ### The purpose of the loop -/

structure Relay where
  positions : List Float32Bits
  commands : List Command
  sent : List (List Command)
  deriving DecidableEq, Repr

namespace Relay

def received (positions : List Float32Bits) (reply : Reply) : List Float32Bits :=
  match reply.status with
  | .FourierStatusSuccess => (List.range positions.length).map fun i => (reply.received i).position
  | .FourierStatusFailure => positions

def command (plus : Float32Bits → Float32Bits) (typeSet : Bool) (position : Float32Bits)
    (c : Command) : Command :=
  {
    c with
    pos_pt_info_ := ⟨plus position, 0, 0⟩
    commandEnum := if typeSet then .FourierCommandPositionPt else c.commandEnum
  }

def step (plus : Float32Bits → Float32Bits) (r : Relay) (reply : Reply) : Relay :=
  let positions := received r.positions reply
  let commands := List.zipWith (command plus reply.typeSet) positions r.commands
  let sent := if reply.sendStatus = .FourierStatusSuccess then r.sent ++ [commands] else r.sent
  ⟨positions, commands, sent⟩

end Relay

namespace Session

variable {lib : FeedbackLib} {group_lib : GroupLib Feedback} {plus : Float32Bits → Float32Bits}
  {group : FourierGroupPtr} {feedback : GroupFeedback} {commandLib : CommandLib}
  {group_command : GroupCommand commandLib}

def positions (lib : FeedbackLib) (feedback : GroupFeedback) (s : Session) : List Float32Bits :=
  (List.range feedback.size).map fun i =>
    (s.feedbacks (lib.regions.cell feedback.internal_ i)).position

def relay (lib : FeedbackLib) (feedback : GroupFeedback) (group_command : GroupCommand commandLib)
    (s : Session) : Relay where
  positions := s.positions lib feedback
  commands := commandLib.regions.contents group_command.internal_ s.commands
  sent := s.sent

theorem differs_quiet_NaN (f : Float32Bits)
    : Float32Bits.differs f Float32Bits.quiet_NaN = true := by
  have hnan : Float32Bits.isNaN Float32Bits.quiet_NaN = true := by decide
  unfold Float32Bits.differs
  rw [hnan]
  simp

theorem positions_getNextFeedback [ReceivesFeedback lib group_lib] (hfeedback : feedback.Refers lib)
    (hgroup : group_lib.fourierGroupGetSize group = feedback.size) (timeout_ms : Int) (reply : Reply)
    (s : Session)
    : positions lib feedback {
        s with
        feedbacks :=
          group_lib.fourierGroupGetNextFeedback group feedback.internal_ timeout_ms reply.status
            reply.received s.feedbacks
      }
        =
      Relay.received (s.positions lib feedback) reply := by
  unfold Relay.received positions
  cases reply.status with
  | FourierStatusSuccess =>
    dsimp only
    rw [List.length_map, List.length_range]
    apply List.map_congr_left
    intro i hi
    have hi : i < lib.fourierGroupFeedbackGetSize feedback.internal_ :=
      Nat.lt_of_lt_of_eq (List.mem_range.mp hi) hfeedback.size_eq
    apply congrArg Feedback.position
    apply ReceivesFeedback.getNextFeedback_success
    . exact hgroup.trans hfeedback.size_eq
    . exact hi
  | FourierStatusFailure =>
    rw [ReceivesFeedback.getNextFeedback_failure lib]

def infos (plus : Float32Bits → Float32Bits) (positions : List Float32Bits) : List PosPtInfo :=
  positions.map fun position => ⟨plus position, 0, 0⟩

variable (plus) in
theorem pushPosition_run (hfeedback : feedback.Refers lib) {k : Nat} (hk : k < feedback.size)
    {mod_idx : BitVec 64} (hmod_idx : mod_idx.toNat = k) (s : Session)
    : pushPosition plus feedback mod_idx s
        =
      some (.ok (), {
        s with
        pos_pt_infos := s.pos_pt_infos ++
          [⟨plus (s.feedbacks (lib.regions.cell feedback.internal_ k)).position, 0, 0⟩]
      }) := by
  unfold pushPosition
  simp only [hmod_idx, hfeedback.get_of_lt hk, differs_quiet_NaN, ↓reduceIte]
  rfl

variable (plus) in
theorem pushPositions_returns (hfeedback : feedback.Refers lib) (hn : feedback.size < 2 ^ 64)
    {fuel : Nat} (hfuel : feedback.size < fuel) {s : Session} (hs : s.pos_pt_infos = [])
    : (forLoop (fun mod_idx _ => mod_idx.toNat < feedback.size) (pushPosition plus feedback) fuel
        0).Returns s
        (fun _ s' => s' = { s with pos_pt_infos := infos plus (s.positions lib feedback) }) := by
  let pushed (k : Nat) : Session :=
    { s with pos_pt_infos := infos plus ((s.positions lib feedback).take k) }
  have hlength : (s.positions lib feedback).length = feedback.size := by simp [positions]
  have htoNat : ∀ k, k ≤ feedback.size → (BitVec.ofNat 64 k).toNat = k := by
    intro k hk
    rw [BitVec.toNat_ofNat]
    apply Nat.mod_eq_of_lt
    omega
  have hstart : s = pushed 0 := by simp [pushed, infos, ← hs]
  have hall : pushed feedback.size
      = { s with pos_pt_infos := infos plus (s.positions lib feedback) } := by
    simp only [pushed]
    rw [List.take_of_length_le (Nat.le_of_eq hlength)]
  rw [← hall]
  apply Returns.forLoop (I := fun k s' => s' = pushed k) hn _ _ (Nat.zero_le _) hfuel hstart
  . intro k s' hk _
    rw [htoNat k hk]
  . intro k s' hk hs'
    have hrun := pushPosition_run plus hfeedback hk (htoNat k (Nat.le_of_lt hk)) s'
    rw [returns_iff_of_returned hrun, hs']
    simp only [pushed, infos]
    rw [List.take_add_one, List.map_append]
    simp [positions, hk]

variable (plus) in
theorem setInputPositionPt_run [LawfulCommandLib commandLib] (typeSet : Bool) {s : Session}
    {values : List Float32Bits} (hvalues : values.length = group_command.size)
    (hs : s.pos_pt_infos = infos plus values)
    : ∃ commands,
        setInputPositionPt group_command typeSet s = some (.ok (), { s with commands }) ∧
        commandLib.regions.contents group_command.internal_ commands
          =
        List.zipWith (Relay.command plus typeSet) values
          (commandLib.regions.contents group_command.internal_ s.commands) := by
  have hlength : s.pos_pt_infos.length = group_command.number_of_modules_ := by
    rw [hs, infos, List.length_map]
    exact hvalues
  have ⟨commands, hrun, hslots, _⟩ :=
    group_command.setFields_accepted (fun v c => { c with pos_pt_info_ := v }) s.pos_pt_infos
      .FourierCommandPositionPt typeSet s.commands hlength
  refine ⟨commands, ?_, ?_⟩
  . have hrun' : group_command.setInputPositionPt s.pos_pt_infos typeSet s.commands = some commands :=
      hrun
    unfold setInputPositionPt
    rw [hrun']
  . rw [GroupCommand.contents_eq_map, GroupCommand.contents_eq_map]
    apply List.ext_getElem
    . simp [hvalues]
    . intro i hi _
      rw [List.length_map, List.length_range] at hi
      have hlt : i < values.length := Nat.lt_of_lt_of_eq hi hvalues.symm
      have hinfo : s.pos_pt_infos[i]? = some ⟨plus values[i], 0, 0⟩ := by simp [hs, infos, hlt]
      rw [List.getElem_zipWith, List.getElem_map, List.getElem_map, List.getElem_range]
      rw [hslots i _ hi hinfo]
      unfold Relay.command
      cases typeSet with
      | false => rfl
      | true => rfl

def Relays (lib : FeedbackLib) (feedback : GroupFeedback) (group_command : GroupCommand commandLib)
    (r : Relay) (s : Session) : Prop :=
  s.relay lib feedback group_command = r ∧ s.pos_pt_infos = []

theorem sendCommand_run [SendsCommands commandLib group_lib] [LawfulCommandLib commandLib]
    (hgroup : group_lib.fourierGroupGetSize group = group_command.size) (status : FourierStatusCode)
    (s : Session)
    : sendCommand group_lib group group_command status s
        =
      some (.ok (status == .FourierStatusSuccess), {
        s with
        sent :=
          if status = .FourierStatusSuccess then
            s.sent ++ [commandLib.regions.contents group_command.internal_ s.commands]
          else
            s.sent
      }) := by
  unfold sendCommand
  dsimp only
  rw [SendsCommands.sendCommand_heap commandLib]
  cases status with
  | FourierStatusSuccess =>
    rw [SendsCommands.sendCommand_success group group_command.internal_ s.commands
      (hgroup.trans group_command.size_eq.symm)]
  | FourierStatusFailure => rfl

theorem iteration_returns [LawfulCommandLib commandLib] [SendsCommands commandLib group_lib]
    [ReceivesFeedback lib group_lib] (hfeedback : feedback.Refers lib)
    (hgroup : group_lib.fourierGroupGetSize group = feedback.size)
    (hsize : group_command.size = feedback.size) (hn : feedback.size < 2 ^ 64) {fuel : Nat}
    (hfuel : feedback.size < fuel) (reply : Reply) {s : Session} {r : Relay}
    (hs : Relays lib feedback group_command r s)
    : (iteration group_lib plus group feedback group_command fuel reply).Returns s
        (fun _ => Relays lib feedback group_command (r.step plus reply)) := by
  have ⟨hrelay, hnone⟩ := hs
  subst hrelay
  let received : Session :=
    {
      s with
      feedbacks :=
        group_lib.fourierGroupGetNextFeedback group feedback.internal_ 2 reply.status reply.received
          s.feedbacks
    }
  have hpositions
      : received.positions lib feedback = Relay.received (s.positions lib feedback) reply :=
    positions_getNextFeedback hfeedback hgroup 2 reply s
  have hget : getNextFeedback group_lib group feedback 2 reply s = some (.ok _, received) := rfl
  unfold iteration
  rw [returns_bind_iff hget]
  apply (pushPositions_returns plus hfeedback hn hfuel (s := received) hnone).bind
  intro _ pushed hpushed
  have hlength : (received.positions lib feedback).length = group_command.size := by
    rw [hsize]
    simp [positions]
  obtain ⟨commands, hset, hcontents⟩ :=
    setInputPositionPt_run plus reply.typeSet hlength (congrArg pos_pt_infos hpushed)
  rw [returns_bind_iff hset]
  rw [returns_bind_iff (sendCommand_run (hgroup.trans hsize.symm) reply.sendStatus _)]
  rw [returns_modify]
  subst hpushed
  refine ⟨?_, rfl⟩
  unfold relay Relay.step
  dsimp only
  rw [← hpositions, hcontents]
  rfl

end Session
end Fourier
