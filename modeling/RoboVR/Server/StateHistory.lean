import RoboVR.Input.PoseRoundTrip
import RoboVR.Server.Clients
import RoboVR.Wire.AckPayload

/- The input state as a function of the packets behind it: each kind of packet has its own part of
   the state, and a part is what the last packet of its kind has left there. -/
namespace QuestStateHistory
open ByteStream
open QuestTeleop (Bytes)
open QuestProtocol QuestServer QuestPacketReader QuestInputState QuestNumber QuestKeyValue
open QuestPosePayload QuestPoseRoundTrip

def handleAll : Quest3Server → List Packet → Outcome
  | server, [] => .ok server
  | server, packet :: packets =>
    (handlePacket server packet).bind fun server => handleAll server packets

theorem readConnectionFrom_latest (rounds : Nat) (server : Quest3Server) (conn : Incoming) :
    ∃ middle next,
      handleAll server (QuestPacketReader.readConnectionFrom rounds conn).handled = .ok middle ∧
      QuestServer.readConnectionFrom rounds server conn = .ok next ∧
      next.latest = middle.latest := by
  induction rounds generalizing server conn with
  | zero => exact ⟨server, server, rfl, rfl, rfl⟩
  | succ rounds ih =>
    unfold QuestServer.readConnectionFrom QuestPacketReader.readConnectionFrom
    rcases recvall conn (ByteRecord.size PACKET_HEADER) with ⟨received, behind⟩
    cases received with
    | closed => exact ⟨server, server, rfl, rfl, rfl⟩
    | failed => exact ⟨server, server, rfl, rfl, rfl⟩
    | data headerBytes =>
      simp only
      cases unpackPacketHeader headerBytes with
      | none => exact ⟨server, _, rfl, rfl, rfl⟩
      | some header =>
        simp only
        split
        · exact ⟨server, _, rfl, rfl, rfl⟩
        · rcases (if header.payloadSize ≠ 0 then recvall behind header.payloadSize.toNat
            else (.data [], behind)) with ⟨content, after⟩
          cases content with
          | closed => exact ⟨server, server, rfl, rfl, rfl⟩
          | failed => exact ⟨server, server, rfl, rfl, rfl⟩
          | data payload =>
            obtain ⟨next, handled, _⟩ := QuestServerClients.handlePacket_counts server
              { packetType := header.packetType, timestampNs := header.timestampNs,
                payload := payload }
            obtain ⟨middle, last, all, read, same⟩ := ih next after
            refine ⟨middle, last, ?_, ?_, same⟩
            · simp only [handleAll, handled]
              exact all
            · simp only [handled]
              exact read

theorem readConnection_latest (server : Quest3Server) (conn : Incoming) :
    ∃ middle next, handleAll server (QuestPacketReader.readConnection conn).handled = .ok middle ∧
      QuestServer.readConnection server conn = .ok next ∧ next.latest = middle.latest :=
  readConnectionFrom_latest _ server conn

structure PoseView where
  head : Option Pose3D
  rightGrip : Option Pose3D
  rightGripFlags : Int
  leftTrigger : Float64
  rightTrigger : Float64
  leftSqueeze : Float64
  rightSqueeze : Float64
  buttonA : Bool
  buttonB : Bool
  buttonX : Bool
  buttonY : Bool
  ipdM : Option Float64
  eyeViewCount : Option Int

def poseView (state : Quest3InputState) : PoseView :=
  { head := state.head
    rightGrip := state.rightGrip
    rightGripFlags := state.rightGripFlags
    leftTrigger := state.leftTrigger
    rightTrigger := state.rightTrigger
    leftSqueeze := state.leftSqueeze
    rightSqueeze := state.rightSqueeze
    buttonA := state.buttonA
    buttonB := state.buttonB
    buttonX := state.buttonX
    buttonY := state.buttonY
    ipdM := state.ipdM
    eyeViewCount := state.eyeViewCount }

def sampleView (signedNan : Bool) (sample : HeadPoseSample) (time : Int) : PoseView :=
  { head := some (readPose signedNan time sample.pose)
    rightGrip := some (readPose signedNan time sample.rightGripPose)
    rightGripFlags := sample.rightGripFlags.toNat
    leftTrigger := readBack signedNan 3 sample.leftTrigger
    rightTrigger := readBack signedNan 3 sample.rightTrigger
    leftSqueeze := readBack signedNan 3 sample.leftSqueeze
    rightSqueeze := readBack signedNan 3 sample.rightSqueeze
    buttonA := sample.buttonA
    buttonB := sample.buttonB
    buttonX := sample.buttonX
    buttonY := sample.buttonY
    ipdM := some (readBack signedNan 6 sample.ipdM)
    eyeViewCount := some (sample.eyeViewCount.toNat : Int) }

theorem poseView_carries {signedNan : Bool} {sample : HeadPoseSample} {time : Int} {online : Bool}
    {state : Quest3InputState} (carries : Carries signedNan sample time online state) :
    poseView state = sampleView signedNan sample time := by
  unfold poseView sampleView
  rw [carries.head, carries.rightGrip, carries.rightGripFlags, carries.leftTrigger,
    carries.rightTrigger, carries.leftSqueeze, carries.rightSqueeze, carries.buttonA,
    carries.buttonB, carries.buttonX, carries.buttonY, carries.ipdM, carries.eyeViewCount]

/- The parts that a packet sets, and what it leaves. -/

structure Parts where
  heartbeat : Option Int
  videoAck : Option Int
  pose : PoseView

def partsOf (latest : Option Quest3InputState) : Parts :=
  let state := latest.getD (emptyInputState 0 false)
  { heartbeat := state.lastHeartbeatNs, videoAck := state.lastVideoAckNs, pose := poseView state }

/-- The state was made at a time by a connected headset, and has these parts. -/
structure Shows (latest : Option Quest3InputState) (time : Int) (parts : Parts) : Prop where
  there : ∃ state, latest = some state ∧ state.timestampNs = time ∧ state.connected = true
  parts : partsOf latest = parts

section
variable (server : Quest3Server) (time : Int)

theorem partsOf_base (connected : Bool) :
    partsOf (some (stateOrEmpty server time connected)) = partsOf server.latest := by
  unfold partsOf stateOrEmpty
  cases server.latest <;> rfl

theorem handle_hello (payload : Bytes) :
    ∃ next, handlePacket server
        { packetType := PT_HELLO, timestampNs := time, payload := payload } = .ok next ∧
      Shows next.latest time (partsOf server.latest) := by
  refine ⟨_, by rw [handlePacket]; exact if_pos rfl, ?_⟩
  constructor
  · exact ⟨_, rfl, rfl, rfl⟩
  · exact partsOf_base (bump (bump server .packets) .hello) time true

theorem handle_heartbeat (payload : Bytes) :
    ∃ next, handlePacket server
        { packetType := PT_HEARTBEAT, timestampNs := time, payload := payload } = .ok next ∧
      Shows next.latest time { partsOf server.latest with heartbeat := some time } := by
  have handled : handlePacket server
      { packetType := PT_HEARTBEAT, timestampNs := time, payload := payload } =
      .ok (setHeartbeat (bump (bump server .packets) .heartbeat) time) := by
    rw [handlePacket]
    simp only
    rw [if_neg (by decide : ¬ PT_HEARTBEAT = PT_HELLO), if_pos trivial]
  refine ⟨_, handled, ?_⟩
  constructor
  · exact ⟨_, rfl, rfl, rfl⟩
  · rw [← partsOf_base server time true]
    rfl

theorem handle_ack {payload : Bytes} {raw : Dict} (parsed : parseKeyValuePayload payload = raw)
    (isAck : Dict.get raw "kind".toList = some "video_ack".toList) :
    ∃ next, handlePacket server
        { packetType := PT_STATS, timestampNs := time, payload := payload } = .ok next ∧
      Shows next.latest time { partsOf server.latest with videoAck := some time } := by
  refine ⟨_, QuestAckPayload.handlePacket_ack server time parsed isAck, ?_⟩
  constructor
  · exact ⟨_, rfl, rfl, rfl⟩
  · rw [← partsOf_base server time true]
    rfl

theorem handle_pose (signedNan : Bool) (sample : HeadPoseSample) {payload : Bytes}
    (parsed : parseKeyValuePayload payload = poseEntries signedNan sample) :
    ∃ next, handlePacket server
        { packetType := PT_POSE, timestampNs := time, payload := payload } = .ok next ∧
      Shows next.latest time
        { partsOf server.latest with pose := sampleView signedNan sample time } := by
  obtain ⟨state, made, carries, heartbeat, videoAck⟩ :=
    @update_carries signedNan sample server.latest time true
  have set_ : setPose (bump (bump server .packets) .pose) time (poseEntries signedNan sample) =
      .ok { bump (bump server .packets) .pose with latest := some state } := by
    have same : (bump (bump server .packets) .pose).latest = server.latest := rfl
    rw [setPose, same, made]
  refine ⟨{ bump (bump server .packets) .pose with latest := some state }, ?_, ?_⟩
  · rw [handlePacket]
    simp only
    rw [if_neg (by decide : ¬ PT_POSE = PT_HELLO), if_neg (by decide : ¬ PT_POSE = PT_HEARTBEAT),
      if_pos trivial, parsed, set_]
  · constructor
    · exact ⟨state, rfl, carries.timestampNs, carries.connected⟩
    · simp only [partsOf, Option.getD_some, heartbeat, videoAck, poseView_carries carries]
      cases server.latest <;> rfl

end

end QuestStateHistory
