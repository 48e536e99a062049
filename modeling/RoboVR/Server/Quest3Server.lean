import RoboVR.Input.InputState
import RoboVR.Wire.PacketReader

/- The state of the input server behind its locks, and what each method does to it. -/
namespace QuestServer
open ByteStream
open QuestTeleop (Bytes)
open QuestProtocol
open QuestKeyValue QuestNumber QuestInputState QuestPacketReader

inductive StatKey where
  | packets
  | hello
  | heartbeat
  | pose
  | stats
  | goodbye
  | error
  | disconnects
  | badPackets
  | videoPacketsSent
  | videoSendErrors
  deriving DecidableEq

/-- Connections are numbered in the order in which they are accepted. -/
structure Quest3Server where
  conn : Option Nat := none
  sendSeq : Nat := 1
  latest : Option Quest3InputState := none
  stats : StatKey → Nat := fun _ => 0
  lastError : Option Str := none

def isConnected (server : Quest3Server) : Bool := (server.latest.map (·.connected)).getD false

def bump (server : Quest3Server) (key : StatKey) : Quest3Server :=
  { server with stats := Function.update server.stats key (server.stats key + 1) }

def recordError (server : Quest3Server) (text : Str) : Quest3Server :=
  { server with lastError := some text }

def stateOrEmpty (server : Quest3Server) (timestampNs : Int) (connected : Bool) :
    Quest3InputState :=
  server.latest.getD (emptyInputState timestampNs connected)

def setConnected (server : Quest3Server) (connected : Bool) : Quest3Server :=
  match server.latest with
  | none => { server with latest := some (emptyInputState 0 connected) }
  | some state =>
    if state.connected ≠ connected then
      { server with latest := some { state with connected := connected } }
    else server

def updateRaw (server : Quest3Server) (timestampNs : Int) (raw : Dict) (connected : Bool) :
    Quest3Server :=
  let base := stateOrEmpty server timestampNs connected
  let merged := Dict.update base.raw raw
  { server with
    latest := some
      { base with timestampNs := timestampNs, connected := connected, raw := merged } }

def setHeartbeat (server : Quest3Server) (timestampNs : Int) : Quest3Server :=
  let base := stateOrEmpty server timestampNs true
  { server with
    latest := some
      { base with
        timestampNs := timestampNs
        connected := true
        lastHeartbeatNs := some timestampNs } }

def setVideoAck (server : Quest3Server) (timestampNs : Int) : Quest3Server :=
  let base := stateOrEmpty server timestampNs true
  { server with
    latest := some
      { base with
        timestampNs := timestampNs
        connected := true
        lastVideoAckNs := some timestampNs } }

abbrev Outcome := Except (PyError × Quest3Server) Quest3Server

def setPose (server : Quest3Server) (timestampNs : Int) (raw : Dict) : Outcome :=
  match updateStateFromPosePayload server.latest raw timestampNs true with
  | .ok state => .ok { server with latest := some state }
  | .error e => .error (e, server)

def handlePacket (server : Quest3Server) (packet : Packet) : Outcome :=
  let server := bump server .packets
  let timestampNs := packet.timestampNs
  if packet.packetType = PT_HELLO then
    .ok (updateRaw (bump server .hello) timestampNs (parseKeyValuePayload packet.payload) true)
  else if packet.packetType = PT_HEARTBEAT then
    .ok (setHeartbeat (bump server .heartbeat) timestampNs)
  else if packet.packetType = PT_POSE then
    setPose (bump server .pose) timestampNs (parseKeyValuePayload packet.payload)
  else if packet.packetType = PT_STATS then
    let raw := parseKeyValuePayload packet.payload
    let updated := updateRaw (bump server .stats) timestampNs raw true
    if Dict.get raw "kind".toList = some "video_ack".toList then
      .ok (setVideoAck updated timestampNs)
    else .ok updated
  else if packet.packetType = PT_GOODBYE then .ok (setConnected (bump server .goodbye) false)
  else if packet.packetType = PT_ERROR then
    .ok (updateRaw (bump server .error) timestampNs (parseKeyValuePayload packet.payload) true)
  else .ok server

def badHeaderText (header : QuestProtocol.PacketHeader) : Str :=
  "bad packet header magic=".toList ++ Nat.toDigits 16 header.magic.toNat ++
    " version=".toList ++ Nat.toDigits 10 header.version.toNat ++
    " size=".toList ++ Nat.toDigits 10 header.payloadSize.toNat

def badLengthText (length : Nat) : Str :=
  "packet header must be 32 bytes, got ".toList ++ Nat.toDigits 10 length

/-- `_read_connection`, while the server is not being closed. Each packet takes a header off the
    connection, so the rounds never run out before the connection does. -/
def readConnectionFrom : Nat → Quest3Server → Incoming → Outcome
  | 0, server, _ => .ok server
  | rounds + 1, server, conn =>
    match recvall conn (ByteRecord.size PACKET_HEADER) with
    | (.data headerBytes, conn) =>
      match unpackPacketHeader headerBytes with
      | none => .ok (bump (recordError server (badLengthText headerBytes.length)) .badPackets)
      | some header =>
        if header.magic ≠ MAGIC ∨ header.version ≠ VERSION ∨
            header.payloadSize > MAX_QUEST_PAYLOAD_BYTES then
          .ok (recordError (bump server .badPackets) (badHeaderText header))
        else
          match (if header.payloadSize ≠ 0 then recvall conn header.payloadSize.toNat
            else (.data [], conn)) with
          | (.data payload, conn) =>
            (handlePacket server
              { packetType := header.packetType, timestampNs := header.timestampNs,
                payload := payload }).bind fun server => readConnectionFrom rounds server conn
          | _ => .ok server
    | _ => .ok server

def readConnection (server : Quest3Server) (conn : Incoming) : Outcome :=
  readConnectionFrom (conn.pending.length + 1) server conn

/- What the methods leave as it is. -/

@[simp] theorem setConnected_stats (server : Quest3Server) (connected : Bool) :
    (setConnected server connected).stats = server.stats := by
  unfold setConnected
  split
  · rfl
  · split <;> rfl

@[simp] theorem setConnected_connected (server : Quest3Server) (connected : Bool) :
    isConnected (setConnected server connected) = connected := by
  unfold setConnected
  split
  · rfl
  · split
    · rfl
    · rename_i state found same
      rw [not_not] at same
      simp [isConnected, found, same]

theorem setPose_ok (server : Quest3Server) (timestampNs : Int) (raw : Dict) :
    ∃ state, setPose server timestampNs raw = .ok { server with latest := some state } := by
  obtain ⟨state, made⟩ := updateStateFromPosePayload_ok server.latest raw timestampNs true
  exact ⟨state, by rw [setPose, made]⟩

end QuestServer
