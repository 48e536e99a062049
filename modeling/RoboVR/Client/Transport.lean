import RoboVR.Decoder.HostPackets
import RoboVR.Input.PosePayload
import RoboVR.Wire.AckPayload
import RoboVR.Lib.TracedRun

/- The transport thread of the headset, connection after connection, next to the render thread
   that publishes head poses. A step of the thread gets what the clock, the socket and the codecs
   answer in it. -/
namespace QuestTransport
open ByteStream
open QuestTeleop (Bytes PacketType)
open QuestPosePayload (HeadPoseSample formatPosePayload)
open QuestPacketReader (Message sendPacket)
open QuestH264Decoder QuestHostPackets

structure SendTurn where
  timestampNs : Int64 := 0
  results : List SendResult := []

inductive Polled where
  | nothing
  /-- The data ends early, or the header is not accepted. -/
  | refused
  | packet (type : UInt16) (payload : Bytes) (turn : Turn) (acks : List SendTurn)

/-- Where the thread stands; `looping` is the head of its inner loop. -/
inductive Phase where
  | offline
  | looping (conn : Nat)
  | receiving (conn : Nat)
  | acking (conn : Nat)
  | beating (conn : Nat)
  | posing (conn : Nat)
  | finished
  deriving DecidableEq

def Phase.conn : Phase → Option Nat
  | .looping conn | .receiving conn | .acking conn | .beating conn | .posing conn => some conn
  | .offline | .finished => none

/-- Connections are numbered as they are made. -/
structure State where
  running : Bool := true
  phase : Phase := .offline
  connections : Nat := 0
  seq : UInt64 := 1
  lastHeartbeatNs : Int := 0
  latestPose : Option HeadPoseSample := none
  decoder : H264AnnexBDecoder := {}

inductive Move where
  | publishHeadPose (sample : HeadPoseSample)
  | stopTransport
  | connectFailed
  | connect (nowNs : Int) (hello : SendTurn)
  | loop
  | receive (polled : Polled)
  | sendAcks (acks : List SendTurn)
  | heartbeat (nowNs : Int) (turn : SendTurn)
  | sendPose (turn : SendTurn)

structure SendCall where
  message : Message
  written : Bytes
  ok : Bool

inductive Event where
  | published (sample : HeadPoseSample)
  | took (sample : HeadPoseSample)
  | sent (conn : Nat) (call : SendCall)
  | clock (conn : Nat) (nowNs : Int) (due : Bool)
  | decoder (event : QuestMediaCodec.Event)
  | connected (conn : Nat) (nowNs : Int)
  | closed (conn : Nat)

def heartbeatNs : Int := 500000000

def helloPayload : Bytes := Utf8.ascii "client=quest;protocol=1".toList

def heartbeatPayload : Bytes := Utf8.ascii "quest_alive=1".toList

def send (seq : UInt64) (type : PacketType) (payload : Bytes) (turn : SendTurn) : SendCall :=
  let message : Message :=
    { type := type, seq := seq, timestampNs := turn.timestampNs, payload := payload }
  let written := sendPacket turn.results message
  { message := message, written := written.bytes, ok := written.ok }

def close (s : State) (conn : Nat) : State × List Event :=
  ({ s with phase := .offline }, [.closed conn])

/-- Goes on if a call was good, and leaves the connection if it was not. -/
def goOn (s : State) (conn : Nat) (ok : Bool) (next : Phase) : State × List Event :=
  if ok then ({ s with phase := next }, []) else close s conn

section
variable (signedNan : Bool)

def ackPayload (ack : VideoDecodeAck) : Bytes :=
  QuestAckPayload.ackPayload signedNan (UInt64.ofNat ack.frameIndex)
    (Int64.ofInt ack.receiveToPublishNs) ack.surfaceOutput

def sendAckPackets :
    List VideoDecodeAck → List SendTurn → UInt64 → List SendCall × UInt64 × Bool
  | [], _, seq => ([], seq, true)
  | ack :: acks, turns, seq =>
    let call := send seq .stats (ackPayload signedNan ack) (turns.headD {})
    if call.ok then
      let more := sendAckPackets acks turns.tail (seq + 1)
      (call :: more.1, more.2)
    else ([call], seq + 1, false)

def sendVideoDecodeAcks (s : State) (conn : Nat) (turns : List SendTurn) :
    State × List Event × Bool :=
  let taken := takeAcks s.decoder
  let sent := sendAckPackets signedNan taken.2 turns s.seq
  ({ s with decoder := taken.1, seq := sent.2.1 }, sent.1.map (.sent conn), sent.2.2)

/-- A packet that is no video is read and dropped. -/
def receive (s : State) (conn : Nat) : Polled → State × List Event
  | .nothing => ({ s with phase := .acking conn }, [])
  | .refused => close s conn
  | .packet type payload turn acks =>
    if type = PacketType.video.code then
      let handled := handleVideoPayload s.decoder payload turn
      let acked := sendVideoDecodeAcks signedNan { s with decoder := handled.1 } conn acks
      let after := goOn acked.1 conn acked.2.2 (.receiving conn)
      (after.1, handled.2.map .decoder ++ acked.2.1 ++ after.2)
    else (s, [])

def connect (s : State) (nowNs : Int) (hello : SendTurn) : State × List Event :=
  let conn := s.connections
  -- what becomes of the HELLO is not looked at
  let call := send s.seq .hello helloPayload hello
  ({ s with
    phase := .looping conn
    connections := conn + 1
    seq := s.seq + 1
    lastHeartbeatNs := nowNs - 1000000000 }, [.connected conn nowNs, .sent conn call])

def beat (s : State) (conn : Nat) (nowNs : Int) (turn : SendTurn) : State × List Event :=
  if nowNs - s.lastHeartbeatNs ≥ heartbeatNs then
    let call := send s.seq .heartbeat heartbeatPayload turn
    let s := { s with seq := s.seq + 1 }
    let s := if call.ok then { s with lastHeartbeatNs := nowNs } else s
    let after := goOn s conn call.ok (.posing conn)
    (after.1, [.clock conn nowNs true, .sent conn call] ++ after.2)
  else ({ s with phase := .posing conn }, [.clock conn nowNs false])

def posePayload (sample : HeadPoseSample) : Bytes :=
  Utf8.ascii ((formatPosePayload signedNan sample).getD [])

def sendPose (s : State) (conn : Nat) (turn : SendTurn) : State × List Event :=
  match s.latestPose with
  | none => ({ s with phase := .looping conn }, [])
  | some sample =>
    let call := send s.seq .pose (posePayload signedNan sample) turn
    let after := goOn { s with latestPose := none, seq := s.seq + 1 } conn call.ok (.looping conn)
    (after.1, [.took sample, .sent conn call] ++ after.2)

/-- A move that the thread is not at changes nothing. -/
def step (s : State) : Move → State × List Event
  | .publishHeadPose sample => ({ s with latestPose := some sample }, [.published sample])
  | .stopTransport => ({ s with running := false }, [])
  | .connectFailed =>
    if s.phase = .offline ∧ ¬ s.running then ({ s with phase := .finished }, []) else (s, [])
  | .connect nowNs hello =>
    if s.phase = .offline then
      if s.running then connect s nowNs hello else ({ s with phase := .finished }, [])
    else (s, [])
  | .loop =>
    match s.phase with
    | .looping conn => goOn s conn s.running (.receiving conn)
    | _ => (s, [])
  | .receive polled =>
    match s.phase with
    | .receiving conn => receive signedNan s conn polled
    | _ => (s, [])
  | .sendAcks acks =>
    match s.phase with
    | .acking conn =>
      let acked := sendVideoDecodeAcks signedNan s conn acks
      let after := goOn acked.1 conn acked.2.2 (.beating conn)
      (after.1, acked.2.1 ++ after.2)
    | _ => (s, [])
  | .heartbeat nowNs turn =>
    match s.phase with
    | .beating conn => beat s conn nowNs turn
    | _ => (s, [])
  | .sendPose turn =>
    match s.phase with
    | .posing conn => sendPose signedNan s conn turn
    | _ => (s, [])

/- What a step can be. -/

inductive Acts (s : State) : State → List Event → Prop
  | idle : Acts s s []
  | published (sample : HeadPoseSample) :
    Acts s { s with latestPose := some sample } [.published sample]
  | stopped : Acts s { s with running := false } []
  | finished (here : s.phase = .offline) : Acts s { s with phase := .finished } []
  | connected (nowNs : Int) (hello : SendTurn) (here : s.phase = .offline) :
    Acts s (connect s nowNs hello).1 (connect s nowNs hello).2
  | moved {conn : Nat} {next : Phase} (here : s.phase.conn = some conn)
    (there : next.conn = some conn) (unposed : next ≠ .posing conn) :
    Acts s { s with phase := next } []
  | left {conn : Nat} (here : s.phase.conn = some conn) : Acts s (close s conn).1 (close s conn).2
  | acked {conn : Nat} {next : Phase} {decoder : H264AnnexBDecoder}
    {decoded : List QuestMediaCodec.Event} {sent : List SendCall × UInt64 × Bool}
    {acks : List VideoDecodeAck} {turns : List SendTurn}
    (here : s.phase.conn = some conn) (there : next.conn = some conn)
    (unposed : next ≠ .posing conn) (calls : sent = sendAckPackets signedNan acks turns s.seq) :
    Acts s (goOn { s with decoder := decoder, seq := sent.2.1 } conn sent.2.2 next).1
      (decoded.map .decoder ++ sent.1.map (.sent conn) ++
        (goOn { s with decoder := decoder, seq := sent.2.1 } conn sent.2.2 next).2)
  | waited {conn : Nat} (nowNs : Int) (here : s.phase = .beating conn)
    (early : nowNs - s.lastHeartbeatNs < heartbeatNs) :
    Acts s { s with phase := .posing conn } [.clock conn nowNs false]
  | beaten {conn : Nat} {nowNs last : Int} {turn : SendTurn} {call : SendCall}
    (here : s.phase = .beating conn) (due : nowNs - s.lastHeartbeatNs ≥ heartbeatNs)
    (sent : call = send s.seq .heartbeat heartbeatPayload turn)
    (kept : last = if call.ok then nowNs else s.lastHeartbeatNs) :
    Acts s (goOn { s with seq := s.seq + 1, lastHeartbeatNs := last } conn call.ok
      (.posing conn)).1
      ([.clock conn nowNs true, .sent conn call] ++
        (goOn { s with seq := s.seq + 1, lastHeartbeatNs := last } conn call.ok (.posing conn)).2)
  | unposed {conn : Nat} (here : s.phase = .posing conn) (empty : s.latestPose = none) :
    Acts s { s with phase := .looping conn } []
  | posed {conn : Nat} {sample : HeadPoseSample} {turn : SendTurn} {call : SendCall}
    (here : s.phase = .posing conn) (full : s.latestPose = some sample)
    (sent : call = send s.seq .pose (posePayload signedNan sample) turn) :
    Acts s (goOn { s with latestPose := none, seq := s.seq + 1 } conn call.ok (.looping conn)).1
      ([.took sample, .sent conn call] ++
        (goOn { s with latestPose := none, seq := s.seq + 1 } conn call.ok (.looping conn)).2)

theorem receive_acts {s : State} {conn : Nat} (here : s.phase = .receiving conn)
    (polled : Polled) :
    Acts signedNan s (receive signedNan s conn polled).1 (receive signedNan s conn polled).2 := by
  have conn_ : s.phase.conn = some conn := by rw [here]; rfl
  cases polled with
  | nothing => exact .moved conn_ rfl (by simp)
  | refused => exact .left conn_
  | packet type payload turn acks =>
    simp only [receive]
    split
    · exact .acked conn_ rfl (by simp) rfl
    · exact .idle

theorem beat_acts {s : State} {conn : Nat} (here : s.phase = .beating conn) (nowNs : Int)
    (turn : SendTurn) :
    Acts signedNan s (beat s conn nowNs turn).1 (beat s conn nowNs turn).2 := by
  unfold beat
  split
  · next due =>
    have acts := @Acts.beaten signedNan s conn nowNs _ turn _ here due rfl rfl
    simp only at acts ⊢
    split
    · next ok => rwa [if_pos ok] at acts
    · next failed => rwa [if_neg failed] at acts
  · next early => exact .waited nowNs here (Int.lt_of_not_ge early)

theorem sendPose_acts {s : State} {conn : Nat} (here : s.phase = .posing conn)
    (turn : SendTurn) :
    Acts signedNan s (sendPose signedNan s conn turn).1 (sendPose signedNan s conn turn).2 := by
  unfold sendPose
  split
  · next empty => exact .unposed here empty
  · next full => exact .posed here full rfl

theorem step_acts (s : State) (move : Move) :
    Acts signedNan s (step signedNan s move).1 (step signedNan s move).2 := by
  cases move with
  | publishHeadPose sample => exact .published sample
  | stopTransport => exact .stopped
  | connectFailed =>
    simp only [step]
    split
    · next here => exact .finished here.1
    · exact .idle
  | connect nowNs hello =>
    simp only [step]
    split
    · next here =>
      split
      · exact .connected nowNs hello here
      · exact .finished here
    · exact .idle
  | loop =>
    simp only [step]
    split
    · next conn here =>
      have conn_ : s.phase.conn = some conn := by rw [here]; rfl
      unfold goOn
      split
      · exact .moved conn_ rfl (by simp)
      · exact .left conn_
    · exact .idle
  | receive polled =>
    simp only [step]
    split
    · next here => exact receive_acts signedNan here polled
    · exact .idle
  | sendAcks acks =>
    simp only [step]
    split
    · next conn here =>
      have conn_ : s.phase.conn = some conn := by rw [here]; rfl
      exact @Acts.acked signedNan s conn _ _ [] _ _ acks conn_ rfl (by simp) rfl
    · exact .idle
  | heartbeat nowNs turn =>
    simp only [step]
    split
    · next here => exact beat_acts signedNan here nowNs turn
    · exact .idle
  | sendPose turn =>
    simp only [step]
    split
    · next here => exact sendPose_acts signedNan here turn
    · exact .idle

end

/- One call of `sendPacket`. -/

@[simp] theorem send_payload (seq : UInt64) (type : PacketType) (payload : Bytes)
    (turn : SendTurn) : (send seq type payload turn).message.payload = payload := rfl

theorem send_part (seq : UInt64) (type : PacketType) (payload : Bytes) (turn : SendTurn) :
    (send seq type payload turn).written <+: (send seq type payload turn).message.bytes :=
  (QuestPacketReader.sendPacket_spec turn.results _).1

theorem send_whole (seq : UInt64) (type : PacketType) (payload : Bytes) (turn : SendTurn) :
    (send seq type payload turn).ok = true ↔
      (send seq type payload turn).written = (send seq type payload turn).message.bytes := by
  generalize messageIs : (send seq type payload turn).message = message
  have call : (send seq type payload turn).written = (sendPacket turn.results message).bytes ∧
      (send seq type payload turn).ok = (sendPacket turn.results message).ok := by
    rw [← messageIs]
    exact ⟨rfl, rfl⟩
  rw [call.1, call.2]
  constructor
  · exact (QuestPacketReader.sendPacket_spec turn.results message).2
  · intro all
    obtain ⟨headPart, headWhole⟩ :=
      writeExact_spec turn.results (QuestTeleop.packHeader message.header)
    unfold sendPacket Message.bytes at all
    unfold sendPacket
    simp only at all ⊢
    split at all
    · next ok =>
      rw [if_pos ok]
      rw [headWhole.mp ok, List.append_cancel_left_eq] at all
      exact (writeExact_spec _ message.payload).2.mpr all
    · next cut =>
      exfalso
      apply cut
      apply headWhole.mpr
      have short := headPart.length_le
      have long := congrArg List.length all
      rw [List.length_append] at long
      exact headPart.eq_of_length (by omega)

def numbers (seq : UInt64) (n : Nat) : List UInt64 :=
  (List.range n).map fun i => seq + UInt64.ofNat i

theorem numbers_succ (seq : UInt64) (n : Nat) :
    numbers seq (n + 1) = seq :: numbers (seq + 1) n := by
  unfold numbers
  rw [List.range_succ_eq_map, List.map_cons, List.map_map]
  congr 1
  · simp
  · apply List.map_congr_left
    intro i _
    simp only [Function.comp_apply, Nat.succ_eq_add_one, UInt64.ofNat_add]
    rw [UInt64.add_comm (UInt64.ofNat i), ← UInt64.add_assoc]
    rfl

theorem numbers_append (seq : UInt64) (m n : Nat) :
    numbers seq (m + n) = numbers seq m ++ numbers (seq + UInt64.ofNat m) n := by
  induction m generalizing seq with
  | zero => simp [numbers]
  | succ m ih =>
    rw [Nat.succ_add, numbers_succ, numbers_succ, ih, List.cons_append, UInt64.ofNat_add,
      UInt64.add_comm (UInt64.ofNat m), ← UInt64.add_assoc]
    rfl

def SendsAck (signedNan : Bool) (call : SendCall) : Prop :=
  ∃ seq ack turn, call = send seq .stats (ackPayload signedNan ack) turn

/-- The acks go out under consecutive numbers, and only the last call can have failed. -/
structure AckCalls (signedNan : Bool) (seq : UInt64) (sent : List SendCall × UInt64 × Bool) :
    Prop where
  acks : ∀ call ∈ sent.1, SendsAck signedNan call
  numbered : sent.1.map (·.message.seq) = numbers seq sent.1.length
  next : sent.2.1 = seq + UInt64.ofNat sent.1.length
  good : sent.2.2 = true → ∀ call ∈ sent.1, call.ok = true
  front : ∀ call ∈ sent.1.dropLast, call.ok = true

theorem sendAckPackets_calls (signedNan : Bool) (acks : List VideoDecodeAck)
    (turns : List SendTurn) (seq : UInt64) :
    AckCalls signedNan seq (sendAckPackets signedNan acks turns seq) := by
  induction acks generalizing turns seq with
  | nil =>
    constructor
    · exact fun call mem => absurd mem (by simp [sendAckPackets])
    · rfl
    · simp [sendAckPackets]
    · exact fun _ call mem => absurd mem (by simp [sendAckPackets])
    · exact fun call mem => absurd mem (by simp [sendAckPackets])
  | cons ack acks ih =>
    have first : SendsAck signedNan (send seq .stats (ackPayload signedNan ack) (turns.headD {})) :=
      ⟨seq, ack, _, rfl⟩
    simp only [sendAckPackets]
    split
    · next ok =>
      have more := ih turns.tail (seq + 1)
      constructor
      · intro call mem
        rcases List.mem_cons.mp mem with rfl | later
        · exact first
        · exact more.acks call later
      · rw [List.map_cons, List.length_cons, numbers_succ, more.numbered]
        rfl
      · simp only [more.next, List.length_cons, UInt64.ofNat_add]
        rw [UInt64.add_comm (UInt64.ofNat _) (UInt64.ofNat 1), ← UInt64.add_assoc]
        rfl
      · intro good call mem
        rcases List.mem_cons.mp mem with rfl | later
        · exact ok
        · exact more.good good call later
      · intro call mem
        cases calls : (sendAckPackets signedNan acks turns.tail (seq + 1)).1 with
        | nil =>
          rw [calls] at mem
          exact absurd mem (by simp)
        | cons next calls' =>
          rw [calls, List.dropLast_cons_cons] at mem
          rcases List.mem_cons.mp mem with rfl | later
          · exact ok
          · exact more.front call (by rw [calls]; exact later)
    · next failed =>
      constructor
      · intro call mem
        rw [List.mem_singleton.mp mem]
        exact first
      · simp [numbers, send]
      · simp
      · exact fun good => absurd good (by simp)
      · exact fun call mem => absurd mem (by simp)

end QuestTransport
