import RoboVR.Client.HeadPoses
import RoboVR.Server.StateHistory

/- From the headset to the host: what the server has read of a connection, in whatever pieces, is
   the beginning of the whole packets that the client has sent, and its input state shows the last
   of them of each kind. -/
namespace QuestDelivery
open ByteStream Framing TracedRun Mailbox
open QuestTeleop (Bytes PacketType)
open QuestPacketReader (Message WirePacket BadHeader)
open QuestPosePayload (HeadPoseSample)
open QuestServer (Quest3Server)
open QuestStateHistory QuestTransport QuestOutgoing QuestHeadPoses

/-- What a packet of the headset is about. -/
inductive Parcel where
  | hello
  | heartbeat
  | pose (sample : HeadPoseSample)
  | ack

section
variable (signedNan : Bool)

def Parcel.set (parts : Parts) (time : Int) : Parcel → Parts
  | .hello => parts
  | .heartbeat => { parts with heartbeat := some time }
  | .pose sample => { parts with pose := sampleView signedNan sample time }
  | .ack => { parts with videoAck := some time }

def partsAfter : Parts → List (Int × Parcel) → Parts
  | parts, [] => parts
  | parts, (time, parcel) :: parcels =>
    partsAfter (parcel.set signedNan parts time) parcels

inductive Encodes (published : List HeadPoseSample) : SendCall → Int × Parcel → Prop
  | hello {call : SendCall} (isHello : IsHello call) :
    Encodes published call (call.message.timestampNs.toInt, .hello)
  | heartbeat (seq : UInt64) (turn : SendTurn) :
    Encodes published (send seq .heartbeat heartbeatPayload turn)
      (turn.timestampNs.toInt, .heartbeat)
  | pose {call : SendCall} {sample : HeadPoseSample} (type : call.message.type = .pose)
    (payload : call.message.payload = posePayload signedNan sample) (known : sample ∈ published) :
    Encodes published call (call.message.timestampNs.toInt, .pose sample)
  | ack {call : SendCall} (sends : SendsAck signedNan call) :
    Encodes published call (call.message.timestampNs.toInt, .ack)

theorem parse_posePayload (sample : HeadPoseSample) :
    QuestKeyValue.parseKeyValuePayload (posePayload signedNan sample) =
      QuestPosePayload.poseEntries signedNan sample := by
  rw [posePayload, QuestPosePayload.formatPosePayload_whole]
  exact QuestPosePayload.parse_pose signedNan sample

theorem handle_call {published : List HeadPoseSample} {call : SendCall} {time : Int}
    {parcel : Parcel} (server : Quest3Server)
    (encodes : Encodes signedNan published call (time, parcel)) :
    ∃ next, QuestServer.handlePacket server call.message.packet = .ok next ∧
      Shows next.latest time (parcel.set signedNan (partsOf server.latest) time) := by
  cases encodes with
  | hello isHello =>
    obtain ⟨seq, turn, rfl⟩ := isHello
    exact handle_hello server _ _
  | heartbeat seq turn => exact handle_heartbeat server _ _
  | pose type payload known =>
    have packet : call.message.packet =
        { packetType := QuestProtocol.PT_POSE, timestampNs := call.message.timestampNs.toInt,
          payload := call.message.payload } := by
      rw [Message.packet, type]
      rfl
    rw [packet]
    apply handle_pose server _ signedNan
    rw [payload]
    exact parse_posePayload signedNan _
  | ack sends =>
    obtain ⟨seq, ack, turn, rfl⟩ := sends
    exact handle_ack server _ (QuestAckPayload.parse_ack _ _ _ _) rfl

theorem handle_calls {published : List HeadPoseSample} {sent : List SendCall}
    {parcels : List (Int × Parcel)} (server : Quest3Server)
    (encode : List.Forall₂ (Encodes signedNan published) sent parcels) :
    ∃ next, handleAll server (sent.map fun call => call.message.packet) = .ok next ∧
      (parcels = [] → next = server) ∧
      ∀ last ∈ parcels.getLast?,
        Shows next.latest last.1 (partsAfter signedNan (partsOf server.latest) parcels) := by
  induction encode generalizing server with
  | nil => exact ⟨server, rfl, fun _ => rfl, fun _ mem => absurd mem (by simp)⟩
  | @cons call parcel sent parcels first _ ih =>
    obtain ⟨time, parcel⟩ := parcel
    obtain ⟨middle, handled, shows_⟩ := handle_call signedNan server first
    obtain ⟨next, all, unchanged, later⟩ := ih middle
    refine ⟨next, ?_, fun empty => absurd empty (by simp), ?_⟩
    · rw [List.map_cons, handleAll, handled]
      exact all
    · intro last mem
      cases parcels with
      | nil =>
        rw [unchanged rfl]
        obtain rfl := Option.some.inj mem
        exact shows_
      | cons parcel' parcels =>
        rw [List.getLast?_cons_cons] at mem
        rw [partsAfter, ← shows_.parts]
        exact later last mem

/- The calls of a connection. -/

theorem posePayload_length (sample : HeadPoseSample) :
    (posePayload signedNan sample).length < 4096 := by
  rw [posePayload, QuestPosePayload.formatPosePayload_whole, Option.getD_some, Utf8.ascii,
    List.length_map]
  exact QuestPosePayload.poseText_fits signedNan sample

theorem ackPayload_length (ack : QuestH264Decoder.VideoDecodeAck) :
    (ackPayload signedNan ack).length ≤ 255 := by
  rw [ackPayload, QuestAckPayload.ackPayload, Utf8.ascii, List.length_map, QuestAckPayload.ackText]
  exact (List.takeWhile_prefix _).length_le.trans (List.length_take_le _ _)

theorem later_small {call : SendCall} (later : Later signedNan call) :
    call.message.payload.length ≤ 1024 * 1024 := by
  cases later with
  | heartbeat seq turn =>
    have size : heartbeatPayload.length = 13 := rfl
    exact (le_of_eq size).trans (by norm_num)
  | pose seq sample turn =>
    have short := posePayload_length signedNan sample
    rw [send_payload]
    omega
  | ack sends =>
    obtain ⟨seq, ack, turn, rfl⟩ := sends
    exact (ackPayload_length signedNan ack).trans (by norm_num)

theorem calls_subset {conn : Nat} {past : List Event} {call : SendCall}
    (mem : call ∈ calls conn past) : call ∈ sentCalls past := by
  obtain ⟨event, there, on⟩ := List.mem_filterMap.mp mem
  refine List.mem_filterMap.mpr ⟨event, there, ?_⟩
  cases event with
  | sent other own =>
    simp only [callOn] at on
    split at on
    · exact on
    · exact absurd on (by simp)
  | _ => exact absurd on (by simp [callOn])

structure Known (published : List HeadPoseSample) (call : SendCall) : Prop where
  part : call.written <+: call.message.bytes
  whole : call.ok = true ↔ call.written = call.message.bytes
  small : call.message.payload.length ≤ 1024 * 1024
  encodes : ∃ parcel, Encodes signedNan published call parcel

theorem run_known (moves : List Move) (conn : Nat) :
    ∀ call ∈ calls conn (run (step signedNan) {} moves).2,
      Known signedNan (puts (mails (run (step signedNan) {} moves).2)) call := by
  generalize ran : run (step signedNan) {} moves = result
  intro call mem
  have sending := run_outgoing signedNan moves
  have box := run_poseBox signedNan moves
  rw [ran] at sending box
  rcases Nat.lt_or_ge conn result.1.connections with made | unmade
  · obtain ⟨hello, rest, made⟩ := sending.made conn made
    have inside := mem
    rw [made.split] at inside
    rcases List.mem_cons.mp inside with rfl | behind
    · have isHello := made.first
      obtain ⟨seq, turn, rfl⟩ := made.first
      have size : helloPayload.length = 23 := rfl
      exact ⟨send_part _ _ _ _, send_whole _ _ _ _, (le_of_eq size).trans (by norm_num), _,
        .hello isHello⟩
    · have later := made.later call behind
      obtain ⟨part, whole⟩ := later_part later
      refine ⟨part, whole, later_small signedNan later, ?_⟩
      cases later with
      | heartbeat seq turn => exact ⟨_, .heartbeat seq turn⟩
      | pose seq sample turn =>
        have pose : send seq .pose (posePayload signedNan sample) turn ∈ poseCalls result.2 :=
          List.mem_filter.mpr ⟨calls_subset mem, rfl⟩
        have payload := List.mem_map_of_mem (f := fun call => call.message.payload) pose
        rw [box.sent] at payload
        obtain ⟨taken, there, same⟩ := List.mem_map.mp payload
        exact ⟨_, .pose rfl same.symm ((takes_sublist box.delivers).subset there)⟩
      | ack sends => exact ⟨_, .ack sends⟩
  · rw [sending.unmade conn unmade] at mem
    exact absurd mem (by simp)

theorem encodes_all {published : List HeadPoseSample} {sent : List SendCall}
    (known : ∀ call ∈ sent, Known signedNan published call) :
    ∃ parcels, List.Forall₂ (Encodes signedNan published) sent parcels := by
  induction sent with
  | nil => exact ⟨[], .nil⟩
  | cons call sent ih =>
    obtain ⟨parcel, first⟩ := (known call List.mem_cons_self).encodes
    obtain ⟨parcels, later⟩ := ih fun other mem => known other (List.mem_cons_of_mem call mem)
    exact ⟨parcel :: parcels, .cons first later⟩

theorem wholeStream_calls {published : List HeadPoseSample} {sent : List SendCall}
    (known : ∀ call ∈ sent, Known signedNan published call) :
    wholeStream (sent.map attempt) =
      wire Message.bytes ((sent.filter fun call => call.ok).map (·.message)) := by
  induction sent with
  | nil => rfl
  | cons call sent ih =>
    have later := ih fun other mem => known other (List.mem_cons_of_mem call mem)
    have whole := (known call List.mem_cons_self).whole
    rw [wholeStream] at later
    rw [wholeStream, List.map_cons]
    by_cases ok : call.ok = true
    · have isWhole_ : isWhole (attempt call) = true := decide_eq_true (whole.mp ok)
      have keeps : (call :: sent).filter (fun call => call.ok) =
          call :: sent.filter fun call => call.ok := List.filter_cons_of_pos ok
      rw [List.filter_cons_of_pos isWhole_, List.flatMap_cons, later, keeps]
      rfl
    · have cut : ¬ isWhole (attempt call) = true := fun all => ok (whole.mpr (of_decide_eq_true all))
      have drops : (call :: sent).filter (fun call => call.ok) =
          sent.filter fun call => call.ok := List.filter_cons_of_neg ok
      rw [List.filter_cons_of_neg cut, later, drops]

end

/-- A reader of framed calls gets the good ones, and nothing of the one that was cut. -/
theorem read_framed {signedNan : Bool} {published : List HeadPoseSample} {sent : List SendCall}
    {incoming : Incoming} (known : ∀ call ∈ sent, Known signedNan published call)
    (framed : Framed (sent.map attempt)) (arrives : incoming.pending <+: stream (sent.map attempt)) :
    ∃ seen, seen <+: (sent.filter fun call => call.ok) ∧
      (incoming.pending = stream (sent.map attempt) → seen = sent.filter fun call => call.ok) ∧
      (QuestPacketReader.readConnection incoming).handled =
        seen.map (fun call => call.message.packet) ∧
      (QuestPacketReader.readConnection incoming).badPackets = 0 := by
  obtain ⟨part, split, short⟩ := framed_stream framed
  rw [wholeStream_calls signedNan known] at split
  generalize good : (sent.filter fun call => call.ok) = goodCalls at split
  have small : ∀ m ∈ goodCalls.map (·.message), m.payload.length ≤ 1024 * 1024 := by
    intro m mem
    obtain ⟨call, there, rfl⟩ := List.mem_map.mp mem
    rw [← good] at there
    exact (known call (List.mem_of_mem_filter there)).small
  obtain ⟨packets, rest, bytes, last, log⟩ :=
    QuestPacketReader.readConnectionFrom_framed (Nat.lt_succ_self incoming.pending.length)
  obtain ⟨goods, goodBytes, goodPackets⟩ := QuestPacketReader.messages_wire small
  have inside : packets <+: goods ∧ ¬ BadHeader rest := by
    obtain ⟨more, cut⟩ := arrives
    rw [bytes, split, goodBytes] at cut
    rcases short with empty | ⟨a, mem, ⟨tail, whole⟩, cutShort⟩
    · rw [empty, List.append_nil] at cut
      exact QuestPacketReader.frames_of_cut cut
    · -- with the missing end of the cut packet the stream is whole packets again
      obtain ⟨call, there, rfl⟩ := List.mem_map.mp mem
      have fits := (known call there).small
      have next : wire WirePacket.bytes (goods ++ [call.message.wirePacket fits]) =
          wire WirePacket.bytes packets ++ rest ++ (more ++ tail) := by
        rw [wire_append, wire_cons, wire_nil, List.append_nil, ← List.append_assoc, cut,
          List.append_assoc, whole]
        rfl
      obtain ⟨before, clean⟩ := QuestPacketReader.frames_of_cut next.symm
      refine ⟨?_, clean⟩
      rcases List.prefix_concat_iff.mp before with all | fewer
      · exfalso
        have lengths := congrArg List.length cut
        have total := congrArg List.length whole
        rw [all, wire_append] at lengths
        simp only [List.length_append, wire_cons, wire_nil, List.length_nil] at lengths total
        have same : (call.message.wirePacket fits).bytes.length = (attempt call).packet.length := rfl
        have none_ : tail = [] := List.length_eq_zero_iff.mp (by omega)
        rw [none_, List.append_nil] at whole
        exact cutShort whole
      · exact fewer
  have handled : (QuestPacketReader.readConnection incoming).handled =
      packets.map WirePacket.packet := by
    rw [QuestPacketReader.readConnection, log]
  refine ⟨goodCalls.take packets.length, List.take_prefix _ _, ?_, ?_, ?_⟩
  · intro all
    have back : goods <+: packets := by
      apply frames_longest WirePacket.bytes QuestPacketReader.wirePacket_delimiting last
      rw [← bytes, all, split, goodBytes]
    have counts := congrArg List.length goodPackets
    rw [List.length_map, List.length_map, List.length_map] at counts
    rw [List.take_of_length_le (counts ▸ back.length_le)]
  · have same := congrArg (List.take packets.length) goodPackets
    rw [← List.map_take, ← List.map_take, ← List.map_take,
      ← List.prefix_iff_eq_take.mp inside.1] at same
    rw [handled, ← same, List.map_map]
    rfl
  · rw [QuestPacketReader.readConnection, log]
    exact if_neg inside.2

/-- Whatever has arrived of a connection that can be read packet by packet, the server has handled
    the first of the good packets, all of them if everything has arrived, and its state shows the
    last one of each kind. The poses are published ones. -/
theorem headset_seen {signedNan : Bool} {moves : List Move} {conn : Nat} {incoming : Incoming}
    (server : Quest3Server)
    (framed : Framed (attempts conn (run (step signedNan) {} moves).2))
    (arrives : incoming.pending <+: stream (attempts conn (run (step signedNan) {} moves).2)) :
    let past := (run (step signedNan) {} moves).2
    ∃ seen parcels next,
      seen <+: ((calls conn past).filter fun call => call.ok) ∧
      (incoming.pending = stream (attempts conn past) →
        seen = (calls conn past).filter fun call => call.ok) ∧
      List.Forall₂ (Encodes signedNan (puts (mails past))) seen parcels ∧
      (QuestPacketReader.readConnection incoming).handled =
        seen.map (fun call => call.message.packet) ∧
      (QuestPacketReader.readConnection incoming).badPackets = 0 ∧
      QuestServer.readConnection server incoming = .ok next ∧
      (seen = [] → next.latest = server.latest) ∧
      ∀ last ∈ parcels.getLast?,
        Shows next.latest last.1 (partsAfter signedNan (partsOf server.latest) parcels) := by
  have known := run_known signedNan moves conn
  obtain ⟨seen, front, all, handled, clean⟩ := read_framed known framed arrives
  have seenKnown : ∀ call ∈ seen,
      Known signedNan (puts (mails (run (step signedNan) {} moves).2)) call := fun call mem =>
    known call (List.mem_of_mem_filter (front.subset mem))
  obtain ⟨parcels, encode⟩ := encodes_all signedNan seenKnown
  obtain ⟨middle, next, through, read, latest⟩ :=
    QuestStateHistory.readConnection_latest server incoming
  obtain ⟨final, calls_, unchanged, shows_⟩ := handle_calls signedNan server encode
  rw [handled, calls_] at through
  obtain rfl : final = middle := Except.ok.inj through
  refine ⟨seen, parcels, next, front, all, encode, handled, clean, read, ?_, ?_⟩
  · rintro rfl
    cases encode
    rw [latest, unchanged rfl]
  · rw [latest]
    exact shows_

theorem hello_heartbeat_seen :
    let moves : List Move := [.connect 0 { results := [.sent 32, .sent 23] }, .loop,
      .receive .nothing, .sendAcks [],
      .heartbeat 5 { timestampNs := 7, results := [.sent 30, .interrupted, .sent 2, .sent 13] }]
    let wire := stream (attempts 0 (run (step false) {} moves).2)
    ∃ incoming : Incoming, incoming.segments = [wire.take 40, wire.drop 40] ∧
      ∃ next, QuestServer.readConnection {} incoming = .ok next ∧
        (QuestPacketReader.readConnection incoming).badPackets = 0 ∧
        ∃ state, next.latest = some state ∧ state.connected = true := by
  intro moves wire
  have arrived : ∀ segment ∈ [wire.take 40, wire.drop 40], segment ≠ [] := by decide +kernel
  have two : ((calls 0 (run (step false) {} moves).2).filter fun call => call.ok).length = 2 := by
    decide +kernel
  have framed : Framed (attempts 0 (run (step false) {} moves).2) := by
    apply (framed_iff (by decide +kernel)).mpr
    unfold NothingAfterCut
    decide +kernel
  refine ⟨{ segments := [wire.take 40, wire.drop 40], arrived := arrived, broken := false }, rfl, ?_⟩
  have pending : Incoming.pending
      { segments := [wire.take 40, wire.drop 40], arrived := arrived, broken := false } = wire := by
    simp [Incoming.pending]
  obtain ⟨seen, parcels, next, _, all, encode, _, clean, read, _, shows_⟩ :=
    headset_seen {} framed (pending ▸ List.prefix_refl wire)
  have counts := encode.length_eq
  rw [all pending, two] at counts
  refine ⟨next, read, clean, ?_⟩
  cases last : parcels.getLast? with
  | none =>
    rw [List.getLast?_eq_none_iff.mp last] at counts
    exact absurd counts (by decide)
  | some parcel =>
    obtain ⟨state, there, _, connected⟩ := (shows_ parcel last).there
    exact ⟨state, there, connected⟩

end QuestDelivery
