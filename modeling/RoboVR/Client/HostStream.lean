import RoboVR.Client.HostReader
import RoboVR.Server.WholePackets
import RoboVR.Wire.VideoPayload

/- From the host to the headset: which packets the transport thread takes off a connection that the
   host's threads write to, and which pairs of eyes its H.264 decoder gets. -/
namespace QuestHostStream
open ByteStream FrameReader TracedRun
open QuestTeleop (Bytes PacketHeader PacketType kPacketHeaderSize isKnownPacketType unpackHeader)
open QuestSendLimits (acceptsHeader acceptsHeader_iff unpackHeader_packed)
open QuestVideoPayload (makeH264StereoPayload routePayload)
open QuestSendThreads QuestWholePackets
open QuestHostReader (Reader ReadOut acceptBytes parsed packetsIn taken)

/- What the host's threads put on a connection. -/

def typeOf (packet : HostPacket) : UInt16 := UInt16.ofNat packet.packetType.toNat

/-- A packet that the header test lets through. -/
def isAccepted (packet : HostPacket) : Bool :=
  decide (packet.payload.length ≤ 1024 * 1024) && isKnownPacketType (typeOf packet)

def typed (packet : HostPacket) : UInt16 × Bytes := (typeOf packet, packet.payload)

theorem header_fields (packet : HostPacket) :
    packet.header.length = kPacketHeaderSize ∧
      (unpackHeader packet.header).magic = QuestTeleop.kProtocolMagic ∧
      (unpackHeader packet.header).version = QuestTeleop.kProtocolVersion ∧
      (unpackHeader packet.header).type = typeOf packet ∧
      (unpackHeader packet.header).payloadSize.toNat = packet.payload.length := by
  obtain ⟨length, values⟩ := unpackHeader_packed packet.packed []
  rw [List.append_nil] at values
  generalize unpackHeader packet.header = header at values ⊢
  simp only [QuestTeleop.PacketHeader.values, QuestProtocol.makePacketHeader, List.cons.injEq]
    at values
  obtain ⟨magic, version, type, _, _, size, _⟩ := values
  refine ⟨length, ?_, ?_, ?_, by omega⟩
  · apply UInt32.toNat_inj.mp
    exact Int.natCast_inj.mp magic
  · apply UInt16.toNat_inj.mp
    exact Int.natCast_inj.mp version
  · rw [typeOf, ← type, Int.toNat_natCast, UInt16.ofNat_toNat]

def frameOf (packet : HostPacket) : PacketHeader × Bytes :=
  (unpackHeader packet.header, packet.payload)

theorem hostPacket_coded (packet : HostPacket) :
    Coded kPacketHeaderSize acceptBytes packet.header (isAccepted packet) (frameOf packet) := by
  obtain ⟨length, magic, version, type, size⟩ := header_fields packet
  have accepted : acceptsHeader (unpackHeader packet.header) = isAccepted packet := by
    rw [Bool.eq_iff_iff, acceptsHeader_iff, type, size]
    simp only [magic, version, isAccepted, Bool.and_eq_true, decide_eq_true_eq, true_and]
    exact And.comm
  refine ⟨length, ?_⟩
  rw [acceptBytes, accepted, size]
  rfl

/-- A stream of packets, with at most a part of one behind them, is read up to the first packet
    that is refused. -/
theorem wire_packets (packets : List HostPacket) {part : Bytes}
    (short : part = [] ∨ ∃ packet, Short packet part) :
    packetsIn (wire HostPacket.bytes packets ++ part) =
      (packets.takeWhile isAccepted).map typed := by
  have last : parsed part = [] := by
    rcases short with rfl | ⟨packet, front, cut⟩
    · rfl
    · exact parse_cut (by decide) (hostPacket_coded packet) front cut
  have coded : ∀ packet ∈ packets, Coded kPacketHeaderSize acceptBytes packet.header
      (isAccepted packet) (frameOf packet) := fun packet _ => hostPacket_coded packet
  have all := parse_packets (by decide) coded last
  rw [packetsIn, parsed]
  refine (congrArg (List.map QuestHostReader.typed) all).trans ?_
  rw [List.map_map]
  apply List.map_congr_left
  intro packet _
  exact Prod.ext (header_fields packet).2.2.2.1 rfl

/-- The packet whose header is out and whose payload is not yet. -/
def started (lock : Option Sender) (conn : Nat) : List HostPacket :=
  match lock with
  | some sender =>
    match sender.phase with
    | .payload other packet => if other = conn then [packet] else []
    | _ => []
  | none => []

theorem started_writes {lock : Option Sender} {conn : Nat} {packet : HostPacket}
    (mem : packet ∈ started lock conn) :
    ∃ sender, lock = some sender ∧ sender.phase = .payload conn packet := by
  unfold started at mem
  split at mem
  · next sender =>
    split at mem
    · next phase =>
      split at mem
      · next same =>
        refine ⟨sender, rfl, ?_⟩
        rw [phase, same, List.mem_singleton.mp mem]
      · exact absurd mem (by simp)
    · exact absurd mem (by simp)
  · exact absurd mem (by simp)

theorem wire_started {s : State} {past : List Event} (inv : Inv s past) (conn : Nat) :
    ∃ more part, s.wire conn ++ more =
        wire HostPacket.bytes (wholes conn past ++ started s.lock conn) ++ part ∧
      (part = [] ∨ ∃ packet, Short packet part) := by
  obtain ⟨rest, split, behind⟩ := behind_wholes inv conn
  rw [split]
  cases behind with
  | nothing =>
    refine ⟨wire HostPacket.bytes (started s.lock conn), [], ?_, .inl rfl⟩
    rw [List.append_nil, List.append_nil, wire_append]
    rfl
  | @cut packet _ event short _ =>
    have noneStarted : started s.lock conn = [] := by
      apply List.eq_nil_iff_forall_not_mem.mpr
      intro other mem
      obtain ⟨sender, held, phase⟩ := started_writes mem
      have cutThere : cuts conn past ≠ [] := List.ne_nil_of_mem (mem_cuts.mpr event)
      apply inv.1.cut_unwritten conn cutThere
      rw [held, Option.bind_some, phase]
      rfl
    refine ⟨[], rest, ?_, .inr ⟨packet, short⟩⟩
    rw [noneStarted, List.append_nil, List.append_nil]
    rfl
  | @half sender packet held phase _ =>
    have one : started s.lock conn = [packet] := by
      rw [held, started]
      simp only [phase, if_true]
    refine ⟨packet.payload, [], ?_, .inl rfl⟩
    rw [one, wire_append, wire_cons, wire_nil, List.append_nil, List.append_nil, List.append_assoc]
    rfl

theorem stream_packets {s : State} {past : List Event} (inv : Inv s past) (conn : Nat) :
    ((wholes conn past).takeWhile isAccepted).map typed <+: packetsIn (s.wire conn) ∧
      packetsIn (s.wire conn) <+:
        ((wholes conn past ++ started s.lock conn).takeWhile isAccepted).map typed := by
  constructor
  · obtain ⟨after, split, _⟩ := behind_wholes inv conn
    have whole := wire_packets (wholes conn past) (.inl rfl)
    rw [List.append_nil] at whole
    rw [← whole, split]
    exact QuestHostReader.packetsIn_front (List.prefix_append _ after)
  · obtain ⟨more, part, longer, short⟩ := wire_started inv conn
    rw [← wire_packets _ short, ← longer]
    exact QuestHostReader.packetsIn_front (List.prefix_append _ more)

/- Stereo frames. -/

/-- A payload that the host has made of two H.264 units. -/
structure StereoFrame where
  frameIndex : Int
  width : Int
  height : Int
  monotonicNs : Int
  left : Bytes
  right : Bytes
  payload : Bytes
  built : makeH264StereoPayload frameIndex width height left right monotonicNs = some payload
  wide : width ≠ 0
  high : height ≠ 0

def StereoFrame.fits (frame : StereoFrame) : Bool := decide (frame.payload.length ≤ 1024 * 1024)

structure DecoderInput where
  frameIndex : UInt64
  left : Bytes
  right : Bytes
  deriving DecidableEq

def StereoFrame.input (frame : StereoFrame) : DecoderInput :=
  { frameIndex := UInt64.ofNat frame.frameIndex.toNat, left := frame.left, right := frame.right }

/-- The call of `H264AnnexBDecoder::decode` that a packet leads to. -/
def decoderInput (packet : UInt16 × Bytes) : Option DecoderInput :=
  if packet.1 = PacketType.video.code then
    match routePayload packet.2 with
    | .h264 header left right =>
      some { frameIndex := header.frameIndex, left := left.read packet.2,
             right := right.read packet.2 }
    | _ => none
  else none

theorem decoderInput_frame (frame : StereoFrame) :
    decoderInput (PacketType.video.code, frame.payload) = some frame.input := by
  have fits : ByteRecord.Fits QuestProtocol.VIDEO_FRAME_HEADER
      [QuestProtocol.CODEC_H264_ANNEXB, QuestProtocol.VIDEO_FRAME_KEYFRAME, 0, frame.frameIndex,
        frame.monotonicNs, frame.width, frame.height, frame.left.length, frame.right.length] := by
    by_contra bad
    have none_ := frame.built
    simp [makeH264StereoPayload, QuestVideoPayload.stereoPayload,
      QuestProtocol.packVideoFrameHeader, QuestProtocol.structPack, bad] at none_
  obtain ⟨header, payload, values, built, encoded⟩ :=
    QuestVideoPayload.stereoPayload_encoded fits frame.wide frame.high
  obtain rfl : payload = frame.payload := Option.some.inj (built.symm.trans frame.built)
  obtain ⟨left, right⟩ := QuestVideoPayload.encoded_slices encoded
  simp only [QuestTeleop.VideoFrameHeader.values, List.cons.injEq] at values
  obtain ⟨codec, _, _, index, _⟩ := values
  have isH264 : header.codec = QuestVideoPayload.kH264AnnexB := by
    apply UInt16.toNat_inj.mp
    exact Int.natCast_inj.mp codec
  have number : UInt64.ofNat frame.frameIndex.toNat = header.frameIndex := by
    rw [← index]
    exact UInt64.ofNat_toNat
  have routed : routePayload frame.payload =
      .h264 header (QuestVideoPayload.leftSlice header) (QuestVideoPayload.rightSlice header) := by
    rw [QuestVideoPayload.route_encoded encoded, QuestVideoPayload.routeCodec, if_neg,
      if_pos isH264]
    rw [isH264]
    decide
  rw [decoderInput]
  simp only
  rw [if_pos trivial, routed]
  simp only [left, right, StereoFrame.input, number]

theorem frame_inputs {packets : List HostPacket} {frames : List StereoFrame}
    (same : packets.map (fun packet => (packet.packetType, packet.payload)) =
      frames.map fun frame => (QuestProtocol.PT_VIDEO, frame.payload)) :
    ((packets.takeWhile isAccepted).map typed).filterMap decoderInput =
      (frames.takeWhile StereoFrame.fits).map StereoFrame.input := by
  induction packets generalizing frames with
  | nil =>
    rw [List.map_nil] at same
    rw [List.map_eq_nil_iff.mp same.symm]
    rfl
  | cons packet packets ih =>
    cases frames with
    | nil => exact absurd same (by simp)
    | cons frame frames =>
      simp only [List.map_cons, List.cons.injEq, Prod.mk.injEq] at same
      obtain ⟨⟨type, payload⟩, later⟩ := same
      have is : typed packet = (PacketType.video.code, frame.payload) := by
        rw [typed, typeOf, type, payload]
        rfl
      have known : isKnownPacketType (typeOf packet) = true := by
        rw [typeOf, type]
        rfl
      have accepted : isAccepted packet = frame.fits := by
        rw [isAccepted, known, Bool.and_true, payload, StereoFrame.fits]
      by_cases fits : frame.fits = true
      · rw [List.takeWhile_cons_of_pos (accepted.trans fits), List.takeWhile_cons_of_pos fits,
          List.map_cons, List.map_cons, List.filterMap_cons_some (is ▸ decoderInput_frame frame),
          ih later]
      · have refused : ¬ isAccepted packet = true := by rwa [accepted]
        rw [List.takeWhile_cons_of_neg refused, List.takeWhile_cons_of_neg fits]
        rfl

/-- When the host sends nothing but stereo frames on a connection, the headset's decoder gets the
    first of them, each eye's bytes as they were, up to the first that is too large, and all of
    them once the headset has read the connection out. -/
theorem frames_delivered {moves : List Move} {conn : Nat} {frames : List StereoFrame}
    (sent : (wholes conn (run step {} moves).2 ++ started (run step {} moves).1.lock conn).map
      (fun packet => (packet.packetType, packet.payload)) =
        frames.map fun frame => (QuestProtocol.PT_VIDEO, frame.payload))
    {incoming : Nat → Incoming} {made : Nat}
    (arrives : (incoming made).pending <+: (run step {} moves).1.wire conn)
    (signedNan : Bool) (reads : List QuestHostReader.Move) :
    let headset := run (QuestHostReader.step signedNan) { incoming := incoming } reads
    let inputs := (taken made headset.2).filterMap decoderInput
    inputs <+: (frames.takeWhile StereoFrame.fits).map StereoFrame.input ∧
      ((incoming made).pending = (run step {} moves).1.wire conn →
        ReadOut headset.1 headset.2 made →
          ((frames.take (wholes conn (run step {} moves).2).length).takeWhile
            StereoFrame.fits).map StereoFrame.input <+: inputs) := by
  intro headset inputs
  have inv : Inv (run step {} moves).1 ([] ++ (run step {} moves).2) :=
    run_invariant inv_step inv_start moves
  rw [List.nil_append] at inv
  obtain ⟨least, most⟩ := stream_packets inv conn
  obtain ⟨front, all⟩ := QuestHostReader.run_taken signedNan incoming reads made
  constructor
  · rw [← frame_inputs sent]
    exact ((front.trans (QuestHostReader.packetsIn_front arrives)).trans most).filterMap _
  · intro everything out
    have part := congrArg (List.take (wholes conn (run step {} moves).2).length) sent
    rw [← List.map_take, ← List.map_take, List.take_left] at part
    rw [← frame_inputs part]
    have whole := all out
    rw [everything] at whole
    simp only [inputs, headset, whole]
    exact least.filterMap _

/-- A frame that arrives in two pieces. -/
theorem split_frame_delivered :
    let payload := (makeH264StereoPayload 5 2 2 [1] [2, 3] 9).getD []
    let moves : List Move := [.run .accept, .run .setConnected,
      .sendPayload 0 QuestProtocol.PT_VIDEO payload 0, .advance 0 0, .advance 0 0, .advance 0 32,
      .advance 0 43]
    let wire := (run step {} moves).1.wire 0
    let codec : QuestH264Decoder.CodecTurn :=
      { create := .started
        input := { dequeued := .buffer 0, inputSize := some 4096, queued := true }
        outputs := { results := [], held := by decide } }
    let turn : QuestH264Decoder.Turn :=
      { left := codec, right := codec, surfaces := some ⟨1, 2, 1⟩, receiveTimeNs := 0,
        publishTimeNs := 0 }
    let reads : List QuestHostReader.Move := [.thread (.connect 0 {}), .thread .loop,
      .receive true turn []]
    ∃ incoming : Incoming, incoming.segments = [wire.take 50, wire.drop 50] ∧
      (taken 0
        (run (QuestHostReader.step false) { incoming := fun _ => incoming } reads).2).filterMap
        decoderInput = [{ frameIndex := 5, left := [1], right := [2, 3] }] := by
  intro payload moves wire codec turn reads
  let frame : StereoFrame :=
    { frameIndex := 5, width := 2, height := 2, monotonicNs := 9, left := [1], right := [2, 3],
      payload := payload, built := by decide +kernel, wide := by decide, high := by decide }
  let incoming : Incoming :=
    { segments := [wire.take 50, wire.drop 50], arrived := by decide +kernel, broken := false }
  have sent : (wholes 0 (run step {} moves).2 ++ started (run step {} moves).1.lock 0).map
      (fun packet => (packet.packetType, packet.payload)) =
        [frame].map fun frame => (QuestProtocol.PT_VIDEO, frame.payload) := by decide +kernel
  have one : (([frame].take (wholes 0 (run step {} moves).2).length).takeWhile
      StereoFrame.fits).map StereoFrame.input = [frame.input] := by decide +kernel
  have all : ([frame].takeWhile StereoFrame.fits).map StereoFrame.input = [frame.input] := by
    decide +kernel
  have pending : incoming.pending = wire := by simp [incoming, Incoming.pending]
  have arrives : incoming.pending <+: wire := by rw [pending]
  have out : ReadOut (run (QuestHostReader.step false) { incoming := fun _ => incoming } reads).1
      (run (QuestHostReader.step false) { incoming := fun _ => incoming } reads).2 0 := by
    right
    unfold QuestHostReader.Open
    decide +kernel
  obtain ⟨front, back⟩ :=
    @frames_delivered moves 0 [frame] sent (fun _ => incoming) 0 arrives false reads
  have whole := back pending out
  rw [one] at whole
  rw [all] at front
  exact ⟨incoming, rfl, (whole.eq_of_length_le front.length_le).symm⟩

end QuestHostStream
