import RoboVR.Bridge.Writing
import RoboVR.Client.HostReader

/- From the bridge to the headset: which packets the transport thread takes off a connection that
   calls of `TcpServer::send` have written. -/
namespace HostDelivery
open ByteStream FrameReader Framing TracedRun HostTcpServer HostDescriptors HostWriting
open QuestTeleop (Bytes PacketHeader kPacketHeaderSize unpackHeader packHeader)
open QuestPacketReader (Message)
open QuestHostReader (ReadOut acceptBytes parsed packetsIn taken)
open QuestSendLimits (acceptsHeader_iff)

/- What the calls of `send` leave on a connection. -/

/-- The call in progress, if it has found this connection. -/
def current (s : State) (conn : Nat) : List Call :=
  match s.sending with
  | some sending =>
    if socketOf s = some (.client conn) then
      [{ message := sending.message, written := sending.written, ok := false }]
    else []
  | none => []

def puts (s : State) (conn : Nat) (past : List Event) : List Call :=
  calls conn past ++ current s conn

theorem underway_current (s : State) (conn : Nat) :
    underway s conn = stream ((current s conn).map attempt) := by
  unfold underway current
  cases s.sending with
  | none => rfl
  | some sending =>
    simp only
    split <;> simp [stream, attempt]

theorem written_puts {s : State} {past : List Event} (writing : Writing s past) (conn : Nat) :
    written conn past = stream ((puts s conn past).map attempt) := by
  rw [writing.bytes conn, underway_current, puts, List.map_append, stream_append, attempts]

def isWholeCall (call : Call) : Bool := decide (call.written = call.message.bytes)

def isSmall (call : Call) : Bool := decide (call.message.payload.length ≤ 1024 * 1024)

def received (call : Call) : UInt16 × Bytes := (call.message.type.code, call.message.payload)

def frameOf (call : Call) : PacketHeader × Bytes := (call.message.header, call.message.payload)

theorem call_coded {call : Call} (sized : call.message.payload.length < 2 ^ 32) :
    Coded kPacketHeaderSize acceptBytes (packHeader call.message.header) (isSmall call)
      (frameOf call) := by
  have size : call.message.header.payloadSize.toNat = call.message.payload.length := by
    simp only [Message.header, QuestTeleop.makePacketHeader, UInt32.toNat_ofNat']
    exact Nat.mod_eq_of_lt sized
  have known : QuestTeleop.isKnownPacketType call.message.header.type = true :=
    QuestTeleop.isKnownPacketType_code call.message.type
  have whole := QuestTeleop.unpackHeader_packHeader call.message.header []
  rw [List.append_nil] at whole
  have accepted : QuestSendLimits.acceptsHeader call.message.header = isSmall call := by
    rw [Bool.eq_iff_iff, acceptsHeader_iff, size, known]
    simp [isSmall, Message.header, QuestTeleop.makePacketHeader]
  refine ⟨QuestTeleop.packHeader_length _, ?_⟩
  rw [acceptBytes, whole, accepted, size]
  rfl

theorem wholeStream_calls (sent : List Call) :
    wholeStream (sent.map attempt) =
      wire (fun call => packHeader call.message.header ++ (frameOf call).2)
        (sent.filter isWholeCall) := by
  rw [wholeStream, List.filter_map, List.flatMap_map, wire, List.flatMap_def]
  rfl

theorem wholes_packets {sent : List Call}
    (sized : ∀ call ∈ sent, call.message.payload.length < 2 ^ 32) {part : Bytes}
    (last : parsed part = []) :
    packetsIn (wholeStream (sent.map attempt) ++ part) =
      ((sent.filter isWholeCall).takeWhile isSmall).map received := by
  have coded : ∀ call ∈ sent.filter isWholeCall, Coded kPacketHeaderSize acceptBytes
      (packHeader call.message.header) (isSmall call) (frameOf call) :=
    fun call mem => call_coded (sized call (List.mem_of_mem_filter mem))
  rw [packetsIn, parsed, wholeStream_calls, parse_packets (by decide) coded last, List.map_map]
  rfl

/-- The headset takes off a connection of the bridge that can be read packet by packet the first of
    the packets that are whole on it, up to one that is over its limit, and all of these once
    everything has arrived and the connection is read out. -/
theorem sends_delivered {moves : List Move} {conn : Nat}
    (sized : ∀ call ∈ puts (run step {} moves).1 conn (run step {} moves).2,
      call.message.payload.length < 2 ^ 32)
    (framed : Framed ((puts (run step {} moves).1 conn (run step {} moves).2).map attempt))
    {incoming : Nat → Incoming} {made : Nat}
    (arrives : (incoming made).pending <+: written conn (run step {} moves).2)
    (signedNan : Bool) (reads : List QuestHostReader.Move) :
    let sent := puts (run step {} moves).1 conn (run step {} moves).2
    let headset := run (QuestHostReader.step signedNan) { incoming := incoming } reads
    taken made headset.2 <+: ((sent.filter isWholeCall).takeWhile isSmall).map received ∧
      ((incoming made).pending = written conn (run step {} moves).2 →
        ReadOut headset.1 headset.2 made →
          taken made headset.2 =
            ((sent.filter isWholeCall).takeWhile isSmall).map received) := by
  intro sent headset
  obtain ⟨part, split, short⟩ := framed_stream framed
  have last : parsed part = [] := by
    rcases short with rfl | ⟨a, mem, front, cut⟩
    · rfl
    · obtain ⟨call, there, rfl⟩ := List.mem_map.mp mem
      exact parse_cut (by decide) (call_coded (sized call there)) front cut
  have all : packetsIn (written conn (run step {} moves).2) =
      ((sent.filter isWholeCall).takeWhile isSmall).map received := by
    rw [written_puts (run_writing moves) conn, split]
    exact wholes_packets sized last
  obtain ⟨front, whole⟩ := QuestHostReader.run_taken signedNan incoming reads made
  constructor
  · rw [← all]
    exact front.trans (QuestHostReader.packetsIn_front arrives)
  · intro everything out
    rw [← all, ← everything]
    exact whole out

/-- A packet in two pieces, behind one that the socket refuses. -/
theorem video_delivered :
    let incoming : Incoming := { segments := [], arrived := by simp, broken := false }
    let moves : List Move := [.start (.listens 3), .worker none, .worker (some (4, incoming)),
      .worker none, .send .stats [9] 5, .write [.failed], .send .video [1, 2, 3] 6,
      .write [.sent 30, .interrupted, .sent 2], .write [.sent 3]]
    let wire := written 0 (run step {} moves).2
    let codec : QuestH264Decoder.CodecTurn :=
      { create := .started
        input := { dequeued := .buffer 0, inputSize := some 4096, queued := true }
        outputs := { results := [], held := by decide } }
    let turn : QuestH264Decoder.Turn :=
      { left := codec, right := codec, surfaces := none, receiveTimeNs := 0, publishTimeNs := 0 }
    let reads : List QuestHostReader.Move := [.thread (.connect 0 {}), .thread .loop,
      .receive true turn []]
    ∃ arriving : Incoming, arriving.segments = [wire.take 10, wire.drop 10] ∧
      taken 0 (run (QuestHostReader.step false) { incoming := fun _ => arriving } reads).2 =
        [(QuestTeleop.PacketType.video.code, [1, 2, 3])] := by
  intro incoming moves wire codec turn reads
  let arriving : Incoming :=
    { segments := [wire.take 10, wire.drop 10], arrived := by decide +kernel, broken := false }
  have sized : ∀ call ∈ puts (run step {} moves).1 0 (run step {} moves).2,
      call.message.payload.length < 2 ^ 32 := by decide +kernel
  have framed : Framed ((puts (run step {} moves).1 0 (run step {} moves).2).map attempt) := by
    apply (framed_iff (by decide +kernel)).mpr
    unfold NothingAfterCut
    decide +kernel
  have pending : arriving.pending = wire := by simp [arriving, Incoming.pending]
  have arrives : arriving.pending <+: wire := by rw [pending]
  have one : (((puts (run step {} moves).1 0 (run step {} moves).2).filter
      isWholeCall).takeWhile isSmall).map received =
        [(QuestTeleop.PacketType.video.code, [1, 2, 3])] := by decide +kernel
  have out : ReadOut (run (QuestHostReader.step false) { incoming := fun _ => arriving } reads).1
      (run (QuestHostReader.step false) { incoming := fun _ => arriving } reads).2 0 := by
    right
    unfold QuestHostReader.Open
    decide +kernel
  refine ⟨arriving, rfl, ?_⟩
  rw [← one]
  exact (@sends_delivered moves 0 sized framed (fun _ => arriving) 0 arrives false reads).2 pending
    out

end HostDelivery
