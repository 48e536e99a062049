import RoboVR.Lib.Framing
import RoboVR.Wire.SendLimits

/- What one client of the bridge gets over a whole connection: `TcpServer::send` keeps the
   client after a write that failed, so the packets stay whole only as long as the socket
   refuses everything behind a packet that it cut. -/
namespace QuestBridgeFraming
open ByteStream Framing
open QuestTeleop (Bytes PacketType kPacketHeaderSize)
open QuestSendLimits (TcpServer)

structure Send where
  type : PacketType
  payload : Bytes
  timestampNs : Int64
  results : List SendResult

def packetOf (server : TcpServer) (call : Send) : Bytes :=
  QuestTeleop.packHeader (QuestTeleop.makePacketHeader call.type server.sendSeq call.timestampNs
    call.payload.length) ++ call.payload

def sends : TcpServer → List Send → List Attempt
  | _, [] => []
  | server, call :: calls =>
    let sent := server.send call.results call.type call.payload call.timestampNs
    { packet := packetOf server call, written := sent.2.2 } :: sends sent.1 calls

def taken : List SendResult → Nat → Nat × List SendResult
  | results, 0 => (0, results)
  | [], _ + 1 => (0, [])
  | .sent n :: results, k + 1 =>
    let more := taken results (k + 1 - n)
    (min n (k + 1) + more.1, more.2)
  | .interrupted :: results, k + 1 => taken results (k + 1)
  | .failed :: results, _ + 1 => (0, results)

/-- Of the two writes of a packet the second comes only after the first is out. -/
def takenOfPacket (results : List SendResult) (payloadSize : Nat) : Nat :=
  let header := taken results kPacketHeaderSize
  if header.1 = kPacketHeaderSize then kPacketHeaderSize + (taken header.2 payloadSize).1
  else header.1

def bytesTaken (call : Send) : Nat := takenOfPacket call.results call.payload.length

/-- The socket fails with a part of the packet out. -/
def CutsPacket (call : Send) : Prop :=
  0 < bytesTaken call ∧ bytesTaken call < kPacketHeaderSize + call.payload.length

/-- Once the socket has failed inside a packet, it takes nothing any more. -/
def StaysBroken (calls : List Send) : Prop :=
  calls.Pairwise fun a b => CutsPacket a → bytesTaken b = 0

theorem writeExact_taken (results : List SendResult) (bytes : Bytes) :
    (writeExact results bytes).bytes = bytes.take (taken results bytes.length).1 ∧
      (writeExact results bytes).left = (taken results bytes.length).2 ∧
      (taken results bytes.length).1 ≤ bytes.length := by
  induction results generalizing bytes with
  | nil => cases bytes <;> simp [writeExact, taken]
  | cons result results ih =>
    cases bytes with
    | nil => simp [writeExact, taken]
    | cons b bs =>
      cases result with
      | sent n =>
        obtain ⟨out, left, bound⟩ := ih ((b :: bs).drop n)
        rw [List.length_drop, List.length_cons] at out left bound
        simp only [writeExact, taken, List.length_cons]
        refine ⟨?_, left, by omega⟩
        rw [out]
        by_cases inside : n ≤ bs.length + 1
        · rw [Nat.min_eq_left inside, List.take_add]
        · have none_left : bs.length + 1 - n = 0 := by omega
          rw [none_left] at bound ⊢
          rw [Nat.min_eq_right (by omega), Nat.le_zero.mp bound, List.take_zero, List.append_nil,
            List.take_of_length_le (by simp only [List.length_cons]; omega),
            List.take_of_length_le (by simp)]
      | interrupted =>
        have same := ih (b :: bs)
        rw [List.length_cons] at same
        simpa only [writeExact, taken, List.length_cons] using same
      | failed => simp [writeExact, taken]

theorem writeExact_ok (results : List SendResult) (bytes : Bytes) :
    (writeExact results bytes).ok = true ↔ (taken results bytes.length).1 = bytes.length := by
  obtain ⟨out, _, bound⟩ := writeExact_taken results bytes
  rw [(writeExact_spec results bytes).2, out, List.take_eq_self_iff]
  omega

theorem sendPacket_taken (results : List SendResult) (m : QuestPacketReader.Message) :
    (QuestPacketReader.sendPacket results m).bytes =
        m.bytes.take (takenOfPacket results m.payload.length) ∧
      takenOfPacket results m.payload.length ≤ kPacketHeaderSize + m.payload.length := by
  have headerLength := QuestTeleop.packHeader_length m.header
  unfold QuestPacketReader.sendPacket QuestPacketReader.Message.bytes takenOfPacket
  generalize QuestTeleop.packHeader m.header = header at headerLength ⊢
  obtain ⟨head, left, headBound⟩ := writeExact_taken results header
  have whole := writeExact_ok results header
  obtain ⟨body, _, bodyBound⟩ :=
    writeExact_taken (taken results kPacketHeaderSize).2 m.payload
  rw [headerLength] at head left headBound whole
  simp only
  by_cases all : (taken results kPacketHeaderSize).1 = kPacketHeaderSize
  · rw [if_pos (whole.mpr all), if_pos all]
    simp only [left, body, head, all]
    refine ⟨?_, by omega⟩
    rw [← headerLength, List.take_length, List.take_length_add_append]
  · rw [if_neg (fun ok => all (whole.mp ok)), if_neg all]
    refine ⟨?_, by omega⟩
    rw [head, List.take_append_of_le_length (by omega)]

theorem send_written {server : TcpServer} (client : ¬ server.clientFd < 0) (call : Send) :
    (server.send call.results call.type call.payload call.timestampNs).2.2 =
        (packetOf server call).take (bytesTaken call) ∧
      bytesTaken call ≤ (packetOf server call).length ∧
      (server.send call.results call.type call.payload call.timestampNs).1.clientFd =
        server.clientFd := by
  obtain ⟨out, bound⟩ := sendPacket_taken call.results
    { type := call.type, seq := server.sendSeq, timestampNs := call.timestampNs,
      payload := call.payload }
  simp only [TcpServer.send, if_neg client]
  refine ⟨out, ?_, trivial⟩
  rw [packetOf, List.length_append, QuestTeleop.packHeader_length]
  exact bound

theorem packetOf_length (server : TcpServer) (call : Send) :
    (packetOf server call).length = kPacketHeaderSize + call.payload.length := by
  rw [packetOf, List.length_append, QuestTeleop.packHeader_length]

theorem taken_empty {packet : Bytes} {n : Nat} (inside : n ≤ packet.length) :
    packet.take n = [] ↔ n = 0 := by
  rw [← List.length_eq_zero_iff, List.length_take, Nat.min_eq_left inside]

theorem taken_whole {packet : Bytes} {n : Nat} (inside : n ≤ packet.length) :
    packet.take n = packet ↔ n = packet.length := by
  rw [List.take_eq_self_iff]
  omega

structure Wrote (a : Attempt) (call : Send) : Prop where
  part : a.written <+: a.packet
  cut : a.Cut ↔ CutsPacket call
  nothing : a.written = [] ↔ bytesTaken call = 0

theorem send_wrote {server : TcpServer} (client : ¬ server.clientFd < 0) (call : Send) :
    Wrote { packet := packetOf server call
            written := (server.send call.results call.type call.payload call.timestampNs).2.2 }
      call := by
  obtain ⟨out, bound, _⟩ := send_written client call
  have length := packetOf_length server call
  rw [out]
  constructor
  · exact List.take_prefix _ _
  · simp only [Attempt.Cut, CutsPacket, ne_eq, taken_empty bound, taken_whole bound, length]
    omega
  · exact taken_empty bound

theorem sends_wrote {server : TcpServer} (client : ¬ server.clientFd < 0) (calls : List Send) :
    List.Forall₂ Wrote (sends server calls) calls := by
  induction calls generalizing server with
  | nil => exact List.Forall₂.nil
  | cons call calls ih =>
    have same := (send_written client call).2.2
    apply List.Forall₂.cons (send_wrote client call)
    apply ih
    rw [same]
    exact client

theorem wrote_nothing {attempts : List Attempt} {calls : List Send}
    (wrote : List.Forall₂ Wrote attempts calls) :
    (∀ b ∈ attempts, b.written = []) ↔ ∀ call ∈ calls, bytesTaken call = 0 := by
  induction wrote with
  | nil => simp
  | cons first _ ih => rw [List.forall_mem_cons, List.forall_mem_cons, first.nothing, ih]

theorem wrote_pairwise {attempts : List Attempt} {calls : List Send}
    (wrote : List.Forall₂ Wrote attempts calls) :
    NothingAfterCut attempts ↔ StaysBroken calls := by
  unfold NothingAfterCut StaysBroken
  induction wrote with
  | nil => exact ⟨fun _ => List.Pairwise.nil, fun _ => List.Pairwise.nil⟩
  | @cons a call attempts calls first rest ih =>
    have later : (∀ b ∈ attempts, a.Cut → b.written = []) ↔
        ∀ d ∈ calls, CutsPacket call → bytesTaken d = 0 := by
      by_cases cut : CutsPacket call
      · simpa [first.cut, cut] using wrote_nothing rest
      · simp [first.cut, cut]
    rw [List.pairwise_cons, List.pairwise_cons, later, ih]

theorem wrote_parts {attempts : List Attempt} {calls : List Send}
    (wrote : List.Forall₂ Wrote attempts calls) : ∀ a ∈ attempts, a.written <+: a.packet := by
  induction wrote with
  | nil => simp
  | cons first _ ih => exact List.forall_mem_cons.mpr ⟨first.part, ih⟩

/-- The client gets whole packets and at most one that is cut, at its end, exactly as long as
    the socket stays broken once it has failed inside a packet. -/
theorem client_framed_iff {server : TcpServer} (client : 0 ≤ server.clientFd)
    (calls : List Send) : Framed (sends server calls) ↔ StaysBroken calls := by
  have wrote := sends_wrote (Int.not_lt.mpr client) calls
  rw [framed_iff (wrote_parts wrote), wrote_pairwise wrote]

def cutThenTaken : List Send :=
  [{ type := .video, payload := [1, 2], timestampNs := 5, results := [.sent 10, .failed] },
    { type := .video, payload := [3], timestampNs := 6, results := [.sent 32, .sent 1] }]

instance (calls : List Send) : Decidable (StaysBroken calls) := by
  unfold StaysBroken CutsPacket
  exact inferInstance

theorem broken_client_framed :
    Framed (sends { clientFd := 5, sendSeq := 1 }
      [{ type := .video, payload := [1, 2], timestampNs := 5, results := [.sent 10, .failed] },
        { type := .video, payload := [3], timestampNs := 6, results := [.failed] }]) := by
  have broken : StaysBroken
      [{ type := .video, payload := [1, 2], timestampNs := 5, results := [.sent 10, .failed] },
        { type := .video, payload := [3], timestampNs := 6, results := [.failed] }] := by decide
  exact (client_framed_iff (by decide) _).mpr broken

/-- The second packet lands inside the first. -/
theorem packet_inside_packet :
    ¬ Framed (sends { clientFd := 5, sendSeq := 1 } cutThenTaken) := by
  have client : ¬ ({ clientFd := 5, sendSeq := 1 } : TcpServer).clientFd < 0 := by decide
  have wrote := sends_wrote client cutThenTaken
  rw [framed_iff (wrote_parts wrote), wrote_pairwise wrote]
  decide

end QuestBridgeFraming
