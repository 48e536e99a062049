import RoboVR.Lib.ByteStream
import RoboVR.Wire.HostHeader

/- Packets from the headset to the host: the client's `sendPacket` and the read loop of the
   server thread, which reads a header, checks it, and reads the payload it announces. -/
namespace QuestPacketReader
open ByteStream
open QuestTeleop (Bytes PacketType kPacketHeaderSize kProtocolMagic kProtocolVersion)
open QuestProtocol (MAGIC VERSION MAX_QUEST_PAYLOAD_BYTES PACKET_HEADER)

structure Packet where
  packetType : Int
  timestampNs : Int
  payload : Bytes
  deriving DecidableEq

structure ReadLog where
  handled : List Packet
  badPackets : Nat
  deriving DecidableEq

def recvall (conn : Incoming) (size : Nat) : Received × Incoming := conn.readExact size

/-- The read loop, while the server is not being closed. Each packet takes a header off the
    connection, so the rounds never run out before the connection does. -/
def readConnectionFrom : Nat → Incoming → ReadLog
  | 0, _ => { handled := [], badPackets := 0 }
  | rounds + 1, conn =>
    match recvall conn (ByteRecord.size PACKET_HEADER) with
    | (.data headerBytes, conn) =>
      match QuestProtocol.unpackPacketHeader headerBytes with
      | none => { handled := [], badPackets := 1 }
      | some header =>
        if header.magic ≠ MAGIC ∨ header.version ≠ VERSION ∨
            header.payloadSize > MAX_QUEST_PAYLOAD_BYTES then
          { handled := [], badPackets := 1 }
        else
          match (if header.payloadSize ≠ 0 then recvall conn header.payloadSize.toNat
            else (.data [], conn)) with
          | (.data payload, conn) =>
            let log := readConnectionFrom rounds conn
            { log with handled :=
                { packetType := header.packetType, timestampNs := header.timestampNs,
                  payload := payload } :: log.handled }
          | _ => { handled := [], badPackets := 0 }
    | _ => { handled := [], badPackets := 0 }

def readConnection (conn : Incoming) : ReadLog :=
  readConnectionFrom (conn.pending.length + 1) conn

structure Message where
  type : PacketType
  seq : UInt64
  timestampNs : Int64
  payload : Bytes

def Message.header (m : Message) : QuestTeleop.PacketHeader :=
  QuestTeleop.makePacketHeader m.type m.seq m.timestampNs m.payload.length

def sendPacket (results : List SendResult) (m : Message) : Written :=
  let header := writeExact results (QuestTeleop.packHeader m.header)
  if header.ok then
    let payload := writeExact header.left m.payload
    { payload with bytes := header.bytes ++ payload.bytes }
  else header

def sendPackets : List SendResult → List Message → Written
  | results, [] => { bytes := [], ok := true, left := results }
  | results, m :: ms =>
    let first := sendPacket results m
    if first.ok then
      let more := sendPackets first.left ms
      { more with bytes := first.bytes ++ more.bytes }
    else first

/- The packets a stream consists of. -/

def ValidHeader (header : QuestTeleop.PacketHeader) : Prop :=
  header.magic = kProtocolMagic ∧ header.version = kProtocolVersion ∧
    header.payloadSize.toNat ≤ 1024 * 1024

instance (header : QuestTeleop.PacketHeader) : Decidable (ValidHeader header) := by
  unfold ValidHeader
  exact inferInstance

/-- A complete packet with a valid header. -/
structure WirePacket where
  header : QuestTeleop.PacketHeader
  payload : Bytes
  valid : ValidHeader header
  sized : payload.length = header.payloadSize.toNat

def WirePacket.bytes (p : WirePacket) : Bytes := QuestTeleop.packHeader p.header ++ p.payload

def WirePacket.packet (p : WirePacket) : Packet :=
  { packetType := p.header.type.toNat, timestampNs := p.header.timestampNs.toInt,
    payload := p.payload }

/-- The next 32 bytes are present and are not a valid header. -/
def BadHeader (rest : Bytes) : Prop :=
  kPacketHeaderSize ≤ rest.length ∧ ¬ ValidHeader (QuestTeleop.unpackHeader rest)

instance (rest : Bytes) : Decidable (BadHeader rest) := by
  unfold BadHeader
  exact inferInstance

theorem wirePacket_delimiting : SelfDelimiting WirePacket.bytes := by
  intro p q r s same
  have head : p.header = q.header := by
    have left := QuestTeleop.unpackHeader_packHeader p.header (p.payload ++ r)
    have right := QuestTeleop.unpackHeader_packHeader q.header (q.payload ++ s)
    simp only [WirePacket.bytes, List.append_assoc] at same
    rw [← left, ← right, same]
  have payload : p.payload = q.payload := by
    simp only [WirePacket.bytes, List.append_assoc, head, List.append_cancel_left_eq] at same
    have sizes : p.payload.length = q.payload.length := by rw [p.sized, q.sized, head]
    exact (List.append_inj same sizes).1
  cases p
  cases q
  simp only at head payload
  subst head payload
  rfl

theorem rejects_iff (header : QuestTeleop.PacketHeader) :
    ((QuestProtocol.ofTeleop header).magic ≠ MAGIC ∨
      (QuestProtocol.ofTeleop header).version ≠ VERSION ∨
      (QuestProtocol.ofTeleop header).payloadSize > MAX_QUEST_PAYLOAD_BYTES) ↔
      ¬ ValidHeader header := by
  have magic : (header.magic.toNat : Int) = MAGIC ↔ header.magic = kProtocolMagic := by
    rw [← UInt32.toNat_inj]
    exact Int.natCast_inj
  have version : (header.version.toNat : Int) = VERSION ↔ header.version = kProtocolVersion := by
    rw [← UInt16.toNat_inj]
    exact Int.natCast_inj
  have bound : ((header.payloadSize.toNat : Int) > MAX_QUEST_PAYLOAD_BYTES) ↔
      ¬ header.payloadSize.toNat ≤ 1024 * 1024 := by
    simp only [MAX_QUEST_PAYLOAD_BYTES]
    omega
  simp only [QuestProtocol.ofTeleop, ValidHeader, ne_eq, magic, version, bound]
  tauto

theorem noFrame_of_header {rest : Bytes}
    (stop : kPacketHeaderSize ≤ rest.length → ValidHeader (QuestTeleop.unpackHeader rest) →
      rest.length < kPacketHeaderSize + (QuestTeleop.unpackHeader rest).payloadSize.toNat) :
    NoFrame WirePacket.bytes rest := by
  intro p tail same
  have header : QuestTeleop.unpackHeader rest = p.header := by
    rw [same, WirePacket.bytes, List.append_assoc, QuestTeleop.unpackHeader_packHeader]
  have length : rest.length = kPacketHeaderSize + p.header.payloadSize.toNat + tail.length := by
    rw [same, WirePacket.bytes, List.length_append, List.length_append,
      QuestTeleop.packHeader_length, p.sized]
  have short := stop (by omega) (by rw [header]; exact p.valid)
  rw [header] at short
  omega

theorem readConnectionFrom_header (rounds : Nat) {conn : Incoming}
    (enough : kPacketHeaderSize ≤ conn.pending.length) :
    ∃ rest : Incoming, rest.pending = conn.pending.drop kPacketHeaderSize ∧
      readConnectionFrom (rounds + 1) conn =
        if ¬ ValidHeader (QuestTeleop.unpackHeader conn.pending) then
          { handled := [], badPackets := 1 }
        else
          match rest.readExact (QuestTeleop.unpackHeader conn.pending).payloadSize.toNat with
          | (.data payload, next) =>
            let log := readConnectionFrom rounds next
            { log with handled :=
                { packetType := (QuestTeleop.unpackHeader conn.pending).type.toNat
                  timestampNs := (QuestTeleop.unpackHeader conn.pending).timestampNs.toInt
                  payload := payload } :: log.handled }
          | _ => { handled := [], badPackets := 0 } := by
  obtain ⟨rest, read, left, _⟩ := readExact_enough enough
  refine ⟨rest, left, ?_⟩
  have size : ByteRecord.size PACKET_HEADER = kPacketHeaderSize := rfl
  have header := QuestProtocol.unpackPacketHeader_packHeader
    (QuestTeleop.unpackHeader conn.pending)
  rw [QuestTeleop.packHeader_unpackHeader enough] at header
  have payload : (if (QuestProtocol.ofTeleop (QuestTeleop.unpackHeader conn.pending)).payloadSize ≠ 0
      then rest.readExact
        (QuestProtocol.ofTeleop (QuestTeleop.unpackHeader conn.pending)).payloadSize.toNat
      else (.data [], rest)) =
      rest.readExact (QuestTeleop.unpackHeader conn.pending).payloadSize.toNat := by
    split
    · rfl
    · next zero =>
      have none_announced : (QuestTeleop.unpackHeader conn.pending).payloadSize.toNat = 0 := by
        simp only [QuestProtocol.ofTeleop, ne_eq, not_not] at zero
        omega
      rw [none_announced]
      rfl
  simp only [readConnectionFrom, recvall, size, read, header, rejects_iff, payload]
  rfl

theorem readConnectionFrom_framed {rounds : Nat} {conn : Incoming}
    (time : conn.pending.length < rounds) :
    ∃ packets rest, conn.pending = wire WirePacket.bytes packets ++ rest ∧
      NoFrame WirePacket.bytes rest ∧
      readConnectionFrom rounds conn =
        { handled := packets.map WirePacket.packet
          badPackets := if BadHeader rest then 1 else 0 } := by
  induction rounds generalizing conn with
  | zero => omega
  | succ rounds ih =>
    by_cases enough : kPacketHeaderSize ≤ conn.pending.length
    · obtain ⟨behind, left, round⟩ := readConnectionFrom_header rounds enough
      rw [round]
      by_cases valid : ValidHeader (QuestTeleop.unpackHeader conn.pending)
      · rw [if_neg (not_not.mpr valid)]
        have behind_length : behind.pending.length = conn.pending.length - kPacketHeaderSize := by
          rw [left, List.length_drop]
        by_cases whole : (QuestTeleop.unpackHeader conn.pending).payloadSize.toNat ≤
            behind.pending.length
        · obtain ⟨next, read, after, _⟩ := readExact_enough whole
          have shorter : next.pending.length < rounds := by
            have positive : 0 < kPacketHeaderSize := by decide
            rw [after, List.length_drop]
            omega
          obtain ⟨packets, rest, split, last, log⟩ := ih shorter
          let packet : WirePacket :=
            { header := QuestTeleop.unpackHeader conn.pending
              payload := behind.pending.take
                (QuestTeleop.unpackHeader conn.pending).payloadSize.toNat
              valid := valid
              sized := by rw [List.length_take, Nat.min_eq_left whole] }
          refine ⟨packet :: packets, rest, ?_, last, ?_⟩
          · have front : packet.bytes ++ next.pending = conn.pending := by
              simp only [packet, WirePacket.bytes, after]
              rw [QuestTeleop.packHeader_unpackHeader enough, List.append_assoc,
                List.take_append_drop, left, List.take_append_drop]
            rw [wire_cons, List.append_assoc, ← split, front]
          · simp only [read, log]
            rfl
        · obtain ⟨stop, next, read, ended⟩ := readExact_short (Nat.lt_of_not_le whole)
          refine ⟨[], conn.pending, rfl, ?_, ?_⟩
          · apply noFrame_of_header
            intro _ _
            omega
          · have good : ¬ BadHeader conn.pending := fun bad => bad.2 valid
            rw [if_neg good]
            rcases ended with rfl | rfl <;> simp only [read, List.map_nil]
      · rw [if_pos valid]
        refine ⟨[], conn.pending, rfl, ?_, ?_⟩
        · apply noFrame_of_header
          intro _ good
          exact absurd good valid
        · rw [if_pos ⟨enough, valid⟩]
          rfl
    · obtain ⟨stop, next, read, ended⟩ := readExact_short (Nat.lt_of_not_le enough)
      refine ⟨[], conn.pending, rfl, ?_, ?_⟩
      · apply noFrame_of_header
        intro long _
        exact absurd long enough
      · have good : ¬ BadHeader conn.pending := fun bad => enough bad.1
        have size : ByteRecord.size PACKET_HEADER = kPacketHeaderSize := rfl
        rw [if_neg good]
        rcases ended with rfl | rfl <;>
          simp only [readConnectionFrom, recvall, size, read, List.map_nil]

/- What the client sends. -/

def Message.bytes (m : Message) : Bytes := QuestTeleop.packHeader m.header ++ m.payload

def Message.packet (m : Message) : Packet :=
  { packetType := m.type.code.toNat, timestampNs := m.timestampNs.toInt, payload := m.payload }

def Message.wirePacket (m : Message) (small : m.payload.length ≤ 1024 * 1024) : WirePacket :=
  have size : m.header.payloadSize.toNat = m.payload.length := by
    simp only [Message.header, QuestTeleop.makePacketHeader]
    exact UInt32.toNat_ofNat_of_lt' (Nat.lt_of_le_of_lt small (by decide))
  { header := m.header
    payload := m.payload
    valid := ⟨rfl, rfl, by rw [size]; exact small⟩
    sized := size.symm }

theorem sendPacket_spec (results : List SendResult) (m : Message) :
    (sendPacket results m).bytes <+: m.bytes ∧
      ((sendPacket results m).ok = true → (sendPacket results m).bytes = m.bytes) := by
  obtain ⟨head_before, head_whole⟩ := writeExact_spec results (QuestTeleop.packHeader m.header)
  unfold Message.bytes
  by_cases ok : (writeExact results (QuestTeleop.packHeader m.header)).ok = true
  · obtain ⟨before, whole⟩ := writeExact_spec
      (writeExact results (QuestTeleop.packHeader m.header)).left m.payload
    simp only [sendPacket, if_pos ok, head_whole.mp ok]
    constructor
    · exact (List.prefix_append_right_inj _).mpr before
    · intro done
      rw [whole.mp done]
  · simp only [sendPacket, if_neg ok]
    constructor
    · exact head_before.trans (List.prefix_append _ _)
    · intro done
      exact absurd done ok

theorem sendPackets_spec (results : List SendResult) (ms : List Message) :
    (sendPackets results ms).bytes <+: wire Message.bytes ms ∧
      ((sendPackets results ms).ok = true →
        (sendPackets results ms).bytes = wire Message.bytes ms) := by
  induction ms generalizing results with
  | nil => simp [sendPackets]
  | cons m ms ih =>
    obtain ⟨first_before, first_whole⟩ := sendPacket_spec results m
    simp only [sendPackets, wire_cons]
    split
    · next ok =>
      obtain ⟨before, whole⟩ := ih (sendPacket results m).left
      simp only [first_whole ok]
      constructor
      · exact (List.prefix_append_right_inj _).mpr before
      · intro done
        rw [whole done]
    · next failed =>
      constructor
      · exact first_before.trans (List.prefix_append _ _)
      · intro done
        exact absurd done failed

theorem messages_wire {ms : List Message} (small : ∀ m ∈ ms, m.payload.length ≤ 1024 * 1024) :
    ∃ packets, wire Message.bytes ms = wire WirePacket.bytes packets ∧
      ms.map Message.packet = packets.map WirePacket.packet := by
  induction ms with
  | nil => exact ⟨[], rfl, rfl⟩
  | cons m ms ih =>
    obtain ⟨packets, bytes, calls⟩ := ih (fun n mem => small n (List.mem_cons_of_mem m mem))
    refine ⟨m.wirePacket (small m (by simp)) :: packets, ?_, ?_⟩
    · rw [wire_cons, wire_cons, bytes]
      rfl
    · rw [List.map_cons, List.map_cons, calls]
      rfl

theorem noFrame_nil : NoFrame WirePacket.bytes [] := by
  apply noFrame_of_header
  intro impossible _
  exact absurd impossible (by decide)

theorem unpackHeader_append {data : Bytes} (more : Bytes)
    (enough : kPacketHeaderSize ≤ data.length) :
    QuestTeleop.unpackHeader (data ++ more) = QuestTeleop.unpackHeader data := by
  have head := QuestTeleop.packHeader_unpackHeader enough
  conv => lhs; rw [← List.take_append_drop kPacketHeaderSize data]
  rw [← head, List.append_assoc, QuestTeleop.unpackHeader_packHeader]

theorem frames_of_cut {packets others : List WirePacket} {rest more : Bytes}
    (cut : wire WirePacket.bytes packets ++ rest ++ more = wire WirePacket.bytes others) :
    packets <+: others ∧ ¬ BadHeader rest := by
  have inside : packets <+: others := by
    have same : wire WirePacket.bytes others ++ [] =
        wire WirePacket.bytes packets ++ (rest ++ more) := by
      rw [List.append_nil, ← cut, List.append_assoc]
    exact frames_longest WirePacket.bytes wirePacket_delimiting noFrame_nil same
  refine ⟨inside, ?_⟩
  rintro ⟨enough, invalid⟩
  obtain ⟨later, rfl⟩ := inside
  rw [wire_append, List.append_assoc, List.append_cancel_left_eq] at cut
  cases later with
  | nil =>
    have empty := congrArg List.length cut
    rw [List.length_append, wire_nil, List.length_nil] at empty
    have positive : 0 < kPacketHeaderSize := by decide
    omega
  | cons p later =>
    apply invalid
    rw [← unpackHeader_append more enough, cut, wire_cons, WirePacket.bytes, List.append_assoc,
      QuestTeleop.unpackHeader_packHeader]
    exact p.valid

/-- The server handles the longest run of complete valid packets a stream begins with, and
    everything the client sent whole, however the stream is cut on the way. -/
theorem packets_delivered (conn : Incoming) :
    (∃ packets rest, conn.pending = wire WirePacket.bytes packets ++ rest ∧
      (∀ others tail, conn.pending = wire WirePacket.bytes others ++ tail → others <+: packets) ∧
      (readConnection conn).handled = packets.map WirePacket.packet ∧
      (readConnection conn).badPackets = if BadHeader rest then 1 else 0) ∧
    (∀ results ms, (∀ m ∈ ms, m.payload.length ≤ 1024 * 1024) →
      conn.pending <+: (sendPackets results ms).bytes →
        (readConnection conn).handled <+: ms.map Message.packet ∧
        (readConnection conn).badPackets = 0 ∧
        ((sendPackets results ms).ok = true → conn.pending = (sendPackets results ms).bytes →
          (readConnection conn).handled = ms.map Message.packet)) := by
  obtain ⟨packets, rest, split, last, log⟩ :=
    readConnectionFrom_framed (Nat.lt_succ_self conn.pending.length)
  have longest : ∀ others tail,
      conn.pending = wire WirePacket.bytes others ++ tail → others <+: packets := by
    intro others tail same
    apply frames_longest WirePacket.bytes wirePacket_delimiting last
    rw [← split, same]
  have handled : (readConnection conn).handled = packets.map WirePacket.packet := by
    rw [readConnection, log]
  have bad : (readConnection conn).badPackets = if BadHeader rest then 1 else 0 := by
    rw [readConnection, log]
  constructor
  · exact ⟨packets, rest, split, longest, handled, bad⟩
  · intro results ms small arrives
    obtain ⟨before, whole⟩ := sendPackets_spec results ms
    obtain ⟨sent, bytes, calls⟩ := messages_wire small
    obtain ⟨more, cut⟩ := arrives.trans before
    rw [split, bytes] at cut
    obtain ⟨inside, good⟩ := frames_of_cut cut
    rw [handled, bad, if_neg good, calls]
    refine ⟨inside.map _, rfl, ?_⟩
    intro done all
    have back : sent <+: packets := by
      apply longest sent []
      rw [List.append_nil, all, whole done, bytes]
    rw [inside.eq_of_length_le back.length_le]

theorem split_heartbeats_delivered :
    let beat : Message := { type := .heartbeat, seq := 7, timestampNs := 5, payload := [1, 2] }
    let conn : Incoming :=
      { segments := [beat.bytes.take 20, beat.bytes.drop 20 ++ beat.bytes.take 3,
          beat.bytes.drop 3]
        arrived := by decide
        broken := false }
    (readConnection conn).handled = [beat.packet, beat.packet] ∧
      (readConnection conn).badPackets = 0 := by
  intro beat conn
  have written : (sendPackets [.sent 32, .sent 1, .interrupted, .sent 1, .sent 40, .sent 2]
      [beat, beat]).bytes = conn.pending := by decide
  obtain ⟨_, clean, whole⟩ := (packets_delivered conn).2
    [.sent 32, .sent 1, .interrupted, .sent 1, .sent 40, .sent 2] [beat, beat]
    (by simp [beat]) (by rw [written])
  exact ⟨whole (by decide) written.symm, clean⟩

end QuestPacketReader
