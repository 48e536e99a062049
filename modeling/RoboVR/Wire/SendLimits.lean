import RoboVR.Wire.PacketReader

/- The payload limits of the two ends: what the host's senders put into a header, and which
   headers the headset takes before it drops the connection. -/
namespace QuestSendLimits
open ByteStream ByteRecord
open QuestTeleop (Bytes PacketType kPacketHeaderSize kProtocolMagic kProtocolVersion
  isKnownPacketType unpackHeader)
open QuestProtocol (PT_VIDEO PACKET_HEADER packPacketHeader)

def kMaxHostPayloadSize : UInt32 := 1024 * 1024

/-- The header test of `receiveHostPackets`. -/
def acceptsHeader (header : QuestTeleop.PacketHeader) : Bool :=
  ¬ (header.magic ≠ kProtocolMagic ∨ header.version ≠ kProtocolVersion ∨
    ¬ isKnownPacketType header.type ∨ header.payloadSize > kMaxHostPayloadSize)

structure Quest3Server where
  conn : Bool
  isConnected : Bool
  sendSeq : Int
  videoPacketsSent : Nat
  videoSendErrors : Nat

inductive Outcome where
  | returned (value : Bool)
  | raised
  deriving DecidableEq

/-- `send_packet`: two `sendall` calls, the second only after the first. None where the
    header does not pack. -/
def sendPacket (results : List SendResult) (packetType seq : Int) (payload : Bytes)
    (monotonicNs : Int) : Option Written :=
  (packPacketHeader (QuestProtocol.makePacketHeader packetType seq payload.length
    monotonicNs)).map fun header =>
      let head := writeExact results header
      if head.ok then
        let body := writeExact head.left payload
        { body with bytes := head.bytes ++ body.bytes }
      else head

def sendPayload (server : Quest3Server) (results : List SendResult) (packetType : Int)
    (payload : Bytes) (monotonicNs : Int) : Quest3Server × Outcome × Bytes :=
  if ¬ server.conn ∨ ¬ server.isConnected then (server, .returned false, [])
  else
    let seq := server.sendSeq
    let server := { server with sendSeq := server.sendSeq + 1 }
    match sendPacket results packetType seq payload monotonicNs with
    | none => (server, .raised, [])
    | some written =>
      if written.ok then
        let sent := if packetType = PT_VIDEO then server.videoPacketsSent + 1
          else server.videoPacketsSent
        ({ server with videoPacketsSent := sent }, .returned true, written.bytes)
      else
        let errors := server.videoSendErrors + 1
        ({ server with conn := false, isConnected := false, videoSendErrors := errors },
          .returned false, written.bytes)

def sendVideoFrame (server : Quest3Server) (results : List SendResult) (payload : Bytes)
    (monotonicNs : Int) : Quest3Server × Outcome × Bytes :=
  sendPayload server results PT_VIDEO payload monotonicNs

structure TcpServer where
  clientFd : Int
  sendSeq : UInt64

def TcpServer.send (server : TcpServer) (results : List SendResult) (type : PacketType)
    (payload : Bytes) (timestampNs : Int64) : TcpServer × Bool × Bytes :=
  if server.clientFd < 0 then (server, false, [])
  else
    let written := QuestPacketReader.sendPacket results
      { type := type, seq := server.sendSeq, timestampNs := timestampNs, payload := payload }
    ({ server with sendSeq := server.sendSeq + 1 }, written.ok, written.bytes)

theorem acceptsHeader_iff (header : QuestTeleop.PacketHeader) :
    acceptsHeader header = true ↔ header.magic = kProtocolMagic ∧
      header.version = kProtocolVersion ∧ isKnownPacketType header.type = true ∧
      header.payloadSize.toNat ≤ 1024 * 1024 := by
  have bound : header.payloadSize > kMaxHostPayloadSize ↔
      ¬ header.payloadSize.toNat ≤ 1024 * 1024 := by
    rw [gt_iff_lt, UInt32.lt_iff_toNat_lt, Nat.not_le]
    rfl
  simp only [acceptsHeader, bound, decide_eq_true_eq, ne_eq, not_or, not_not]

theorem unpackHeader_packed {header : QuestProtocol.PacketHeader} {bytes : Bytes}
    (packed : packPacketHeader header = some bytes) (rest : Bytes) :
    bytes.length = kPacketHeaderSize ∧
      (unpackHeader (bytes ++ rest)).values = [header.magic, header.version, header.packetType,
        header.seq, header.timestampNs, header.payloadSize, header.crc32] := by
  obtain ⟨fits, rfl⟩ := QuestProtocol.structPack_some packed
  constructor
  · rw [pack_length _ _ fits, QuestProtocol.packetHeader_format, QuestTeleop.packetHeader_size]
  · rw [QuestTeleop.unpackHeader_eq, ← QuestProtocol.packetHeader_format,
      unpack_pack _ _ rest fits, QuestTeleop.values_ofValues fits]

theorem sendPayload_true {server after : Quest3Server} {results : List SendResult}
    {packetType monotonicNs : Int} {payload written : Bytes}
    (sent : sendPayload server results packetType payload monotonicNs =
      (after, .returned true, written)) :
    ∃ header, packPacketHeader (QuestProtocol.makePacketHeader packetType server.sendSeq
      payload.length monotonicNs) = some header ∧ written = header ++ payload := by
  unfold sendPayload at sent
  split at sent
  · simp at sent
  · unfold sendPacket at sent
    cases packed : packPacketHeader (QuestProtocol.makePacketHeader packetType server.sendSeq
      payload.length monotonicNs) with
    | none => simp [packed] at sent
    | some header =>
      obtain ⟨_, head_whole⟩ := writeExact_spec results header
      obtain ⟨_, body_whole⟩ := writeExact_spec (writeExact results header).left payload
      simp only [packed, Option.map_some] at sent
      refine ⟨header, rfl, ?_⟩
      by_cases head : (writeExact results header).ok = true
      · simp only [if_pos head] at sent
        by_cases body : (writeExact (writeExact results header).left payload).ok = true
        · simp only [if_pos body, Prod.mk.injEq] at sent
          rw [← sent.2.2, head_whole.mp head, body_whole.mp body]
        · simp [body] at sent
      · simp [head] at sent

theorem tcpSend_true {server after : TcpServer} {results : List SendResult} {type : PacketType}
    {payload written : Bytes} {timestampNs : Int64}
    (sent : server.send results type payload timestampNs = (after, true, written)) :
    written = QuestTeleop.packHeader (QuestTeleop.makePacketHeader type server.sendSeq timestampNs
      payload.length) ++ payload := by
  unfold TcpServer.send at sent
  split at sent
  · simp at sent
  · simp only [Prod.mk.injEq] at sent
    obtain ⟨_, ok, bytes⟩ := sent
    rw [← bytes, (QuestPacketReader.sendPacket_spec _ _).2 ok]
    rfl

theorem python_header_iff {server after : Quest3Server} {results : List SendResult}
    {payload written : Bytes} {monotonicNs : Int}
    (sent : sendVideoFrame server results payload monotonicNs = (after, .returned true, written)) :
    acceptsHeader (unpackHeader written) = true ↔ payload.length ≤ 1024 * 1024 := by
  obtain ⟨header, packed, rfl⟩ := sendPayload_true sent
  obtain ⟨_, values⟩ := unpackHeader_packed packed payload
  simp only [QuestTeleop.PacketHeader.values, QuestProtocol.makePacketHeader,
    List.cons.injEq] at values
  obtain ⟨magic, version, type, _, _, size, _⟩ := values
  have magic' : (unpackHeader (header ++ payload)).magic = kProtocolMagic := by
    apply UInt32.toNat_inj.mp
    exact Int.natCast_inj.mp magic
  have version' : (unpackHeader (header ++ payload)).version = kProtocolVersion := by
    apply UInt16.toNat_inj.mp
    exact Int.natCast_inj.mp version
  have type' : (unpackHeader (header ++ payload)).type = PacketType.video.code := by
    apply UInt16.toNat_inj.mp
    exact Int.natCast_inj.mp type
  rw [acceptsHeader_iff, magic', version', type', QuestTeleop.isKnownPacketType_code,
    Int.natCast_inj.mp size]
  simp

/-- The bridge truncates the size to 32 bits before it writes it. -/
theorem cpp_header_iff {server after : TcpServer} {results : List SendResult} {type : PacketType}
    {payload written : Bytes} {timestampNs : Int64}
    (sent : server.send results type payload timestampNs = (after, true, written)) :
    acceptsHeader (unpackHeader written) = true ↔ payload.length % 2 ^ 32 ≤ 1024 * 1024 := by
  rw [tcpSend_true sent, QuestTeleop.unpackHeader_packHeader, acceptsHeader_iff]
  simp only [QuestTeleop.makePacketHeader, QuestTeleop.isKnownPacketType_code,
    UInt32.toNat_ofNat', true_and]

theorem exists_fst {α β : Type} {p : α × β} {b : β} (second : p.2 = b) : ∃ a, p = (a, b) :=
  ⟨p.1, by rw [← second]⟩

theorem sendVideoFrame_taken {server : Quest3Server} {payload header : Bytes} {monotonicNs : Int}
    (conn : server.conn = true) (connected : server.isConnected = true) (nonempty : payload ≠ [])
    (packed : packPacketHeader (QuestProtocol.makePacketHeader PT_VIDEO server.sendSeq
      payload.length monotonicNs) = some header) :
    ∃ after, sendVideoFrame server [.sent header.length, .sent payload.length] payload
      monotonicNs = (after, .returned true, header ++ payload) := by
  have length := (unpackHeader_packed packed []).1
  have header_nonempty : header ≠ [] := by
    intro empty
    rw [empty] at length
    exact absurd length (by decide)
  apply exists_fst
  simp only [sendVideoFrame, sendPayload, conn, connected, not_true_eq_false, or_self, if_false,
    sendPacket, packed, Option.map_some, writeExact_sent _ header_nonempty,
    writeExact_sent _ nonempty, if_true]

theorem tcpSend_taken {server : TcpServer} {payload : Bytes} (type : PacketType)
    (timestampNs : Int64) (client : ¬ server.clientFd < 0) (nonempty : payload ≠ []) :
    ∃ after, server.send [.sent kPacketHeaderSize, .sent payload.length] type payload
      timestampNs = (after, true, QuestTeleop.packHeader (QuestTeleop.makePacketHeader type
        server.sendSeq timestampNs payload.length) ++ payload) := by
  let message : QuestPacketReader.Message :=
    { type := type, seq := server.sendSeq, timestampNs := timestampNs, payload := payload }
  have length := QuestTeleop.packHeader_length message.header
  have header_nonempty : QuestTeleop.packHeader message.header ≠ [] := by
    intro empty
    rw [empty] at length
    exact absurd length (by decide)
  have head := writeExact_sent [.sent payload.length] header_nonempty
  rw [length] at head
  simp only [message] at head
  apply exists_fst
  simp only [TcpServer.send, if_neg client, QuestPacketReader.sendPacket, head, if_true,
    writeExact_sent _ nonempty]
  rfl

/-- What a reported success promises: the headset accepts the header exactly when the payload
    is within its limit, for the bridge after the size has lost its upper bits. -/
theorem sent_video_accepted_iff (payload : Bytes) :
    (∀ server results monotonicNs after written,
      sendVideoFrame server results payload monotonicNs = (after, .returned true, written) →
        (acceptsHeader (unpackHeader written) = true ↔ payload.length ≤ 1024 * 1024)) ∧
    (∀ (server : TcpServer) results timestampNs after written,
      server.send results .video payload timestampNs = (after, true, written) →
        (acceptsHeader (unpackHeader written) = true ↔
          payload.length % 2 ^ 32 ≤ 1024 * 1024)) := by
  constructor
  · intro server results monotonicNs after written sent
    exact python_header_iff sent
  · intro server results timestampNs after written sent
    exact cpp_header_iff sent

theorem small_frame_accepted :
    let server : Quest3Server :=
      { conn := true, isConnected := true, sendSeq := 4,
        videoPacketsSent := 0, videoSendErrors := 0 }
    acceptsHeader (unpackHeader
      (sendVideoFrame server [.sent 32, .sent 2, .sent 1] [1, 2, 3] 9).2.2) = true := by
  intro server
  have sent : (sendVideoFrame server [.sent 32, .sent 2, .sent 1] [1, 2, 3] 9).2.1 =
      .returned true := by decide
  exact ((sent_video_accepted_iff [1, 2, 3]).1 server _ 9 _ _
    (Prod.ext rfl (Prod.ext sent rfl))).mpr (by decide)

theorem python_size_sent {payload : Bytes} (nonempty : payload ≠ [])
    (packs : payload.length < 2 ^ 32) :
    ∃ server results after written,
      sendVideoFrame server results payload 0 = (after, .returned true, written) := by
  let server : Quest3Server :=
    { conn := true, isConnected := true, sendSeq := 0,
      videoPacketsSent := 0, videoSendErrors := 0 }
  have fits : Fits PACKET_HEADER [QuestProtocol.MAGIC, QuestProtocol.VERSION, PT_VIDEO, 0, 0,
      payload.length, 0] := by
    have size : (unsigned 4).InRange (payload.length : Int) := by
      rw [inRange_unsigned]
      omega
    exact ⟨by decide, by decide, by decide, by decide, by decide, size, by decide, trivial⟩
  have packed : packPacketHeader (QuestProtocol.makePacketHeader PT_VIDEO 0 payload.length 0) =
      some (pack PACKET_HEADER [QuestProtocol.MAGIC, QuestProtocol.VERSION, PT_VIDEO, 0, 0,
        payload.length, 0]) := by
    unfold packPacketHeader QuestProtocol.structPack
    exact if_pos fits
  generalize pack PACKET_HEADER [QuestProtocol.MAGIC, QuestProtocol.VERSION, PT_VIDEO, 0, 0,
    payload.length, 0] = header at packed
  obtain ⟨after, taken⟩ := sendVideoFrame_taken (show server.conn = true from rfl) rfl nonempty packed
  exact ⟨server, _, after, _, taken⟩

theorem cpp_size_sent {payload : Bytes} (nonempty : payload ≠ []) :
    ∃ (server : TcpServer) (results : List SendResult) (after : TcpServer) (written : Bytes),
      server.send results .video payload 0 = (after, true, written) := by
  let server : TcpServer := { clientFd := 5, sendSeq := 1 }
  have open_ : ¬ server.clientFd < 0 := by decide
  obtain ⟨after, taken⟩ := tcpSend_taken .video 0 open_ nonempty
  exact ⟨server, _, after, _, taken⟩

theorem long_nonempty {payload : Bytes} (length : payload.length = 1024 * 1024 + 1) :
    payload ≠ [] := by
  intro empty
  simp [empty] at length

theorem exists_length (n : Nat) : ∃ payload : Bytes, payload.length = n :=
  ⟨List.replicate n 0, List.length_replicate⟩

/-- One byte over the limit: both senders report success, the headset drops the connection. -/
theorem oversized_frame_refused :
    ¬ (∀ server results payload monotonicNs after written,
      sendVideoFrame server results payload monotonicNs = (after, .returned true, written) →
        acceptsHeader (unpackHeader written) = true) ∧
    ¬ (∀ (server : TcpServer) results payload timestampNs after written,
      server.send results .video payload timestampNs = (after, true, written) →
        acceptsHeader (unpackHeader written) = true) := by
  obtain ⟨payload, length⟩ := exists_length (1024 * 1024 + 1)
  have nonempty := long_nonempty length
  constructor
  · intro always
    obtain ⟨server, results, after, written, sent⟩ := python_size_sent nonempty (by omega)
    have accepted := always _ _ _ _ _ _ sent
    rw [python_header_iff sent] at accepted
    omega
  · intro always
    obtain ⟨server, results, after, written, sent⟩ := cpp_size_sent nonempty
    have accepted := always _ _ _ _ _ _ sent
    rw [cpp_header_iff sent] at accepted
    omega

end QuestSendLimits
