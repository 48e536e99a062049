import RoboVR.Lib.ByteRecord

/- The headers of the C++ side. A header is a struct of fixed-width integers that is copied
   to and from the wire as the object lies in memory, on a little-endian machine. -/
namespace QuestTeleop
open ByteRecord

abbrev Bytes := List UInt8

def kProtocolMagic : UInt32 := 0x50543351
def kProtocolVersion : UInt16 := 1
def kPacketHeaderSize : Nat := 32
def kVideoFrameHeaderSize : Nat := 40

inductive PacketType where
  | hello | config | video | pose | stats | heartbeat | goodbye | error
  deriving DecidableEq

def PacketType.code : PacketType → UInt16
  | hello => 1
  | config => 2
  | video => 3
  | pose => 4
  | stats => 5
  | heartbeat => 6
  | goodbye => 7
  | error => 8

structure PacketHeader where
  magic : UInt32 := kProtocolMagic
  version : UInt16 := kProtocolVersion
  type : UInt16 := 0
  seq : UInt64 := 0
  timestampNs : Int64 := 0
  payloadSize : UInt32 := 0
  crc32 : UInt32 := 0
  deriving DecidableEq

def packetHeaderFields : List Field :=
  [unsigned 4, unsigned 2, unsigned 2, unsigned 8, signed 8, unsigned 4, unsigned 4]

def PacketHeader.values (header : PacketHeader) : List Int :=
  [header.magic.toNat, header.version.toNat, header.type.toNat, header.seq.toNat,
    header.timestampNs.toInt, header.payloadSize.toNat, header.crc32.toNat]

def PacketHeader.ofValues : List Int → PacketHeader
  | [magic, version, type, seq, timestampNs, payloadSize, crc32] =>
    { magic := UInt32.ofNat magic.toNat
      version := UInt16.ofNat version.toNat
      type := UInt16.ofNat type.toNat
      seq := UInt64.ofNat seq.toNat
      timestampNs := Int64.ofInt timestampNs
      payloadSize := UInt32.ofNat payloadSize.toNat
      crc32 := UInt32.ofNat crc32.toNat }
  | _ => {}

structure VideoFrameHeader where
  codec : UInt16 := 0
  flags : UInt16 := 0
  streamId : UInt32 := 0
  frameIndex : UInt64 := 0
  captureTimeNs : Int64 := 0
  width : UInt32 := 0
  height : UInt32 := 0
  leftPayloadSize : UInt32 := 0
  rightPayloadSize : UInt32 := 0
  deriving DecidableEq

def videoFrameHeaderFields : List Field :=
  [unsigned 2, unsigned 2, unsigned 4, unsigned 8, signed 8, unsigned 4, unsigned 4,
    unsigned 4, unsigned 4]

def VideoFrameHeader.values (header : VideoFrameHeader) : List Int :=
  [header.codec.toNat, header.flags.toNat, header.streamId.toNat, header.frameIndex.toNat,
    header.captureTimeNs.toInt, header.width.toNat, header.height.toNat,
    header.leftPayloadSize.toNat, header.rightPayloadSize.toNat]

def VideoFrameHeader.ofValues : List Int → VideoFrameHeader
  | [codec, flags, streamId, frameIndex, captureTimeNs, width, height, left, right] =>
    { codec := UInt16.ofNat codec.toNat
      flags := UInt16.ofNat flags.toNat
      streamId := UInt32.ofNat streamId.toNat
      frameIndex := UInt64.ofNat frameIndex.toNat
      captureTimeNs := Int64.ofInt captureTimeNs
      width := UInt32.ofNat width.toNat
      height := UInt32.ofNat height.toNat
      leftPayloadSize := UInt32.ofNat left.toNat
      rightPayloadSize := UInt32.ofNat right.toNat }
  | _ => {}

/-- `memcpy` of the object. Neither struct has gaps, so the content of a gap is not seen. -/
def packHeader (header : PacketHeader) : Bytes :=
  object (fun _ => 0) 0 packetHeaderFields header.values

def unpackHeader (data : Bytes) : PacketHeader :=
  PacketHeader.ofValues (members 0 packetHeaderFields data)

def packVideoFrameHeader (header : VideoFrameHeader) : Bytes :=
  object (fun _ => 0) 0 videoFrameHeaderFields header.values

def unpackVideoFrameHeader (data : Bytes) : VideoFrameHeader :=
  VideoFrameHeader.ofValues (members 0 videoFrameHeaderFields data)

def makePacketHeader (type : PacketType) (seq : UInt64) (timestampNs : Int64)
    (payloadSize : Nat) : PacketHeader :=
  { type := type.code, seq := seq, timestampNs := timestampNs,
    payloadSize := UInt32.ofNat payloadSize }

def isKnownPacketType (type : UInt16) : Bool :=
  [PacketType.hello, .config, .video, .pose, .stats, .heartbeat, .goodbye, .error].any
    fun known => type == known.code

theorem isKnownPacketType_code (type : PacketType) : isKnownPacketType type.code = true := by
  cases type <;> decide

theorem packetHeader_gapless : Gapless 0 packetHeaderFields := by decide

theorem videoFrameHeader_gapless : Gapless 0 videoFrameHeaderFields := by decide

theorem packetHeader_size : size packetHeaderFields = kPacketHeaderSize := rfl

theorem videoFrameHeader_size : size videoFrameHeaderFields = kVideoFrameHeaderSize := rfl

theorem packHeader_eq (header : PacketHeader) :
    packHeader header = pack packetHeaderFields header.values := by
  rw [packHeader, object_gapless _ 0 _ _ packetHeader_gapless]

theorem unpackHeader_eq (data : Bytes) :
    unpackHeader data = PacketHeader.ofValues (unpack packetHeaderFields data) := by
  rw [unpackHeader, members_gapless 0 _ _ packetHeader_gapless]

theorem packVideoFrameHeader_eq (header : VideoFrameHeader) :
    packVideoFrameHeader header = pack videoFrameHeaderFields header.values := by
  rw [packVideoFrameHeader, object_gapless _ 0 _ _ videoFrameHeader_gapless]

theorem unpackVideoFrameHeader_eq (data : Bytes) :
    unpackVideoFrameHeader data =
      VideoFrameHeader.ofValues (unpack videoFrameHeaderFields data) := by
  rw [unpackVideoFrameHeader, members_gapless 0 _ _ videoFrameHeader_gapless]

theorem inRange_word16 (n : UInt16) : (unsigned 2).InRange n.toNat := by
  have := n.toNat_lt
  rw [inRange_unsigned]
  omega

theorem inRange_word32 (n : UInt32) : (unsigned 4).InRange n.toNat := by
  have := n.toNat_lt
  rw [inRange_unsigned]
  omega

theorem inRange_word64 (n : UInt64) : (unsigned 8).InRange n.toNat := by
  have := n.toNat_lt
  rw [inRange_unsigned]
  omega

theorem inRange_int64 (n : Int64) : (signed 8).InRange n.toInt := by
  have low := n.le_toInt
  have high := n.toInt_lt
  rw [inRange_signed]
  omega

theorem packetHeader_fits (header : PacketHeader) : Fits packetHeaderFields header.values :=
  ⟨inRange_word32 _, inRange_word16 _, inRange_word16 _, inRange_word64 _, inRange_int64 _,
    inRange_word32 _, inRange_word32 _, trivial⟩

theorem videoFrameHeader_fits (header : VideoFrameHeader) :
    Fits videoFrameHeaderFields header.values :=
  ⟨inRange_word16 _, inRange_word16 _, inRange_word32 _, inRange_word64 _, inRange_int64 _,
    inRange_word32 _, inRange_word32 _, inRange_word32 _, inRange_word32 _, trivial⟩

theorem ofValues_values (header : PacketHeader) :
    PacketHeader.ofValues header.values = header := by
  simp [PacketHeader.ofValues, PacketHeader.values]

theorem videoFrame_ofValues_values (header : VideoFrameHeader) :
    VideoFrameHeader.ofValues header.values = header := by
  simp [VideoFrameHeader.ofValues, VideoFrameHeader.values]

/- Every value of a field is one of the machine integer it is read into. -/

theorem word16_back {v : Int} (fits : (unsigned 2).InRange v) :
    ((UInt16.ofNat v.toNat).toNat : Int) = v := by
  rw [inRange_unsigned] at fits
  have small : v.toNat < 2 ^ 16 := by omega
  rw [UInt16.toNat_ofNat_of_lt' small]
  omega

theorem word32_back {v : Int} (fits : (unsigned 4).InRange v) :
    ((UInt32.ofNat v.toNat).toNat : Int) = v := by
  rw [inRange_unsigned] at fits
  have small : v.toNat < 2 ^ 32 := by omega
  rw [UInt32.toNat_ofNat_of_lt' small]
  omega

theorem word64_back {v : Int} (fits : (unsigned 8).InRange v) :
    ((UInt64.ofNat v.toNat).toNat : Int) = v := by
  rw [inRange_unsigned] at fits
  have small : v.toNat < 2 ^ 64 := by omega
  rw [UInt64.toNat_ofNat_of_lt' small]
  omega

theorem int64_back {v : Int} (fits : (signed 8).InRange v) : (Int64.ofInt v).toInt = v := by
  rw [inRange_signed] at fits
  exact Int64.toInt_ofInt_of_le (by omega) (by omega)

theorem values_ofValues {vs : List Int} (fits : Fits packetHeaderFields vs) :
    (PacketHeader.ofValues vs).values = vs := by
  match vs, fits with
  | [_, _, _, _, _, _, _], ⟨magic, version, type, seq, timestamp, payload, crc, _⟩ =>
    simp only [PacketHeader.ofValues, PacketHeader.values, word32_back magic,
      word16_back version, word16_back type, word64_back seq, int64_back timestamp,
      word32_back payload, word32_back crc]

theorem videoFrame_values_ofValues {vs : List Int} (fits : Fits videoFrameHeaderFields vs) :
    (VideoFrameHeader.ofValues vs).values = vs := by
  match vs, fits with
  | [_, _, _, _, _, _, _, _, _],
    ⟨codec, flags, stream, frame, capture, width, height, left, right, _⟩ =>
    simp only [VideoFrameHeader.ofValues, VideoFrameHeader.values, word16_back codec,
      word16_back flags, word32_back stream, word64_back frame, int64_back capture,
      word32_back width, word32_back height, word32_back left, word32_back right]

theorem packHeader_length (header : PacketHeader) :
    (packHeader header).length = kPacketHeaderSize := by
  rw [packHeader_eq, pack_length _ _ (packetHeader_fits header), packetHeader_size]

theorem packVideoFrameHeader_length (header : VideoFrameHeader) :
    (packVideoFrameHeader header).length = kVideoFrameHeaderSize := by
  rw [packVideoFrameHeader_eq, pack_length _ _ (videoFrameHeader_fits header),
    videoFrameHeader_size]

theorem unpackHeader_packHeader (header : PacketHeader) (rest : Bytes) :
    unpackHeader (packHeader header ++ rest) = header := by
  rw [unpackHeader_eq, packHeader_eq, unpack_pack _ _ rest (packetHeader_fits header),
    ofValues_values]

theorem unpackVideoFrameHeader_pack (header : VideoFrameHeader) (rest : Bytes) :
    unpackVideoFrameHeader (packVideoFrameHeader header ++ rest) = header := by
  rw [unpackVideoFrameHeader_eq, packVideoFrameHeader_eq,
    unpack_pack _ _ rest (videoFrameHeader_fits header), videoFrame_ofValues_values]

theorem packHeader_unpackHeader {data : Bytes} (enough : kPacketHeaderSize ≤ data.length) :
    packHeader (unpackHeader data) = data.take kPacketHeaderSize := by
  rw [packHeader_eq, unpackHeader_eq, values_ofValues (unpack_fits _ _ enough),
    pack_unpack packetHeaderFields _ enough, packetHeader_size]

theorem packVideoFrameHeader_unpack {data : Bytes}
    (enough : kVideoFrameHeaderSize ≤ data.length) :
    packVideoFrameHeader (unpackVideoFrameHeader data) = data.take kVideoFrameHeaderSize := by
  rw [packVideoFrameHeader_eq, unpackVideoFrameHeader_eq,
    videoFrame_values_ofValues (unpack_fits _ _ enough), pack_unpack videoFrameHeaderFields _ enough,
    videoFrameHeader_size]

end QuestTeleop
