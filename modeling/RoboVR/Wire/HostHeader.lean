import RoboVR.Wire.TeleopHeader

/- The headers of the Python side: `struct` formats over unbounded integers. `pack` raises
   struct.error for a value out of its field's range, `unpack` for a wrong length. -/
namespace QuestProtocol
open ByteRecord
open QuestTeleop (Bytes)

def MAGIC : Int := 0x50543351
def VERSION : Int := 1

def PT_HELLO : Int := 1
def PT_CONFIG : Int := 2
def PT_VIDEO : Int := 3
def PT_POSE : Int := 4
def PT_STATS : Int := 5
def PT_HEARTBEAT : Int := 6
def PT_GOODBYE : Int := 7
def PT_ERROR : Int := 8

def CODEC_RAW_RGBA : Int := 1
def CODEC_H264_ANNEXB : Int := 2
def VIDEO_FRAME_KEYFRAME : Int := 1
def MAX_QUEST_PAYLOAD_BYTES : Int := 1024 * 1024

/-- A format character behind `<`: standard size, no alignment. -/
def formatField : Char → Field
  | 'H' => unsigned 2
  | 'I' => unsigned 4
  | 'Q' => unsigned 8
  | 'q' => signed 8
  | _ => unsigned 1

def PACKET_HEADER : List Field := ['I', 'H', 'H', 'Q', 'q', 'I', 'I'].map formatField
def VIDEO_FRAME_HEADER : List Field :=
  ['H', 'H', 'I', 'Q', 'q', 'I', 'I', 'I', 'I'].map formatField

def structPack (fields : List Field) (values : List Int) : Option Bytes :=
  if Fits fields values then some (pack fields values) else none

def structUnpack (fields : List Field) (data : Bytes) : Option (List Int) :=
  if data.length = size fields then some (unpack fields data) else none

structure PacketHeader where
  magic : Int
  version : Int
  packetType : Int
  seq : Int
  timestampNs : Int
  payloadSize : Int
  crc32 : Int
  deriving DecidableEq

def packPacketHeader (header : PacketHeader) : Option Bytes :=
  structPack PACKET_HEADER [header.magic, header.version, header.packetType, header.seq,
    header.timestampNs, header.payloadSize, header.crc32]

def unpackPacketHeader (data : Bytes) : Option PacketHeader :=
  match structUnpack PACKET_HEADER data with
  | some [magic, version, packetType, seq, timestampNs, payloadSize, crc32] =>
    some { magic, version, packetType, seq, timestampNs, payloadSize, crc32 }
  | _ => none

def makePacketHeader (packetType seq payloadSize monotonicNs : Int) : PacketHeader :=
  { magic := MAGIC, version := VERSION, packetType := packetType, seq := seq,
    timestampNs := monotonicNs, payloadSize := payloadSize, crc32 := 0 }

def packVideoFrameHeader (codec flags streamId frameIndex captureTimeNs width height
    leftPayloadSize rightPayloadSize : Int) : Option Bytes :=
  structPack VIDEO_FRAME_HEADER [codec, flags, streamId, frameIndex, captureTimeNs, width,
    height, leftPayloadSize, rightPayloadSize]

def ofTeleop (header : QuestTeleop.PacketHeader) : PacketHeader :=
  { magic := header.magic.toNat, version := header.version.toNat,
    packetType := header.type.toNat, seq := header.seq.toNat,
    timestampNs := header.timestampNs.toInt, payloadSize := header.payloadSize.toNat,
    crc32 := header.crc32.toNat }

/- The two languages name the same fields in the same order with the same widths. -/

theorem packetHeader_format : PACKET_HEADER = QuestTeleop.packetHeaderFields := rfl

theorem videoFrameHeader_format :
    VIDEO_FRAME_HEADER = QuestTeleop.videoFrameHeaderFields := rfl

theorem structPack_some {fields : List Field} {values : List Int} {bytes : Bytes}
    (packed : structPack fields values = some bytes) :
    Fits fields values ∧ bytes = pack fields values := by
  unfold structPack at packed
  split at packed
  · next fits => exact ⟨fits, (Option.some.inj packed).symm⟩
  · exact absurd packed (by simp)

theorem unpackPacketHeader_packHeader (header : QuestTeleop.PacketHeader) :
    unpackPacketHeader (QuestTeleop.packHeader header) = some (ofTeleop header) := by
  have length : (QuestTeleop.packHeader header).length = size QuestTeleop.packetHeaderFields :=
    QuestTeleop.packHeader_length header
  have fields := unpack_pack _ _ [] (QuestTeleop.packetHeader_fits header)
  rw [List.append_nil, ← QuestTeleop.packHeader_eq] at fields
  unfold unpackPacketHeader structUnpack
  rw [packetHeader_format, if_pos length, fields]
  rfl

end QuestProtocol
