import RoboVR.Decoder.H264Decoder
import RoboVR.Wire.VideoPayload

/- The receive side of the headset's transport: VIDEO payloads go to a decoder, and each packet
   is followed by the acks of the frames it published. -/
namespace QuestHostPackets
open QuestTeleop (Bytes VideoFrameHeader PacketType)
open QuestMediaCodec QuestH264Decoder
open QuestVideoPayload (routePayload)

/-- The byte count is computed in 64 bits. -/
def checkedRawRgbaSize (header : VideoFrameHeader) : Option Nat :=
  let bytes := header.width.toNat * header.height.toNat % 2 ^ 64 * 4 % 2 ^ 64
  if header.width = 0 ∨ header.height = 0 ∨ bytes > 64 * 1024 * 1024 then none
  else if header.leftPayloadSize.toNat ≠ bytes ∨ header.rightPayloadSize.toNat ≠ bytes then none
  else some bytes

def rawRgbaDecode (header : VideoFrameHeader) (left right : Bytes) : Bool × List Event :=
  match checkedRawRgbaSize header with
  | none => (false, [])
  | some eyeBytes =>
    (true, [.publishRawFrame
      { frameIndex := header.frameIndex.toNat, width := header.width.toNat,
        height := header.height.toNat, leftRgba := left.take eyeBytes,
        rightRgba := right.take eyeBytes }])

def handlePayload (d : H264AnnexBDecoder) (payload : Bytes) (turn : Turn) :
    H264AnnexBDecoder × List Event × Bool :=
  match routePayload payload with
  | .refused => (d, [], false)
  | .unsupported _ => (d, [], false)
  | .rawRgba header left right =>
    let raw := rawRgbaDecode header (left.read payload) (right.read payload)
    (d, raw.2, raw.1)
  | .h264 header left right => decode d header (left.read payload) (right.read payload) turn

/-- A payload that no decoder handles only sets the clear colours. -/
def handleVideoPayload (d : H264AnnexBDecoder) (payload : Bytes) (turn : Turn) :
    H264AnnexBDecoder × List Event :=
  let handled := handlePayload d payload turn
  (handled.1, handled.2.1)

structure Session where
  decoder : H264AnnexBDecoder := {}
  seq : UInt64 := 1

/-- Sends the acks one by one; `sends` says which of the sends succeed. -/
def sendAcks : List VideoDecodeAck → List Bool → UInt64 → List Event × UInt64 × Bool
  | [], _, seq => ([], seq, true)
  | ack :: acks, sends, seq =>
    if sends.headD true then
      let more := sendAcks acks sends.tail (seq + 1)
      (.ackSent ack.frameIndex ack.surfaceOutput :: more.1, more.2)
    else ([], seq + 1, false)

def sendVideoDecodeAcks (session : Session) (sends : List Bool) :
    Session × List Event × Bool :=
  let taken := takeAcks session.decoder
  let sent := sendAcks taken.2 sends session.seq
  ({ decoder := taken.1, seq := sent.2.1 }, sent.1, sent.2.2)

structure HostPacket where
  type : UInt16
  payload : Bytes
  turn : Turn
  ackSends : List Bool

def receivePacket (session : Session) (packet : HostPacket) : Session × List Event × Bool :=
  if packet.type = PacketType.video.code then
    let handled := handleVideoPayload session.decoder packet.payload packet.turn
    let acks := sendVideoDecodeAcks { session with decoder := handled.1 } packet.ackSends
    (acks.1, handled.2 ++ acks.2.1, acks.2.2)
  else (session, [], true)

def receiveHostPackets : Session → List HostPacket → Session × List Event × Bool
  | session, [] => (session, [], true)
  | session, packet :: packets =>
    let first := receivePacket session packet
    if first.2.2 then
      let more := receiveHostPackets first.1 packets
      (more.1, first.2.1 ++ more.2.1, more.2.2)
    else first

end QuestHostPackets
