import RoboVR.Host.VideoThread
import RoboVR.Decoder.Publication
import RoboVR.Wire.SendLimits

/- One connection between the host bridge and the headset: VIDEO packets travel one way and acks
   the other, each in order and as late as they like. -/
namespace HostConnection
open QuestTeleop (Bytes VideoFrameHeader PacketType makePacketHeader unpackVideoFrameHeader)
open QuestMediaCodec QuestSurfaceDrain QuestH264Decoder QuestDecodeTrace QuestHostPackets
open QuestVideoPayload (routePayload)
open QuestSendLimits (acceptsHeader)
open HostVideoThread

/-- `toQuest` are the payloads of VIDEO packets written and not yet read, `toHost` the frame
    indices of acks. -/
structure Connection where
  host : HostBridge := {}
  toQuest : List Bytes := []
  quest : Session := {}
  toHost : List UInt64 := []

inductive Move where
  | pace (missedFrames : UInt64)
  | send (ok : Bool) (monotonicTimeNs : Int64)
  | record (nowNs : Int)
  | receive (turn : Turn)
  | handleAck

inductive Sign where
  | sent (frameIndex : UInt64)
  | received (frameIndex : UInt64)
  | quest (event : Event)
  deriving DecidableEq

def videoPacket (payload : Bytes) (turn : Turn) : HostPacket :=
  { type := PacketType.video.code, payload := payload, turn := turn, ackSends := [] }

def accepted (payload : Bytes) : Bool :=
  acceptsHeader (makePacketHeader .video 0 0 payload.length)

/-- A refused header ends the connection, so nothing behind it is received. -/
def receive (c : Connection) (turn : Turn) : Connection × List Sign :=
  match c.toQuest with
  | [] => (c, [])
  | payload :: rest =>
    if accepted payload then
      let handled := receivePacket c.quest (videoPacket payload turn)
      ({ c with
        toQuest := rest
        quest := handled.1
        toHost := c.toHost ++ (framesOf acked handled.2.1).map UInt64.ofNat },
        .received (unpackVideoFrameHeader payload).frameIndex :: handled.2.1.map Sign.quest)
    else (c, [])

def step (stream : H264TestStream) (c : Connection) : Move → Connection × List Sign
  | .pace missedFrames =>
    if c.host.stage = .pacing then ({ c with host := pace c.host missedFrames }, []) else (c, [])
  | .send ok monotonicTimeNs =>
    if c.host.stage = .sending then
      if ok then
        ({ c with
          host := sent c.host true
          toQuest := c.toQuest ++
            [makeH264TestPayload stream c.host.videoFrame monotonicTimeNs] },
          [.sent c.host.videoFrame])
      else ({ c with host := sent c.host false }, [])
    else (c, [])
  | .record nowNs =>
    if c.host.stage = .recording then ({ c with host := recordSendTime c.host nowNs }, [])
    else (c, [])
  | .receive turn => receive c turn
  | .handleAck =>
    match c.toHost with
    | [] => (c, [])
    | frameIndex :: rest =>
      ({ c with
        host := handleStatsPayload c.host (.videoAck (some frameIndex))
        toHost := rest }, [])

def sentFrame : Sign → Option UInt64
  | .sent frameIndex => some frameIndex
  | _ => none

def receivedFrame : Sign → Option UInt64
  | .received frameIndex => some frameIndex
  | _ => none

def sentFrames (past : List Sign) : List UInt64 := past.filterMap sentFrame
def receivedFrames (past : List Sign) : List UInt64 := past.filterMap receivedFrame

def incoming (c : Connection) : Move → Option VideoFrameHeader
  | .receive _ =>
    match c.toQuest with
    | [] => none
    | payload :: _ =>
      match routePayload payload with
      | .h264 header _ _ => some header
      | _ => none
  | _ => none

end HostConnection
