import RoboVR.Wire.VideoPayload
import RoboVR.Decoder.H264Decoder

/- The H.264 side of the host bridge: the frames of its test stream, the thread that sends
   them, and the acks that pace it. What only reaches the log is left out. -/
namespace HostVideoThread
open QuestTeleop (Bytes VideoFrameHeader packVideoFrameHeader unpackVideoFrameHeader)
open QuestVideoPayload
open QuestH264Decoder (assign)

def kVideoFrameKeyframe : UInt16 := 1

/-- A stream that was loaded: as many flags as access units, and not none. -/
structure H264TestStream where
  accessUnits : List Bytes
  keyframes : List Bool
  width : UInt32
  height : UInt32
  nonempty : 0 < accessUnits.length
  flagged : keyframes.length = accessUnits.length

def accessUnitIndex (stream : H264TestStream) (frameIndex : UInt64) : Nat :=
  frameIndex.toNat % stream.accessUnits.length

theorem accessUnitIndex_lt (stream : H264TestStream) (frameIndex : UInt64) :
    accessUnitIndex stream frameIndex < stream.accessUnits.length :=
  Nat.mod_lt _ stream.nonempty

def accessUnit (stream : H264TestStream) (frameIndex : UInt64) : Bytes :=
  stream.accessUnits.get ⟨accessUnitIndex stream frameIndex, accessUnitIndex_lt stream frameIndex⟩

def isKeyframe (stream : H264TestStream) (frameIndex : UInt64) : Bool :=
  stream.keyframes.get ⟨accessUnitIndex stream frameIndex,
    stream.flagged ▸ accessUnitIndex_lt stream frameIndex⟩

def testHeader (stream : H264TestStream) (frameIndex : UInt64) (captureTimeNs : Int64) :
    VideoFrameHeader :=
  { codec := kH264AnnexB
    flags := if isKeyframe stream frameIndex then kVideoFrameKeyframe else 0
    streamId := 0
    frameIndex := frameIndex
    captureTimeNs := captureTimeNs
    width := stream.width
    height := stream.height
    leftPayloadSize := UInt32.ofNat (accessUnit stream frameIndex).length
    rightPayloadSize := UInt32.ofNat (accessUnit stream frameIndex).length }

def makeH264TestPayload (stream : H264TestStream) (frameIndex : UInt64) (monotonicTimeNs : Int64) :
    Bytes :=
  packVideoFrameHeader (testHeader stream frameIndex monotonicTimeNs) ++
    accessUnit stream frameIndex ++ accessUnit stream frameIndex

theorem unpack_testPayload (stream : H264TestStream) (frameIndex : UInt64)
    (monotonicTimeNs : Int64) :
    unpackVideoFrameHeader (makeH264TestPayload stream frameIndex monotonicTimeNs) =
      testHeader stream frameIndex monotonicTimeNs := by
  rw [makeH264TestPayload, List.append_assoc, QuestTeleop.unpackVideoFrameHeader_pack]

theorem routed_header {payload : Bytes} {header : VideoFrameHeader} {left right : Slice}
    (routed : routePayload payload = .h264 header left right) :
    header = unpackVideoFrameHeader payload := by
  rcases route_cases payload with refused | ⟨other, l, r, encoded, same⟩
  · rw [refused] at routed
    exact absurd routed (by simp)
  · rw [same] at routed
    rw [encoded_header encoded]
    unfold routeCodec at routed
    split at routed
    · exact absurd routed (by simp)
    · split at routed
      · exact (Routed.h264.inj routed).1.symm
      · split at routed <;> exact absurd routed (by simp)

inductive Stage where
  | pacing
  | sending
  | recording
  deriving DecidableEq

structure HostBridge where
  videoFrame : UInt64 := 0
  startedStreaming : Bool := false
  stage : Stage := .pacing
  videoSendTimeNs : List (UInt64 × Int) := []
  latestVideoAckFrame : UInt64 := 0
  hasVideoAck : Bool := false
  deriving DecidableEq

def skipMissed (bridge : HostBridge) (missedFrames : UInt64) : UInt64 :=
  if bridge.startedStreaming then bridge.videoFrame + missedFrames else bridge.videoFrame

/-- A thread that is further than three frames behind the latest ack goes back to it. -/
def pace (bridge : HostBridge) (missedFrames : UInt64) : HostBridge :=
  let videoFrame := skipMissed bridge missedFrames
  if bridge.hasVideoAck ∧ videoFrame > bridge.latestVideoAckFrame + 3 then
    { bridge with videoFrame := bridge.latestVideoAckFrame + 3, stage := .sending }
  else { bridge with videoFrame := videoFrame, stage := .sending }

def sent (bridge : HostBridge) (ok : Bool) : HostBridge :=
  if ok then { bridge with startedStreaming := true, stage := .recording }
  else { bridge with startedStreaming := false, stage := .pacing }

def recordSendTime (bridge : HostBridge) (nowNs : Int) : HostBridge :=
  { bridge with
    videoSendTimeNs := assign bridge.videoFrame nowNs bridge.videoSendTimeNs
    videoFrame := bridge.videoFrame + 1
    stage := .pacing }

inductive StatsPayload where
  | videoAck (frameIndex : Option UInt64)
  | other

/-- An ack without a send time changes nothing but the old send times. -/
def handleStatsPayload (bridge : HostBridge) : StatsPayload → HostBridge
  | .other => bridge
  | .videoAck none => bridge
  | .videoAck (some frameIndex) =>
    let found := (bridge.videoSendTimeNs.lookup frameIndex).isSome
    let bridge :=
      if found then
        { bridge with
          videoSendTimeNs := bridge.videoSendTimeNs.filter fun entry => entry.1 ≠ frameIndex
          latestVideoAckFrame := frameIndex
          hasVideoAck := true }
      else bridge
    { bridge with
      videoSendTimeNs := bridge.videoSendTimeNs.filter fun entry =>
        ¬ entry.1 + 300 < frameIndex }

end HostVideoThread
