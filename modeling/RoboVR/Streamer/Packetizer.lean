import RoboVR.Lib.Blocks
import RoboVR.Streamer.Pairing

/- The packets of the stereo example. Raw frames are packed as they come, H.264 frames go through
   two encoders and leave in pairs. -/
namespace QuestPacketizer
open Blocks
open QuestTeleop (Bytes)
open QuestProtocol (CODEC_RAW_RGBA VIDEO_FRAME_KEYFRAME MAX_QUEST_PAYLOAD_BYTES)
open AnnexBReaderLoop (H264Encoder)
open QuestVideoPayload (stereoPayload)
open QuestVideoStreamer (Eye Event ReaderWork collect packPair)

/-- A numpy array of bytes: its first axis, the others, and the bytes in C order. -/
structure NdArray where
  rows : Nat
  row : List Nat
  data : Bytes
  sized : data.length = rows * row.prod

def tupleText : List Nat → String
  | [] => "()"
  | [n] => "(" ++ toString n ++ ",)"
  | shape => "(" ++ String.intercalate ", " (shape.map toString) ++ ")"

def NdArray.flipped (rgb : NdArray) : NdArray where
  rows := rgb.rows
  row := rgb.row
  data := (List.range rgb.rows).flatMap fun y => block rgb.row.prod (rgb.rows - 1 - y) rgb.data
  sized := joined_length fun y below => block_length rgb.sized (by omega)

def rgbaPixels (pixels : Nat) (data : Bytes) : Bytes :=
  (List.range pixels).flatMap fun p => block 3 p data ++ [255]

def rgbToRgbaBytes (rgb : NdArray) : Except String Bytes :=
  match rgb.row with
  | [width, 3] => .ok (rgbaPixels (rgb.rows * width) rgb.data)
  | row => .error ("expected HxWx3 uint8 RGB frame, got " ++ tupleText (rgb.rows :: row))

def makeRawStereoPayload (frameIndex width height : Int) (left right : Bytes)
    (monotonicNs : Int) : Option Bytes :=
  stereoPayload CODEC_RAW_RGBA VIDEO_FRAME_KEYFRAME 0 frameIndex monotonicNs width height left right

inductive Codec where
  | raw
  | h264
  deriving DecidableEq

structure Args where
  codec : Codec
  width : Int
  height : Int
  swapEyes : Bool
  noFlipY : Bool
  h264Encoder : String

structure StereoRgbFrame where
  frameIndex : Int
  left : NdArray
  right : NdArray

structure StereoPacketizer where
  args : Args
  leftEncoder : Option H264Encoder := none
  rightEncoder : Option H264Encoder := none
  pendingLeftAu : Option (Nat × Bytes) := none
  pendingRightAu : Option (Nat × Bytes) := none
  sentH264Frames : Nat := 0

def newPacketizer (args : Args) : StereoPacketizer :=
  match args.codec with
  | .raw => { args := args }
  | .h264 =>
    { args := args, leftEncoder := some H264Encoder.init, rightEncoder := some H264Encoder.init }

/-- A frame with what its packing meets: the exceptions of the encoders and of `struct.pack`, and
    what the reader threads do before each take. -/
structure Call where
  frame : StereoRgbFrame
  encodeLeft : Option String
  encodeRight : Option String
  leftWork : List ReaderWork
  rightWork : List ReaderWork
  monotonicNs : Int
  packing : String

abbrev Outcome := StereoPacketizer × List Event × Except String (Option (Bytes × String))

def oriented (args : Args) (frame : StereoRgbFrame) : NdArray × NdArray :=
  let eyes := if args.swapEyes then (frame.right, frame.left) else (frame.left, frame.right)
  if args.noFlipY then eyes else (eyes.1.flipped, eyes.2.flipped)

def tooLong (size : Nat) : String :=
  "raw stereo payload is " ++ toString size ++ " bytes; current Quest guard is " ++
    toString MAX_QUEST_PAYLOAD_BYTES ++ ". Lower --width/--height or add H.264 encoding."

def makeRawPacket (args : Args) (call : Call) (images : NdArray × NdArray) :
    Except String (Bytes × String) :=
  match rgbToRgbaBytes images.1 with
  | .error message => .error message
  | .ok left =>
    match rgbToRgbaBytes images.2 with
    | .error message => .error message
    | .ok right =>
      match makeRawStereoPayload call.frame.frameIndex args.width args.height left right
        call.monotonicNs with
      | none => .error call.packing
      | some payload =>
        if payload.length > MAX_QUEST_PAYLOAD_BYTES then .error (tooLong payload.length)
        else .ok (payload, "raw stereo frame=" ++ toString call.frame.frameIndex)

def h264Text (encoder : String) (left right : Nat × Bytes) : String :=
  "h264/" ++ encoder ++ " stereo frame=" ++ toString (min left.1 right.1) ++ " left_idx=" ++
    toString left.1 ++ " right_idx=" ++ toString right.1 ++ " bytes=(" ++
    toString left.2.length ++ "," ++ toString right.2.length ++ ")"

/-- The packet of two units; one that does not pack leaves both in their slots. -/
def packet (s : StereoPacketizer) (call : Call) (left right : Nat × Bytes) :
    Option Bytes → Outcome
  | none => (s, [], .error call.packing)
  | some payload =>
    ({ s with
      pendingLeftAu := none
      pendingRightAu := none
      sentH264Frames := s.sentH264Frames + 1 }, [.handed payload],
      .ok (some (payload, h264Text s.args.h264Encoder left right)))

def sendPending (s : StereoPacketizer) (call : Call) : Outcome :=
  match s.pendingLeftAu, s.pendingRightAu with
  | some left, some right =>
    packet s call left right (packPair s.args.width s.args.height call.monotonicNs left right)
  | _, _ => (s, [], .ok none)

def takeUnits (s : StereoPacketizer) (call : Call) (left right : H264Encoder) :
    StereoPacketizer × List Event :=
  let leftLane := collect .left left s.pendingLeftAu call.leftWork
  let rightLane := collect .right right s.pendingRightAu call.rightWork
  ({ s with
    leftEncoder := some leftLane.1
    rightEncoder := some rightLane.1
    pendingLeftAu := leftLane.2.1
    pendingRightAu := rightLane.2.1 }, leftLane.2.2 ++ rightLane.2.2)

def makeH264Packet (s : StereoPacketizer) (call : Call) (images : NdArray × NdArray) : Outcome :=
  match s.leftEncoder, s.rightEncoder with
  | some left, some right =>
    match call.encodeLeft with
    | some message => (s, [], .error message)
    | none =>
      match call.encodeRight with
      | some message => (s, [.encoded .left images.1.data], .error message)
      | none =>
        let taken := takeUnits s call left right
        let sent := sendPending taken.1 call
        (sent.1, [.encoded .left images.1.data, .encoded .right images.2.data] ++
          (taken.2 ++ sent.2.1), sent.2.2)
  | _, _ => (s, [], .error "H.264 encoders were not initialized")

def makePacket (s : StereoPacketizer) (call : Call) : Outcome :=
  let images := oriented s.args call.frame
  match s.args.codec with
  | .raw => (s, [], (makeRawPacket s.args call images).map some)
  | .h264 => makeH264Packet s call images

def packetStep (s : StereoPacketizer) (call : Call) : StereoPacketizer × List Event :=
  ((makePacket s call).1, (makePacket s call).2.1)

/- The H.264 packets. Behind the encoders the packetizer is a streamer whose every payload is
   taken. -/
section H264
open TracedRun QuestStreamerPairing
open QuestVideoStreamer (Quest3VideoStreamer encodeAndPair pairUp handOver gather encodeBoth)

def asStreamer (s : StereoPacketizer) (waited : Nat) : Quest3VideoStreamer :=
  { width := s.args.width
    height := s.args.height
    swapEyes := s.args.swapEyes
    leftEncoder := s.leftEncoder
    rightEncoder := s.rightEncoder
    pendingLeft := s.pendingLeftAu
    pendingRight := s.pendingRightAu
    framesSent := s.sentH264Frames
    encodePending := waited }

def asCall (call : Call) (images : NdArray × NdArray) : QuestVideoStreamer.Call :=
  { isConnected := true
    createLeft := none
    createRight := none
    prepareLeft := .ok images.1.data
    prepareRight := .ok images.2.data
    encodeLeft := call.encodeLeft
    encodeRight := call.encodeRight
    leftWork := call.leftWork
    rightWork := call.rightWork
    monotonicNs := call.monotonicNs
    packing := call.packing
    sendVideoFrame := .ok true }

theorem packet_handOver (s : StereoPacketizer) (call : Call) (images : NdArray × NdArray)
    (left right : Nat × Bytes) (packed : Option Bytes) :
    (handOver (asStreamer s 0) (asCall call images) packed).1 =
        asStreamer (packet s call left right packed).1 0 ∧
      (handOver (asStreamer s 0) (asCall call images) packed).2.1 =
        (packet s call left right packed).2.1 := by
  cases packed with
  | none => exact ⟨rfl, rfl⟩
  | some payload => exact ⟨rfl, rfl⟩

theorem sendPending_pairUp (s : StereoPacketizer) (call : Call) (images : NdArray × NdArray) :
    ∃ waited, (pairUp (asStreamer s 0) (asCall call images)).1 =
        asStreamer (sendPending s call).1 waited ∧
      (pairUp (asStreamer s 0) (asCall call images)).2.1 = (sendPending s call).2.1 := by
  cases left : s.pendingLeftAu with
  | none => exact ⟨1, by simp [pairUp, sendPending, asStreamer, left]⟩
  | some leftAu =>
    cases right : s.pendingRightAu with
    | none => exact ⟨1, by simp [pairUp, sendPending, asStreamer, left, right]⟩
    | some rightAu =>
      have isLeft : (asStreamer s 0).pendingLeft = some leftAu := left
      have isRight : (asStreamer s 0).pendingRight = some rightAu := right
      have width : (asStreamer s 0).width = s.args.width := rfl
      have height : (asStreamer s 0).height = s.args.height := rfl
      have stamp : (asCall call images).monotonicNs = call.monotonicNs := rfl
      simp only [pairUp, sendPending, isLeft, isRight, left, right, width, height, stamp]
      generalize packPair s.args.width s.args.height call.monotonicNs leftAu rightAu = packed
      exact ⟨0, packet_handOver s call images leftAu rightAu packed⟩

theorem makeH264Packet_streamer (s : StereoPacketizer) (call : Call)
    (images : NdArray × NdArray) :
    let streamed :=
      encodeAndPair (asStreamer s 0) (asCall call images) (images.1.data, images.2.data)
    ∃ waited, streamed.1 = asStreamer (makeH264Packet s call images).1 waited ∧
      streamed.2.1 = (makeH264Packet s call images).2.1 := by
  cases left : s.leftEncoder with
  | none => exact ⟨0, by simp [encodeAndPair, makeH264Packet, asStreamer, left]⟩
  | some leftEncoder =>
    cases right : s.rightEncoder with
    | none => exact ⟨0, by simp [encodeAndPair, makeH264Packet, asStreamer, left, right]⟩
    | some rightEncoder =>
      have gathered : gather (asStreamer s 0) (asCall call images) leftEncoder rightEncoder =
          (asStreamer (takeUnits s call leftEncoder rightEncoder).1 0,
            (takeUnits s call leftEncoder rightEncoder).2) := rfl
      cases failed : call.encodeLeft with
      | some message =>
        exact ⟨0, by
          simp [encodeAndPair, makeH264Packet, asStreamer, asCall, encodeBoth, left, right, failed]⟩
      | none =>
        cases failedRight : call.encodeRight with
        | some message =>
          exact ⟨0, by
            simp [encodeAndPair, makeH264Packet, asStreamer, asCall, encodeBoth, left, right,
              failed, failedRight]⟩
        | none =>
          obtain ⟨waited, after, happened⟩ :=
            sendPending_pairUp (takeUnits s call leftEncoder rightEncoder).1 call images
          refine ⟨waited, ?_⟩
          have encoded : encodeBoth (asCall call images) images.1.data images.2.data =
              ([.encoded .left images.1.data, .encoded .right images.2.data], .ok ()) := by
            simp [encodeBoth, asCall, failed, failedRight]
          have isLeft : (asStreamer s 0).leftEncoder = some leftEncoder := left
          have isRight : (asStreamer s 0).rightEncoder = some rightEncoder := right
          simp only [encodeAndPair, makeH264Packet, isLeft, isRight, left, right, encoded, failed,
            failedRight, gathered, after, happened, and_self]

/-- Both encoders are there, and their lanes are those of a streamer. -/
structure Running (args : Args) (s : StereoPacketizer) (past : List Event) : Prop where
  same : s.args = args
  encoder : s.rightEncoder ≠ none
  paired : Paired (asStreamer s 0) past

theorem packet_kept (s : StereoPacketizer) (call : Call) (left right : Nat × Bytes)
    (packed : Option Bytes) :
    (packet s call left right packed).1.args = s.args ∧
      (packet s call left right packed).1.rightEncoder = s.rightEncoder := by
  cases packed <;> exact ⟨rfl, rfl⟩

theorem sendPending_kept (s : StereoPacketizer) (call : Call) :
    (sendPending s call).1.args = s.args ∧
      (sendPending s call).1.rightEncoder = s.rightEncoder := by
  unfold sendPending
  split
  · exact packet_kept s call _ _ _
  · exact ⟨rfl, rfl⟩

theorem makeH264Packet_kept (s : StereoPacketizer) (call : Call) (images : NdArray × NdArray) :
    (makeH264Packet s call images).1.args = s.args ∧
      (s.rightEncoder ≠ none → (makeH264Packet s call images).1.rightEncoder ≠ none) := by
  unfold makeH264Packet
  split
  case h_2 => exact ⟨rfl, id⟩
  case h_1 left right _ _ =>
    split
    · exact ⟨rfl, id⟩
    · split
      · exact ⟨rfl, id⟩
      · obtain ⟨args, encoder⟩ := sendPending_kept (takeUnits s call left right).1 call
        refine ⟨args, fun _ => ?_⟩
        simp only [encoder]
        exact Option.some_ne_none _

theorem packetStep_running {args : Args} (h264 : args.codec = .h264) {s : StereoPacketizer}
    {past : List Event} (running : Running args s past) (call : Call) :
    AtEvents (HandsPair args.width args.height) past (packetStep s call).2 ∧
      Running args (packetStep s call).1 (past ++ (packetStep s call).2) := by
  obtain ⟨same, encoder, paired⟩ := running
  have step : packetStep s call =
      ((makeH264Packet s call (oriented s.args call.frame)).1,
        (makeH264Packet s call (oriented s.args call.frame)).2.1) := by
    simp only [packetStep, makePacket, same, h264]
  rw [step]
  generalize oriented s.args call.frame = images
  obtain ⟨waited, after, happened⟩ := makeH264Packet_streamer s call images
  obtain ⟨args_, still⟩ := makeH264Packet_kept s call images
  have goes := encodeAndPair_goes paired encoder (asCall call images)
    (images.1.data, images.2.data)
  have hands := goes.hands
  have lanes := goes.paired
  rw [happened] at hands lanes
  rw [after] at lanes
  rw [← same]
  exact ⟨hands, args_, still encoder, paired_fields lanes rfl rfl rfl rfl⟩

theorem newPacketizer_running {args : Args} (h264 : args.codec = .h264) :
    Running args (newPacketizer args) [] := by
  simp only [newPacketizer, h264]
  exact ⟨rfl, by simp, Paired.running _ _ rfl rfl lane_init lane_init⟩

/-- The k-th H.264 packet of a run is made of the k-th unit of each encoder, whichever calls time
    out or raise in between. -/
theorem packets_in_step {args : Args} (h264 : args.codec = .h264) (calls : List Call) :
    AtEvents (HandsPair args.width args.height) []
      (run packetStep (newPacketizer args) calls).2 := by
  have kept (s : StereoPacketizer) (past : List Event) (call : Call)
      (running : Running args s past) :
      Running args (packetStep s call).1 (past ++ (packetStep s call).2) :=
    (packetStep_running h264 running call).2
  rw [atEvents_run]
  apply atSteps_of_invariant kept _ (newPacketizer_running h264)
  intro s past call running
  exact (packetStep_running h264 running call).1

def pairArgs : Args :=
  { codec := .h264, width := 16, height := 8, swapEyes := false, noFlipY := true
    h264Encoder := "libx264" }

def noImage : NdArray := { rows := 0, row := [0, 3], data := [], sized := rfl }

def pairCall : Call :=
  { frame := { frameIndex := 0, left := noImage, right := noImage }
    encodeLeft := none
    encodeRight := none
    leftWork := [.nal [0, 0, 1, 0x65, 0x80], .finish]
    rightWork := [.nal [0, 0, 1, 0x65, 0x80], .finish]
    monotonicNs := 0
    packing := "" }

theorem two_calls_in_step :
    AtEvents (HandsPair 16 8) []
      (run packetStep (newPacketizer pairArgs) [pairCall, pairCall]).2 :=
  @packets_in_step pairArgs rfl [pairCall, pairCall]

end H264

end QuestPacketizer
