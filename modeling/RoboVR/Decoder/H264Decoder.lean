import RoboVR.Decoder.MediaCodec

/- The H.264 decoder of the headset. A call of `decode` gets what the two codecs, the clock and
   the surface provider answer in it, and gives the new state, its events and its result. The
   counters and averages that only reach the log are left out; a latency is in nanoseconds. -/
namespace QuestH264Decoder
open QuestTeleop (Bytes VideoFrameHeader)
open QuestCpuFrame (OutputFormat)
open QuestMediaCodec

structure VideoDecodeAck where
  frameIndex : Nat
  receiveToPublishNs : Int
  surfaceOutput : Bool
  deriving DecidableEq

structure StereoCodecSurfaces where
  leftWindow : Nat
  rightWindow : Nat
  generation : Nat
  deriving DecidableEq

/-- The ready maps only ever hold true, so they are the sets of their keys. -/
structure H264AnnexBDecoder where
  leftCodec : Option AMediaCodec := none
  rightCodec : Option AMediaCodec := none
  leftWindow : Option Nat := none
  rightWindow : Option Nat := none
  surfaceGeneration : Nat := 0
  width : UInt32 := 0
  height : UInt32 := 0
  surfaceOutput : Bool := false
  format : OutputFormat := {}
  decodedLeftByFrame : List (Nat × Bytes) := []
  decodedRightByFrame : List (Nat × Bytes) := []
  surfaceLeftReady : Finset Nat := ∅
  surfaceRightReady : Finset Nat := ∅
  receiveTimeByFrame : List (Nat × Int) := []
  lastPublishedFrameIndex : Nat := 0
  latestLatencyNs : Int := 0
  hasPublishedFrame : Bool := false
  pendingAcks : List VideoDecodeAck := []
  deriving DecidableEq

/-- What one eye's codec answers during a call: `outputs` to `drainSurfaceOutput`, `images` to
    `drainOutput`. -/
structure CodecTurn where
  create : CreateResult
  input : InputTurn
  outputs : Outputs
  images : List OutputResult := []

structure Turn where
  left : CodecTurn
  right : CodecTurn
  surfaces : Option StereoCodecSurfaces
  receiveTimeNs : Int
  publishTimeNs : Int

def assign {κ α : Type} [DecidableEq κ] (key : κ) (value : α) (entries : List (κ × α)) :
    List (κ × α) :=
  (key, value) :: entries.filter fun entry => entry.1 ≠ key

def eraseUpTo {α : Type} (frameIndex : Nat) (entries : List (Nat × α)) : List (Nat × α) :=
  entries.filter fun entry => frameIndex < entry.1

def resetStreamState (d : H264AnnexBDecoder) : H264AnnexBDecoder :=
  { d with
    decodedLeftByFrame := []
    decodedRightByFrame := []
    surfaceLeftReady := ∅
    surfaceRightReady := ∅
    receiveTimeByFrame := []
    lastPublishedFrameIndex := 0
    latestLatencyNs := 0
    hasPublishedFrame := false
    pendingAcks := [] }

def releaseCodec (eye : Eye) (codec : Option AMediaCodec) : List Event :=
  if codec.isSome then [.codecDeleted eye] else []

def releaseWindow (eye : Eye) (window : Option Nat) : List Event :=
  (window.map fun w => Event.windowReleased eye w).toList

def stop (d : H264AnnexBDecoder) : H264AnnexBDecoder × List Event :=
  (resetStreamState
    { d with
      leftCodec := none
      rightCodec := none
      leftWindow := none
      rightWindow := none
      surfaceOutput := false
      surfaceGeneration := 0
      width := 0
      height := 0
      format := {} },
    releaseCodec .left d.leftCodec ++ releaseCodec .right d.rightCodec ++
      releaseWindow .left d.leftWindow ++ releaseWindow .right d.rightWindow ++ [.stopped])

/-- The test at the head of `decode`; the sum wraps at 64 bits. -/
def rewound (d : H264AnnexBDecoder) (frameIndex : Nat) : Bool :=
  d.hasPublishedFrame && decide ((frameIndex + 2) % 2 ^ 64 < d.lastPublishedFrameIndex)

def restartIfRewound (d : H264AnnexBDecoder) (frameIndex : Nat) :
    H264AnnexBDecoder × List Event :=
  if rewound d frameIndex then stop d else (d, [])

def startCodecs (d : H264AnnexBDecoder) (surfaces : StereoCodecSurfaces) (turn : Turn) :
    H264AnnexBDecoder × List Event × Bool :=
  let acquired := [Event.windowAcquired .left surfaces.leftWindow,
    Event.windowAcquired .right surfaces.rightWindow]
  let left := createH264Decoder .left surfaces.leftWindow turn.left.create
  let right := createH264Decoder .right surfaces.rightWindow turn.right.create
  let d :=
    { d with
      leftWindow := some surfaces.leftWindow
      rightWindow := some surfaces.rightWindow
      surfaceGeneration := surfaces.generation
      surfaceOutput := true
      leftCodec := left.1
      rightCodec := right.1 }
  if left.1 = none ∨ right.1 = none then
    ((stop d).1, acquired ++ left.2 ++ right.2 ++ (stop d).2, false)
  else (d, acquired ++ left.2 ++ right.2, true)

def ensureStarted (d : H264AnnexBDecoder) (header : VideoFrameHeader) (turn : Turn) :
    H264AnnexBDecoder × List Event × Bool :=
  if header.width = 0 ∨ header.height = 0 ∨ header.leftPayloadSize = 0 ∨
      header.rightPayloadSize = 0 then (d, [], false)
  else if d.leftCodec ≠ none ∧ d.rightCodec ≠ none ∧ d.width = header.width ∧
      d.height = header.height then (d, [], true)
  else
    let stopped := stop d
    let d := { stopped.1 with width := header.width, height := header.height }
    match turn.surfaces with
    | none => (d, stopped.2, false)
    | some surfaces =>
      let started := startCodecs d surfaces turn
      (started.1, stopped.2 ++ started.2.1, started.2.2)

def queueStereo (d : H264AnnexBDecoder) (frameIndex : Nat) (left right : Bytes) (turn : Turn) :
    H264AnnexBDecoder × List Event × Bool :=
  let leftQueued := queueAccessUnit .left d.leftCodec left frameIndex turn.left.input
  let rightQueued := queueAccessUnit .right d.rightCodec right frameIndex turn.right.input
  let both := leftQueued.1 && rightQueued.1
  (if both then
    { d with receiveTimeByFrame := assign frameIndex turn.receiveTimeNs d.receiveTimeByFrame }
  else d, leftQueued.2 ++ rightQueued.2, both)

def markReady (ready : Finset Nat) (frameIndices : List Nat) : Finset Nat :=
  frameIndices.foldl (fun ready frameIndex => insert frameIndex ready) ready

def drainSurfaces (d : H264AnnexBDecoder) (turn : Turn) : H264AnnexBDecoder × List Event :=
  let left := drainSurfaceOutput .left d.leftCodec turn.left.outputs d.format
  let right := drainSurfaceOutput .right d.rightCodec turn.right.outputs left.format
  ({ d with
    format := right.format
    surfaceLeftReady := markReady d.surfaceLeftReady left.frameIndices
    surfaceRightReady := markReady d.surfaceRightReady right.frameIndices },
    left.events ++ right.events)

def unpublished (d : H264AnnexBDecoder) (frameIndex : Nat) : Bool :=
  ¬ (d.hasPublishedFrame ∧ frameIndex ≤ d.lastPublishedFrameIndex)

/-- The greatest unpublished index that is ready on both surfaces. -/
def readyFrameIndex (d : H264AnnexBDecoder) : Option Nat :=
  let ready := (d.surfaceLeftReady ∩ d.surfaceRightReady).filter fun n => unpublished d n
  if some_ : ready.Nonempty then some (ready.max' some_) else none

def latencyOf (d : H264AnnexBDecoder) (frameIndex : Nat) (publishTimeNs : Int) : Int :=
  match d.receiveTimeByFrame.lookup frameIndex with
  | some receiveTimeNs => publishTimeNs - receiveTimeNs
  | none => d.latestLatencyNs

def publishReady (d : H264AnnexBDecoder) (publishTimeNs : Int) :
    H264AnnexBDecoder × List Event :=
  match readyFrameIndex d with
  | none => (d, [])
  | some frameIndex =>
    let latency := latencyOf d frameIndex publishTimeNs
    ({ d with
      latestLatencyNs := latency
      pendingAcks := d.pendingAcks ++
        [{ frameIndex := frameIndex, receiveToPublishNs := latency, surfaceOutput := true }]
      lastPublishedFrameIndex := frameIndex
      hasPublishedFrame := true
      surfaceLeftReady := d.surfaceLeftReady.filter fun n => frameIndex < n
      surfaceRightReady := d.surfaceRightReady.filter fun n => frameIndex < n
      receiveTimeByFrame := eraseUpTo frameIndex d.receiveTimeByFrame },
      [.publishStereoCodecFrame frameIndex])

def drainImages (d : H264AnnexBDecoder) (turn : Turn) : H264AnnexBDecoder × List Event :=
  let left := drainOutput .left d.leftCodec d.width.toNat d.height.toNat turn.left.images d.format
  let right := drainOutput .right d.rightCodec d.width.toNat d.height.toNat turn.right.images
    left.format
  ({ d with
    format := right.format
    decodedLeftByFrame :=
      left.frames.foldl (fun entries f => assign f.1 f.2 entries) d.decodedLeftByFrame
    decodedRightByFrame :=
      right.frames.foldl (fun entries f => assign f.1 f.2 entries) d.decodedRightByFrame },
    left.events ++ right.events)

/-- The least unpublished index with a full-size image for both eyes, and the images. -/
def readyImages (d : H264AnnexBDecoder) : Option (Nat × Bytes × Bytes) :=
  let expected := d.width.toNat * d.height.toNat * 4
  d.decodedLeftByFrame.foldl (fun best entry =>
    match d.decodedRightByFrame.lookup entry.1 with
    | none => best
    | some right =>
      if unpublished d entry.1 ∧ entry.2.length = expected ∧ right.length = expected ∧
          best.all (fun b => entry.1 < b.1) then some (entry.1, entry.2, right)
      else best) none

def publishImages (d : H264AnnexBDecoder) (publishTimeNs : Int) :
    H264AnnexBDecoder × List Event :=
  match readyImages d with
  | none => (d, [])
  | some (frameIndex, left, right) =>
    let latency := latencyOf d frameIndex publishTimeNs
    ({ d with
      latestLatencyNs := latency
      pendingAcks := d.pendingAcks ++
        [{ frameIndex := frameIndex, receiveToPublishNs := latency, surfaceOutput := false }]
      lastPublishedFrameIndex := frameIndex
      hasPublishedFrame := true
      decodedLeftByFrame := eraseUpTo frameIndex d.decodedLeftByFrame
      decodedRightByFrame := eraseUpTo frameIndex d.decodedRightByFrame
      receiveTimeByFrame := eraseUpTo frameIndex d.receiveTimeByFrame },
      [.publishStereoVideoFrame
        { frameIndex := frameIndex, width := d.width.toNat, height := d.height.toNat,
          leftRgba := left, rightRgba := right }])

def output (d : H264AnnexBDecoder) (turn : Turn) : H264AnnexBDecoder × List Event :=
  if d.surfaceOutput then
    let drained := drainSurfaces d turn
    let published := publishReady drained.1 turn.publishTimeNs
    (published.1, drained.2 ++ published.2)
  else
    let drained := drainImages d turn
    let published := publishImages drained.1 turn.publishTimeNs
    (published.1, drained.2 ++ published.2)

def decode (d : H264AnnexBDecoder) (header : VideoFrameHeader) (left right : Bytes)
    (turn : Turn) : H264AnnexBDecoder × List Event × Bool :=
  let restarted := restartIfRewound d header.frameIndex.toNat
  let started := ensureStarted restarted.1 header turn
  if started.2.2 then
    let queued := queueStereo started.1 header.frameIndex.toNat left right turn
    let shown := output queued.1 turn
    (shown.1, restarted.2 ++ started.2.1 ++ queued.2.1 ++ shown.2, queued.2.2)
  else (started.1, restarted.2 ++ started.2.1, false)

def takeAcks (d : H264AnnexBDecoder) : H264AnnexBDecoder × List VideoDecodeAck :=
  ({ d with pendingAcks := [] }, d.pendingAcks)

end QuestH264Decoder
