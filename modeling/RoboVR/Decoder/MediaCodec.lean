import RoboVR.Decoder.CpuFrame

/- The calls the decoder makes on one codec. A codec answers as it likes; what it answers in
   one call of the decoder is given in advance, and what the decoder does is an event. -/
namespace QuestMediaCodec
open QuestTeleop (Bytes)
open QuestCpuFrame

inductive Eye where
  | left
  | right
  deriving DecidableEq

/-- A frame handed to the renderer, `frameIndex` still with all its bits. -/
structure StereoVideoFrame where
  frameIndex : Nat
  width : Nat
  height : Nat
  leftRgba : Bytes
  rightRgba : Bytes
  deriving DecidableEq

inductive Event where
  | windowAcquired (eye : Eye) (window : Nat)
  | windowReleased (eye : Eye) (window : Nat)
  | codecCreated (eye : Eye)
  | codecDeleted (eye : Eye)
  | stopped
  | inputDequeued (eye : Eye) (index : Nat)
  | inputQueued (eye : Eye) (index frameIndex : Nat) (data : Bytes)
  | outputReleased (eye : Eye) (index frameIndex : Nat) (nonempty render : Bool)
  | publishStereoCodecFrame (frameIndex : Nat)
  | publishStereoVideoFrame (frame : StereoVideoFrame)
  | publishRawFrame (frame : StereoVideoFrame)
  | ackSent (frameIndex : Nat) (surfaceOutput : Bool)
  deriving DecidableEq

inductive CreateResult where
  | noDecoder
  | noFormat
  | notConfigured
  | notStarted
  | started
  deriving DecidableEq

structure AMediaCodec where
  window : Nat
  deriving DecidableEq

def createH264Decoder (eye : Eye) (window : Nat) (result : CreateResult) :
    Option AMediaCodec × List Event :=
  match result with
  | .noDecoder => (none, [])
  | .noFormat | .notConfigured | .notStarted => (none, [.codecCreated eye, .codecDeleted eye])
  | .started => (some { window := window }, [.codecCreated eye])

inductive InputIndex where
  | tryAgainLater
  | failed
  | buffer (index : Nat)
  deriving DecidableEq

/-- What one attempt to queue input meets: the dequeued index, the size of its buffer (none
    for a null one), and whether the codec takes the filled buffer. -/
structure InputTurn where
  dequeued : InputIndex
  inputSize : Option Nat
  queued : Bool
  deriving DecidableEq

def queueAccessUnit (eye : Eye) (codec : Option AMediaCodec) (payload : Bytes)
    (frameIndex : Nat) (turn : InputTurn) : Bool × List Event :=
  if codec = none ∨ payload.length = 0 then (false, [])
  else
    match turn.dequeued with
    | .tryAgainLater => (false, [])
    | .failed => (false, [])
    | .buffer index =>
      match turn.inputSize with
      | none => (false, [.inputDequeued eye index])
      | some inputSize =>
        if inputSize < payload.length then (false, [.inputDequeued eye index])
        else if turn.queued then
          (true, [.inputDequeued eye index, .inputQueued eye index frameIndex payload])
        else (false, [.inputDequeued eye index])

structure BufferInfo where
  offset : Int
  size : Int
  presentationTimeUs : Int

inductive OutputResult where
  | tryAgainLater
  | formatChanged (keys : Option FormatKeys)
  | failed
  | buffer (index : Nat) (info : BufferInfo) (memory : Option Bytes)

def OutputResult.index : OutputResult → Option Nat
  | .buffer index _ _ => some index
  | _ => none

/-- The results of the dequeues of one surface drain, which releases the buffers behind them. The
    codec does not hand out an index again before it was released. -/
structure Outputs where
  results : List OutputResult
  held : (results.filterMap OutputResult.index).Nodup

def frameIndexOf (info : BufferInfo) : Nat := (max info.presentationTimeUs 0).toNat

structure PendingOutput where
  index : Nat
  frameIndex : Nat
  render : Bool
  deriving DecidableEq

def dequeueOutputs : Nat → List OutputResult → OutputFormat → List PendingOutput × OutputFormat
  | 0, _, format => ([], format)
  | _ + 1, [], format => ([], format)
  | _ + 1, .tryAgainLater :: _, format => ([], format)
  | n + 1, .formatChanged keys :: results, format =>
    dequeueOutputs n results (updateOutputFormat format keys)
  | _ + 1, .failed :: _, format => ([], format)
  | n + 1, .buffer index info _ :: results, format =>
    let more := dequeueOutputs n results format
    ({ index := index, frameIndex := frameIndexOf info, render := info.size > 0 } :: more.1,
      more.2)

/-- `latest_render_frame` and `latest_render_index`, the latter -1 for none. -/
def latestRender (outputs : List PendingOutput) : Option Nat × Int :=
  outputs.foldl (fun latest output =>
    if output.render ∧ latest.1.all (fun frame => output.frameIndex > frame) then
      (some output.frameIndex, output.index)
    else latest) (none, -1)

def releaseOutputs (eye : Eye) (latestIndex : Int) (outputs : List PendingOutput) :
    List Event :=
  outputs.map fun output =>
    .outputReleased eye output.index output.frameIndex output.render
      (decide ((output.index : Int) = latestIndex))

def renderedIndices (latestIndex : Int) (outputs : List PendingOutput) : List Nat :=
  (outputs.filter fun output => decide ((output.index : Int) = latestIndex)).map
    PendingOutput.frameIndex

structure SurfaceDrain where
  frameIndices : List Nat
  format : OutputFormat
  events : List Event

def drainSurfaceOutput (eye : Eye) (codec : Option AMediaCodec) (results : Outputs)
    (format : OutputFormat) : SurfaceDrain :=
  if codec = none then { frameIndices := [], format := format, events := [] }
  else
    let dequeued := dequeueOutputs 32 results.results format
    let latestIndex := (latestRender dequeued.1).2
    { frameIndices := renderedIndices latestIndex dequeued.1
      format := dequeued.2
      events := releaseOutputs eye latestIndex dequeued.1 }

structure CpuDrain where
  frames : List (Nat × Bytes)
  format : OutputFormat
  events : List Event

/-- The loop of `drainOutput`: each buffer is converted and released before the next. -/
def drainOutputFrom (eye : Eye) (width height : Nat) :
    Nat → List OutputResult → OutputFormat → CpuDrain
  | 0, _, format => { frames := [], format := format, events := [] }
  | _ + 1, [], format => { frames := [], format := format, events := [] }
  | _ + 1, .tryAgainLater :: _, format => { frames := [], format := format, events := [] }
  | n + 1, .formatChanged keys :: results, format =>
    drainOutputFrom eye width height n results (updateOutputFormat format keys)
  | _ + 1, .failed :: _, format => { frames := [], format := format, events := [] }
  | n + 1, .buffer index info memory :: results, format =>
    let frame :=
      match memory with
      | none => none
      | some output =>
        if info.size > 0 then convert format width height info.offset output else none
    let more := drainOutputFrom eye width height n results format
    { frames := (frame.map fun rgba => (frameIndexOf info, rgba)).toList ++ more.frames
      format := more.format
      events := .outputReleased eye index (frameIndexOf info) (info.size > 0) false ::
        more.events }

def drainOutput (eye : Eye) (codec : Option AMediaCodec) (width height : Nat)
    (results : List OutputResult) (format : OutputFormat) : CpuDrain :=
  if codec = none ∨ width = 0 ∨ height = 0 then
    { frames := [], format := format, events := [] }
  else drainOutputFrom eye width height 4 results format

end QuestMediaCodec
