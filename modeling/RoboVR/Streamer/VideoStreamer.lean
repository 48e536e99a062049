import RoboVR.AnnexB.Grouping
import RoboVR.Wire.VideoPayload
import RoboVR.Lib.TracedRun

/- `Quest3VideoStreamer.send` with its two encoders. A call gets what it meets on its way: the
   exceptions of each step, what the reader threads do before each take, and what the server
   answers. -/
namespace QuestVideoStreamer
open QuestTeleop (Bytes)
open AnnexBReaderLoop (H264Encoder)
open QuestVideoPayload (makeH264StereoPayload)

inductive Eye where
  | left
  | right
  deriving DecidableEq

inductive ReaderWork where
  | nal (bytes : Bytes)
  | finish

def readerWork (encoder : H264Encoder) : ReaderWork → H264Encoder
  | .nal bytes => encoder.processNal bytes
  | .finish => encoder.emitCurrent

def readerWorks (encoder : H264Encoder) (works : List ReaderWork) : H264Encoder :=
  works.foldl readerWork encoder

/-- `_queue.get`; None where it times out, which it does on an empty queue only. -/
def take (encoder : H264Encoder) : Option (Nat × Bytes) × H264Encoder :=
  match encoder.queue with
  | [] => (none, encoder)
  | unit :: queue => (some unit, { encoder with queue := queue })

structure Quest3VideoStreamer where
  width : Int
  height : Int
  swapEyes : Bool
  leftEncoder : Option H264Encoder := none
  rightEncoder : Option H264Encoder := none
  pendingLeft : Option (Nat × Bytes) := none
  pendingRight : Option (Nat × Bytes) := none
  framesSubmitted : Nat := 0
  framesSent : Nat := 0
  framesDropped : Nat := 0
  encodePending : Nat := 0
  lastError : Option String := none
  deriving DecidableEq

/-- What one call meets: an `Option String` is the exception that a step raises. -/
structure Call where
  isConnected : Bool
  createLeft : Option String
  createRight : Option String
  prepareLeft : Except String Bytes
  prepareRight : Except String Bytes
  encodeLeft : Option String
  encodeRight : Option String
  leftWork : List ReaderWork
  rightWork : List ReaderWork
  monotonicNs : Int
  packing : String
  sendVideoFrame : Except String Bool

inductive Event where
  | created (eye : Eye)
  | encoded (eye : Eye) (rgb : Bytes)
  | queued (eye : Eye) (unit : Nat × Bytes)
  | handed (payload : Bytes)
  deriving DecidableEq

abbrev Outcome (α : Type) := Quest3VideoStreamer × List Event × Except String α

def ensureEncoders (s : Quest3VideoStreamer) (call : Call) : Outcome Unit :=
  if s.leftEncoder ≠ none ∧ s.rightEncoder ≠ none then (s, [], .ok ())
  else
    match call.createLeft with
    | some message => (s, [], .error message)
    | none =>
      let s := { s with leftEncoder := some H264Encoder.init }
      match call.createRight with
      | some message => (s, [.created .left], .error message)
      | none =>
        ({ s with rightEncoder := some H264Encoder.init }, [.created .left, .created .right],
          .ok ())

def prepared (s : Quest3VideoStreamer) (call : Call) : Except String (Bytes × Bytes) :=
  match call.prepareLeft with
  | .error message => .error message
  | .ok left =>
    match call.prepareRight with
    | .error message => .error message
    | .ok right => .ok (if s.swapEyes then (right, left) else (left, right))

def encodeBoth (call : Call) (left right : Bytes) : List Event × Except String Unit :=
  match call.encodeLeft with
  | some message => ([], .error message)
  | none =>
    match call.encodeRight with
    | some message => ([.encoded .left left], .error message)
    | none => ([.encoded .left left, .encoded .right right], .ok ())

def collect (eye : Eye) (encoder : H264Encoder) (pending : Option (Nat × Bytes))
    (works : List ReaderWork) : H264Encoder × Option (Nat × Bytes) × List Event :=
  let worked := readerWorks encoder works
  let arrived := (worked.queue.drop encoder.queue.length).map (Event.queued eye)
  match pending with
  | some unit => (worked, some unit, arrived)
  | none =>
    let taken := take worked
    (taken.2, taken.1, arrived)

def packPair (width height monotonicNs : Int) (left right : Nat × Bytes) : Option Bytes :=
  makeH264StereoPayload (min left.1 right.1 : Nat) width height left.2 right.2 monotonicNs

/-- From the packed payload on; none where packing raises, which keeps both units. -/
def handOver (s : Quest3VideoStreamer) (call : Call) : Option Bytes → Outcome Bool
  | none => (s, [], .error call.packing)
  | some payload =>
    let s := { s with pendingLeft := none, pendingRight := none }
    match call.sendVideoFrame with
    | .error message => (s, [.handed payload], .error message)
    | .ok false =>
      ({ s with framesDropped := s.framesDropped + 1 }, [.handed payload], .ok false)
    | .ok true => ({ s with framesSent := s.framesSent + 1 }, [.handed payload], .ok true)

def gather (s : Quest3VideoStreamer) (call : Call) (left right : H264Encoder) :
    Quest3VideoStreamer × List Event :=
  let leftLane := collect .left left s.pendingLeft call.leftWork
  let rightLane := collect .right right s.pendingRight call.rightWork
  ({ s with
    leftEncoder := some leftLane.1
    rightEncoder := some rightLane.1
    pendingLeft := leftLane.2.1
    pendingRight := rightLane.2.1 }, leftLane.2.2 ++ rightLane.2.2)

def pairUp (s : Quest3VideoStreamer) (call : Call) : Outcome Bool :=
  match s.pendingLeft, s.pendingRight with
  | some left, some right =>
    handOver s call (packPair s.width s.height call.monotonicNs left right)
  | _, _ => ({ s with encodePending := s.encodePending + 1 }, [], .ok false)

def encodeAndPair (s : Quest3VideoStreamer) (call : Call) (images : Bytes × Bytes) :
    Outcome Bool :=
  match s.leftEncoder, s.rightEncoder with
  | some left, some right =>
    match encodeBoth call images.1 images.2 with
    | (encoded, .error message) => (s, encoded, .error message)
    | (encoded, .ok ()) =>
      let gathered := gather s call left right
      let paired := pairUp gathered.1 call
      (paired.1, encoded ++ (gathered.2 ++ paired.2.1), paired.2.2)
  -- the assertion that both encoders exist
  | _, _ => (s, [], .error "")

def attempt (s : Quest3VideoStreamer) (call : Call) : Outcome Bool :=
  let ensured := ensureEncoders s call
  match ensured.2.2 with
  | .error message => (ensured.1, ensured.2.1, .error message)
  | .ok () =>
    match prepared ensured.1 call with
    | .error message => (ensured.1, ensured.2.1, .error message)
    | .ok images =>
      let paired := encodeAndPair ensured.1 call images
      (paired.1, ensured.2.1 ++ paired.2.1, paired.2.2)

def send (s : Quest3VideoStreamer) (call : Call) : Quest3VideoStreamer × List Event × Bool :=
  let s := { s with framesSubmitted := s.framesSubmitted + 1 }
  if ¬ call.isConnected then ({ s with framesDropped := s.framesDropped + 1 }, [], false)
  else
    let attempted := attempt s call
    match attempted.2.2 with
    | .ok value => (attempted.1, attempted.2.1, value)
    | .error message =>
      ({ attempted.1 with
        framesDropped := attempted.1.framesDropped + 1
        lastError := some message }, attempted.2.1, false)

def sendCall (s : Quest3VideoStreamer) (call : Call) : Quest3VideoStreamer × List Event :=
  ((send s call).1, (send s call).2.1)

end QuestVideoStreamer
