import RoboVR.Decoder.RawRgba

/- The two views of a rendered frame. The transport thread publishes stereo frames into one slot,
   and each view copies the slot on its own, with a texture that remembers its frame's index. -/
namespace QuestStereoView
open QuestTeleop (Bytes VideoFrameHeader unpackVideoFrameHeader)
open QuestMediaCodec QuestH264Decoder QuestHostPackets QuestRawRgba
open QuestCpuFrame (toInt32)
open TracedRun

structure Image where
  width : Nat
  height : Nat
  rgba : Bytes
  deriving DecidableEq

def imageOf (eye : Eye) (frame : StereoVideoFrame) : Image :=
  { width := frame.width
    height := frame.height
    rgba := match eye with
      | .left => frame.leftRgba
      | .right => frame.rightRgba }

def expectedSize (frame : StereoVideoFrame) : Nat :=
  frame.width * frame.height % 2 ^ 64 * 4 % 2 ^ 64

structure WholeFrame (frame : StereoVideoFrame) : Prop where
  left : frame.leftRgba.length = expectedSize frame
  right : frame.rightRgba.length = expectedSize frame

theorem published_whole {d : H264AnnexBDecoder} {payload : Bytes} {turn : Turn}
    (raw : (unpackVideoFrameHeader payload).codec = QuestVideoPayload.kRawRgba)
    (accepted : (handlePayload d payload turn).2.2 = true) {frame : StereoVideoFrame}
    (published : QuestMediaCodec.Event.publishRawFrame frame ∈ (handlePayload d payload turn).2.1) :
    WholeFrame frame := by
  obtain ⟨left, right, encoded, same, taken⟩ := accepted_encoded raw accepted
  obtain ⟨eyeBytes, checked, events⟩ := rawRgbaDecode_true taken
  obtain ⟨_, _, counted, _, leftSize, rightSize⟩ := checkedRawRgbaSize_some checked
  rw [same, events, List.mem_singleton,
    QuestMediaCodec.Event.publishRawFrame.injEq] at published
  rw [published]
  constructor
  · rw [List.length_take, encoded.leftSize, leftSize, Nat.min_self, counted]
    rfl
  · rw [List.length_take, encoded.rightSize, rightSize, Nat.min_self, counted]
    rfl

structure ViewTexture where
  uploaded : UInt32 := 0xFFFFFFFF
  image : Option Image := none
  deriving DecidableEq

inductive Shown where
  | nothing
  | videoTexture (image : Option Image)
  | codecSurface
  | waitingOverlay
  deriving DecidableEq

def frameIndex32 (frame : StereoVideoFrame) : UInt32 := UInt32.ofNat frame.frameIndex

/-- Which sizes OpenGL stores as a texture. A negative one, or one above the limit, is
    GL_INVALID_VALUE; what it refuses besides is left open. -/
structure Gl where
  maxTextureSize : Nat
  accepts : Int → Int → Bool
  inRange : ∀ width height, accepts width height = true →
    (0 ≤ width ∧ width ≤ maxTextureSize) ∧ 0 ≤ height ∧ height ≤ maxTextureSize

def Gl.stores (gl : Gl) (image : Image) : Bool :=
  gl.accepts (toInt32 image.width) (toInt32 image.height)

/-- An error leaves the texture as it was, and nobody asks for it. -/
def glTexImage2D (gl : Gl) (image : Image) (texture : Option Image) : Option Image :=
  if gl.stores image then some image else texture

section Views
variable (gl : Gl)

def uploadLatestVideoFrame (eye : Eye) (slot : Option StereoVideoFrame) (view : ViewTexture) :
    ViewTexture × Bool :=
  match slot with
  | none => (view, false)
  | some frame =>
    if frame.width = 0 ∨ frame.height = 0 then (view, false)
    else if view.uploaded = frameIndex32 frame then (view, true)
    else if (imageOf eye frame).rgba.length ≠ expectedSize frame then (view, false)
    else
      ({ uploaded := frameIndex32 frame
         image := glTexImage2D gl (imageOf eye frame) view.image }, true)

def drawLatestCodecSurfaceFrame (latestCodecFrame : UInt32) (surfaceReady : Bool) : Bool :=
  decide (latestCodecFrame ≠ 0xFFFFFFFF) && surfaceReady

def renderView (eye : Eye) (acquired surfaceReady : Bool) (slot : Option StereoVideoFrame)
    (latestCodecFrame : UInt32) (view : ViewTexture) : ViewTexture × Shown :=
  if acquired then
    let uploaded := uploadLatestVideoFrame gl eye slot view
    if uploaded.2 then (uploaded.1, .videoTexture uploaded.1.image)
    else if drawLatestCodecSurfaceFrame latestCodecFrame surfaceReady then
      (uploaded.1, .codecSurface)
    else (uploaded.1, .waitingOverlay)
  else (view, .nothing)

/- The two threads. -/

inductive Publication where
  | stereoVideoFrame (frame : {frame : StereoVideoFrame // WholeFrame frame})
  | stereoCodecFrame (frameIndex : UInt32)

structure LeftView where
  acquired : Bool
  copied : Option StereoVideoFrame
  shown : Shown
  deriving DecidableEq

structure Client where
  stereoFrame : Option StereoVideoFrame := none
  latestCodecFrame : UInt32 := 0xFFFFFFFF
  /-- Between the two assignments of `publishStereoCodecFrame`. -/
  resetting : Bool := false
  left : ViewTexture := {}
  right : ViewTexture := {}
  /-- Between the two views of `renderFrame`. -/
  between : Option LeftView := none

/-- The next step of the transport thread, which begins a publication unless it is inside one, or
    the next view of the render thread. -/
inductive Move where
  | transport (next : Publication)
  | renderView (acquired surfaceReady : Bool)

inductive Event where
  | published (frame : StereoVideoFrame)
  | shown (eye : Eye) (shown : Shown)

def publish (s : Client) : Publication → Client × List Event
  | .stereoVideoFrame frame => ({ s with stereoFrame := some frame.val }, [.published frame.val])
  | .stereoCodecFrame frameIndex =>
    ({ s with latestCodecFrame := frameIndex, resetting := true }, [])

def step (s : Client) : Move → Client × List Event
  | .transport next =>
    if s.resetting then ({ s with stereoFrame := none, resetting := false }, [])
    else publish s next
  | .renderView acquired surfaceReady =>
    match s.between with
    | none =>
      let left := renderView gl .left acquired surfaceReady s.stereoFrame s.latestCodecFrame s.left
      ({ s with
        left := left.1
        between := some { acquired := acquired, copied := s.stereoFrame, shown := left.2 } },
        [.shown .left left.2])
    | some _ =>
      let right :=
        renderView gl .right acquired surfaceReady s.stereoFrame s.latestCodecFrame s.right
      ({ s with right := right.1, between := none }, [.shown .right right.2])

def publishedFrames : List Event → List StereoVideoFrame :=
  List.filterMap fun
    | .published frame => some frame
    | .shown _ _ => none

def Shown.fromFrame : Shown → Bool
  | .videoTexture _ => true
  | _ => false

/-- Neither view shows a frame, or both show the images of one published frame. -/
def SameFrame (frames : List StereoVideoFrame) (left right : Shown) : Prop :=
  (left.fromFrame = false ∧ right.fromFrame = false) ∨
    ∃ frame ∈ frames, left = .videoTexture (some (imageOf .left frame)) ∧
      right = .videoTexture (some (imageOf .right frame))

def EyesMatch (s : Client) (past : List Event) : Move → Prop
  | .transport _ => True
  | .renderView acquired surfaceReady =>
    ∀ left, s.between = some left →
      SameFrame (publishedFrames past) left.shown
        (renderView gl .right acquired surfaceReady s.stereoFrame s.latestCodecFrame s.right).2

/-- The left view fills an empty texture: what it copies has not the index of an empty texture,
    and a size that is stored. The right view finds in the slot what the left view found; both get
    an image or neither. -/
def CopiesAlike (s : Client) (_ : List Event) : Move → Prop
  | .transport _ => True
  | .renderView acquired _ =>
    match s.between with
    | none => ∀ frame, s.stereoFrame = some frame → acquired = true → s.left.image = none →
      frameIndex32 frame ≠ 0xFFFFFFFF ∧ gl.stores (imageOf .left frame) = true
    | some left => acquired = left.acquired ∧ (acquired = true → s.stereoFrame = left.copied)

def FilledAlike (frames : List StereoVideoFrame) (left right : ViewTexture) : Prop :=
  left.uploaded = right.uploaded ∧
    ((left.image = none ∧ right.image = none ∧ left.uploaded = 0xFFFFFFFF) ∨
      ∃ frame ∈ frames, left.image = some (imageOf .left frame) ∧
        right.image = some (imageOf .right frame))

theorem filledAlike_more {frames more : List StereoVideoFrame} {left right : ViewTexture}
    (alike : FilledAlike frames left right) : FilledAlike (frames ++ more) left right := by
  obtain ⟨indices, empty | ⟨frame, mem, images⟩⟩ := alike
  · exact ⟨indices, .inl empty⟩
  · exact ⟨indices, .inr ⟨frame, List.mem_append_left _ mem, images⟩⟩

structure Shows (frames : List StereoVideoFrame) (view : ViewTexture)
    (frame : StereoVideoFrame) : Prop where
  whole : WholeFrame frame
  mem : frame ∈ frames
  fills : view.image = none →
    frameIndex32 frame ≠ 0xFFFFFFFF ∧ gl.stores (imageOf .left frame) = true

theorem upload_alike {frames : List StereoVideoFrame} {left right : ViewTexture}
    (alike : FilledAlike frames left right) {slot : Option StereoVideoFrame}
    (shows_ : ∀ frame, slot = some frame → Shows gl frames left frame) :
    FilledAlike frames (uploadLatestVideoFrame gl .left slot left).1
        (uploadLatestVideoFrame gl .right slot right).1 ∧
      ((uploadLatestVideoFrame gl .left slot left).2 = false ∧
          (uploadLatestVideoFrame gl .right slot right).2 = false ∨
        ∃ frame ∈ frames,
          uploadLatestVideoFrame gl .left slot left =
            ({ uploaded := (uploadLatestVideoFrame gl .left slot left).1.uploaded,
               image := some (imageOf .left frame) }, true) ∧
          uploadLatestVideoFrame gl .right slot right =
            ({ uploaded := (uploadLatestVideoFrame gl .right slot right).1.uploaded,
               image := some (imageOf .right frame) }, true)) := by
  obtain ⟨indices, images⟩ := alike
  cases slot with
  | none => exact ⟨⟨indices, images⟩, .inl ⟨rfl, rfl⟩⟩
  | some frame =>
    obtain ⟨whole, mem, fills⟩ := shows_ frame rfl
    by_cases empty : frame.width = 0 ∨ frame.height = 0
    · rw [uploadLatestVideoFrame, if_pos empty, uploadLatestVideoFrame, if_pos empty]
      exact ⟨⟨indices, images⟩, .inl ⟨rfl, rfl⟩⟩
    · by_cases again : left.uploaded = frameIndex32 frame
      · have againRight : right.uploaded = frameIndex32 frame := by rw [← indices, again]
        simp only [uploadLatestVideoFrame, if_neg empty, if_pos again, if_pos againRight]
        refine ⟨⟨indices, images⟩, .inr ?_⟩
        rcases images with ⟨unfilled, _, marker⟩ | ⟨shown, published, leftImage, rightImage⟩
        · exact absurd (again.symm.trans marker) (fills unfilled).1
        · refine ⟨shown, published, ?_, ?_⟩
          · rw [← leftImage]
          · rw [← rightImage]
      · have anewRight : ¬ right.uploaded = frameIndex32 frame := by rwa [← indices]
        have leftWhole : ¬ (imageOf .left frame).rgba.length ≠ expectedSize frame :=
          not_not.mpr whole.left
        have rightWhole : ¬ (imageOf .right frame).rgba.length ≠ expectedSize frame :=
          not_not.mpr whole.right
        rw [uploadLatestVideoFrame, if_neg empty, if_neg again, if_neg leftWhole,
          uploadLatestVideoFrame, if_neg empty, if_neg anewRight, if_neg rightWhole]
        have bothStore : gl.stores (imageOf .right frame) = gl.stores (imageOf .left frame) := rfl
        simp only [glTexImage2D, bothStore]
        by_cases stored : gl.stores (imageOf .left frame) = true
        · rw [if_pos stored, if_pos stored]
          exact ⟨⟨rfl, .inr ⟨frame, mem, rfl, rfl⟩⟩, .inr ⟨frame, mem, rfl, rfl⟩⟩
        · rw [if_neg stored, if_neg stored]
          rcases images with ⟨unfilled, _, _⟩ | ⟨shown, published, leftImage, rightImage⟩
          · exact absurd (fills unfilled).2 stored
          · rw [leftImage, rightImage]
            exact ⟨⟨rfl, .inr ⟨shown, published, rfl, rfl⟩⟩, .inr ⟨shown, published, rfl, rfl⟩⟩

theorem renderView_alike {frames : List StereoVideoFrame} {left right : ViewTexture}
    (alike : FilledAlike frames left right) {slot : Option StereoVideoFrame}
    (shows_ : ∀ frame, slot = some frame → Shows gl frames left frame)
    (readyLeft readyRight : Bool) (codecLeft codecRight : UInt32) :
    FilledAlike frames (renderView gl .left true readyLeft slot codecLeft left).1
        (renderView gl .right true readyRight slot codecRight right).1 ∧
      SameFrame frames (renderView gl .left true readyLeft slot codecLeft left).2
        (renderView gl .right true readyRight slot codecRight right).2 := by
  obtain ⟨filled, ⟨leftNone, rightNone⟩ | ⟨frame, mem, leftShows, rightShows⟩⟩ :=
    upload_alike gl alike shows_
  · simp only [renderView, if_true, leftNone, rightNone, Bool.false_eq_true, if_false]
    cases drawLatestCodecSurfaceFrame codecLeft readyLeft <;>
      cases drawLatestCodecSurfaceFrame codecRight readyRight <;>
      exact ⟨filled, .inl ⟨rfl, rfl⟩⟩
  · have leftTaken : (uploadLatestVideoFrame gl .left slot left).2 = true := by rw [leftShows]
    have rightTaken : (uploadLatestVideoFrame gl .right slot right).2 = true := by rw [rightShows]
    have leftImage :
        (uploadLatestVideoFrame gl .left slot left).1.image = some (imageOf .left frame) := by
      rw [leftShows]
    have rightImage :
        (uploadLatestVideoFrame gl .right slot right).1.image = some (imageOf .right frame) := by
      rw [rightShows]
    simp only [renderView, if_true, leftTaken, rightTaken, leftImage, rightImage]
    exact ⟨filled, .inr ⟨frame, mem, rfl, rfl⟩⟩

structure InStep (s : Client) (past : List Event) : Prop where
  slot : ∀ frame, s.stereoFrame = some frame → WholeFrame frame ∧ frame ∈ publishedFrames past
  idle : s.between = none → FilledAlike (publishedFrames past) s.left s.right
  ahead : ∀ left, s.between = some left →
    ∃ before ready codec, FilledAlike (publishedFrames past) before s.right ∧
      (s.left, left.shown) = renderView gl .left left.acquired ready left.copied codec before ∧
      (left.acquired = true → ∀ frame, left.copied = some frame →
        Shows gl (publishedFrames past) before frame)

theorem inStep_start : InStep gl {} [] where
  slot := by simp
  idle := fun _ => ⟨rfl, .inl ⟨rfl, rfl, rfl⟩⟩
  ahead := by simp

theorem publishedFrames_append (past es : List Event) :
    publishedFrames (past ++ es) = publishedFrames past ++ publishedFrames es := by
  simp [publishedFrames]

theorem inStep_publish {s : Client} (after : Client) {past es : List Event}
    (kept : InStep gl s past)
    (slot : ∀ frame, after.stereoFrame = some frame →
      WholeFrame frame ∧ frame ∈ publishedFrames (past ++ es))
    (left : after.left = s.left) (right : after.right = s.right)
    (between : after.between = s.between) : InStep gl after (past ++ es) := by
  constructor
  · exact slot
  · intro idle
    rw [left, right, publishedFrames_append]
    exact filledAlike_more (kept.idle (between ▸ idle))
  · intro view inside
    obtain ⟨before, ready, codec, alike, shown, copies⟩ := kept.ahead view (between ▸ inside)
    refine ⟨before, ready, codec, ?_, ?_, ?_⟩
    · rw [right, publishedFrames_append]
      exact filledAlike_more alike
    · rw [left, shown]
    · intro acquired frame copied
      obtain ⟨whole, mem, fills⟩ := copies acquired frame copied
      rw [publishedFrames_append]
      exact ⟨whole, List.mem_append_left _ mem, fills⟩

theorem inStep_transport {s : Client} {past : List Event} (kept : InStep gl s past)
    (next : Publication) :
    InStep gl (step gl s (.transport next)).1 (past ++ (step gl s (.transport next)).2) := by
  cases resetting : s.resetting with
  | true =>
    simp only [step, resetting, if_true]
    exact inStep_publish gl _ kept (by simp) rfl rfl rfl
  | false =>
    simp only [step, resetting, Bool.false_eq_true, if_false]
    cases next with
    | stereoVideoFrame frame =>
      have slot : ∀ held, some frame.val = some held →
          WholeFrame held ∧ held ∈ publishedFrames (past ++ [Event.published frame.val]) := by
        rintro held same
        obtain rfl := Option.some.inj same
        exact ⟨frame.property, by simp [publishedFrames]⟩
      exact inStep_publish gl (publish s (.stereoVideoFrame frame)).1 kept slot rfl rfl rfl
    | stereoCodecFrame frameIndex =>
      have slot : ∀ held, s.stereoFrame = some held →
          WholeFrame held ∧ held ∈ publishedFrames (past ++ []) := by
        rw [List.append_nil]
        exact kept.slot
      exact inStep_publish gl (publish s (.stereoCodecFrame frameIndex)).1 kept slot rfl rfl rfl

theorem right_alike {s : Client} {past : List Event} (kept : InStep gl s past) {left : LeftView}
    (inside : s.between = some left) {acquired : Bool} (ready : Bool)
    (both : acquired = left.acquired) (same : acquired = true → s.stereoFrame = left.copied) :
    FilledAlike (publishedFrames past) s.left
        (renderView gl .right acquired ready s.stereoFrame s.latestCodecFrame s.right).1 ∧
      SameFrame (publishedFrames past) left.shown
        (renderView gl .right acquired ready s.stereoFrame s.latestCodecFrame s.right).2 := by
  obtain ⟨before, readyLeft, codec, alike, shown, copies⟩ := kept.ahead left inside
  obtain ⟨leftTexture, leftShown⟩ := Prod.mk.inj shown
  cases acquired with
  | true =>
    rw [← both] at leftTexture leftShown copies
    rw [leftTexture, leftShown, same rfl]
    exact renderView_alike gl alike (copies rfl) readyLeft ready codec s.latestCodecFrame
  | false =>
    rw [← both] at leftTexture leftShown
    rw [leftTexture, leftShown]
    exact ⟨alike, .inl ⟨rfl, rfl⟩⟩

theorem inStep_step (s : Client) (past : List Event) (move : Move) (kept : InStep gl s past)
    (alike : CopiesAlike gl s past move) :
    InStep gl (step gl s move).1 (past ++ (step gl s move).2) := by
  cases move with
  | transport next => exact inStep_transport gl kept next
  | renderView acquired surfaceReady =>
    simp only [CopiesAlike] at alike
    simp only [step]
    cases inside : s.between with
    | none =>
      rw [inside] at alike
      have quiet :
          ∀ shown, publishedFrames (past ++ [Event.shown .left shown]) = publishedFrames past := by
        simp [publishedFrames]
      constructor
      · rw [quiet]
        exact kept.slot
      · simp
      · rw [quiet]
        rintro left same
        obtain rfl := Option.some.inj same
        refine ⟨s.left, surfaceReady, s.latestCodecFrame, kept.idle inside, rfl, ?_⟩
        intro taken frame held
        obtain ⟨whole, mem⟩ := kept.slot frame held
        exact ⟨whole, mem, alike frame held taken⟩
    | some left =>
      rw [inside] at alike
      have quiet :
          ∀ shown, publishedFrames (past ++ [Event.shown .right shown]) = publishedFrames past := by
        simp [publishedFrames]
      constructor
      · rw [quiet]
        exact kept.slot
      · rw [quiet]
        intro _
        exact (right_alike gl kept inside surfaceReady alike.1 alike.2).1
      · simp

/-- In every run whose views copy alike, the two views of every rendered frame match. -/
theorem eyes_match (moves : List Move) (alike : AtSteps (step gl) (CopiesAlike gl) {} [] moves) :
    AtSteps (step gl) (EyesMatch gl) {} [] moves := by
  apply atSteps_mono (inStep_step gl) _ (inStep_start gl) alike
  intro s past move kept alike
  cases move with
  | transport next => trivial
  | renderView acquired surfaceReady =>
    intro left inside
    simp only [CopiesAlike, inside] at alike
    exact (right_alike gl kept inside surfaceReady alike.1 alike.2).2

end Views

def largeTextures : Gl where
  maxTextureSize := 4096
  accepts width height :=
    decide ((0 ≤ width ∧ width ≤ 4096) ∧ 0 ≤ height ∧ height ≤ 4096)
  inRange := by simp

def pixelFrame (frameIndex : Nat) (shade : UInt8) : StereoVideoFrame :=
  { frameIndex := frameIndex, width := 1, height := 1
    leftRgba := [shade, shade, shade, 255], rightRgba := [shade, shade, shade, 255] }

theorem eyes_matched :
    AtSteps (step largeTextures) (EyesMatch largeTextures) {} []
      [.transport (.stereoVideoFrame ⟨pixelFrame 0 10, rfl, rfl⟩), .renderView true true,
        .renderView true false, .transport (.stereoVideoFrame ⟨pixelFrame 1 20, rfl, rfl⟩),
        .renderView true true, .renderView true true] := by
  have first : ∀ frame, some (pixelFrame 0 10) = some frame → true = true →
      ({} : ViewTexture).image = none →
      frameIndex32 frame ≠ 0xFFFFFFFF ∧ largeTextures.stores (imageOf .left frame) = true := by
    rintro frame held _ _
    rw [← Option.some.inj held]
    exact ⟨by decide, by decide⟩
  have second : ∀ frame, some (pixelFrame 1 20) = some frame → true = true →
      some (imageOf .left (pixelFrame 0 10)) = none →
      frameIndex32 frame ≠ 0xFFFFFFFF ∧ largeTextures.stores (imageOf .left frame) = true := by
    simp
  exact eyes_match largeTextures _
    ⟨trivial, first, ⟨rfl, fun _ => rfl⟩, trivial, second, ⟨rfl, fun _ => rfl⟩,
    trivial⟩

/-- A frame published between the two copies of one rendered frame. -/
theorem eyes_torn :
    ¬ AtSteps (step largeTextures) (EyesMatch largeTextures) {} []
      [.transport (.stereoVideoFrame ⟨pixelFrame 0 10, rfl, rfl⟩), .renderView true true,
        .transport (.stereoVideoFrame ⟨pixelFrame 1 20, rfl, rfl⟩), .renderView true true] := by
  intro matched
  rcases matched.2.2.2.1 _ rfl with ⟨none_, _⟩ | ⟨frame, mem, left, right⟩
  · exact absurd none_ (by decide)
  · have published : frame ∈ [pixelFrame 0 10, pixelFrame 1 20] := mem
    simp only [List.mem_cons, List.not_mem_nil, or_false] at published
    rcases published with rfl | rfl
    · exact absurd right (by decide)
    · exact absurd left (by decide)

end QuestStereoView
