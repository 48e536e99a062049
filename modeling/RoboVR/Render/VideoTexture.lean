import RoboVR.Lib.StampedCache
import RoboVR.Render.StereoView

/- What a view's texture holds when it is drawn. A texture remembers the low half of the index of
   the frame it was filled from, and is not filled again where the next frame has the same; nor
   where OpenGL does not take the frame's size. -/
namespace QuestVideoTexture
open QuestTeleop (Bytes VideoFrameHeader)
open QuestMediaCodec QuestH264Decoder QuestHostPackets QuestRawRgba QuestStereoView
open TracedRun StampedCache

def Accepted (frame : StereoVideoFrame) : Prop :=
  ∃ (header : VideoFrameHeader) (left right : Bytes),
    left.length = header.leftPayloadSize.toNat ∧ right.length = header.rightPayloadSize.toNat ∧
      rawRgbaDecode header left right = (true, [.publishRawFrame frame])

structure Client where
  stereoFrame : Option StereoVideoFrame := none
  latestCodecFrame : UInt32 := 0xFFFFFFFF
  view : Eye → ViewTexture := fun _ => {}

inductive Call where
  | publishStereoVideoFrame (frame : {frame : StereoVideoFrame // Accepted frame})
  | publishStereoCodecFrame (frameIndex : UInt32)
  | renderView (eye : Eye) (acquired surfaceReady : Bool)

/-- A view that gets a swapchain image copies the slot before it draws. -/
inductive Event where
  | copied (eye : Eye) (frame : StereoVideoFrame)
  | shown (eye : Eye) (shown : Shown)

section Views
variable (gl : Gl)

def copies (s : Client) (eye : Eye) (acquired : Bool) : List Event :=
  match acquired, s.stereoFrame with
  | true, some frame => [.copied eye frame]
  | _, _ => []

def call (s : Client) : Call → Client × List Event
  | .publishStereoVideoFrame frame => ({ s with stereoFrame := some frame.val }, [])
  | .publishStereoCodecFrame frameIndex =>
    ({ s with latestCodecFrame := frameIndex, stereoFrame := none }, [])
  | .renderView eye acquired surfaceReady =>
    let rendered :=
      renderView gl eye acquired surfaceReady s.stereoFrame s.latestCodecFrame (s.view eye)
    ({ s with view := Function.update s.view eye rendered.1 },
      copies s eye acquired ++ [.shown eye rendered.2])

/-- Where the view's upload returns true, its texture holds its image of the frame in the slot. -/
def TextureCurrent (s : Client) (_ : List Event) : Call → Prop
  | .renderView eye true _ =>
    (uploadLatestVideoFrame gl eye s.stereoFrame (s.view eye)).2 = true →
      ∃ frame, s.stereoFrame = some frame ∧
        (uploadLatestVideoFrame gl eye s.stereoFrame (s.view eye)).1.image =
          some (imageOf eye frame)
  | _ => True

def copiedFrame (eye : Eye) : Event → Option StereoVideoFrame
  | .copied view frame => if view = eye then some frame else none
  | .shown _ _ => none

def lastCopied (eye : Eye) (past : List Event) : Option StereoVideoFrame :=
  (past.filterMap (copiedFrame eye)).getLast?

/-- The frame in the slot has the image of the frame that the view copied last, or another index in
    32 bits and a size that is stored; the first frame of all has not the index of an empty
    texture. -/
def CopiesFresh (s : Client) (past : List Event) : Call → Prop
  | .renderView eye true _ =>
    ∀ frame, s.stereoFrame = some frame →
      Fresh frameIndex32 (imageOf eye) gl.stores 0xFFFFFFFF (lastCopied eye past) frame
  | _ => True

theorem accepted_whole {frame : StereoVideoFrame} (accepted : Accepted frame) :
    WholeFrame frame ∧ frame.width ≠ 0 ∧ frame.height ≠ 0 := by
  obtain ⟨header, left, right, leftLength, rightLength, decoded⟩ := accepted
  have taken : (rawRgbaDecode header left right).1 = true := by rw [decoded]
  obtain ⟨eyeBytes, checked, events⟩ := rawRgbaDecode_true taken
  obtain ⟨wide, high, counted, _, leftSize, rightSize⟩ := checkedRawRgbaSize_some checked
  rw [decoded] at events
  simp only [List.cons.injEq, QuestMediaCodec.Event.publishRawFrame.injEq, and_true] at events
  rw [events]
  have leftTaken : (left.take eyeBytes).length = eyeBytes := by
    rw [List.length_take, leftLength, leftSize, Nat.min_self]
  have rightTaken : (right.take eyeBytes).length = eyeBytes := by
    rw [List.length_take, rightLength, rightSize, Nat.min_self]
  refine ⟨⟨?_, ?_⟩, ?_, ?_⟩
  · exact leftTaken.trans counted
  · exact rightTaken.trans counted
  · exact (positive_toNat wide).ne'
  · exact (positive_toNat high).ne'

def cellOf (view : ViewTexture) : Cell UInt32 Image := ⟨view.uploaded, view.image⟩

theorem upload_refresh (eye : Eye) {frame : StereoVideoFrame} (accepted : Accepted frame)
    (view : ViewTexture) :
    (uploadLatestVideoFrame gl eye (some frame) view).2 = true ∧
      cellOf (uploadLatestVideoFrame gl eye (some frame) view).1 =
        refresh frameIndex32 (imageOf eye) gl.stores frame (cellOf view) := by
  obtain ⟨whole, wide, high⟩ := accepted_whole accepted
  have sized : ¬ (imageOf eye frame).rgba.length ≠ expectedSize frame := by
    cases eye with
    | left => exact not_not.mpr whole.left
    | right => exact not_not.mpr whole.right
  have shown : ¬ (frame.width = 0 ∨ frame.height = 0) := not_or.mpr ⟨wide, high⟩
  rw [uploadLatestVideoFrame, if_neg shown, if_neg sized, refresh]
  by_cases same : view.uploaded = frameIndex32 frame
  · have stamped : (cellOf view).stamp = frameIndex32 frame := same
    rw [if_pos same, if_pos stamped]
    exact ⟨rfl, rfl⟩
  · have stamped : ¬ (cellOf view).stamp = frameIndex32 frame := same
    rw [if_neg same, if_neg stamped]
    exact ⟨rfl, rfl⟩

structure Tracked (s : Client) (past : List Event) : Prop where
  slot : ∀ frame, s.stereoFrame = some frame → Accepted frame
  view : ∀ eye, Holds frameIndex32 (imageOf eye) 0xFFFFFFFF (lastCopied eye past)
    (cellOf (s.view eye))

theorem tracked_start : Tracked {} [] where
  slot := by simp
  view := fun _ => rfl

theorem lastCopied_append_quiet (eye : Eye) (past : List Event) {es : List Event}
    (quiet : es.filterMap (copiedFrame eye) = []) :
    lastCopied eye (past ++ es) = lastCopied eye past := by
  rw [lastCopied, List.filterMap_append, quiet, List.append_nil, lastCopied]

theorem lastCopied_append_copy (eye : Eye) (past : List Event) {es : List Event}
    {frame : StereoVideoFrame} (copy : es.filterMap (copiedFrame eye) = [frame]) :
    lastCopied eye (past ++ es) = some frame := by
  rw [lastCopied, List.filterMap_append, copy, List.getLast?_concat]

theorem renderView_texture (eye : Eye) (acquired surfaceReady : Bool)
    (slot : Option StereoVideoFrame) (codec : UInt32) (view : ViewTexture) :
    (renderView gl eye acquired surfaceReady slot codec view).1 =
      if acquired then (uploadLatestVideoFrame gl eye slot view).1 else view := by
  cases acquired with
  | false => rfl
  | true =>
    simp only [renderView, if_true]
    split
    · rfl
    · split
      · rfl
      · rfl

theorem tracked_render {s : Client} {past : List Event} (kept : Tracked s past) (eye : Eye)
    (acquired surfaceReady : Bool)
    (fresh : CopiesFresh gl s past (.renderView eye acquired surfaceReady)) :
    Tracked (call gl s (.renderView eye acquired surfaceReady)).1
      (past ++ (call gl s (.renderView eye acquired surfaceReady)).2) := by
  constructor
  · exact kept.slot
  · intro seen
    simp only [call]
    by_cases mine : seen = eye
    · rw [mine, Function.update_self, renderView_texture]
      cases acquired with
      | false =>
        rw [lastCopied_append_quiet eye past (by simp [copies, copiedFrame])]
        exact kept.view eye
      | true =>
        cases held : s.stereoFrame with
        | none =>
          rw [lastCopied_append_quiet eye past (by simp [copies, copiedFrame, held])]
          exact kept.view eye
        | some frame =>
          rw [lastCopied_append_copy eye past (by simp [copies, copiedFrame, held]; rfl),
            if_pos rfl,
            (upload_refresh gl eye (kept.slot frame held) (s.view eye)).2]
          exact refresh_holds frameIndex32 (imageOf eye) gl.stores (kept.view eye)
            (fresh frame held)
    · have others : (copies s eye acquired ++
          [Event.shown eye (renderView gl eye acquired surfaceReady s.stereoFrame s.latestCodecFrame
            (s.view eye)).2]).filterMap (copiedFrame seen) = [] := by
        unfold copies
        split
        · simp [copiedFrame, Ne.symm mine]
        · simp [copiedFrame]
      rw [lastCopied_append_quiet seen past others, Function.update_of_ne mine]
      exact kept.view seen

theorem tracked_call (s : Client) (past : List Event) (next : Call) (kept : Tracked s past)
    (fresh : CopiesFresh gl s past next) :
    Tracked (call gl s next).1 (past ++ (call gl s next).2) := by
  cases next with
  | publishStereoVideoFrame frame =>
    constructor
    · rintro held same
      obtain rfl := Option.some.inj same
      exact frame.property
    · intro eye
      rw [lastCopied_append_quiet eye past rfl]
      exact kept.view eye
  | publishStereoCodecFrame frameIndex =>
    constructor
    · simp [call]
    · intro eye
      rw [lastCopied_append_quiet eye past rfl]
      exact kept.view eye
  | renderView eye acquired surfaceReady =>
    exact tracked_render gl kept eye acquired surfaceReady fresh

theorem textureCurrent_iff (s : Client) (past : List Event) (next : Call)
    (kept : Tracked s past) : TextureCurrent gl s past next ↔ CopiesFresh gl s past next := by
  cases next with
  | publishStereoVideoFrame frame => exact Iff.rfl
  | publishStereoCodecFrame frameIndex => exact Iff.rfl
  | renderView eye acquired surfaceReady =>
    cases acquired with
    | false => exact Iff.rfl
    | true =>
      simp only [TextureCurrent, CopiesFresh]
      cases held : s.stereoFrame with
      | none => simp [uploadLatestVideoFrame]
      | some frame =>
        obtain ⟨returns, refreshed⟩ := upload_refresh gl eye (kept.slot frame held) (s.view eye)
        have image : (uploadLatestVideoFrame gl eye (some frame) (s.view eye)).1.image =
            (refresh frameIndex32 (imageOf eye) gl.stores frame (cellOf (s.view eye))).content := by
          rw [← refreshed]
          rfl
        have current :=
          refresh_current_iff frameIndex32 (imageOf eye) gl.stores (kept.view eye) frame
        rw [returns, image]
        simpa using current

/-- In every run, the textures are current exactly where every copy is a fresh one. -/
theorem texture_current_iff (calls : List Call) :
    AtSteps (call gl) (TextureCurrent gl) {} [] calls ↔
      AtSteps (call gl) (CopiesFresh gl) {} [] calls := by
  apply atSteps_iff Tracked _ (textureCurrent_iff gl) tracked_start
  intro s past next kept current
  exact tracked_call gl s past next kept ((textureCurrent_iff gl s past next kept).mp current)

end Views

theorem pixelFrame_accepted (frameIndex : UInt64) (shade : UInt8) :
    Accepted (pixelFrame frameIndex.toNat shade) :=
  ⟨{ rawHeader 1 1 4 with frameIndex := frameIndex }, [shade, shade, shade, 255],
    [shade, shade, shade, 255], rfl, rfl, rfl⟩

/-- A stream that restarts its numbering behind one frame keeps the old image on display. -/
theorem texture_stale_after_restart :
    ¬ AtSteps (call largeTextures) (TextureCurrent largeTextures) {} []
      [.publishStereoVideoFrame ⟨pixelFrame 0 10, pixelFrame_accepted 0 10⟩,
        .renderView .left true true,
        .publishStereoVideoFrame ⟨pixelFrame 0 20, pixelFrame_accepted 0 20⟩,
        .renderView .left true true] := by
  intro current
  obtain ⟨frame, held, image⟩ := current.2.2.2.1 rfl
  have restarted : pixelFrame 0 20 = frame := Option.some.inj held
  rw [← restarted] at image
  exact absurd image (by decide)

end QuestVideoTexture
