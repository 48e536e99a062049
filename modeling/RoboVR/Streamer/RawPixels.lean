import RoboVR.Render.StereoView
import RoboVR.Streamer.Packetizer

/- A raw frame from the two images of the example to the two planes that the headset publishes,
   pixel by pixel. -/
namespace QuestRawPixels
open Blocks ByteRecord
open QuestTeleop (Bytes VideoFrameHeader unpackVideoFrameHeader packVideoFrameHeader
  kVideoFrameHeaderSize)
open QuestProtocol (VIDEO_FRAME_HEADER CODEC_RAW_RGBA VIDEO_FRAME_KEYFRAME MAX_QUEST_PAYLOAD_BYTES)
open QuestMediaCodec QuestH264Decoder QuestHostPackets QuestVideoPayload QuestRawRgba
open QuestPacketizer
open QuestStereoView (frameIndex32)

def IsRgb (rgb : NdArray) (width : Nat) : Prop := rgb.row = [width, 3]

def pixels (rgb : NdArray) : Nat := rgb.rows * rgb.row.headD 0

def eyeImage (args : Args) (frame : StereoRgbFrame) : Eye → NdArray
  | .left => if args.swapEyes then frame.right else frame.left
  | .right => if args.swapEyes then frame.left else frame.right

def sentRow (args : Args) (rows y : Nat) : Nat := if args.noFlipY then y else rows - 1 - y

/-- The plane is the image with an alpha of 255, its last row first unless `noFlipY` is set. -/
structure Shows (args : Args) (rgb : NdArray) (rgba : Bytes) : Prop where
  size : rgba.length = pixels rgb * 4
  pixel : ∀ width, IsRgb rgb width → ∀ y x, y < rgb.rows → x < width →
    block 4 (y * width + x) rgba =
      block 3 (sentRow args rgb.rows y * width + x) rgb.data ++ [255]

/-- What a raw frame must have to be packed. -/
structure Packable (args : Args) (call : Call) : Prop where
  left : ∃ width, IsRgb call.frame.left width
  right : ∃ width, IsRgb call.frame.right width
  frameIndex : 0 ≤ call.frame.frameIndex ∧ call.frame.frameIndex < 2 ^ 64
  stamp : -2 ^ 63 ≤ call.monotonicNs ∧ call.monotonicNs < 2 ^ 63
  width : 0 ≤ args.width ∧ args.width < 2 ^ 32
  height : 0 ≤ args.height ∧ args.height < 2 ^ 32
  small : kVideoFrameHeaderSize + pixels call.frame.left * 4 + pixels call.frame.right * 4 ≤
    1024 * 1024

/-- The header has as many pixels as each image; the product is taken in 64 bits of bytes. -/
structure Sized (args : Args) (frame : StereoRgbFrame) : Prop where
  width : 0 < args.width
  height : 0 < args.height
  left : args.width.toNat * args.height.toNat % 2 ^ 62 = pixels frame.left
  right : args.width.toNat * args.height.toNat % 2 ^ 62 = pixels frame.right

/- The bytes of one image. -/

theorem isRgb_size {rgb : NdArray} {width : Nat} (image : IsRgb rgb width) :
    pixels rgb = rgb.rows * width ∧ rgb.row.prod = width * 3 := by
  have shape : rgb.row = [width, 3] := image
  simp [pixels, shape]

theorem isRgb_data {rgb : NdArray} {width : Nat} (image : IsRgb rgb width) :
    rgb.data.length = rgb.rows * width * 3 := by
  rw [rgb.sized, (isRgb_size image).2, Nat.mul_assoc]

theorem rgba_each {count : Nat} {data : Bytes} (long : data.length = count * 3) {p : Nat}
    (inside : p < count) : (block 3 p data ++ [255]).length = 4 := by
  rw [List.length_append, block_length long inside]
  rfl

theorem rgbToRgbaBytes_image {rgb : NdArray} {width : Nat} (image : IsRgb rgb width) :
    rgbToRgbaBytes rgb = .ok (rgbaPixels (rgb.rows * width) rgb.data) := by
  simp only [rgbToRgbaBytes, show rgb.row = [width, 3] from image]

theorem rgbToRgbaBytes_ok {rgb : NdArray} {rgba : Bytes}
    (converted : rgbToRgbaBytes rgb = .ok rgba) : ∃ width, IsRgb rgb width := by
  unfold rgbToRgbaBytes at converted
  split at converted
  · next width shape => exact ⟨width, shape⟩
  · exact absurd converted (by simp)

theorem flipped_pixel {rgb : NdArray} {width : Nat} (image : IsRgb rgb width) {y x : Nat}
    (row : y < rgb.rows) (column : x < width) :
    block 3 (y * width + x) rgb.flipped.data =
      block 3 ((rgb.rows - 1 - y) * width + x) rgb.data := by
  have turned : block (width * 3) y rgb.flipped.data =
      block (width * 3) (rgb.rows - 1 - y) rgb.data := by
    rw [← (isRgb_size image).2]
    exact block_joined (fun y below => block_length rgb.sized (by omega)) row
  rw [← block_block column, turned, block_block column]

def sentImage (args : Args) (rgb : NdArray) : NdArray := if args.noFlipY then rgb else rgb.flipped

theorem sentImage_shape (args : Args) (rgb : NdArray) :
    (sentImage args rgb).rows = rgb.rows ∧ (sentImage args rgb).row = rgb.row := by
  unfold sentImage
  split <;> exact ⟨rfl, rfl⟩

theorem sentImage_pixel (args : Args) {rgb : NdArray} {width : Nat} (image : IsRgb rgb width)
    {y x : Nat} (row : y < rgb.rows) (column : x < width) :
    block 3 (y * width + x) (sentImage args rgb).data =
      block 3 (sentRow args rgb.rows y * width + x) rgb.data := by
  unfold sentImage sentRow
  split
  · rfl
  · exact flipped_pixel image row column

theorem sentImage_shows (args : Args) {rgb : NdArray} {width : Nat} (image : IsRgb rgb width) :
    ∃ rgba, rgbToRgbaBytes (sentImage args rgb) = .ok rgba ∧ Shows args rgb rgba := by
  obtain ⟨rows, row⟩ := sentImage_shape args rgb
  have sent : IsRgb (sentImage args rgb) width := row.trans image
  have long := isRgb_data sent
  refine ⟨_, rgbToRgbaBytes_image sent, ?_⟩
  rw [rows] at long ⊢
  constructor
  · rw [(isRgb_size image).1]
    exact joined_length fun p inside => rgba_each long inside
  · intro other shape y x inRow inColumn
    obtain rfl : width = other := by
      have same : [width, 3] = [other, 3] := image.symm.trans shape
      simpa using same
    have inside : y * width + x < rgb.rows * width := by
      have room : (y + 1) * width ≤ rgb.rows * width := Nat.mul_le_mul_right width inRow
      rw [Nat.succ_mul] at room
      omega
    rw [rgbaPixels, block_joined (fun p inside => rgba_each long inside) inside,
      sentImage_pixel args image inRow inColumn]

theorem oriented_images (args : Args) (frame : StereoRgbFrame) :
    oriented args frame = (sentImage args (eyeImage args frame .left),
      sentImage args (eyeImage args frame .right)) := by
  unfold oriented sentImage eyeImage
  cases args.swapEyes <;> cases args.noFlipY <;> rfl

theorem eyes_both {P : NdArray → Prop} (args : Args) (frame : StereoRgbFrame) :
    P (eyeImage args frame .left) ∧ P (eyeImage args frame .right) ↔
      P frame.left ∧ P frame.right := by
  unfold eyeImage
  cases args.swapEyes with
  | false => rfl
  | true => exact and_comm

theorem eyes_rgb (args : Args) (frame : StereoRgbFrame) :
    (∃ width, IsRgb (eyeImage args frame .left) width) ∧
        (∃ width, IsRgb (eyeImage args frame .right) width) ↔
      (∃ width, IsRgb frame.left width) ∧ ∃ width, IsRgb frame.right width :=
  eyes_both (P := fun rgb => ∃ width, IsRgb rgb width) args frame

theorem eyes_pixels (args : Args) (frame : StereoRgbFrame) :
    pixels (eyeImage args frame .left) + pixels (eyeImage args frame .right) =
      pixels frame.left + pixels frame.right := by
  unfold eyeImage
  cases args.swapEyes with
  | false => rfl
  | true => exact Nat.add_comm _ _

/- The payload. -/

theorem makeRawPacket_iff (args : Args) (call : Call) (images : NdArray × NdArray)
    (payload : Bytes) :
    (∃ text, makeRawPacket args call images = .ok (payload, text)) ↔
      ∃ left right, rgbToRgbaBytes images.1 = .ok left ∧ rgbToRgbaBytes images.2 = .ok right ∧
        makeRawStereoPayload call.frame.frameIndex args.width args.height left right
          call.monotonicNs = some payload ∧ payload.length ≤ 1024 * 1024 := by
  unfold makeRawPacket
  generalize makeRawStereoPayload call.frame.frameIndex args.width args.height = pack
  cases rgbToRgbaBytes images.1 with
  | error message => simp
  | ok left =>
    cases rgbToRgbaBytes images.2 with
    | error message => simp
    | ok right =>
      simp only [Except.ok.injEq, exists_and_left, exists_eq_left']
      cases pack left right call.monotonicNs with
      | none => simp
      | some built =>
        simp only [Option.some.injEq]
        have limit : ((built.length : Int) > MAX_QUEST_PAYLOAD_BYTES) ↔
            ¬ built.length ≤ 1024 * 1024 := by
          simp only [MAX_QUEST_PAYLOAD_BYTES]
          omega
        by_cases large : (built.length : Int) > MAX_QUEST_PAYLOAD_BYTES
        · simp only [if_pos large, reduceCtorEq, exists_false, false_iff, not_and]
          rintro rfl
          exact limit.mp large
        · simp only [if_neg large, Except.ok.injEq, Prod.mk.injEq, exists_and_left, exists_eq',
            and_true]
          constructor
          · rintro rfl
            exact ⟨rfl, not_not.mp fun long => large (limit.mpr long)⟩
          · exact fun built => built.1

theorem raw_fits (frameIndex stamp width height : Int) (left right : Nat) :
    Fits VIDEO_FRAME_HEADER [CODEC_RAW_RGBA, VIDEO_FRAME_KEYFRAME, 0, frameIndex, stamp, width,
      height, left, right] ↔
      (0 ≤ frameIndex ∧ frameIndex < 2 ^ 64) ∧ (-2 ^ 63 ≤ stamp ∧ stamp < 2 ^ 63) ∧
        (0 ≤ width ∧ width < 2 ^ 32) ∧ (0 ≤ height ∧ height < 2 ^ 32) ∧
        left < 2 ^ 32 ∧ right < 2 ^ 32 := by
  simp only [VIDEO_FRAME_HEADER, QuestProtocol.formatField, List.map_cons, List.map_nil, Fits,
    inRange_unsigned, inRange_signed, CODEC_RAW_RGBA, VIDEO_FRAME_KEYFRAME]
  constructor
  · rintro ⟨_, _, _, frameIndex_, stamp_, width_, height_, left_, right_, _⟩
    exact ⟨by omega, by omega, by omega, by omega, by omega, by omega⟩
  · rintro ⟨frameIndex_, stamp_, width_, height_, left_, right_⟩
    exact ⟨by omega, by omega, by omega, by omega, by omega, by omega, by omega, by omega,
      by omega, trivial⟩

theorem makeRawStereoPayload_some {frameIndex width height monotonicNs : Int}
    {left right payload : Bytes} :
    makeRawStereoPayload frameIndex width height left right monotonicNs = some payload ↔
      ∃ header : VideoFrameHeader,
        header.values = [CODEC_RAW_RGBA, VIDEO_FRAME_KEYFRAME, 0, frameIndex, monotonicNs, width,
          height, left.length, right.length] ∧
        payload = packVideoFrameHeader header ++ left ++ right := by
  unfold makeRawStereoPayload stereoPayload QuestProtocol.packVideoFrameHeader
  rw [Option.map_eq_some_iff]
  constructor
  · rintro ⟨bytes, packed, rfl⟩
    obtain ⟨fits, rfl⟩ := QuestProtocol.structPack_some packed
    have back := QuestTeleop.videoFrame_values_ofValues fits
    refine ⟨_, back, ?_⟩
    rw [QuestTeleop.packVideoFrameHeader_eq, back]
    rfl
  · rintro ⟨header, values, rfl⟩
    have fits : Fits VIDEO_FRAME_HEADER header.values := QuestTeleop.videoFrameHeader_fits header
    refine ⟨packVideoFrameHeader header, ?_, rfl⟩
    rw [QuestTeleop.packVideoFrameHeader_eq, ← values, QuestProtocol.structPack, if_pos fits]
    rfl

theorem makeRawStereoPayload_length {frameIndex width height monotonicNs : Int}
    {left right payload : Bytes}
    (built : makeRawStereoPayload frameIndex width height left right monotonicNs = some payload) :
    payload.length = kVideoFrameHeaderSize + left.length + right.length := by
  obtain ⟨header, _, rfl⟩ := makeRawStereoPayload_some.mp built
  rw [List.length_append, List.length_append, QuestTeleop.packVideoFrameHeader_length]

theorem makeRawStereoPayload_built {frameIndex width height monotonicNs : Int}
    {left right : Bytes} :
    (∃ payload, makeRawStereoPayload frameIndex width height left right monotonicNs =
      some payload) ↔
      Fits VIDEO_FRAME_HEADER [CODEC_RAW_RGBA, VIDEO_FRAME_KEYFRAME, 0, frameIndex, monotonicNs,
        width, height, left.length, right.length] := by
  constructor
  · rintro ⟨payload, built⟩
    obtain ⟨header, values, _⟩ := makeRawStereoPayload_some.mp built
    rw [← values]
    exact QuestTeleop.videoFrameHeader_fits header
  · intro fits
    exact ⟨_, makeRawStereoPayload_some.mpr
      ⟨_, QuestTeleop.videoFrame_values_ofValues fits, rfl⟩⟩

structure Packed (args : Args) (call : Call) (left right payload : Bytes) : Prop where
  leftShown : Shows args (eyeImage args call.frame .left) left
  rightShown : Shows args (eyeImage args call.frame .right) right
  built : makeRawStereoPayload call.frame.frameIndex args.width args.height left right
    call.monotonicNs = some payload
  small : payload.length ≤ 1024 * 1024

theorem sentImage_converted (args : Args) {rgb : NdArray} {rgba : Bytes}
    (converted : rgbToRgbaBytes (sentImage args rgb) = .ok rgba) :
    (∃ width, IsRgb rgb width) ∧ Shows args rgb rgba := by
  obtain ⟨width, sent⟩ := rgbToRgbaBytes_ok converted
  have image : IsRgb rgb width := (sentImage_shape args rgb).2.symm.trans sent
  obtain ⟨plane, same, shows_⟩ := sentImage_shows args image
  rw [converted] at same
  obtain rfl := Except.ok.inj same
  exact ⟨⟨width, image⟩, shows_⟩

theorem makeRawPacket_packed {args : Args} {call : Call} {payload : Bytes} {text : String}
    (made : makeRawPacket args call (oriented args call.frame) = .ok (payload, text)) :
    Packable args call ∧ ∃ left right, Packed args call left right payload := by
  obtain ⟨left, right, leftConverted, rightConverted, built, small⟩ :=
    (makeRawPacket_iff args call _ payload).mp ⟨text, made⟩
  rw [oriented_images] at leftConverted rightConverted
  obtain ⟨leftImage, leftShows⟩ := sentImage_converted args leftConverted
  obtain ⟨rightImage, rightShows⟩ := sentImage_converted args rightConverted
  have images := (eyes_rgb args call.frame).mp ⟨leftImage, rightImage⟩
  have sum := eyes_pixels args call.frame
  have length := makeRawStereoPayload_length built
  rw [leftShows.size, rightShows.size] at length
  obtain ⟨frameIndex, stamp, width, height, _⟩ :=
    (raw_fits _ _ _ _ _ _).mp (makeRawStereoPayload_built.mp ⟨payload, built⟩)
  refine ⟨⟨images.1, images.2, frameIndex, stamp, width, height, ?_⟩, left, right,
    ⟨leftShows, rightShows, built, small⟩⟩
  omega

theorem packable_made {args : Args} {call : Call} (packable : Packable args call) :
    ∃ payload text, makeRawPacket args call (oriented args call.frame) = .ok (payload, text) := by
  obtain ⟨leftImage, rightImage, frameIndex, stamp, width, height, small⟩ := packable
  obtain ⟨⟨leftWidth, leftRgb⟩, ⟨rightWidth, rightRgb⟩⟩ :=
    (eyes_rgb args call.frame).mpr ⟨leftImage, rightImage⟩
  obtain ⟨left, leftConverted, leftShows⟩ := sentImage_shows args leftRgb
  obtain ⟨right, rightConverted, rightShows⟩ := sentImage_shows args rightRgb
  have sum := eyes_pixels args call.frame
  have leftSize := leftShows.size
  have rightSize := rightShows.size
  have fits := (raw_fits _ _ _ _ left.length right.length).mpr
    ⟨frameIndex, stamp, width, height, by omega, by omega⟩
  obtain ⟨payload, built⟩ := makeRawStereoPayload_built.mpr fits
  have length := makeRawStereoPayload_length built
  refine ⟨payload, (makeRawPacket_iff args call _ payload).mpr ⟨left, right, ?_, ?_, built, ?_⟩⟩
  · rw [oriented_images]
    exact leftConverted
  · rw [oriented_images]
    exact rightConverted
  · omega

/- The headset. -/

theorem word_zero (n : UInt32) : n = 0 ↔ n.toNat = 0 := by
  rw [← UInt32.toNat_inj]
  rfl

theorem checkedRawRgbaSize_pixels {header : VideoFrameHeader} {left right : Nat}
    (leftSize : header.leftPayloadSize.toNat = left * 4)
    (rightSize : header.rightPayloadSize.toNat = right * 4) (small : left ≤ 1024 * 1024) :
    checkedRawRgbaSize header =
      if header.width.toNat ≠ 0 ∧ header.height.toNat ≠ 0 ∧
        header.width.toNat * header.height.toNat % 2 ^ 62 = left ∧
        header.width.toNat * header.height.toNat % 2 ^ 62 = right then some (left * 4)
      else none := by
  unfold checkedRawRgbaSize
  simp only [word_zero, leftSize, rightSize]
  generalize header.width.toNat * header.height.toNat = area
  have bytes : area % 2 ^ 64 * 4 % 2 ^ 64 = area % 2 ^ 62 * 4 := by omega
  rw [bytes]
  by_cases shown : header.width.toNat ≠ 0 ∧ header.height.toNat ≠ 0 ∧ area % 2 ^ 62 = left ∧
      area % 2 ^ 62 = right
  · obtain ⟨wide, high, lefts, rights⟩ := shown
    rw [if_neg (by omega), if_neg (by omega), if_pos ⟨wide, high, lefts, rights⟩, lefts]
  · rw [if_neg shown]
    split
    · rfl
    · rw [if_pos]
      omega

structure Published (args : Args) (call : Call) (frame : StereoVideoFrame) : Prop where
  index : frameIndex32 frame = UInt32.ofNat call.frame.frameIndex.toNat
  width : frame.width = args.width.toNat
  height : frame.height = args.height.toNat
  left : Shows args (eyeImage args call.frame .left) frame.leftRgba
  right : Shows args (eyeImage args call.frame .right) frame.rightRgba

theorem route_empty {header : VideoFrameHeader} {left right : Bytes}
    (empty : ¬ (header.width ≠ 0 ∧ header.height ≠ 0)) :
    routePayload (packVideoFrameHeader header ++ left ++ right) = .refused := by
  apply route_other
  intro other l r encoded
  have same := encoded_header encoded
  rw [List.append_assoc, QuestTeleop.unpackVideoFrameHeader_pack] at same
  apply empty
  rw [same]
  exact ⟨encoded.width, encoded.height⟩

theorem sized_iff (args : Args) (frame : StereoRgbFrame) :
    Sized args frame ↔ args.width.toNat ≠ 0 ∧ args.height.toNat ≠ 0 ∧
      args.width.toNat * args.height.toNat % 2 ^ 62 = pixels (eyeImage args frame .left) ∧
      args.width.toNat * args.height.toNat % 2 ^ 62 = pixels (eyeImage args frame .right) := by
  rw [eyes_both (P := fun rgb => args.width.toNat * args.height.toNat % 2 ^ 62 = pixels rgb)]
  constructor
  · rintro ⟨width, height, left, right⟩
    exact ⟨by omega, by omega, left, right⟩
  · rintro ⟨width, height, left, right⟩
    exact ⟨by omega, by omega, left, right⟩

structure Headed (args : Args) (call : Call) (left right : Bytes) (header : VideoFrameHeader) :
    Prop where
  codec : header.codec = kRawRgba
  frameIndex : header.frameIndex.toNat = call.frame.frameIndex.toNat
  width : header.width.toNat = args.width.toNat
  height : header.height.toNat = args.height.toNat
  leftSize : header.leftPayloadSize.toNat = left.length
  rightSize : header.rightPayloadSize.toNat = right.length

theorem built_headed {args : Args} {call : Call} {left right payload : Bytes}
    (built : makeRawStereoPayload call.frame.frameIndex args.width args.height left right
      call.monotonicNs = some payload) :
    ∃ header, Headed args call left right header ∧
      payload = packVideoFrameHeader header ++ left ++ right := by
  obtain ⟨header, values, whole⟩ := makeRawStereoPayload_some.mp built
  simp only [VideoFrameHeader.values, List.cons.injEq, and_true] at values
  obtain ⟨codec, _, _, frameIndex, _, width, height, lefts, rights⟩ := values
  have raw : header.codec = kRawRgba := by
    have one : kRawRgba.toNat = 1 := rfl
    apply UInt16.toNat_inj.mp
    simp only [CODEC_RAW_RGBA] at codec
    omega
  exact ⟨header, ⟨raw, by omega, by omega, by omega, by omega, by omega⟩, whole⟩

theorem headed_checked {args : Args} {call : Call} {left right payload : Bytes}
    {header : VideoFrameHeader} (packed : Packed args call left right payload)
    (headed : Headed args call left right header) :
    (Sized args call.frame → checkedRawRgbaSize header = some left.length ∧
      left.length = right.length) ∧
    (¬ Sized args call.frame → checkedRawRgbaSize header = none) := by
  have leftSize := packed.leftShown.size
  have rightSize := packed.rightShown.size
  have length := makeRawStereoPayload_length packed.built
  have small := packed.small
  have checked := checkedRawRgbaSize_pixels (headed.leftSize.trans leftSize)
    (headed.rightSize.trans rightSize) (by omega)
  rw [headed.width, headed.height] at checked
  constructor
  · intro sized
    have counts := (sized_iff args call.frame).mp sized
    rw [if_pos counts] at checked
    refine ⟨checked.trans (congrArg some leftSize.symm), ?_⟩
    rw [leftSize, rightSize, ← counts.2.2.1, ← counts.2.2.2]
  · intro wrong
    rwa [if_neg fun counts => wrong ((sized_iff args call.frame).mpr counts)] at checked

theorem packed_handled {args : Args} {call : Call} {left right payload : Bytes}
    (packed : Packed args call left right payload) (d : H264AnnexBDecoder) (turn : Turn) :
    (Sized args call.frame → ∃ frame, Published args call frame ∧
      handlePayload d payload turn = (d, [.publishRawFrame frame], true)) ∧
    (¬ Sized args call.frame → handlePayload d payload turn = (d, [], false)) := by
  obtain ⟨header, headed, rfl⟩ := built_headed packed.built
  obtain ⟨counted, miscounted⟩ := headed_checked packed headed
  by_cases shown : header.width ≠ 0 ∧ header.height ≠ 0
  · have encoded : Encoded header left right (packVideoFrameHeader header ++ left ++ right) :=
      ⟨rfl, headed.leftSize.symm, headed.rightSize.symm, shown.1, shown.2⟩
    rw [handlePayload_raw encoded headed.codec, rawRgbaDecode]
    constructor
    · intro sized
      obtain ⟨checked, same⟩ := counted sized
      have rightTaken : right.take left.length = right := by rw [same, List.take_length]
      simp only [checked, List.take_length, rightTaken]
      refine ⟨_, ⟨?_, headed.width, headed.height, packed.leftShown, packed.rightShown⟩, rfl⟩
      rw [frameIndex32, headed.frameIndex]
    · intro wrong
      rw [miscounted wrong]
  · constructor
    · intro sized
      have counts := (sized_iff args call.frame).mp sized
      rw [Ne, Ne, word_zero, word_zero, headed.width, headed.height] at shown
      exact absurd ⟨counts.1, counts.2.1⟩ shown
    · intro _
      rw [handlePayload, route_empty shown]

/-- A raw frame packs iff its images, numbers and size allow it. The headset publishes it iff the
    header's dimensions have as many pixels as the images, and then with every pixel of them. -/
theorem raw_frame_shown {s : StereoPacketizer} (raw : s.args.codec = .raw) (call : Call) :
    ((∃ packet, (makePacket s call).2.2 = .ok (some packet)) ↔ Packable s.args call) ∧
    ∀ payload text, (makePacket s call).2.2 = .ok (some (payload, text)) →
      ∀ (d : H264AnnexBDecoder) (turn : Turn),
        (Sized s.args call.frame → ∃ frame, Published s.args call frame ∧
          handlePayload d payload turn = (d, [.publishRawFrame frame], true)) ∧
        (¬ Sized s.args call.frame → handlePayload d payload turn = (d, [], false)) := by
  have made (packet : Bytes × String) : (makePacket s call).2.2 = .ok (some packet) ↔
      makeRawPacket s.args call (oriented s.args call.frame) = .ok packet := by
    simp only [makePacket, raw]
    cases makeRawPacket s.args call (oriented s.args call.frame) <;> simp [Except.map]
  simp only [made]
  refine ⟨⟨?_, ?_⟩, ?_⟩
  · rintro ⟨⟨payload, text⟩, packet⟩
    exact (makeRawPacket_packed packet).1
  · intro packable
    obtain ⟨payload, text, packet⟩ := packable_made packable
    exact ⟨(payload, text), packet⟩
  · intro payload text packet
    obtain ⟨_, left, right, packed⟩ := makeRawPacket_packed packet
    exact packed_handled packed

/- Two pixels an eye, one above the other, with the eyes swapped. -/

def tallArgs : Args :=
  { codec := .raw, width := 1, height := 2, swapEyes := true, noFlipY := false, h264Encoder := "" }

def tallImage (a b c d e f : UInt8) : NdArray :=
  { rows := 2, row := [1, 3], data := [a, b, c, d, e, f], sized := rfl }

def tallCall : Call :=
  { frame :=
      { frameIndex := 7, left := tallImage 1 2 3 4 5 6, right := tallImage 7 8 9 10 11 12 }
    encodeLeft := none
    encodeRight := none
    leftWork := []
    rightWork := []
    monotonicNs := 0
    packing := "" }

theorem tall_frame_shown :
    ∃ payload text frame,
      (makePacket (newPacketizer tallArgs) tallCall).2.2 = .ok (some (payload, text)) ∧
        handlePayload {} payload quietTurn = ({}, [.publishRawFrame frame], true) ∧
        frameIndex32 frame = 7 ∧ block 4 0 frame.leftRgba = [10, 11, 12, 255] ∧
        block 4 1 frame.rightRgba = [1, 2, 3, 255] := by
  obtain ⟨packs, shows_⟩ := raw_frame_shown (s := newPacketizer tallArgs) rfl tallCall
  obtain ⟨⟨payload, text⟩, made⟩ := packs.mpr
    { left := ⟨1, rfl⟩
      right := ⟨1, rfl⟩
      frameIndex := by decide
      stamp := by decide
      width := by decide
      height := by decide
      small := by decide }
  have sized : Sized tallArgs tallCall.frame :=
    { width := by decide, height := by decide, left := by decide, right := by decide }
  obtain ⟨frame, published, handled⟩ := (shows_ payload text made {} quietTurn).1 sized
  refine ⟨payload, text, frame, made, handled, published.index, ?_, ?_⟩
  · exact published.left.pixel 1 rfl 0 0 (by decide) (by decide)
  · exact published.right.pixel 1 rfl 1 0 (by decide) (by decide)

end QuestRawPixels
