import RoboVR.Decoder.DecodeTrace
import RoboVR.Decoder.HostPackets

/- Which raw RGBA payloads are accepted. The byte count of an image is a product in 64 bits, and
   the limit is tested behind the product. -/
namespace QuestRawRgba
open QuestTeleop (Bytes VideoFrameHeader unpackVideoFrameHeader packVideoFrameHeader
  kVideoFrameHeaderSize)
open QuestMediaCodec QuestH264Decoder QuestDecodeTrace QuestHostPackets QuestVideoPayload

def imageSize (header : VideoFrameHeader) : Nat := header.width.toNat * header.height.toNat * 4

def kMaxImageSize : Nat := 64 * 1024 * 1024

/-- What an accepted payload should be: sizes that are those of the image, and its two slices
    published as the planes. -/
structure SizedExactly (header : VideoFrameHeader) (payload : Bytes) (es : List Event) : Prop where
  positive : 0 < imageSize header
  bounded : imageSize header ≤ kMaxImageSize
  leftSize : header.leftPayloadSize.toNat = imageSize header
  rightSize : header.rightPayloadSize.toNat = imageSize header
  planes : ∃ frame, es = [.publishRawFrame frame] ∧
    frame.leftRgba = (payload.drop kVideoFrameHeaderSize).take (imageSize header) ∧
    frame.rightRgba =
      (payload.drop (kVideoFrameHeaderSize + imageSize header)).take (imageSize header) ∧
    frame.leftRgba.length = imageSize header ∧ frame.rightRgba.length = imageSize header

/-- The byte count as `checkedRawRgbaSize` computes it. -/
def countedSize (header : VideoFrameHeader) : Nat :=
  header.width.toNat * header.height.toNat % 2 ^ 64 * 4 % 2 ^ 64

theorem checkedRawRgbaSize_some {header : VideoFrameHeader} {eyeBytes : Nat}
    (checked : checkedRawRgbaSize header = some eyeBytes) :
    header.width ≠ 0 ∧ header.height ≠ 0 ∧ eyeBytes = countedSize header ∧
      eyeBytes ≤ kMaxImageSize ∧ header.leftPayloadSize.toNat = eyeBytes ∧
      header.rightPayloadSize.toNat = eyeBytes := by
  simp only [checkedRawRgbaSize] at checked
  split at checked
  · exact absurd checked (by simp)
  · next small =>
    split at checked
    · exact absurd checked (by simp)
    · next sizes =>
      simp only [not_or, not_lt, gt_iff_lt, ne_eq, not_not] at small sizes
      have same : countedSize header = eyeBytes := Option.some.inj checked
      refine ⟨small.1, small.2.1, same.symm, ?_, ?_, ?_⟩
      · rw [← same]
        exact small.2.2
      · rw [← same]
        exact sizes.1
      · rw [← same]
        exact sizes.2

theorem positive_toNat {n : UInt32} (nonzero : n ≠ 0) : 0 < n.toNat := by
  rcases Nat.eq_zero_or_pos n.toNat with zero | positive
  · exact absurd (UInt32.toNat_inj.mp zero) nonzero
  · exact positive

theorem imageSize_positive {header : VideoFrameHeader} (wide : header.width ≠ 0)
    (high : header.height ≠ 0) : 0 < imageSize header :=
  Nat.mul_pos (Nat.mul_pos (positive_toNat wide) (positive_toNat high)) (by decide)

theorem countedSize_exact {header : VideoFrameHeader}
    (few : header.width.toNat * header.height.toNat < 2 ^ 62) :
    countedSize header = imageSize header := by
  simp only [countedSize, imageSize]
  omega

theorem imageSize_bounded {header : VideoFrameHeader}
    (bounded : imageSize header ≤ kMaxImageSize) :
    header.width.toNat * header.height.toNat < 2 ^ 62 := by
  simp only [imageSize, kMaxImageSize] at bounded
  omega

theorem accepted_encoded {d : H264AnnexBDecoder} {payload : Bytes} {turn : Turn}
    (raw : (unpackVideoFrameHeader payload).codec = kRawRgba)
    (accepted : (handlePayload d payload turn).2.2 = true) :
    ∃ left right, Encoded (unpackVideoFrameHeader payload) left right payload ∧
      (handlePayload d payload turn).2.1 =
        (rawRgbaDecode (unpackVideoFrameHeader payload) left right).2 ∧
      (rawRgbaDecode (unpackVideoFrameHeader payload) left right).1 = true := by
  rcases route_cases payload with refused | ⟨header, left, right, encoded, routed⟩
  · simp [handlePayload, refused] at accepted
  · obtain rfl := encoded_header encoded
    obtain ⟨leftRead, rightRead⟩ := encoded_slices encoded
    rw [routeCodec, if_pos raw] at routed
    simp only [handlePayload, routed, leftRead, rightRead] at accepted ⊢
    exact ⟨left, right, encoded, rfl, accepted⟩

theorem rawRgbaDecode_true {header : VideoFrameHeader} {left right : Bytes}
    (taken : (rawRgbaDecode header left right).1 = true) :
    ∃ eyeBytes, checkedRawRgbaSize header = some eyeBytes ∧
      (rawRgbaDecode header left right).2 = [.publishRawFrame
        { frameIndex := header.frameIndex.toNat, width := header.width.toNat,
          height := header.height.toNat, leftRgba := left.take eyeBytes,
          rightRgba := right.take eyeBytes }] := by
  unfold rawRgbaDecode at taken ⊢
  cases checked : checkedRawRgbaSize header with
  | none => simp [checked] at taken
  | some eyeBytes => exact ⟨eyeBytes, rfl, rfl⟩

/-- An accepted raw payload is sized exactly if and only if its image has less than 2 ^ 62
    pixels. -/
theorem raw_size_exact_iff (d : H264AnnexBDecoder) {payload : Bytes} (turn : Turn)
    (raw : (unpackVideoFrameHeader payload).codec = kRawRgba)
    (accepted : (handlePayload d payload turn).2.2 = true) :
    SizedExactly (unpackVideoFrameHeader payload) payload (handlePayload d payload turn).2.1 ↔
      (unpackVideoFrameHeader payload).width.toNat *
        (unpackVideoFrameHeader payload).height.toNat < 2 ^ 62 := by
  constructor
  · intro exact_
    exact imageSize_bounded exact_.bounded
  · intro few
    obtain ⟨left, right, encoded, same, taken⟩ := accepted_encoded raw accepted
    obtain ⟨eyeBytes, checked, published⟩ := rawRgbaDecode_true taken
    obtain ⟨wide, high, counted, small, leftSize, rightSize⟩ := checkedRawRgbaSize_some checked
    rw [countedSize_exact few] at counted
    rw [counted] at small leftSize rightSize published
    obtain ⟨leftRead, rightRead⟩ := encoded_slices encoded
    simp only [Slice.read, leftSlice, rightSlice, leftSize, rightSize] at leftRead rightRead
    have leftLength : left.length = imageSize (unpackVideoFrameHeader payload) := by
      rw [encoded.leftSize, leftSize]
    have rightLength : right.length = imageSize (unpackVideoFrameHeader payload) := by
      rw [encoded.rightSize, rightSize]
    constructor
    · exact imageSize_positive wide high
    · exact small
    · exact leftSize
    · exact rightSize
    · rw [same, published, ← leftLength, List.take_length, leftLength, ← rightLength,
        List.take_length, rightLength]
      exact ⟨_, rfl, leftRead.symm, rightRead.symm, leftLength, rightLength⟩

/- Two accepted payloads. -/

def rawHeader (width height size : UInt32) : VideoFrameHeader :=
  { codec := kRawRgba, width := width, height := height, leftPayloadSize := size,
    rightPayloadSize := size }

def onePixel : Bytes := packVideoFrameHeader (rawHeader 1 1 4) ++ [1, 2, 3, 4] ++ [5, 6, 7, 8]

theorem onePixel_encoded : Encoded (rawHeader 1 1 4) [1, 2, 3, 4] [5, 6, 7, 8] onePixel where
  whole := rfl
  leftSize := by decide
  rightSize := by decide
  width := by decide
  height := by decide

def noPixels : Bytes := packVideoFrameHeader (rawHeader (2 ^ 31) (2 ^ 31) 0) ++ [] ++ []

theorem noPixels_encoded : Encoded (rawHeader (2 ^ 31) (2 ^ 31) 0) [] [] noPixels where
  whole := rfl
  leftSize := by decide
  rightSize := by decide
  width := by decide
  height := by decide

theorem handlePayload_raw {header : VideoFrameHeader} {left right payload : Bytes}
    (encoded : Encoded header left right payload) (raw : header.codec = kRawRgba)
    (d : H264AnnexBDecoder) (turn : Turn) :
    handlePayload d payload turn =
      (d, (rawRgbaDecode header left right).2, (rawRgbaDecode header left right).1) := by
  obtain ⟨leftRead, rightRead⟩ := encoded_slices encoded
  rw [handlePayload, route_encoded encoded, routeCodec, if_pos raw]
  simp only [leftRead, rightRead]

def quietTurn : Turn := promptTurn (promptCodec 0 0) (promptCodec 0 0)

theorem one_pixel_exact :
    SizedExactly (unpackVideoFrameHeader onePixel) onePixel
      (handlePayload {} onePixel quietTurn).2.1 := by
  have header := encoded_header onePixel_encoded
  refine (raw_size_exact_iff {} quietTurn ?_ ?_).mpr ?_
  · rw [header]
    rfl
  · rw [handlePayload_raw onePixel_encoded rfl]
    rfl
  · rw [header]
    decide

/-- A product of 2 ^ 64 bytes counts as none. -/
theorem wrapped_size_accepted :
    ¬ ∀ (d : H264AnnexBDecoder) (payload : Bytes) (turn : Turn),
      (unpackVideoFrameHeader payload).codec = kRawRgba →
      (handlePayload d payload turn).2.2 = true →
      SizedExactly (unpackVideoFrameHeader payload) payload
        (handlePayload d payload turn).2.1 := by
  intro all
  have header := encoded_header noPixels_encoded
  have sized := all {} noPixels quietTurn
    (by rw [header]; rfl)
    (by rw [handlePayload_raw noPixels_encoded rfl]; decide)
  have bounded := sized.bounded
  rw [header] at bounded
  exact absurd bounded (by decide)

end QuestRawRgba
