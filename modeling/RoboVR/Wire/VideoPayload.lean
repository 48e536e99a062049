import RoboVR.Wire.HostHeader

/- VIDEO payloads: a frame header, the left eye's bytes, the right eye's bytes. The host
   builds them, the headset's router takes them apart and picks a decoder. -/
namespace QuestVideoPayload
open ByteRecord
open QuestTeleop (Bytes VideoFrameHeader unpackVideoFrameHeader packVideoFrameHeader
  kVideoFrameHeaderSize videoFrameHeaderFields)
open QuestProtocol (VIDEO_FRAME_HEADER CODEC_RAW_RGBA CODEC_H264_ANNEXB VIDEO_FRAME_KEYFRAME)

/-- `pack_video_frame_header(..., len(left), len(right)) + left + right`; none where it raises. -/
def stereoPayload (codec flags streamId frameIndex captureTimeNs width height : Int)
    (left right : Bytes) : Option Bytes :=
  (QuestProtocol.packVideoFrameHeader codec flags streamId frameIndex captureTimeNs width height
    left.length right.length).map fun header => header ++ left ++ right

def makeH264StereoPayload (frameIndex width height : Int) (leftH264 rightH264 : Bytes)
    (monotonicNs : Int) : Option Bytes :=
  stereoPayload CODEC_H264_ANNEXB VIDEO_FRAME_KEYFRAME 0 frameIndex monotonicNs width height
    leftH264 rightH264

def kRawRgba : UInt16 := 1
def kH264AnnexB : UInt16 := 2
def kH265AnnexB : UInt16 := 3
def kAv1AnnexB : UInt16 := 4

/-- A pointer into the payload with the number of bytes read behind it. -/
structure Slice where
  offset : Nat
  size : Nat
  deriving DecidableEq

def Slice.read (slice : Slice) (payload : Bytes) : Bytes :=
  (payload.drop slice.offset).take slice.size

def Slice.Inside (slice : Slice) (payload : Bytes) : Prop :=
  slice.offset + slice.size ≤ payload.length

inductive Routed where
  | refused
  | rawRgba (header : VideoFrameHeader) (left right : Slice)
  | h264 (header : VideoFrameHeader) (left right : Slice)
  | unsupported (codec : UInt16)
  deriving DecidableEq

def routeCodec (header : VideoFrameHeader) (left right : Slice) : Routed :=
  if header.codec = kRawRgba then .rawRgba header left right
  else if header.codec = kH264AnnexB then .h264 header left right
  else if header.codec = kH265AnnexB ∨ header.codec = kAv1AnnexB then .unsupported header.codec
  else .refused

def sizeT (n : Nat) : Nat := n % 2 ^ 64

/-- `handlePayload` up to the call of a decoder. -/
def routePayload (payload : Bytes) : Routed :=
  if payload.length < kVideoFrameHeaderSize then .refused
  else
    let header := unpackVideoFrameHeader payload
    let leftSize := header.leftPayloadSize.toNat
    let rightSize := header.rightPayloadSize.toNat
    let expectedSize := sizeT (sizeT (kVideoFrameHeaderSize + leftSize) + rightSize)
    if header.width = 0 ∨ header.height = 0 ∨ payload.length ≠ expectedSize then .refused
    else
      routeCodec header { offset := kVideoFrameHeaderSize, size := leftSize }
        { offset := kVideoFrameHeaderSize + leftSize, size := rightSize }

theorem expectedSize_exact (header : VideoFrameHeader) :
    sizeT (sizeT (kVideoFrameHeaderSize + header.leftPayloadSize.toNat) +
      header.rightPayloadSize.toNat) =
      kVideoFrameHeaderSize + header.leftPayloadSize.toNat + header.rightPayloadSize.toNat := by
  have left := header.leftPayloadSize.toNat_lt
  have right := header.rightPayloadSize.toNat_lt
  simp only [sizeT, kVideoFrameHeaderSize]
  omega

def leftSlice (header : VideoFrameHeader) : Slice :=
  { offset := kVideoFrameHeaderSize, size := header.leftPayloadSize.toNat }

def rightSlice (header : VideoFrameHeader) : Slice :=
  { offset := kVideoFrameHeaderSize + header.leftPayloadSize.toNat
    size := header.rightPayloadSize.toNat }

structure Encoded (header : VideoFrameHeader) (left right payload : Bytes) : Prop where
  whole : payload = packVideoFrameHeader header ++ left ++ right
  leftSize : left.length = header.leftPayloadSize.toNat
  rightSize : right.length = header.rightPayloadSize.toNat
  width : header.width ≠ 0
  height : header.height ≠ 0

theorem encoded_length {header : VideoFrameHeader} {left right payload : Bytes}
    (encoded : Encoded header left right payload) :
    payload.length =
      kVideoFrameHeaderSize + header.leftPayloadSize.toNat + header.rightPayloadSize.toNat := by
  rw [encoded.whole, List.length_append, List.length_append,
    QuestTeleop.packVideoFrameHeader_length, encoded.leftSize, encoded.rightSize]

theorem encoded_header {header : VideoFrameHeader} {left right payload : Bytes}
    (encoded : Encoded header left right payload) : unpackVideoFrameHeader payload = header := by
  rw [encoded.whole, List.append_assoc, QuestTeleop.unpackVideoFrameHeader_pack]

theorem encoded_slices {header : VideoFrameHeader} {left right payload : Bytes}
    (encoded : Encoded header left right payload) :
    (leftSlice header).read payload = left ∧ (rightSlice header).read payload = right := by
  have head := QuestTeleop.packVideoFrameHeader_length header
  constructor
  · simp only [Slice.read, leftSlice]
    rw [encoded.whole, List.append_assoc, List.drop_left' head, List.take_left' encoded.leftSize]
  · simp only [Slice.read, rightSlice]
    have front : (packVideoFrameHeader header ++ left).length =
        kVideoFrameHeaderSize + header.leftPayloadSize.toNat := by
      rw [List.length_append, head, encoded.leftSize]
    rw [encoded.whole, List.drop_left' front, ← encoded.rightSize, List.take_length]

theorem encoded_inside {header : VideoFrameHeader} {left right payload : Bytes}
    (encoded : Encoded header left right payload) :
    (leftSlice header).Inside payload ∧ (rightSlice header).Inside payload := by
  have length := encoded_length encoded
  simp only [Slice.Inside, leftSlice, rightSlice]
  omega

theorem route_encoded {header : VideoFrameHeader} {left right payload : Bytes}
    (encoded : Encoded header left right payload) :
    routePayload payload = routeCodec header (leftSlice header) (rightSlice header) := by
  have length := encoded_length encoded
  have unpacked := encoded_header encoded
  have enough : ¬ payload.length < kVideoFrameHeaderSize := by omega
  rw [routePayload, if_neg enough]
  simp only [unpacked, expectedSize_exact, length, encoded.width, encoded.height, ne_eq,
    not_true_eq_false, or_self, if_false]
  rfl

/-- Whatever is not such a payload is refused before a decoder is chosen. -/
theorem route_other {payload : Bytes}
    (other : ∀ header left right, ¬ Encoded header left right payload) :
    routePayload payload = .refused := by
  unfold routePayload
  split
  · rfl
  · next enough =>
    simp only [expectedSize_exact]
    split
    · rfl
    · next accepted =>
      simp only [not_or, not_not] at accepted
      obtain ⟨width, height, size⟩ := accepted
      have head := QuestTeleop.packVideoFrameHeader_unpack (Nat.le_of_not_lt enough)
      exfalso
      apply other (unpackVideoFrameHeader payload)
        ((leftSlice (unpackVideoFrameHeader payload)).read payload)
        ((rightSlice (unpackVideoFrameHeader payload)).read payload)
      constructor
      · have rest : ((payload.drop kVideoFrameHeaderSize).drop
            (unpackVideoFrameHeader payload).leftPayloadSize.toNat).length ≤
            (unpackVideoFrameHeader payload).rightPayloadSize.toNat := by
          rw [List.length_drop, List.length_drop]
          omega
        simp only [Slice.read, leftSlice, rightSlice]
        rw [head, List.append_assoc, ← List.drop_drop, List.take_of_length_le rest,
          List.take_append_drop, List.take_append_drop]
      · simp only [Slice.read, leftSlice, List.length_take, List.length_drop]
        omega
      · simp only [Slice.read, rightSlice, List.length_take, List.length_drop]
        omega
      · exact width
      · exact height

theorem stereoPayload_encoded {codec flags streamId frameIndex captureTimeNs width height : Int}
    {left right : Bytes}
    (fits : Fits VIDEO_FRAME_HEADER [codec, flags, streamId, frameIndex, captureTimeNs, width,
      height, left.length, right.length]) (wide : width ≠ 0) (high : height ≠ 0) :
    ∃ header payload, header.values = [codec, flags, streamId, frameIndex, captureTimeNs, width,
        height, left.length, right.length] ∧
      stereoPayload codec flags streamId frameIndex captureTimeNs width height left right =
        some payload ∧
      Encoded header left right payload := by
  have back := QuestTeleop.videoFrame_values_ofValues fits
  generalize VideoFrameHeader.ofValues [codec, flags, streamId, frameIndex, captureTimeNs, width,
    height, left.length, right.length] = header at back
  refine ⟨header, packVideoFrameHeader header ++ left ++ right, back, ?_, ?_⟩
  · simp only [stereoPayload, QuestProtocol.packVideoFrameHeader, QuestProtocol.structPack,
      if_pos fits, Option.map_some, QuestTeleop.packVideoFrameHeader_eq, back]
    rfl
  · simp only [VideoFrameHeader.values, List.cons.injEq] at back
    obtain ⟨_, _, _, _, _, widths, heights, lefts, rights, _⟩ := back
    constructor
    · rfl
    · omega
    · omega
    · intro zero
      rw [zero] at widths
      exact wide widths.symm
    · intro zero
      rw [zero] at heights
      exact high heights.symm

theorem encoded_stereoPayload {header : VideoFrameHeader} {left right payload : Bytes}
    (encoded : Encoded header left right payload) :
    stereoPayload header.codec.toNat header.flags.toNat header.streamId.toNat
      header.frameIndex.toNat header.captureTimeNs.toInt header.width.toNat header.height.toNat
      left right = some payload := by
  have fits : Fits VIDEO_FRAME_HEADER header.values := QuestTeleop.videoFrameHeader_fits header
  have values : [(header.codec.toNat : Int), header.flags.toNat, header.streamId.toNat,
      header.frameIndex.toNat, header.captureTimeNs.toInt, header.width.toNat,
      header.height.toNat, left.length, right.length] = header.values := by
    rw [encoded.leftSize, encoded.rightSize]
    rfl
  simp only [stereoPayload, QuestProtocol.packVideoFrameHeader, QuestProtocol.structPack, values,
    if_pos fits, Option.map_some, encoded.whole, QuestTeleop.packVideoFrameHeader_eq]
  rfl

def EncodedFor (codec : Int) (payload : Bytes) : Prop :=
  ∃ flags streamId frameIndex captureTimeNs width height left right,
    stereoPayload codec flags streamId frameIndex captureTimeNs width height left right =
      some payload ∧ width ≠ 0 ∧ height ≠ 0

theorem encodedFor_iff (codec : UInt16) (payload : Bytes) :
    EncodedFor codec.toNat payload ↔
      ∃ header left right, Encoded header left right payload ∧ header.codec = codec := by
  constructor
  · rintro ⟨flags, streamId, frameIndex, captureTimeNs, width, height, left, right, built, wide, high⟩
    have fits : Fits VIDEO_FRAME_HEADER [(codec.toNat : Int), flags, streamId, frameIndex,
        captureTimeNs, width, height, left.length, right.length] := by
      by_contra bad
      simp [stereoPayload, QuestProtocol.packVideoFrameHeader, QuestProtocol.structPack,
        bad] at built
    obtain ⟨header, payload', values, same, encoded⟩ := stereoPayload_encoded fits wide high
    rw [built] at same
    obtain rfl := Option.some.inj same
    refine ⟨header, left, right, encoded, ?_⟩
    have first := (List.cons.inj values).1
    apply UInt16.toNat_inj.mp
    omega
  · rintro ⟨header, left, right, encoded, rfl⟩
    refine ⟨_, _, _, _, _, _, left, right, encoded_stereoPayload encoded, ?_, ?_⟩
    · intro zero
      apply encoded.width
      apply UInt32.toNat_inj.mp
      exact Int.natCast_inj.mp zero
    · intro zero
      apply encoded.height
      apply UInt32.toNat_inj.mp
      exact Int.natCast_inj.mp zero

theorem route_cases (payload : Bytes) :
    routePayload payload = .refused ∨ ∃ header left right, Encoded header left right payload ∧
      routePayload payload = routeCodec header (leftSlice header) (rightSlice header) := by
  by_cases some_ : ∃ header left right, Encoded header left right payload
  · obtain ⟨header, left, right, encoded⟩ := some_
    exact Or.inr ⟨header, left, right, encoded, route_encoded encoded⟩
  · left
    apply route_other
    intro header left right encoded
    exact some_ ⟨header, left, right, encoded⟩

theorem routeCodec_rawRgba (header : VideoFrameHeader) (left right : Slice) :
    (∃ h l r, routeCodec header left right = .rawRgba h l r) ↔ header.codec = kRawRgba := by
  unfold routeCodec
  by_cases raw : header.codec = kRawRgba
  · simp [raw]
  · rw [if_neg raw]
    split
    · simp [raw]
    · split <;> simp [raw]

theorem routeCodec_h264 (header : VideoFrameHeader) (left right : Slice) :
    (∃ h l r, routeCodec header left right = .h264 h l r) ↔ header.codec = kH264AnnexB := by
  unfold routeCodec
  by_cases raw : header.codec = kRawRgba
  · simp [raw, kRawRgba, kH264AnnexB]
  · rw [if_neg raw]
    by_cases h264 : header.codec = kH264AnnexB
    · simp [h264]
    · rw [if_neg h264]
      split <;> simp [h264]

theorem routeCodec_slices {header h : VideoFrameHeader} {left right l r : Slice}
    (routed : routeCodec header left right = .rawRgba h l r ∨
      routeCodec header left right = .h264 h l r) : l = left ∧ r = right := by
  unfold routeCodec at routed
  split at routed
  · simp only [Routed.rawRgba.injEq, reduceCtorEq, or_false] at routed
    exact ⟨routed.2.1.symm, routed.2.2.symm⟩
  · split at routed
    · simp only [Routed.h264.injEq, reduceCtorEq, false_or] at routed
      exact ⟨routed.2.1.symm, routed.2.2.symm⟩
    · split at routed <;> simp at routed

theorem decoder_iff (codec : UInt16) (picks : Routed → Prop) (refuses : ¬ picks .refused)
    (chosen : ∀ header left right, picks (routeCodec header left right) ↔ header.codec = codec)
    (payload : Bytes) : picks (routePayload payload) ↔ EncodedFor codec.toNat payload := by
  rw [encodedFor_iff]
  constructor
  · intro picked
    rcases route_cases payload with refused | ⟨header, left, right, encoded, routed⟩
    · rw [refused] at picked
      exact absurd picked refuses
    · rw [routed, chosen] at picked
      exact ⟨header, left, right, encoded, picked⟩
  · rintro ⟨header, left, right, encoded, same⟩
    rw [route_encoded encoded, chosen]
    exact same

/-- Every in-range header and pair of byte strings reaches its decoder unchanged; the raw and
    H.264 decoders get nothing else, and never a slice beyond the payload. -/
theorem video_payload_exact :
    (∀ (codec flags streamId frameIndex captureTimeNs width height : Int) (left right : Bytes),
      Fits VIDEO_FRAME_HEADER [codec, flags, streamId, frameIndex, captureTimeNs, width, height,
        left.length, right.length] → width ≠ 0 → height ≠ 0 →
      ∃ payload header l r,
        stereoPayload codec flags streamId frameIndex captureTimeNs width height left right =
          some payload ∧
        unpackVideoFrameHeader payload = header ∧
        header.values = [codec, flags, streamId, frameIndex, captureTimeNs, width, height,
          left.length, right.length] ∧
        l.read payload = left ∧ r.read payload = right ∧
        routePayload payload =
          if codec = 1 then .rawRgba header l r
          else if codec = 2 then .h264 header l r
          else if codec = 3 ∨ codec = 4 then .unsupported header.codec
          else .refused) ∧
    (∀ payload, (∃ header l r, routePayload payload = .rawRgba header l r) ↔
      EncodedFor CODEC_RAW_RGBA payload) ∧
    (∀ payload, (∃ header l r, routePayload payload = .h264 header l r) ↔
      EncodedFor CODEC_H264_ANNEXB payload) ∧
    (∀ payload header l r, routePayload payload = .rawRgba header l r ∨
      routePayload payload = .h264 header l r → l.Inside payload ∧ r.Inside payload) := by
  refine ⟨?_, ?_, ?_, ?_⟩
  · intro codec flags streamId frameIndex captureTimeNs width height left right fits wide high
    obtain ⟨header, payload, values, built, encoded⟩ := stereoPayload_encoded fits wide high
    obtain ⟨lefts, rights⟩ := encoded_slices encoded
    refine ⟨payload, header, leftSlice header, rightSlice header, built, encoded_header encoded,
      values, lefts, rights, ?_⟩
    have codecs : (header.codec.toNat : Int) = codec := (List.cons.inj values).1
    have is (n : UInt16) : header.codec = n ↔ codec = n.toNat := by
      rw [← codecs, ← UInt16.toNat_inj]
      omega
    rw [route_encoded encoded, routeCodec]
    simp only [is]
    rfl
  · exact decoder_iff kRawRgba (fun routed => ∃ h l r, routed = .rawRgba h l r) (by simp)
      routeCodec_rawRgba
  · exact decoder_iff kH264AnnexB (fun routed => ∃ h l r, routed = .h264 h l r) (by simp)
      routeCodec_h264
  · intro payload header l r routed
    rcases route_cases payload with refused | ⟨h, left, right, encoded, same⟩
    · simp [refused] at routed
    · rw [same] at routed
      obtain ⟨rfl, rfl⟩ := routeCodec_slices routed
      exact encoded_inside encoded

theorem small_payload_routed :
    ∃ payload header l r, stereoPayload 2 1 0 (2 ^ 63) (-5) 16 8 [7] [8, 9] = some payload ∧
      routePayload payload = .h264 header l r ∧ l.read payload = [7] ∧ r.read payload = [8, 9] := by
  obtain ⟨payload, header, l, r, built, _, _, left, right, routed⟩ :=
    video_payload_exact.1 2 1 0 (2 ^ 63) (-5) 16 8 [7] [8, 9] (by decide) (by decide) (by decide)
  exact ⟨payload, header, l, r, built, routed, left, right⟩

end QuestVideoPayload
