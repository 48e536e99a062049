import RoboVR.Host.LoadStream

/- Bit 0 of a frame's flags, which marks a keyframe, next to the NALs that the frame carries.
   The C++ host looks at the slices it groups, the Python host sets the bit on every frame. -/
namespace HostKeyframeFlag
open Delimited AnnexBStartCode AnnexBSliceHeader AnnexBReaderLoop
open QuestTeleop (unpackVideoFrameHeader)
open QuestVideoPayload (makeH264StereoPayload)
open HostVideoThread HostLoadStream

def idrNal (nal : Bytes) : Bool := !codeOnly nal && nalType nal == 5

def carriesIdr (unit : Bytes) : Bool := (nalsOf unit).any idrNal

/- The same by bytes: a start code and the header of an IDR slice stand somewhere. -/

def idrHere : Bytes → Bool
  | 0 :: 0 :: 1 :: header :: _ => header.toNat &&& 0x1F == 5
  | _ => false

def idrInside : Bytes → Bool
  | [] => false
  | byte :: rest => idrHere (byte :: rest) || idrInside rest

theorem idrHere_iff (xs : Bytes) :
    idrHere xs = true ↔ ∃ header rest, xs = 0 :: 0 :: 1 :: header :: rest ∧
      header.toNat &&& 0x1F = 5 := by
  constructor
  · intro here
    unfold idrHere at here
    split at here
    · next header rest => exact ⟨header, rest, rfl, by simpa using here⟩
    · contradiction
  · rintro ⟨header, rest, rfl, type⟩
    simpa [idrHere] using type

theorem idrHere_plain {xs : Bytes} (plain : headCode xs = 0) : idrHere xs = false := by
  rw [Bool.eq_false_iff]
  intro here
  obtain ⟨header, rest, rfl, _⟩ := (idrHere_iff xs).mp here
  simp [headCode] at plain

/-- A start code begins with zeros, so no slice header is read across two NALs. -/
theorem idrHere_append {xs ys : Bytes} (some_ : xs ≠ []) (marked : headCode ys ≠ 0) :
    idrHere (xs ++ ys) = idrHere xs := by
  have shape := headCode_shape marked
  generalize headCode ys = n at shape
  rw [Bool.eq_iff_iff, idrHere_iff, idrHere_iff]
  match xs with
  | [] => contradiction
  | [a] => cases shape <;> simp
  | [a, b] => cases shape <;> simp
  | [a, b, c] => cases shape <;> simp
  | a :: b :: c :: header :: xs => simp

theorem idrInside_append (xs : Bytes) {ys : Bytes} (marked : headCode ys ≠ 0) :
    idrInside (xs ++ ys) = (idrInside xs || idrInside ys) := by
  induction xs with
  | nil => rfl
  | cons x xs ih =>
    have some_ : x :: xs ≠ [] := by simp
    have here := idrHere_append some_ marked
    rw [List.cons_append] at here ⊢
    rw [idrInside, idrInside, here, ih, Bool.or_assoc]

theorem idrInside_flatten {nals : List Bytes} (marked : ∀ nal ∈ nals, headCode nal ≠ 0) :
    idrInside nals.flatten = nals.any idrInside := by
  induction nals with
  | nil => rfl
  | cons nal nals ih =>
    rw [List.flatten_cons, List.any_cons, ← ih fun n mem => marked n (List.mem_cons_of_mem nal mem)]
    cases nals with
    | nil => simp [idrInside]
    | cons next nals =>
      apply idrInside_append
      have head := marked next (by simp)
      rw [List.flatten_cons, headCode_append _ head]
      exact head

theorem idrInside_plain {xs : Bytes} (plain : ∀ a b, xs = a ++ b → headCode b = 0) :
    idrInside xs = false := by
  induction xs with
  | nil => rfl
  | cons x xs ih =>
    rw [idrInside, idrHere_plain (plain [] (x :: xs) rfl), Bool.false_or]
    apply ih
    intro a b parts
    exact plain (x :: a) b (by rw [parts, List.cons_append])

def Token (nal : Bytes) : Prop :=
  headCode nal ≠ 0 ∧ ∀ a b, nal = a ++ b → headCode nal ≤ a.length → headCode b = 0

theorem nalsOf_token {stream nal : Bytes} (mem : nal ∈ nalsOf stream) : Token nal := by
  refine ⟨nalsOf_marked mem, ?_⟩
  have blocks := nalsOf_blocks stream
  generalize nalsOf stream = nals at mem blocks
  induction nals with
  | nil => simp at mem
  | cons first rest ih =>
    obtain ⟨marked, inside, plain, tail⟩ := blocks
    rcases List.mem_cons.mp mem with rfl | later
    · intro a b parts long
      by_contra coded
      apply coded
      have head := headCode_whole inside marked
      have follows := plain a b parts (by rw [startCode_mark, ← head]; exact long)
      by_cases empty : b = []
      · rw [empty]
        rfl
      · have here := follows empty
        rw [startCode_mark, headCode_append _ coded] at here
        exact here
    · exact ih later tail

theorem idrInside_code (rest : Bytes) :
    idrInside (0 :: 0 :: 1 :: rest) = (idrHere (0 :: 0 :: 1 :: rest) || idrInside rest) ∧
      idrInside (0 :: 0 :: 0 :: 1 :: rest) = idrInside (0 :: 0 :: 1 :: rest) := by
  simp [idrInside, idrHere]

theorem idrInside_token {nal : Bytes} (token : Token nal) : idrInside nal = idrNal nal := by
  obtain ⟨marked, plain⟩ := token
  have body : idrInside (nal.drop (headCode nal)) = false := by
    apply idrInside_plain
    intro a b parts
    apply plain (nal.take (headCode nal) ++ a) b
    · rw [List.append_assoc, ← parts, List.take_append_drop]
    · have bound := headCode_length nal
      rw [List.length_append, List.length_take]
      omega
  have header : idrInside nal = idrHere (0 :: 0 :: 1 :: nal.drop (headCode nal)) := by
    have shape := headCode_shape marked
    generalize headCode nal = size at body shape
    cases shape with
    | three rest =>
      have none_ : idrInside rest = false := body
      rw [(idrInside_code rest).1, none_, Bool.or_false]
      rfl
    | four rest =>
      have none_ : idrInside rest = false := body
      rw [(idrInside_code rest).2, (idrInside_code rest).1, none_, Bool.or_false]
      rfl
  rw [header, idrNal, nalType, headerByte_eq]
  have bodied := codeOnly_iff marked
  cases rest : nal.drop (headCode nal) with
  | nil => simp [idrHere, bodied.mpr rest]
  | cons byte rest' =>
    have behind : codeOnly nal = false := by
      rw [Bool.eq_false_iff, ne_eq, bodied, rest]
      simp
    simp [idrHere, behind]

theorem any_idrNal (stream : Bytes) : (nalsOf stream).any idrNal = (nalsOf stream).any idrInside := by
  rw [Bool.eq_iff_iff, List.any_eq_true, List.any_eq_true]
  constructor
  · rintro ⟨nal, mem, idr⟩
    exact ⟨nal, mem, by rw [idrInside_token (nalsOf_token mem)]; exact idr⟩
  · rintro ⟨nal, mem, idr⟩
    exact ⟨nal, mem, by rw [← idrInside_token (nalsOf_token mem)]; exact idr⟩

/-- Whether a unit carries an IDR slice is seen in its bytes, however they were put together. -/
theorem carriesIdr_eq (unit : Bytes) : carriesIdr unit = idrInside unit := by
  rw [carriesIdr, any_idrNal, ← idrInside_flatten fun nal mem => nalsOf_marked mem, nalsOf]
  cases search : startCode.seek unit with
  | none =>
    symm
    apply idrInside_plain
    exact (seek_none_iff startCode).mp search
  | some c =>
    obtain ⟨pre, rest⟩ := c
    obtain ⟨split, here, earlier⟩ := seek_some startCode search
    have before : idrInside pre = false := by
      apply idrInside_plain
      intro a b parts
      by_cases empty : b = []
      · rw [empty]
        rfl
      · have ahead := earlier a b parts empty
        by_contra coded
        rw [startCode_mark, headCode_append _ coded] at ahead
        exact coded ahead
    rw [split, idrInside_append pre here, before, Bool.false_or, tokens_flatten]

/- The loader's flags are those of the units it pushes. -/

structure Flagged (l : Loader) : Prop where
  current : l.currentIsKeyframe = idrInside l.current
  pushed : ∀ entry ∈ l.accessUnits, entry.2 = idrInside entry.1

theorem flagged_push {l : Loader} (flagged : Flagged l) : Flagged l.push where
  current := rfl
  pushed := by
    intro entry mem
    rcases List.mem_append.mp mem with old | new
    · exact flagged.pushed entry old
    · rw [List.mem_singleton.mp new]
      exact flagged.current

theorem flagged_append {l : Loader} (flagged : Flagged l) {nal : Bytes} (token : Token nal)
    (headed : codeOnly nal = false) : Flagged (l.append nal) where
  current := by
    have idr : idrNal nal = (nalType nal == 5) := by simp [idrNal, headed]
    simp only [Loader.append]
    rw [idrInside_append _ token.1, idrInside_token token, flagged.current, idr]
  pushed := flagged.pushed

theorem addWhole_codeOnly (l : Loader) {nal : Bytes} (marked : headCode nal ≠ 0)
    (empty : codeOnly nal = true) : l.addWhole nal = l := by
  have short : ¬ headCode nal < nal.length := by simpa [codeOnly, marked] using empty
  rw [Loader.addWhole, Loader.addNal, if_neg short]

theorem header_of_body {nal : Bytes} (marked : headCode nal ≠ 0) (headed : codeOnly nal = false) :
    headCode nal < nal.length := by
  simpa [codeOnly, marked] using headed

theorem flagged_addWhole {l : Loader} (flagged : Flagged l) {nal : Bytes} (token : Token nal) :
    Flagged (l.addWhole nal) := by
  cases headed : codeOnly nal with
  | true =>
    rw [addWhole_codeOnly l token.1 headed]
    exact flagged
  | false =>
    rw [addWhole_headed l (header_of_body token.1 headed)]
    apply flagged_append _ token headed
    split
    · exact flagged_push flagged
    · exact flagged

def Started (l : Loader) : Prop := l.accessUnits ≠ [] ∨ l.current ≠ []

theorem started_addWhole (l : Loader) {nal : Bytes} (marked : headCode nal ≠ 0) :
    Started (l.addWhole nal) ↔ Started l ∨ codeOnly nal = false := by
  cases headed : codeOnly nal with
  | true => simp [addWhole_codeOnly l marked headed]
  | false =>
    have some_ : nal ≠ [] := by
      rintro rfl
      exact marked rfl
    simp [addWhole_headed l (header_of_body marked headed), Loader.append, Started, some_]

theorem started_foldl {nals : List Bytes} (marked : ∀ nal ∈ nals, headCode nal ≠ 0) (l : Loader) :
    Started (nals.foldl Loader.addWhole l) ↔
      Started l ∨ ∃ nal ∈ nals, codeOnly nal = false := by
  induction nals generalizing l with
  | nil => simp
  | cons nal nals ih =>
    rw [List.foldl_cons, ih fun n mem => marked n (List.mem_cons_of_mem nal mem),
      started_addWhole l (marked nal (by simp))]
    simp [or_assoc]

theorem flagged_foldl {nals : List Bytes} (tokens : ∀ nal ∈ nals, Token nal) {l : Loader}
    (flagged : Flagged l) : Flagged (nals.foldl Loader.addWhole l) := by
  induction nals generalizing l with
  | nil => exact flagged
  | cons nal nals ih =>
    apply ih fun n mem => tokens n (List.mem_cons_of_mem nal mem)
    exact flagged_addWhole flagged (tokens nal (by simp))

theorem flagged_finish {l : Loader} (flagged : Flagged l) : Flagged l.finish := by
  unfold Loader.finish
  split
  · exact flagged_push flagged
  · exact flagged

theorem finish_some_iff (l : Loader) : l.finish.accessUnits ≠ [] ↔ Started l := by
  unfold Loader.finish
  split
  · next open_ => simp [Loader.push, Started, open_]
  · next closed => simp [Started, not_not.mp closed]

theorem groupFile_flagged (bytes : Bytes) : Flagged (groupFile bytes).finish := by
  rw [groupFile_eq]
  apply flagged_finish
  apply flagged_foldl fun nal mem => nalsOf_token mem
  exact ⟨rfl, by simp⟩

theorem groupFile_units (bytes : Bytes) :
    (groupFile bytes).finish.accessUnits ≠ [] ↔ ∃ nal ∈ nalsOf bytes, codeOnly nal = false := by
  rw [finish_some_iff, groupFile_eq, started_foldl fun nal mem => nalsOf_marked mem]
  simp [Started]

theorem loadedUnits_flags {bytes : Bytes} {entry : Bytes × Bool} (mem : entry ∈ loadedUnits bytes) :
    entry.2 = carriesIdr entry.1 ↔ ∃ nal ∈ nalsOf bytes, codeOnly nal = false := by
  rw [← groupFile_units]
  unfold loadedUnits at mem
  simp only at mem
  split at mem
  · next none_ =>
    rw [List.mem_singleton.mp mem]
    have bare : carriesIdr bytes = false := by
      rw [carriesIdr, List.any_eq_false]
      intro nal mem idr
      have header : codeOnly nal = false := by
        simp only [idrNal, Bool.and_eq_true, Bool.not_eq_true'] at idr
        exact idr.1
      exact (groupFile_units bytes).mpr ⟨nal, mem, header⟩ none_
    simp [none_, bare]
  · next some_ =>
    have right := (groupFile_flagged bytes).pushed entry mem
    rw [carriesIdr_eq]
    simp [right, some_]

theorem loaded_flags {file : Bytes} {width height : UInt32} {stream : H264TestStream}
    (loaded : loadH264TestStream (some file) width height = some stream) (frameIndex : UInt64) :
    (isKeyframe stream frameIndex = carriesIdr (accessUnit stream frameIndex)) ↔
      ∃ nal ∈ nalsOf file, codeOnly nal = false := by
  have units : stream.accessUnits = (loadedUnits file).map Prod.fst ∧
      stream.keyframes = (loadedUnits file).map Prod.snd := by
    unfold loadH264TestStream at loaded
    simp only at loaded
    split at loaded
    · contradiction
    · rw [← Option.some.inj loaded]
      exact ⟨rfl, rfl⟩
  have inside := accessUnitIndex_lt stream frameIndex
  have bound : accessUnitIndex stream frameIndex < (loadedUnits file).length := by
    rw [units.1, List.length_map] at inside
    exact inside
  have entry := loadedUnits_flags (List.getElem_mem bound)
  simpa [isKeyframe, accessUnit, units] using entry

def flagSet (payload : Bytes) : Prop :=
  (unpackVideoFrameHeader payload).flags &&& kVideoFrameKeyframe ≠ 0

theorem testPayload_flag (stream : H264TestStream) (frameIndex : UInt64) (monotonicTimeNs : Int64) :
    flagSet (makeH264TestPayload stream frameIndex monotonicTimeNs) ↔
      isKeyframe stream frameIndex = true := by
  rw [flagSet, unpack_testPayload, testHeader]
  cases isKeyframe stream frameIndex <;> simp [kVideoFrameKeyframe]

theorem stereoPayload_flag {frameIndex width height : Int} {left right : Bytes} {monotonicNs : Int}
    {payload : Bytes}
    (built : makeH264StereoPayload frameIndex width height left right monotonicNs = some payload) :
    flagSet payload := by
  rw [makeH264StereoPayload, QuestVideoPayload.stereoPayload, Option.map_eq_some_iff] at built
  obtain ⟨header, packed, rfl⟩ := built
  obtain ⟨fits, rfl⟩ := QuestProtocol.structPack_some packed
  rw [flagSet, QuestTeleop.unpackVideoFrameHeader_eq, ← QuestProtocol.videoFrameHeader_format,
    List.append_assoc, ByteRecord.unpack_pack _ _ _ fits]
  change UInt16.ofNat QuestProtocol.VIDEO_FRAME_KEYFRAME.toNat &&& kVideoFrameKeyframe ≠ 0
  decide

/-- A VIDEO packet that a host builds from Annex-B streams. -/
inductive HostPacket where
  | test (file : Bytes) (width height : UInt32) (stream : H264TestStream)
      (loaded : loadH264TestStream (some file) width height = some stream)
      (frameIndex : UInt64) (monotonicTimeNs : Int64)
  | stereo (leftChunks rightChunks : List Bytes) (left right : Nat × Bytes)
      (leftQueued : left ∈ (readerLoop leftChunks).queue)
      (rightQueued : right ∈ (readerLoop rightChunks).queue)
      (frameIndex width height monotonicNs : Int) (payload : Bytes)
      (built : makeH264StereoPayload frameIndex width height left.2 right.2 monotonicNs =
        some payload)

def HostPacket.payload : HostPacket → Bytes
  | .test _ _ _ stream _ frameIndex monotonicTimeNs =>
    makeH264TestPayload stream frameIndex monotonicTimeNs
  | .stereo _ _ _ _ _ _ _ _ _ _ payload _ => payload

def HostPacket.accessUnits : HostPacket → List Bytes
  | .test _ _ _ stream _ frameIndex _ => [accessUnit stream frameIndex, accessUnit stream frameIndex]
  | .stereo _ _ left right _ _ _ _ _ _ _ _ => [left.2, right.2]

def HostPacket.FlagTrue (packet : HostPacket) : Prop :=
  flagSet packet.payload ↔ ∃ unit ∈ packet.accessUnits, carriesIdr unit = true

/-- Where the flag is right: on a file that has a NAL with a header, and on a pair of which the
    encoders made one picture an IDR picture. -/
def HostPacket.Marked : HostPacket → Prop
  | .test file _ _ _ _ _ _ => ∃ nal ∈ nalsOf file, codeOnly nal = false
  | .stereo _ _ left right _ _ _ _ _ _ _ _ =>
    carriesIdr left.2 = true ∨ carriesIdr right.2 = true

theorem keyframe_flag_iff (packet : HostPacket) : packet.FlagTrue ↔ packet.Marked := by
  cases packet with
  | test file width height stream loaded frameIndex monotonicTimeNs =>
    rw [HostPacket.Marked, ← loaded_flags loaded frameIndex, HostPacket.FlagTrue,
      HostPacket.payload, testPayload_flag, Bool.eq_iff_iff]
    simp [HostPacket.accessUnits]
  | stereo leftChunks rightChunks left right leftQueued rightQueued frameIndex width height
      monotonicNs payload built =>
    have set := stereoPayload_flag built
    simp [HostPacket.FlagTrue, HostPacket.payload, HostPacket.accessUnits, HostPacket.Marked, set]

/-- Two P slices are sent as a keyframe by the Python host. -/
theorem p_slices_flagged :
    ∃ packet : HostPacket, flagSet packet.payload ∧
      packet.accessUnits = [[0, 0, 1, 0x41, 0x9a], [0, 0, 1, 0x41, 0x9a]] ∧ ¬ packet.FlagTrue := by
  obtain ⟨payload, built⟩ : ∃ payload, makeH264StereoPayload 0 1280 720 [0, 0, 1, 0x41, 0x9a]
      [0, 0, 1, 0x41, 0x9a] 5 = some payload := Option.isSome_iff_exists.mp (by decide)
  have queued : (0, [0, 0, 1, 0x41, 0x9a]) ∈ (readerLoop [[0, 0, 1, 0x41, 0x9a]]).queue := by
    decide
  have set := stereoPayload_flag built
  have plain : carriesIdr [0, 0, 1, 0x41, 0x9a] = false := by decide
  refine ⟨.stereo _ _ _ _ queued queued _ _ _ _ payload built, set, rfl, ?_⟩
  simp [HostPacket.FlagTrue, HostPacket.payload, HostPacket.accessUnits, set, plain]

end HostKeyframeFlag
