import RoboVR.Input.Number
import RoboVR.Lib.Printf

/- `formatPosePayload`: the text of a pose packet. -/
namespace QuestPosePayload
open QuestKeyValue QuestNumber Printf

abbrev FloatBits := UInt32

structure XrVector3f where
  x : FloatBits
  y : FloatBits
  z : FloatBits

structure XrQuaternionf where
  x : FloatBits
  y : FloatBits
  z : FloatBits
  w : FloatBits

structure XrPosef where
  orientation : XrQuaternionf
  position : XrVector3f

structure XrFovf where
  angleLeft : FloatBits
  angleRight : FloatBits
  angleUp : FloatBits
  angleDown : FloatBits

structure HeadPoseSample where
  predictedDisplayTimeNs : Int64
  pose : XrPosef
  viewStateFlags : UInt64
  eyeViewCount : UInt32
  leftEyePose : XrPosef
  rightEyePose : XrPosef
  leftEyeFov : XrFovf
  rightEyeFov : XrFovf
  ipdM : FloatBits
  leftGripPose : XrPosef
  rightGripPose : XrPosef
  leftAimPose : XrPosef
  rightAimPose : XrPosef
  leftGripFlags : UInt64
  rightGripFlags : UInt64
  leftAimFlags : UInt64
  rightAimFlags : UInt64
  leftTrigger : FloatBits
  rightTrigger : FloatBits
  leftSqueeze : FloatBits
  rightSqueeze : FloatBits
  buttonA : Bool
  buttonB : Bool
  buttonX : Bool
  buttonY : Bool

def poseFormat : Str :=
  ["predicted_display_time_ns=%lld;", "view_state_flags=%u;",
    "head_px=%.6f;", "head_py=%.6f;", "head_pz=%.6f;", "head_qx=%.6f;", "head_qy=%.6f;",
      "head_qz=%.6f;", "head_qw=%.6f;",
    "eye_view_count=%u;", "ipd_m=%.6f;",
    "left_eye_px=%.6f;", "left_eye_py=%.6f;", "left_eye_pz=%.6f;", "left_eye_qx=%.6f;",
      "left_eye_qy=%.6f;", "left_eye_qz=%.6f;", "left_eye_qw=%.6f;",
    "right_eye_px=%.6f;", "right_eye_py=%.6f;", "right_eye_pz=%.6f;", "right_eye_qx=%.6f;",
      "right_eye_qy=%.6f;", "right_eye_qz=%.6f;", "right_eye_qw=%.6f;",
    "left_fov_left=%.6f;", "left_fov_right=%.6f;", "left_fov_up=%.6f;", "left_fov_down=%.6f;",
    "right_fov_left=%.6f;", "right_fov_right=%.6f;", "right_fov_up=%.6f;", "right_fov_down=%.6f;",
    "left_grip_flags=%llu;", "left_grip_px=%.6f;", "left_grip_py=%.6f;", "left_grip_pz=%.6f;",
      "left_grip_qx=%.6f;", "left_grip_qy=%.6f;", "left_grip_qz=%.6f;", "left_grip_qw=%.6f;",
    "right_grip_flags=%llu;", "right_grip_px=%.6f;", "right_grip_py=%.6f;", "right_grip_pz=%.6f;",
      "right_grip_qx=%.6f;", "right_grip_qy=%.6f;", "right_grip_qz=%.6f;", "right_grip_qw=%.6f;",
    "left_aim_flags=%llu;", "left_aim_px=%.6f;", "left_aim_py=%.6f;", "left_aim_pz=%.6f;",
      "left_aim_qx=%.6f;", "left_aim_qy=%.6f;", "left_aim_qz=%.6f;", "left_aim_qw=%.6f;",
    "right_aim_flags=%llu;", "right_aim_px=%.6f;", "right_aim_py=%.6f;", "right_aim_pz=%.6f;",
      "right_aim_qx=%.6f;", "right_aim_qy=%.6f;", "right_aim_qz=%.6f;", "right_aim_qw=%.6f;",
    "left_trigger=%.3f;", "right_trigger=%.3f;", "left_squeeze=%.3f;", "right_squeeze=%.3f;",
    "button_a=%d;", "button_b=%d;", "button_x=%d;", "button_y=%d"].flatMap literal

def poseArgs (sample : HeadPoseSample) : List Arg :=
  let h := sample.pose
  let le := sample.leftEyePose
  let re := sample.rightEyePose
  let lf := sample.leftEyeFov
  let rf := sample.rightEyeFov
  let lg := sample.leftGripPose
  let rg := sample.rightGripPose
  let la := sample.leftAimPose
  let ra := sample.rightAimPose
  [.longLong sample.predictedDisplayTimeNs,
    .unsigned sample.viewStateFlags.toUInt32,
    .float h.position.x, .float h.position.y, .float h.position.z,
    .float h.orientation.x, .float h.orientation.y, .float h.orientation.z, .float h.orientation.w,
    .unsigned sample.eyeViewCount,
    .float sample.ipdM,
    .float le.position.x, .float le.position.y, .float le.position.z,
    .float le.orientation.x, .float le.orientation.y, .float le.orientation.z,
    .float le.orientation.w,
    .float re.position.x, .float re.position.y, .float re.position.z,
    .float re.orientation.x, .float re.orientation.y, .float re.orientation.z,
    .float re.orientation.w,
    .float lf.angleLeft, .float lf.angleRight, .float lf.angleUp, .float lf.angleDown,
    .float rf.angleLeft, .float rf.angleRight, .float rf.angleUp, .float rf.angleDown,
    .unsignedLongLong sample.leftGripFlags,
    .float lg.position.x, .float lg.position.y, .float lg.position.z,
    .float lg.orientation.x, .float lg.orientation.y, .float lg.orientation.z,
    .float lg.orientation.w,
    .unsignedLongLong sample.rightGripFlags,
    .float rg.position.x, .float rg.position.y, .float rg.position.z,
    .float rg.orientation.x, .float rg.orientation.y, .float rg.orientation.z,
    .float rg.orientation.w,
    .unsignedLongLong sample.leftAimFlags,
    .float la.position.x, .float la.position.y, .float la.position.z,
    .float la.orientation.x, .float la.orientation.y, .float la.orientation.z,
    .float la.orientation.w,
    .unsignedLongLong sample.rightAimFlags,
    .float ra.position.x, .float ra.position.y, .float ra.position.z,
    .float ra.orientation.x, .float ra.orientation.y, .float ra.orientation.z,
    .float ra.orientation.w,
    .float sample.leftTrigger, .float sample.rightTrigger,
    .float sample.leftSqueeze, .float sample.rightSqueeze,
    .int (if sample.buttonA then 1 else 0), .int (if sample.buttonB then 1 else 0),
    .int (if sample.buttonX then 1 else 0), .int (if sample.buttonY then 1 else 0)]

def payloadSize : Nat := 4096

def formatPosePayload (signedNan : Bool) (sample : HeadPoseSample) : Option Str :=
  snprintf signedNan payloadSize poseFormat (poseArgs sample)

/- The format as a list of fields. -/

def six : Conversion := .fixed 6 (by decide)

def three : Conversion := .fixed 3 (by decide)

def poseFieldsOf (name : String) : List (Str × Conversion) :=
  ["_px", "_py", "_pz", "_qx", "_qy", "_qz", "_qw"].map fun axis =>
    (literal name ++ literal axis, six)

def fovFieldsOf (name : String) : List (Str × Conversion) :=
  ["_left", "_right", "_up", "_down"].map fun side => (literal name ++ literal side, six)

def poseFields : List (Str × Conversion) :=
  [(literal "predicted_display_time_ns", .lld), (literal "view_state_flags", .u)] ++
  poseFieldsOf "head" ++
  [(literal "eye_view_count", .u), (literal "ipd_m", six)] ++
  poseFieldsOf "left_eye" ++
  poseFieldsOf "right_eye" ++
  fovFieldsOf "left_fov" ++
  fovFieldsOf "right_fov" ++
  ((literal "left_grip_flags", .llu) :: poseFieldsOf "left_grip") ++
  ((literal "right_grip_flags", .llu) :: poseFieldsOf "right_grip") ++
  ((literal "left_aim_flags", .llu) :: poseFieldsOf "left_aim") ++
  ((literal "right_aim_flags", .llu) :: poseFieldsOf "right_aim") ++
  ["left_trigger", "right_trigger", "left_squeeze", "right_squeeze"].map
    (fun key => (literal key, three)) ++
  ["button_a", "button_b", "button_x", "button_y"].map (fun key => (literal key, .d))

/-- Each field behind a semicolon, the first one excepted. -/
def fieldPieces : List (Str × Conversion) → List (Str × Conversion)
  | [] => []
  | field :: fields =>
    (field.1 ++ ['='], field.2) :: fields.map fun field => (';' :: field.1 ++ ['='], field.2)

theorem poseFormat_fields :
    readFormat poseFormat = some { pieces := fieldPieces poseFields, rest := [] } := by
  decide +kernel

theorem poseFields_some : poseFields ≠ [] := List.cons_ne_nil _ _

theorem poseKeys_distinct : (poseFields.map Prod.fst).Nodup := by decide +kernel

theorem poseArgs_kind (sample : HeadPoseSample) :
    (poseFields.map Prod.snd).map Conversion.kind = (poseArgs sample).map Arg.kind := by
  rfl

/- A format of fields prints its keys with the tokens. -/

theorem fill_later {signedNan : Bool} {fields : List (Str × Conversion)} {args : List Arg}
    {texts : List Str} (printed : tokens signedNan (fields.map Prod.snd) args = some texts) :
    fill signedNan [] (fields.map fun field => (';' :: field.1 ++ ['='], field.2)) args =
      some (((fields.map Prod.fst).zip texts).flatMap fun entry => ';' :: fieldText entry) := by
  induction fields generalizing args texts with
  | nil =>
    rw [List.map_nil, fill]
    rfl
  | cons field fields ih =>
    obtain ⟨arg, later, text, more, rfl, rfl, first, others⟩ := tokens_cons printed
    rw [List.map_cons, fill, first, Option.bind_some, ih others, Option.map_some, List.map_cons,
      List.zip_cons_cons, List.flatMap_cons]
    simp [fieldText]

theorem fill_fields {signedNan : Bool} {fields : List (Str × Conversion)} {args : List Arg}
    {texts : List Str} (some_ : fields ≠ [])
    (printed : tokens signedNan (fields.map Prod.snd) args = some texts) :
    fill signedNan [] (fieldPieces fields) args =
      some (payloadText ((fields.map Prod.fst).zip texts)) := by
  cases fields with
  | nil => exact absurd rfl some_
  | cons field fields =>
    obtain ⟨arg, later, text, more, rfl, rfl, first, others⟩ := tokens_cons printed
    rw [fieldPieces, fill, first, Option.bind_some, fill_later others, Option.map_some,
      List.map_cons, List.zip_cons_cons, payloadText_flatMap]
    simp [fieldText]

/- What the pose format prints: the tokens, and how much room they need. -/

def poseTokens (signedNan : Bool) (sample : HeadPoseSample) : List Str :=
  (tokens signedNan (poseFields.map Prod.snd) (poseArgs sample)).getD []

def poseEntries (signedNan : Bool) (sample : HeadPoseSample) : Dict :=
  (poseFields.map Prod.fst).zip (poseTokens signedNan sample)

theorem poseTokens_printed (signedNan : Bool) (sample : HeadPoseSample) :
    tokens signedNan (poseFields.map Prod.snd) (poseArgs sample) =
      some (poseTokens signedNan sample) := by
  obtain ⟨texts, printed⟩ := tokens_kind (poseArgs_kind sample) signedNan
  rw [poseTokens, printed, Option.getD_some]

theorem pose_sprintf (signedNan : Bool) (sample : HeadPoseSample) :
    sprintf signedNan poseFormat (poseArgs sample) =
      some (payloadText (poseEntries signedNan sample)) := by
  rw [sprintf, poseFormat_fields, Option.bind_some,
    fill_fields poseFields_some (poseTokens_printed signedNan sample)]
  rfl

theorem intText_plain (n : Int) : Plain (intText n) := by
  intro c mem
  rcases List.mem_append.mp mem with sign | number
  · have minus : c = '-' := by
      cases negative : decide (n < 0) <;> simp_all [BinaryFloat.signText]
    rw [minus]
    decide
  · exact digit_plain (DecimalText.toDigits_digits _ c number)

theorem token_plain {signedNan : Bool} {conversion : Conversion} {arg : Arg} {text : Str}
    (printed : token signedNan conversion arg = some text) : Plain text := by
  unfold token at printed
  split at printed <;> simp only [Option.some.injEq, reduceCtorEq] at printed <;> rw [← printed]
  · exact intText_plain _
  · exact fun c mem => digit_plain (DecimalText.toDigits_digits _ c mem)
  · exact fun c mem => digit_plain (DecimalText.toDigits_digits _ c mem)
  · exact intText_plain _
  · exact printFixed_plain signedNan _ _

def fieldsRoom (fields : List (Str × Conversion)) : Nat :=
  (fields.map fun field => field.1.length + longest field.2 + 2).sum

theorem payloadText_room {signedNan : Bool} {fields : List (Str × Conversion)} {args : List Arg}
    {texts : List Str} (printed : tokens signedNan (fields.map Prod.snd) args = some texts) :
    (((fields.map Prod.fst).zip texts).flatMap fun entry => ';' :: fieldText entry).length ≤
      fieldsRoom fields := by
  induction fields generalizing args texts with
  | nil => simp
  | cons field fields ih =>
    obtain ⟨arg, later, text, more, rfl, rfl, first, others⟩ := tokens_cons printed
    have token := token_length first
    have rest := ih others
    simp only [List.map_cons, List.zip_cons_cons, List.flatMap_cons, List.length_append,
      List.length_cons, fieldText, fieldsRoom, List.sum_cons] at rest ⊢
    omega

theorem poseKeys_plain : ∀ field ∈ poseFields, field.1 ≠ [] ∧ Plain field.1 := by decide +kernel

theorem pose_room : fieldsRoom poseFields ≤ payloadSize := by decide +kernel

theorem entries_plain {signedNan : Bool} {fields : List (Str × Conversion)} {args : List Arg}
    {texts : List Str} (printed : tokens signedNan (fields.map Prod.snd) args = some texts)
    (keys : ∀ field ∈ fields, field.1 ≠ [] ∧ Plain field.1) :
    ∀ entry ∈ (fields.map Prod.fst).zip texts, PlainEntry entry := by
  induction fields generalizing args texts with
  | nil => simp
  | cons field fields ih =>
    obtain ⟨arg, later, text, more, rfl, rfl, first, others⟩ := tokens_cons printed
    have key := keys field List.mem_cons_self
    have rest := ih others fun f mem => keys f (List.mem_cons_of_mem field mem)
    intro entry mem
    rw [List.map_cons, List.zip_cons_cons] at mem
    rcases List.mem_cons.mp mem with rfl | further
    · exact ⟨key.1, key.2, token_plain first⟩
    · exact rest entry further

theorem poseEntries_plain (signedNan : Bool) (sample : HeadPoseSample) :
    ∀ entry ∈ poseEntries signedNan sample, PlainEntry entry :=
  entries_plain (poseTokens_printed signedNan sample) poseKeys_plain

theorem poseTokens_length (signedNan : Bool) (sample : HeadPoseSample) :
    (poseFields.map Prod.fst).length = (poseTokens signedNan sample).length := by
  rw [tokens_length (poseTokens_printed signedNan sample), List.length_map, List.length_map]

theorem poseEntries_keys (signedNan : Bool) (sample : HeadPoseSample) :
    (poseEntries signedNan sample).map Prod.fst = poseFields.map Prod.fst :=
  List.map_fst_zip (le_of_eq (poseTokens_length signedNan sample))

theorem poseEntries_some (signedNan : Bool) (sample : HeadPoseSample) :
    poseEntries signedNan sample ≠ [] := by
  intro none_
  have keys := poseEntries_keys signedNan sample
  rw [none_] at keys
  exact poseFields_some (List.map_eq_nil_iff.mp keys.symm)

/-- The text fits with its closing zero. -/
theorem poseText_fits (signedNan : Bool) (sample : HeadPoseSample) :
    (payloadText (poseEntries signedNan sample)).length < payloadSize := by
  have room := payloadText_room (poseTokens_printed signedNan sample)
  have bound := pose_room
  obtain ⟨entry, entries, same⟩ := List.exists_cons_of_ne_nil (poseEntries_some signedNan sample)
  unfold poseEntries at same
  rw [same, List.flatMap_cons, List.cons_append, ← payloadText_flatMap, List.length_cons] at room
  rw [poseEntries, same]
  omega

theorem formatPosePayload_whole (signedNan : Bool) (sample : HeadPoseSample) :
    formatPosePayload signedNan sample = some (payloadText (poseEntries signedNan sample)) := by
  have fits := poseText_fits signedNan sample
  have chars := payloadText_ascii (poseEntries_plain signedNan sample)
  rw [formatPosePayload, snprintf, pose_sprintf, Option.map_some, List.take_of_length_le (by omega),
    List.takeWhile_eq_self_iff.mpr]
  intro c mem
  have positive := (chars c mem).1
  rw [decide_eq_true_eq]
  rintro rfl
  exact absurd positive (by decide)

theorem parse_pose (signedNan : Bool) (sample : HeadPoseSample) :
    parseKeyValuePayload (Utf8.ascii (payloadText (poseEntries signedNan sample))) =
      poseEntries signedNan sample := by
  apply parse_payloadText (poseEntries_plain signedNan sample) (poseEntries_some signedNan sample)
  rw [poseEntries_keys]
  exact poseKeys_distinct

theorem pose_get {signedNan : Bool} {sample : HeadPoseSample} {i : Nat} {key text : Str}
    {conversion : Conversion} {arg : Arg} (field : poseFields[i]? = some (key, conversion))
    (given : (poseArgs sample)[i]? = some arg)
    (printed : token signedNan conversion arg = some text) :
    Dict.get (poseEntries signedNan sample) key = some text := by
  have there : (poseFields.map Prod.snd)[i]? = some conversion := by
    rw [List.getElem?_map, field]
    rfl
  obtain ⟨other, same, token⟩ := tokens_get (poseTokens_printed signedNan sample) there
  rw [given, Option.some.injEq] at same
  rw [← same, printed] at token
  apply get_zip poseKeys_distinct (i := i)
  · rw [List.getElem?_map, field]
    rfl
  · exact token

end QuestPosePayload
