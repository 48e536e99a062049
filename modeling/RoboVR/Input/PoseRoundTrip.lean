import RoboVR.Input.InputState
import RoboVR.Input.PosePayload

/- A pose packet from the text that the headset prints to the state that the host keeps. -/
namespace QuestPoseRoundTrip
open QuestKeyValue QuestNumber QuestPosePayload QuestInputState Printf BinaryFloat

/-- The double that is nearest to the decimal number printed for a float. -/
def readBack (signedNan : Bool) (digits : Nat) (bits : FloatBits) : Float64 :=
  printedValue signedNan digits (ofBits32 bits)

def readPose (signedNan : Bool) (timestampNs : Int) (pose : XrPosef) : Pose3D :=
  { position := [readBack signedNan 6 pose.position.x, readBack signedNan 6 pose.position.y,
      readBack signedNan 6 pose.position.z]
    quatXyzw := [readBack signedNan 6 pose.orientation.x, readBack signedNan 6 pose.orientation.y,
      readBack signedNan 6 pose.orientation.z, readBack signedNan 6 pose.orientation.w]
    valid := true
    timestampNs := some timestampNs
    positionShape := rfl
    quatShape := rfl }

structure Carries (signedNan : Bool) (sample : HeadPoseSample) (time : Int) (online : Bool)
    (state : Quest3InputState) : Prop where
  timestampNs : state.timestampNs = time
  connected : state.connected = online
  head : state.head = some (readPose signedNan time sample.pose)
  rightGrip : state.rightGrip = some (readPose signedNan time sample.rightGripPose)
  rightGripFlags : state.rightGripFlags = sample.rightGripFlags.toNat
  leftTrigger : state.leftTrigger = readBack signedNan 3 sample.leftTrigger
  rightTrigger : state.rightTrigger = readBack signedNan 3 sample.rightTrigger
  leftSqueeze : state.leftSqueeze = readBack signedNan 3 sample.leftSqueeze
  rightSqueeze : state.rightSqueeze = readBack signedNan 3 sample.rightSqueeze
  buttonA : state.buttonA = sample.buttonA
  buttonB : state.buttonB = sample.buttonB
  buttonX : state.buttonX = sample.buttonX
  buttonY : state.buttonY = sample.buttonY
  ipdM : state.ipdM = some (readBack signedNan 6 sample.ipdM)
  eyeViewCount : state.eyeViewCount = some (sample.eyeViewCount.toNat : Int)
  raw : state.raw = poseEntries signedNan sample

section Fields
variable {signedNan : Bool} {sample : HeadPoseSample}

theorem six_at (i : Nat) {key : Str} {bits : FloatBits} (field : poseFields[i]? = some (key, six))
    (given : (poseArgs sample)[i]? = some (.float bits)) :
    FloatAt (poseEntries signedNan sample) key (readBack signedNan 6 bits) :=
  ⟨_, pose_get field given rfl, pyFloat_printFixed signedNan (by decide) _⟩

theorem three_at (i : Nat) {key : Str} {bits : FloatBits}
    (field : poseFields[i]? = some (key, three))
    (given : (poseArgs sample)[i]? = some (.float bits)) :
    FloatAt (poseEntries signedNan sample) key (readBack signedNan 3 bits) :=
  ⟨_, pose_get field given rfl, pyFloat_printFixed signedNan (by decide) _⟩

theorem flags_at (i : Nat) {key : Str} {flags : UInt64} (field : poseFields[i]? = some (key, .llu))
    (given : (poseArgs sample)[i]? = some (.unsignedLongLong flags)) (default : Int) :
    parseInt (Dict.get (poseEntries signedNan sample) key) default = .ok flags.toNat := by
  have small := flags.toNat_lt
  have short := DecimalText.toDigits_short (by decide : 0 < 20) (by omega : flags.toNat < 10 ^ 20)
  rw [pose_get field given rfl, parseInt, pyInt_digits (by omega)]
  rfl

theorem count_at (i : Nat) {key : Str} {count : UInt32} (field : poseFields[i]? = some (key, .u))
    (given : (poseArgs sample)[i]? = some (.unsigned count)) :
    parseOptionalInt (Dict.get (poseEntries signedNan sample) key) =
      .ok (some (count.toNat : Int)) := by
  have small := count.toNat_lt
  have short := DecimalText.toDigits_short (by decide : 0 < 10) (by omega : count.toNat < 10 ^ 10)
  rw [pose_get field given rfl, parseOptionalInt, pyInt_digits (by omega)]
  rfl

theorem button_at (i : Nat) {key : Str} {button : Bool} (field : poseFields[i]? = some (key, .d))
    (given : (poseArgs sample)[i]? = some (.int (if button then 1 else 0))) (default : Bool) :
    parseBool (Dict.get (poseEntries signedNan sample) key) default = button := by
  rw [pose_get field given rfl, parseBool]
  cases button <;> decide

theorem pose_values (i : Nat) {name : Str} {pose : XrPosef}
    (fields : (poseFields.drop i).take 7 =
      (positionKeys name ++ quatKeys name).map fun key => (key, six))
    (given : ((poseArgs sample).drop i).take 7 =
      [.float pose.position.x, .float pose.position.y, .float pose.position.z,
        .float pose.orientation.x, .float pose.orientation.y, .float pose.orientation.z,
        .float pose.orientation.w])
    (time : Int) :
    poseFromRaw (poseEntries signedNan sample) name (some time) true =
      .ok (some (readPose signedNan time pose)) := by
  have value : ∀ (k : Nat) {key : Str} {bits : FloatBits}, k < 7 →
      ((poseFields.drop i).take 7)[k]? = some (key, six) →
      (((poseArgs sample).drop i).take 7)[k]? = some (.float bits) →
      FloatAt (poseEntries signedNan sample) key (readBack signedNan 6 bits) := by
    intro k key bits inside field arg
    rw [List.getElem?_take_of_lt inside, List.getElem?_drop] at field arg
    exact six_at (i + k) field arg
  rw [fields, given] at value
  have position : List.Forall₂ (FloatAt (poseEntries signedNan sample)) (positionKeys name)
      (readPose signedNan time pose).position :=
    .cons (value 0 (by decide) rfl rfl) (.cons (value 1 (by decide) rfl rfl)
      (.cons (value 2 (by decide) rfl rfl) .nil))
  have quat : List.Forall₂ (FloatAt (poseEntries signedNan sample)) (quatKeys name)
      (readPose signedNan time pose).quatXyzw :=
    .cons (value 3 (by decide) rfl rfl) (.cons (value 4 (by decide) rfl rfl)
      (.cons (value 5 (by decide) rfl rfl) (.cons (value 6 (by decide) rfl rfl) .nil)))
  exact poseFromRaw_values position quat

theorem update_carries (previous : Option Quest3InputState) (time : Int) (online : Bool) :
    ∃ state, updateStateFromPosePayload previous (poseEntries signedNan sample) time online =
        .ok state ∧
      Carries signedNan sample time online state ∧
      state.lastHeartbeatNs = previous.bind Quest3InputState.lastHeartbeatNs ∧
      state.lastVideoAckNs = previous.bind Quest3InputState.lastVideoAckNs := by
  have heartbeat : (previous.getD (emptyInputState time online)).lastHeartbeatNs =
      previous.bind Quest3InputState.lastHeartbeatNs := by
    cases previous <;> rfl
  have videoAck : (previous.getD (emptyInputState time online)).lastVideoAckNs =
      previous.bind Quest3InputState.lastVideoAckNs := by
    cases previous <;> rfl
  have buttonA : ∀ default, parseBool
      (Dict.get (poseEntries signedNan sample) "button_a".toList) default = sample.buttonA :=
    button_at 69 (by decide +kernel) rfl
  have buttonB : ∀ default, parseBool
      (Dict.get (poseEntries signedNan sample) "button_b".toList) default = sample.buttonB :=
    button_at 70 (by decide +kernel) rfl
  have buttonX : ∀ default, parseBool
      (Dict.get (poseEntries signedNan sample) "button_x".toList) default = sample.buttonX :=
    button_at 71 (by decide +kernel) rfl
  have buttonY : ∀ default, parseBool
      (Dict.get (poseEntries signedNan sample) "button_y".toList) default = sample.buttonY :=
    button_at 72 (by decide +kernel) rfl
  refine ⟨_, updateStateFromPosePayload_eq
    (pose_values 2 (by decide +kernel) rfl time)
    (pose_values 42 (by decide +kernel) rfl time)
    (flags_at 41 (by decide +kernel) rfl _)
    (parseFloat_value (three_at 65 (by decide +kernel) rfl) _)
    (parseFloat_value (three_at 66 (by decide +kernel) rfl) _)
    (parseFloat_value (three_at 67 (by decide +kernel) rfl) _)
    (parseFloat_value (three_at 68 (by decide +kernel) rfl) _)
    (parseOptionalFloat_value (six_at 10 (by decide +kernel) rfl))
    (count_at 9 (by decide +kernel) rfl), ?_, heartbeat, videoAck⟩
  constructor
  case buttonA => simp only [buttonA]
  case buttonB => simp only [buttonB]
  case buttonX => simp only [buttonX]
  case buttonY => simp only [buttonY]
  all_goals rfl

end Fields

/-- The text fits, is read field by field as it was printed, and makes the same state whatever was
    there before. -/
theorem pose_round_trip (signedNan : Bool) (sample : HeadPoseSample) :
    ∃ text texts,
      sprintf signedNan poseFormat (poseArgs sample) = some text ∧
      text.length < payloadSize ∧
      formatPosePayload signedNan sample = some text ∧
      readFormat poseFormat = some { pieces := fieldPieces poseFields, rest := [] } ∧
      tokens signedNan (poseFields.map Prod.snd) (poseArgs sample) = some texts ∧
      (poseFields.map Prod.fst).length = texts.length ∧
      parseKeyValuePayload (Utf8.ascii text) = (poseFields.map Prod.fst).zip texts ∧
      ∀ previous time online,
        ∃ state, updateStateFromPosePayload previous (parseKeyValuePayload (Utf8.ascii text)) time
            online = .ok state ∧
          Carries signedNan sample time online state ∧
          state.lastHeartbeatNs = previous.bind Quest3InputState.lastHeartbeatNs ∧
          state.lastVideoAckNs = previous.bind Quest3InputState.lastVideoAckNs := by
  have parsed := parse_pose signedNan sample
  refine ⟨payloadText (poseEntries signedNan sample), poseTokens signedNan sample,
    pose_sprintf signedNan sample, poseText_fits signedNan sample,
    formatPosePayload_whole signedNan sample, poseFormat_fields,
    poseTokens_printed signedNan sample, poseTokens_length signedNan sample, parsed, ?_⟩
  intro previous time online
  rw [parsed]
  exact update_carries previous time online

end QuestPoseRoundTrip
