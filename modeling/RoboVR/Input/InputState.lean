import RoboVR.Input.Number

/- `state.py`: the input state, and what the parse helpers make of the raw fields. -/
namespace QuestInputState
open QuestKeyValue QuestNumber

structure Pose3D where
  position : List Float64
  quatXyzw : List Float64
  valid : Bool
  timestampNs : Option Int
  positionShape : position.length = 3
  quatShape : quatXyzw.length = 4

def makePose3D (position quatXyzw : List Float64) (valid : Bool) (timestampNs : Option Int) :
    Except PyError Pose3D :=
  if positionShape : position.length = 3 then
    if quatShape : quatXyzw.length = 4 then
      .ok { position, quatXyzw, valid, timestampNs, positionShape, quatShape }
    else .error .valueError
  else .error .valueError

structure Quest3InputState where
  timestampNs : Int
  connected : Bool
  head : Option Pose3D
  rightGrip : Option Pose3D
  rightGripFlags : Int
  leftTrigger : Float64
  rightTrigger : Float64
  leftSqueeze : Float64
  rightSqueeze : Float64
  buttonA : Bool
  buttonB : Bool
  buttonX : Bool
  buttonY : Bool
  ipdM : Option Float64
  eyeViewCount : Option Int
  lastHeartbeatNs : Option Int
  lastVideoAckNs : Option Int
  raw : Dict

def zero : Float64 := .finite false 0 0

def emptyInputState (timestampNs : Int) (connected : Bool) : Quest3InputState :=
  { timestampNs := timestampNs
    connected := connected
    head := none
    rightGrip := none
    rightGripFlags := 0
    leftTrigger := zero
    rightTrigger := zero
    leftSqueeze := zero
    rightSqueeze := zero
    buttonA := false
    buttonB := false
    buttonX := false
    buttonY := false
    ipdM := none
    eyeViewCount := none
    lastHeartbeatNs := none
    lastVideoAckNs := none
    raw := [] }

/-- `except ValueError: return default`. -/
def exceptValueError {α : Type} (default : α) : Except PyError α → Except PyError α
  | .error .valueError => .ok default
  | result => result

/-- Lower case as far as ASCII goes: no other character has one of the words' letters as its
    lower case. -/
def lower (text : Str) : Str := text.map Char.toLower

def parseBool (value : Option Str) (default : Bool) : Bool :=
  match value with
  | none => default
  | some value =>
    decide (lower (strip value) ∈ ["1", "true", "yes", "y", "on"].map String.toList)

def parseFloat (value : Option Str) (default : Float64) : Except PyError Float64 :=
  match value with
  | none => .ok default
  | some value => exceptValueError default (pyFloat value)

def parseInt (value : Option Str) (default : Int) : Except PyError Int :=
  match value with
  | none => .ok default
  | some value => exceptValueError default (pyInt value)

def parseOptionalFloat (value : Option Str) : Except PyError (Option Float64) :=
  match value with
  | none => .ok none
  | some value => exceptValueError none ((pyFloat value).map some)

def parseOptionalInt (value : Option Str) : Except PyError (Option Int) :=
  match value with
  | none => .ok none
  | some value => exceptValueError none ((pyInt value).map some)

def item (raw : Dict) (key : Str) : Except PyError Str :=
  match Dict.get raw key with
  | some value => .ok value
  | none => .error .keyError

def floats (raw : Dict) (keys : List Str) : Except PyError (List Float64) :=
  keys.mapM fun key => (item raw key).bind pyFloat

def positionKeys (name : Str) : List Str :=
  ["_px", "_py", "_pz"].map fun axis => name ++ axis.toList

def quatKeys (name : Str) : List Str :=
  ["_qx", "_qy", "_qz", "_qw"].map fun axis => name ++ axis.toList

def poseArrays (raw : Dict) (name : Str) : Except PyError (List Float64 × List Float64) :=
  (floats raw (positionKeys name)).bind fun position =>
    (floats raw (quatKeys name)).map fun quat => (position, quat)

def poseFromRaw (raw : Dict) (name : Str) (timestampNs : Option Int) (valid : Bool) :
    Except PyError (Option Pose3D) :=
  let keys := positionKeys name ++ quatKeys name
  if keys.any fun key => (Dict.get raw key).isNone then .ok none
  else
    match poseArrays raw name with
    | .ok (position, quat) => (makePose3D position quat valid timestampNs).map some
    | .error .valueError => .ok none
    | .error e => .error e

def updateStateFromPosePayload (previous : Option Quest3InputState) (raw : Dict)
    (timestampNs : Int) (connected : Bool) : Except PyError Quest3InputState := do
  let base := previous.getD (emptyInputState timestampNs connected)
  let get := fun key : String => Dict.get raw key.toList
  return { base with
    timestampNs := timestampNs
    connected := connected
    head := ← poseFromRaw raw "head".toList (some timestampNs) true
    rightGrip := ← poseFromRaw raw "right_grip".toList (some timestampNs) true
    rightGripFlags := ← parseInt (get "right_grip_flags") base.rightGripFlags
    leftTrigger := ← parseFloat (get "left_trigger") base.leftTrigger
    rightTrigger := ← parseFloat (get "right_trigger") base.rightTrigger
    leftSqueeze := ← parseFloat (get "left_squeeze") base.leftSqueeze
    rightSqueeze := ← parseFloat (get "right_squeeze") base.rightSqueeze
    buttonA := parseBool (get "button_a") base.buttonA
    buttonB := parseBool (get "button_b") base.buttonB
    buttonX := parseBool (get "button_x") base.buttonX
    buttonY := parseBool (get "button_y") base.buttonY
    ipdM := ← parseOptionalFloat (get "ipd_m")
    eyeViewCount := ← parseOptionalInt (get "eye_view_count")
    raw := raw }

/- No parse helper raises. -/

theorem exceptValueError_ok {α : Type} {default : α} {result : Except PyError α}
    (caught : result ≠ .error .keyError) : ∃ value, exceptValueError default result = .ok value := by
  match result with
  | .ok value => exact ⟨value, rfl⟩
  | .error .valueError => exact ⟨default, rfl⟩
  | .error .keyError => exact absurd rfl caught

theorem pyFloat_caught (text : Str) : pyFloat text ≠ .error .keyError := by
  unfold pyFloat
  split <;> simp

theorem pyInt_caught (text : Str) : pyInt text ≠ .error .keyError := by
  unfold pyInt
  simp only
  split <;> simp

theorem bind_caught {α β : Type} {result : Except PyError α} {next : α → Except PyError β}
    (caught : result ≠ .error .keyError)
    (later : ∀ value, result = .ok value → next value ≠ .error .keyError) :
    result.bind next ≠ .error .keyError := by
  cases result with
  | ok value => exact later value rfl
  | error e =>
    intro same
    rw [Except.bind, Except.error.injEq] at same
    exact caught (congrArg Except.error same)

theorem map_caught {α β : Type} {result : Except PyError α} (caught : result ≠ .error .keyError)
    (f : α → β) : result.map f ≠ .error .keyError := by
  cases result with
  | ok value => simp [Except.map]
  | error e =>
    intro same
    rw [Except.map, Except.error.injEq] at same
    exact caught (congrArg Except.error same)

theorem parseFloat_ok (value : Option Str) (default : Float64) :
    ∃ x, parseFloat value default = .ok x := by
  cases value with
  | none => exact ⟨default, rfl⟩
  | some text => exact exceptValueError_ok (pyFloat_caught text)

theorem parseInt_ok (value : Option Str) (default : Int) :
    ∃ n, parseInt value default = .ok n := by
  cases value with
  | none => exact ⟨default, rfl⟩
  | some text => exact exceptValueError_ok (pyInt_caught text)

theorem parseOptionalFloat_ok (value : Option Str) : ∃ x, parseOptionalFloat value = .ok x := by
  cases value with
  | none => exact ⟨none, rfl⟩
  | some text => exact exceptValueError_ok (map_caught (pyFloat_caught text) some)

theorem parseOptionalInt_ok (value : Option Str) : ∃ n, parseOptionalInt value = .ok n := by
  cases value with
  | none => exact ⟨none, rfl⟩
  | some text => exact exceptValueError_ok (map_caught (pyInt_caught text) some)

theorem floats_cons (raw : Dict) (key : Str) (keys : List Str) :
    floats raw (key :: keys) =
      ((item raw key).bind pyFloat).bind fun x => (floats raw keys).map fun xs => x :: xs := by
  rw [floats, List.mapM_cons]
  rfl

theorem floats_caught {raw : Dict} {keys : List Str}
    (there : ∀ key ∈ keys, (Dict.get raw key).isNone = false) :
    floats raw keys ≠ .error .keyError := by
  induction keys with
  | nil => exact fun same => nomatch same
  | cons key keys ih =>
    rw [floats_cons]
    apply bind_caught
    · have here := there key List.mem_cons_self
      obtain ⟨text, found⟩ := Option.isSome_iff_exists.mp (Option.isNone_eq_false_iff.mp here)
      rw [item, found]
      exact pyFloat_caught text
    · intro x _
      exact map_caught (ih fun k mem => there k (List.mem_cons_of_mem key mem)) _

theorem floats_length {raw : Dict} {keys : List Str} {xs : List Float64}
    (read : floats raw keys = .ok xs) : xs.length = keys.length := by
  induction keys generalizing xs with
  | nil =>
    cases read
    rfl
  | cons key keys ih =>
    rw [floats_cons] at read
    cases first : (item raw key).bind pyFloat with
    | error e => rw [first] at read; cases read
    | ok x =>
      cases others : floats raw keys with
      | error e => rw [first, others] at read; cases read
      | ok more =>
        rw [first, others] at read
        cases read
        rw [List.length_cons, List.length_cons, ih others]

theorem makePose3D_ok {position quatXyzw : List Float64} (three : position.length = 3)
    (four : quatXyzw.length = 4) (valid : Bool) (timestampNs : Option Int) :
    ∃ pose, makePose3D position quatXyzw valid timestampNs = .ok pose := by
  rw [makePose3D, dif_pos three, dif_pos four]
  exact ⟨_, rfl⟩

theorem poseArrays_shapes {raw : Dict} {name : Str} {position quat : List Float64}
    (read : poseArrays raw name = .ok (position, quat)) :
    position.length = 3 ∧ quat.length = 4 := by
  unfold poseArrays at read
  cases first : floats raw (positionKeys name) with
  | error e => rw [first] at read; cases read
  | ok xs =>
    cases second : floats raw (quatKeys name) with
    | error e => rw [first, second] at read; cases read
    | ok ys =>
      rw [first, second] at read
      cases read
      exact ⟨floats_length first, floats_length second⟩

theorem poseFromRaw_ok (raw : Dict) (name : Str) (timestampNs : Option Int) (valid : Bool) :
    ∃ pose, poseFromRaw raw name timestampNs valid = .ok pose := by
  unfold poseFromRaw
  simp only
  split
  · exact ⟨none, rfl⟩
  · rename_i there
    have found : ∀ key ∈ positionKeys name ++ quatKeys name, (Dict.get raw key).isNone = false := by
      intro key mem
      by_contra missing
      exact there (List.any_eq_true.mpr ⟨key, mem, Bool.eq_true_of_not_eq_false missing⟩)
    have caught : poseArrays raw name ≠ .error .keyError := by
      apply bind_caught (floats_caught fun key mem => found key (List.mem_append_left _ mem))
      intro position _
      exact map_caught (floats_caught fun key mem => found key (List.mem_append_right _ mem)) _
    split
    · rename_i position quat read
      obtain ⟨three, four⟩ := poseArrays_shapes read
      obtain ⟨pose, made⟩ := makePose3D_ok three four valid timestampNs
      exact ⟨some pose, by rw [made]; rfl⟩
    · exact ⟨none, rfl⟩
    · rename_i e other failed
      cases e with
      | valueError => exact absurd rfl other
      | keyError => exact absurd failed caught

/- What the helpers give for numbers that are there. -/

def FloatAt (raw : Dict) (key : Str) (x : Float64) : Prop :=
  ∃ text, Dict.get raw key = some text ∧ pyFloat text = .ok x

theorem parseFloat_value {raw : Dict} {key : Str} {x : Float64} (value : FloatAt raw key x)
    (default : Float64) : parseFloat (Dict.get raw key) default = .ok x := by
  obtain ⟨text, found, read⟩ := value
  rw [found, parseFloat, read]
  rfl

theorem parseOptionalFloat_value {raw : Dict} {key : Str} {x : Float64}
    (value : FloatAt raw key x) : parseOptionalFloat (Dict.get raw key) = .ok (some x) := by
  obtain ⟨text, found, read⟩ := value
  rw [found, parseOptionalFloat, read]
  rfl

theorem floats_values {raw : Dict} {keys : List Str} {xs : List Float64}
    (values : List.Forall₂ (FloatAt raw) keys xs) :
    floats raw keys = .ok xs := by
  induction values with
  | nil => rfl
  | cons head _ ih =>
    obtain ⟨text, found, value⟩ := head
    rw [floats_cons, item, found, ih]
    simp only [Except.bind, value]
    rfl

theorem values_found {raw : Dict} {keys : List Str} {xs : List Float64}
    (values : List.Forall₂ (FloatAt raw) keys xs) :
    ∀ key ∈ keys, Dict.get raw key ≠ none := by
  induction values with
  | nil => simp
  | cons head _ ih =>
    obtain ⟨text, found, _⟩ := head
    intro key mem
    rcases List.mem_cons.mp mem with rfl | later
    · simp [found]
    · exact ih key later

theorem poseFromRaw_values {raw : Dict} {name : Str} {pose : Pose3D}
    (position : List.Forall₂ (FloatAt raw) (positionKeys name) pose.position)
    (quat : List.Forall₂ (FloatAt raw) (quatKeys name) pose.quatXyzw) :
    poseFromRaw raw name pose.timestampNs pose.valid = .ok (some pose) := by
  have there : ¬ (positionKeys name ++ quatKeys name).any
      (fun key => (Dict.get raw key).isNone) = true := by
    intro missing
    obtain ⟨key, mem, absent⟩ := List.any_eq_true.mp missing
    rw [Option.isNone_iff_eq_none] at absent
    rcases List.mem_append.mp mem with inPosition | inQuat
    · exact values_found position key inPosition absent
    · exact values_found quat key inQuat absent
  have arrays : poseArrays raw name = .ok (pose.position, pose.quatXyzw) := by
    rw [poseArrays, floats_values position, floats_values quat]
    rfl
  rw [poseFromRaw, if_neg there, arrays]
  simp only [makePose3D, pose.positionShape, pose.quatShape, dif_pos]
  rfl

section Fields
variable {previous : Option Quest3InputState} {raw : Dict} {timestampNs : Int} {connected : Bool}
  {head rightGrip : Option Pose3D} {flags : Int}
  {leftTrigger rightTrigger leftSqueeze rightSqueeze : Float64} {ipdM : Option Float64}
  {eyeViewCount : Option Int}

theorem updateStateFromPosePayload_eq
    (headOk : poseFromRaw raw "head".toList (some timestampNs) true = .ok head)
    (gripOk : poseFromRaw raw "right_grip".toList (some timestampNs) true = .ok rightGrip)
    (flagsOk : parseInt (Dict.get raw "right_grip_flags".toList)
      (previous.getD (emptyInputState timestampNs connected)).rightGripFlags = .ok flags)
    (leftTriggerOk : parseFloat (Dict.get raw "left_trigger".toList)
      (previous.getD (emptyInputState timestampNs connected)).leftTrigger = .ok leftTrigger)
    (rightTriggerOk : parseFloat (Dict.get raw "right_trigger".toList)
      (previous.getD (emptyInputState timestampNs connected)).rightTrigger = .ok rightTrigger)
    (leftSqueezeOk : parseFloat (Dict.get raw "left_squeeze".toList)
      (previous.getD (emptyInputState timestampNs connected)).leftSqueeze = .ok leftSqueeze)
    (rightSqueezeOk : parseFloat (Dict.get raw "right_squeeze".toList)
      (previous.getD (emptyInputState timestampNs connected)).rightSqueeze = .ok rightSqueeze)
    (ipdOk : parseOptionalFloat (Dict.get raw "ipd_m".toList) = .ok ipdM)
    (countOk : parseOptionalInt (Dict.get raw "eye_view_count".toList) = .ok eyeViewCount) :
    updateStateFromPosePayload previous raw timestampNs connected =
      let base := previous.getD (emptyInputState timestampNs connected)
      .ok { base with
        timestampNs, connected, head, rightGrip, leftTrigger, rightTrigger, leftSqueeze,
        rightSqueeze, ipdM, eyeViewCount, raw
        rightGripFlags := flags
        buttonA := parseBool (Dict.get raw "button_a".toList) base.buttonA
        buttonB := parseBool (Dict.get raw "button_b".toList) base.buttonB
        buttonX := parseBool (Dict.get raw "button_x".toList) base.buttonX
        buttonY := parseBool (Dict.get raw "button_y".toList) base.buttonY } := by
  rw [updateStateFromPosePayload]
  simp only [headOk, gripOk, flagsOk, leftTriggerOk, rightTriggerOk, leftSqueezeOk, rightSqueezeOk,
    ipdOk, countOk]
  rfl

end Fields

/-- Any fields from any client make a state, and each field of it is what its helper read. -/
theorem updateStateFromPosePayload_parsed (previous : Option Quest3InputState) (raw : Dict)
    (timestampNs : Int) (connected : Bool) :
    let base := previous.getD (emptyInputState timestampNs connected)
    ∃ state, updateStateFromPosePayload previous raw timestampNs connected = .ok state ∧
      poseFromRaw raw "head".toList (some timestampNs) true = .ok state.head ∧
      poseFromRaw raw "right_grip".toList (some timestampNs) true = .ok state.rightGrip ∧
      parseFloat (Dict.get raw "left_trigger".toList) base.leftTrigger = .ok state.leftTrigger ∧
      parseFloat (Dict.get raw "right_trigger".toList) base.rightTrigger = .ok state.rightTrigger ∧
      parseFloat (Dict.get raw "left_squeeze".toList) base.leftSqueeze = .ok state.leftSqueeze ∧
      parseFloat (Dict.get raw "right_squeeze".toList) base.rightSqueeze =
        .ok state.rightSqueeze ∧
      parseOptionalFloat (Dict.get raw "ipd_m".toList) = .ok state.ipdM := by
  obtain ⟨head, headOk⟩ := poseFromRaw_ok raw "head".toList (some timestampNs) true
  obtain ⟨grip, gripOk⟩ := poseFromRaw_ok raw "right_grip".toList (some timestampNs) true
  obtain ⟨flags, flagsOk⟩ := parseInt_ok (Dict.get raw "right_grip_flags".toList) _
  obtain ⟨leftTrigger, leftTriggerOk⟩ := parseFloat_ok (Dict.get raw "left_trigger".toList) _
  obtain ⟨rightTrigger, rightTriggerOk⟩ := parseFloat_ok (Dict.get raw "right_trigger".toList) _
  obtain ⟨leftSqueeze, leftSqueezeOk⟩ := parseFloat_ok (Dict.get raw "left_squeeze".toList) _
  obtain ⟨rightSqueeze, rightSqueezeOk⟩ := parseFloat_ok (Dict.get raw "right_squeeze".toList) _
  obtain ⟨ipd, ipdOk⟩ := parseOptionalFloat_ok (Dict.get raw "ipd_m".toList)
  obtain ⟨count, countOk⟩ := parseOptionalInt_ok (Dict.get raw "eye_view_count".toList)
  refine ⟨_, updateStateFromPosePayload_eq headOk gripOk flagsOk leftTriggerOk rightTriggerOk
    leftSqueezeOk rightSqueezeOk ipdOk countOk, ?_⟩
  exact ⟨headOk, gripOk, leftTriggerOk, rightTriggerOk, leftSqueezeOk, rightSqueezeOk, ipdOk⟩

theorem updateStateFromPosePayload_ok (previous : Option Quest3InputState) (raw : Dict)
    (timestampNs : Int) (connected : Bool) :
    ∃ state, updateStateFromPosePayload previous raw timestampNs connected = .ok state := by
  obtain ⟨state, whole, _⟩ := updateStateFromPosePayload_parsed previous raw timestampNs connected
  exact ⟨state, whole⟩

end QuestInputState
