import RoboVR.Server.Quest3Server

/- Which numbers a POSE packet leaves in the input state. The parse helpers fall back where
   `float` raises, and `float` takes infinities and NaNs. -/
namespace QuestFinitePose
open BinaryFloat
open QuestProtocol (PT_POSE)
open QuestKeyValue QuestNumber QuestInputState QuestPacketReader QuestServer

/- The fields of the state that hold numbers. -/

def poseFields : List (String × (Quest3InputState → Option Pose3D)) :=
  [("head", (·.head)), ("right_grip", (·.rightGrip))]

def scalarFields : List (String × (Quest3InputState → Float64)) :=
  [("left_trigger", (·.leftTrigger)), ("right_trigger", (·.rightTrigger)),
    ("left_squeeze", (·.leftSqueeze)), ("right_squeeze", (·.rightSqueeze))]

def poseKeys (name : String) : List Str := positionKeys name.toList ++ quatKeys name.toList

def poseNumbers (pose : Pose3D) : List Float64 := pose.position ++ pose.quatXyzw

structure FiniteState (state : Quest3InputState) : Prop where
  poses : ∀ field ∈ poseFields, ∀ pose, field.2 state = some pose →
    ∀ x ∈ poseNumbers pose, x.isFinite = true
  scalars : ∀ field ∈ scalarFields, (field.2 state).isFinite = true
  ipdM : ∀ x, state.ipdM = some x → x.isFinite = true

def finiteNumber (text : Str) : Option Float64 :=
  match pyFloat text with
  | .ok x => if x.isFinite then some x else none
  | .error _ => none

/-- A token that denotes no finite number is taken as a malformed one. -/
structure MalformedDropped (base : Quest3InputState) (raw : Dict) (state : Quest3InputState) :
    Prop where
  poses : ∀ field ∈ poseFields, ∀ key ∈ poseKeys field.1, ∀ text, Dict.get raw key = some text →
    finiteNumber text = none → field.2 state = none
  scalars : ∀ field ∈ scalarFields, ∀ text, Dict.get raw field.1.toList = some text →
    finiteNumber text = none → field.2 state = field.2 base
  ipdM : ∀ text, Dict.get raw "ipd_m".toList = some text →
    finiteNumber text = none → state.ipdM = none

def finiteOrRaises (text : Str) : Bool :=
  match pyFloat text with
  | .ok x => x.isFinite
  | .error _ => true

def finiteField (raw : Dict) (key : Str) : Bool := (Dict.get raw key).all finiteOrRaises

/-- A token of the pose is missing, or `float` raises for one, or they all give finite numbers. -/
def finitePose (raw : Dict) (name : String) : Bool :=
  match poseArrays raw name.toList with
  | .ok (position, quat) => (position ++ quat).all Binary.isFinite
  | .error _ => true

def TokensFinite (raw : Dict) : Prop :=
  (∀ field ∈ poseFields, finitePose raw field.1 = true) ∧
    (∀ field ∈ scalarFields, finiteField raw field.1.toList = true) ∧
    finiteField raw "ipd_m".toList = true

instance (raw : Dict) : Decidable (TokensFinite raw) := by
  unfold TokensFinite
  infer_instance

theorem finiteNumber_none {text : Str} (none_ : finiteNumber text = none) {x : Float64}
    (read : pyFloat text = .ok x) : x.isFinite = false := by
  cases finite : x.isFinite with
  | false => rfl
  | true => simp [finiteNumber, read, finite] at none_

structure Updated (base : Quest3InputState) (raw : Dict) (timestampNs : Int)
    (state : Quest3InputState) : Prop where
  poses : ∀ field ∈ poseFields,
    poseFromRaw raw field.1.toList (some timestampNs) true = .ok (field.2 state)
  scalars : ∀ field ∈ scalarFields,
    parseFloat (Dict.get raw field.1.toList) (field.2 base) = .ok (field.2 state)
  ipdM : parseOptionalFloat (Dict.get raw "ipd_m".toList) = .ok state.ipdM

theorem updated (previous : Option Quest3InputState) (raw : Dict) (timestampNs : Int)
    (connected : Bool) :
    ∃ state, updateStateFromPosePayload previous raw timestampNs connected = .ok state ∧
      Updated (previous.getD (emptyInputState timestampNs connected)) raw timestampNs state := by
  obtain ⟨state, whole, head, grip, leftTrigger, rightTrigger, leftSqueeze, rightSqueeze, ipd⟩ :=
    updateStateFromPosePayload_parsed previous raw timestampNs connected
  refine ⟨state, whole, ?_⟩
  constructor
  · simp only [poseFields, List.forall_mem_cons]
    exact ⟨head, grip, by simp⟩
  · simp only [scalarFields, List.forall_mem_cons]
    exact ⟨leftTrigger, rightTrigger, leftSqueeze, rightSqueeze, by simp⟩
  · exact ipd

/- One lemma for each parse helper. -/

theorem parseFloat_finite_iff {raw : Dict} {key : Str} {default x : Float64}
    (finite : default.isFinite = true)
    (read : parseFloat (Dict.get raw key) default = .ok x) :
    (x.isFinite = true ∧
        ∀ text, Dict.get raw key = some text → finiteNumber text = none → x = default) ↔
      finiteField raw key = true := by
  cases found : Dict.get raw key with
  | none =>
    rw [found] at read
    cases read
    simp [finiteField, found, finite]
  | some text =>
    rw [found] at read
    cases value : pyFloat text with
    | ok y =>
      have same : y = x := by
        simpa [parseFloat, value, exceptValueError] using read
      rw [← same]
      constructor
      · intro both
        simp [finiteField, found, finiteOrRaises, value, both.1]
      · intro accepted
        have finiteY : y.isFinite = true := by
          simpa [finiteField, found, finiteOrRaises, value] using accepted
        constructor
        · exact finiteY
        · intro token same malformed
          obtain rfl := Option.some.inj same
          rw [finiteNumber_none malformed value] at finiteY
          exact absurd finiteY (by decide)
    | error e =>
      have same : x = default := by
        cases e with
        | valueError => simpa [parseFloat, value, exceptValueError, eq_comm] using read
        | keyError => exact absurd value (pyFloat_caught text)
      rw [same]
      simp [finiteField, found, finiteOrRaises, value, finite]

theorem parseOptionalFloat_finite_iff {raw : Dict} {key : Str} {x : Option Float64}
    (read : parseOptionalFloat (Dict.get raw key) = .ok x) :
    ((∀ y, x = some y → y.isFinite = true) ∧
        ∀ text, Dict.get raw key = some text → finiteNumber text = none → x = none) ↔
      finiteField raw key = true := by
  cases found : Dict.get raw key with
  | none =>
    rw [found] at read
    cases read
    simp [finiteField, found]
  | some text =>
    rw [found] at read
    cases value : pyFloat text with
    | ok y =>
      have same : x = some y := by
        simpa [parseOptionalFloat, value, exceptValueError, Except.map, eq_comm] using read
      rw [same]
      constructor
      · intro both
        simp [finiteField, found, finiteOrRaises, value, both.1 y rfl]
      · intro accepted
        have finiteY : y.isFinite = true := by
          simpa [finiteField, found, finiteOrRaises, value] using accepted
        constructor
        · intro z same
          obtain rfl := Option.some.inj same
          exact finiteY
        · intro token same malformed
          obtain rfl := Option.some.inj same
          rw [finiteNumber_none malformed value] at finiteY
          exact absurd finiteY (by decide)
    | error e =>
      have same : x = none := by
        cases e with
        | valueError =>
          simpa [parseOptionalFloat, value, exceptValueError, Except.map, eq_comm] using read
        | keyError => exact absurd value (pyFloat_caught text)
      rw [same]
      simp [finiteField, found, finiteOrRaises, value]

theorem floats_read {raw : Dict} {keys : List Str} {xs : List Float64}
    (read : floats raw keys = .ok xs) : List.Forall₂ (FloatAt raw) keys xs := by
  induction keys generalizing xs with
  | nil =>
    cases read
    exact .nil
  | cons key keys ih =>
    rw [floats_cons] at read
    cases found : Dict.get raw key with
    | none => simp [item, found, Except.bind] at read
    | some text =>
      cases value : pyFloat text with
      | error e => simp [item, found, value, Except.bind] at read
      | ok x =>
        cases later : floats raw keys with
        | error e => simp [item, found, value, later, Except.bind, Except.map] at read
        | ok ys =>
          have same : x :: ys = xs := by
            simpa [item, found, value, later, Except.bind, Except.map] using read
          rw [← same]
          exact .cons ⟨text, found, value⟩ (ih later)

theorem poseArrays_read {raw : Dict} {name : Str} {position quat : List Float64}
    (read : poseArrays raw name = .ok (position, quat)) :
    List.Forall₂ (FloatAt raw) (positionKeys name) position ∧
      List.Forall₂ (FloatAt raw) (quatKeys name) quat := by
  unfold poseArrays at read
  cases first : floats raw (positionKeys name) with
  | error e => simp [first, Except.bind] at read
  | ok xs =>
    cases second : floats raw (quatKeys name) with
    | error e => simp [first, second, Except.bind, Except.map] at read
    | ok ys =>
      simp only [first, second, Except.bind, Except.map, Except.ok.injEq, Prod.mk.injEq] at read
      obtain ⟨rfl, rfl⟩ := read
      exact ⟨floats_read first, floats_read second⟩

theorem poseArrays_ok_iff {raw : Dict} {name : Str} {timestampNs : Option Int} {valid : Bool}
    {made : Option Pose3D} (result : poseFromRaw raw name timestampNs valid = .ok made)
    (position quat : List Float64) :
    poseArrays raw name = .ok (position, quat) ↔
      ∃ pose, made = some pose ∧ pose.position = position ∧ pose.quatXyzw = quat := by
  constructor
  · intro arrays
    obtain ⟨three, four⟩ := poseArrays_shapes arrays
    obtain ⟨first, second⟩ := poseArrays_read arrays
    let pose : Pose3D := ⟨position, quat, valid, timestampNs, three, four⟩
    have whole : poseFromRaw raw name timestampNs valid = .ok (some pose) :=
      @poseFromRaw_values raw name pose first second
    rw [whole] at result
    exact ⟨pose, (Except.ok.inj result).symm, rfl, rfl⟩
  · rintro ⟨pose, rfl, rfl, rfl⟩
    unfold poseFromRaw at result
    simp only at result
    split at result
    · exact absurd (Except.ok.inj result) (by simp)
    · cases arrays : poseArrays raw name with
      | error e => cases e <;> simp [arrays] at result
      | ok pair =>
        obtain ⟨position, quat⟩ := pair
        obtain ⟨three, four⟩ := poseArrays_shapes arrays
        simp only [arrays, makePose3D, dif_pos three, dif_pos four, Except.map] at result
        rw [← Option.some.inj (Except.ok.inj result)]

theorem forall₂_mem {raw : Dict} {keys : List Str} {xs : List Float64}
    (read : List.Forall₂ (FloatAt raw) keys xs) :
    ∀ key ∈ keys, ∃ x ∈ xs, FloatAt raw key x := by
  induction read with
  | nil => simp
  | cons head _ ih =>
    intro key mem
    rcases List.mem_cons.mp mem with rfl | later
    · exact ⟨_, List.mem_cons_self, head⟩
    · obtain ⟨x, inside, value⟩ := ih key later
      exact ⟨x, List.mem_cons_of_mem _ inside, value⟩

theorem poseFromRaw_finite_iff {raw : Dict} {name : String} {timestampNs : Option Int}
    {valid : Bool} {made : Option Pose3D}
    (result : poseFromRaw raw name.toList timestampNs valid = .ok made) :
    ((∀ pose, made = some pose → ∀ x ∈ poseNumbers pose, x.isFinite = true) ∧
        ∀ key ∈ poseKeys name, ∀ text, Dict.get raw key = some text →
          finiteNumber text = none → made = none) ↔
      finitePose raw name = true := by
  cases arrays : poseArrays raw name.toList with
  | error e =>
    have unmade : made = none := by
      cases made with
      | none => rfl
      | some pose =>
        have read := (poseArrays_ok_iff result pose.position pose.quatXyzw).mpr ⟨pose, rfl, rfl, rfl⟩
        rw [arrays] at read
        cases read
    simp [unmade, finitePose, arrays]
  | ok pair =>
    obtain ⟨position, quat⟩ := pair
    obtain ⟨pose, rfl, rfl, rfl⟩ := (poseArrays_ok_iff result position quat).mp arrays
    have finite_iff : finitePose raw name = true ↔ ∀ x ∈ poseNumbers pose, x.isFinite = true := by
      simp only [finitePose, arrays, poseNumbers, List.all_eq_true]
    rw [finite_iff]
    constructor
    · intro both
      exact both.1 pose rfl
    · intro finite
      constructor
      · intro other same
        obtain rfl := Option.some.inj same
        exact finite
      · intro key mem token found malformed
        obtain ⟨first, second⟩ := poseArrays_read arrays
        have read : List.Forall₂ (FloatAt raw) (poseKeys name) (poseNumbers pose) :=
          List.rel_append first second
        obtain ⟨x, inside, text, there, value⟩ := forall₂_mem read key mem
        rw [found] at there
        obtain rfl := Option.some.inj there
        have infinite := finiteNumber_none malformed value
        rw [finite x inside] at infinite
        exact absurd infinite (by decide)

theorem update_finite_iff {base state : Quest3InputState} {raw : Dict} {timestampNs : Int}
    (done : Updated base raw timestampNs state) (finite : FiniteState base) :
    FiniteState state ∧ MalformedDropped base raw state ↔ TokensFinite raw := by
  constructor
  · rintro ⟨numbers, dropped⟩
    refine ⟨?_, ?_, ?_⟩
    · intro field mem
      exact (poseFromRaw_finite_iff (done.poses field mem)).mp
        ⟨numbers.poses field mem, dropped.poses field mem⟩
    · intro field mem
      exact (parseFloat_finite_iff (finite.scalars field mem) (done.scalars field mem)).mp
        ⟨numbers.scalars field mem, dropped.scalars field mem⟩
    · exact (parseOptionalFloat_finite_iff done.ipdM).mp ⟨numbers.ipdM, dropped.ipdM⟩
  · rintro ⟨poses, scalars, ipdM⟩
    have pose := fun field mem =>
      (poseFromRaw_finite_iff (done.poses field mem)).mpr (poses field mem)
    have scalar := fun field mem =>
      (parseFloat_finite_iff (finite.scalars field mem) (done.scalars field mem)).mpr
        (scalars field mem)
    have ipd := (parseOptionalFloat_finite_iff done.ipdM).mpr ipdM
    constructor
    · exact ⟨fun field mem => (pose field mem).1, fun field mem => (scalar field mem).1, ipd.1⟩
    · exact ⟨fun field mem => (pose field mem).2, fun field mem => (scalar field mem).2, ipd.2⟩

theorem empty_finite (timestampNs : Int) (connected : Bool) :
    FiniteState (emptyInputState timestampNs connected) where
  poses := by simp [poseFields, emptyInputState]
  scalars := by simp [scalarFields, emptyInputState, zero, Binary.isFinite]
  ipdM := by simp [emptyInputState]

/-- The state that a POSE packet leaves, given that the one before had finite numbers, has finite
    numbers with malformed tokens dropped if and only if the tokens that `float` takes are
    finite. -/
theorem handlePacket_pose_finite_iff (server : Quest3Server) (packet : Packet)
    (pose : packet.packetType = PT_POSE)
    (finite : ∀ previous, server.latest = some previous → FiniteState previous) :
    ∃ after state, handlePacket server packet = .ok after ∧ after.latest = some state ∧
      (FiniteState state ∧
          MalformedDropped (stateOrEmpty server packet.timestampNs true)
            (parseKeyValuePayload packet.payload) state ↔
        TokensFinite (parseKeyValuePayload packet.payload)) := by
  obtain ⟨state, made, done⟩ := updated server.latest (parseKeyValuePayload packet.payload)
    packet.timestampNs true
  have base : FiniteState (server.latest.getD (emptyInputState packet.timestampNs true)) := by
    cases held : server.latest with
    | none => exact empty_finite packet.timestampNs true
    | some previous => exact finite previous held
  refine ⟨{ bump (bump server .packets) .pose with latest := some state }, state, ?_, rfl, ?_⟩
  · have handled : handlePacket server packet =
        setPose (bump (bump server .packets) .pose) packet.timestampNs
          (parseKeyValuePayload packet.payload) := by
      rw [handlePacket, pose]
      rfl
    have before : (bump (bump server .packets) .pose).latest = server.latest := rfl
    rw [handled, setPose, before, made]
  · exact update_finite_iff done base

def posePacket (text : String) : Packet :=
  { packetType := PT_POSE, timestampNs := 7, payload := (text.toList.map fun c => UInt8.ofNat c.toNat) }

/-- A token that `float` raises for keeps the trigger, and numbers arrive. -/
theorem malformed_trigger_kept :
    ∃ after state, handlePacket {} (posePacket "left_trigger=pull;right_trigger=0.25;ipd_m=x") =
        .ok after ∧
      after.latest = some state ∧ FiniteState state ∧
      MalformedDropped (emptyInputState 7 true)
        (parseKeyValuePayload
          (posePacket "left_trigger=pull;right_trigger=0.25;ipd_m=x").payload) state := by
  obtain ⟨after, state, handled, latest, kept⟩ := handlePacket_pose_finite_iff {}
    (posePacket "left_trigger=pull;right_trigger=0.25;ipd_m=x") rfl (by simp)
  exact ⟨after, state, handled, latest, kept.mpr (by decide +kernel)⟩

/-- `float` takes a NaN. -/
theorem nan_trigger_stored :
    ¬ ∀ (server : Quest3Server) (packet : Packet), packet.packetType = PT_POSE →
      (∀ previous, server.latest = some previous → FiniteState previous) →
      ∃ after state, handlePacket server packet = .ok after ∧ after.latest = some state ∧
        FiniteState state ∧
        MalformedDropped (stateOrEmpty server packet.timestampNs true)
          (parseKeyValuePayload packet.payload) state := by
  intro all
  obtain ⟨after, state, handled, latest, finite, _⟩ :=
    all {} (posePacket "right_trigger=nan") rfl (by simp)
  have stored : (handlePacket {} (posePacket "right_trigger=nan")).toOption.bind
      (fun after => after.latest.map fun state => state.rightTrigger.isFinite) = some false := by
    decide +kernel
  have trigger := finite.scalars ("right_trigger", (·.rightTrigger)) (by simp [scalarFields])
  rw [handled] at stored
  simp [Except.toOption, latest, trigger] at stored

end QuestFinitePose
