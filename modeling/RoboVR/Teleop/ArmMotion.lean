import RoboVR.Teleop.ArmTeleop

/- The arm's motion, next to its gripper: what `make_action` computes of two samples in a row. The
   arithmetic is a parameter. -/
namespace QuestArmMotion
open TracedRun

/-- What the arithmetic has besides the four operations: `1.0e-9`, two functions of numpy, and the
    rounding of an entry of a float32 array. -/
class Numeric (R : Type) where
  small : R
  sqrt : R → R
  arctan2 : R → R → R
  single : R → R

abbrev Vec3 (R : Type) := Fin 3 → R
abbrev Quat (R : Type) := Fin 4 → R

structure Sample (R : Type) where
  rightGripFlags : Int
  rightGripPx : R
  rightGripPy : R
  rightGripPz : R
  rightGripQx : R
  rightGripQy : R
  rightGripQz : R
  rightGripQw : R
  rightTrigger : R
  rightSqueeze : R
  buttonB : Bool
  buttonY : Bool

structure Args (R : Type) where
  armClutchThreshold : R
  armGripperThreshold : R
  armPositionGain : R
  armRotationGain : R
  armPositionDeadbandM : R
  armRotationDeadbandRad : R
  armOscPositionOutputMax : R
  armOscRotationOutputMax : R
  armMaxAction : R
  armForwardSign : R
  armRightSign : R
  armUpSign : R
  armLockRotation : Bool
  armInvertGripper : Bool

structure Axes (R : Type) where
  right : Vec3 R
  up : Vec3 R
  forward : Vec3 R

structure Action (R : Type) where
  position : Vec3 R
  rotation : Vec3 R
  grip : R

def POSITION_VALID_BIT : Int := 0x2

/-- The other bit of `XrSpaceLocationFlags`, which nothing tests. -/
def ORIENTATION_VALID_BIT : Int := 0x1

def Sample.positionValid {R : Type} (sample : Sample R) : Bool :=
  Int.land sample.rightGripFlags POSITION_VALID_BIT != 0

def Sample.orientationValid {R : Type} (sample : Sample R) : Bool :=
  Int.land sample.rightGripFlags ORIENTATION_VALID_BIT != 0

def Sample.reset {R : Type} (sample : Sample R) : Bool := sample.buttonB || sample.buttonY

def Sample.gripPosition {R : Type} (sample : Sample R) : Vec3 R :=
  ![sample.rightGripPx, sample.rightGripPy, sample.rightGripPz]

section Model
variable {R : Type} [Zero R] [One R] [Add R] [Sub R] [Neg R] [Mul R] [Div R]
  [LE R] [LT R] [DecidableLE R] [DecidableLT R] [Numeric R]

def dot (a b : Vec3 R) : R := a 0 * b 0 + a 1 * b 1 + a 2 * b 2

def norm3 (v : Vec3 R) : R := Numeric.sqrt (v 0 * v 0 + v 1 * v 1 + v 2 * v 2)

def norm4 (q : Quat R) : R := Numeric.sqrt (q 0 * q 0 + q 1 * q 1 + q 2 * q 2 + q 3 * q 3)

def squares (q : Quat R) : R := q 0 * q 0 + q 1 * q 1 + q 2 * q 2 + q 3 * q 3

def normalizeQuatXyzw (quat : Quat R) : Quat R :=
  if norm4 quat ≤ Numeric.small then ![0, 0, 0, 1] else fun i => quat i / norm4 quat

def quatConjugateXyzw (quat : Quat R) : Quat R := ![-quat 0, -quat 1, -quat 2, quat 3]

def quatMultiplyXyzw (a b : Quat R) : Quat R :=
  ![a 3 * b 0 + a 0 * b 3 + a 1 * b 2 - a 2 * b 1,
    a 3 * b 1 - a 0 * b 2 + a 1 * b 3 + a 2 * b 0,
    a 3 * b 2 + a 0 * b 1 - a 1 * b 0 + a 2 * b 3,
    a 3 * b 3 - a 0 * b 0 - a 1 * b 1 - a 2 * b 2]

def quatRotateXyzw (quat : Quat R) (vector : Vec3 R) : Vec3 R :=
  let rotated := quatMultiplyXyzw (quatMultiplyXyzw quat ![vector 0, vector 1, vector 2, 0])
    (quatConjugateXyzw quat)
  ![rotated 0, rotated 1, rotated 2]

def rotvecOfUpper (quat : Quat R) : Vec3 R :=
  let vector : Vec3 R := ![quat 0, quat 1, quat 2]
  let vectorNorm := norm3 vector
  if vectorNorm ≤ Numeric.small then fun _ => 0
  else fun i => vector i / vectorNorm * ((1 + 1) * Numeric.arctan2 vectorNorm (quat 3))

def quatToRotvecXyzw (quat : Quat R) : Vec3 R :=
  let quat := normalizeQuatXyzw quat
  rotvecOfUpper (if quat 3 < 0 then fun i => -quat i else quat)

def Sample.gripQuat (sample : Sample R) : Quat R :=
  normalizeQuatXyzw
    ![sample.rightGripQx, sample.rightGripQy, sample.rightGripQz, sample.rightGripQw]

def clip (x bound : R) : R :=
  let raised := if x < -bound then -bound else x
  if bound < raised then bound else raised

def deadband (v : Vec3 R) (limit : R) : Vec3 R := if norm3 v < limit then fun _ => 0 else v

def baseVector (args : Args R) (axes : Axes R) (v : Vec3 R) : Vec3 R :=
  ![dot v axes.forward * args.armForwardSign, -dot v axes.right * args.armRightSign,
    dot v axes.up * args.armUpSign]

def command (args : Args R) (v : Vec3 R) (gain outputMax : R) : Vec3 R :=
  fun i => Numeric.single (clip (v i * gain / outputMax) args.armMaxAction)

/-- The part of the action that moves the hand, between two poses of the controller. -/
def moved (args : Args R) (axes : Axes R) (prevPosition : Vec3 R) (prevQuat : Quat R)
    (sample : Sample R) : Vec3 R × Vec3 R :=
  let questDelta : Vec3 R := fun i => sample.gripPosition i - prevPosition i
  let questRotDelta := quatMultiplyXyzw sample.gripQuat (quatConjugateXyzw prevQuat)
  let dpos := baseVector args axes (deadband questDelta args.armPositionDeadbandM)
  let drot := baseVector args axes
    (deadband (quatToRotvecXyzw questRotDelta) args.armRotationDeadbandRad)
  (command args dpos args.armPositionGain args.armOscPositionOutputMax,
    if args.armLockRotation then fun _ => 0
    else command args drot args.armRotationGain args.armOscRotationOutputMax)

structure ArmTeleop (R : Type) where
  prevGripPosition : Option (Vec3 R)
  prevGripQuat : Option (Quat R)
  wasClutched : Bool
  triggerWasPressed : Bool
  gripperClosed : Bool
  lastAction : Action R

def stillAction (grip : R) : Action R := { position := fun _ => 0, rotation := fun _ => 0, grip := grip }

def newTeleop : ArmTeleop R :=
  { prevGripPosition := none, prevGripQuat := none, wasClutched := false
    triggerWasPressed := false, gripperClosed := false, lastAction := stillAction 0 }

def Sample.clutched (args : Args R) (sample : Sample R) : Bool :=
  sample.positionValid && decide (args.armClutchThreshold ≤ sample.rightSqueeze)

def turnGripper (args : Args R) (sample : Sample R) (teleop : ArmTeleop R) : ArmTeleop R × R :=
  let triggerPressed := decide (args.armGripperThreshold ≤ sample.rightTrigger)
  let toggled := triggerPressed && !teleop.triggerWasPressed
  let gripperClosed := if toggled then !teleop.gripperClosed else teleop.gripperClosed
  let grip : R := if gripperClosed then 1 else -1
  ({ teleop with triggerWasPressed := triggerPressed, gripperClosed := gripperClosed },
    if args.armInvertGripper then grip * -1 else grip)

/-- The clutch is engaged anew, or its neutral is reset. -/
def engage (sample : Sample R) (teleop : ArmTeleop R) (grip : R) : ArmTeleop R × Action R :=
  ({ teleop with
      prevGripPosition := some sample.gripPosition
      prevGripQuat := some sample.gripQuat
      wasClutched := true
      lastAction := stillAction grip },
    stillAction grip)

def act (args : Args R) (axes : Axes R) (sample : Sample R) (teleop : ArmTeleop R) :
    ArmTeleop R × Action R :=
  let (teleop, grip) := turnGripper args sample teleop
  if sample.clutched args = false then
    ({ teleop with
        prevGripPosition := none
        prevGripQuat := none
        wasClutched := false
        lastAction := stillAction grip },
      stillAction grip)
  else
    match teleop.prevGripPosition, teleop.prevGripQuat with
    | some prevPosition, some prevQuat =>
      if teleop.wasClutched = false ∨ sample.reset = true then engage sample teleop grip
      else
        let (position, rotation) := moved args axes prevPosition prevQuat sample
        let out := { position := position, rotation := rotation, grip := grip }
        ({ teleop with
            prevGripPosition := some sample.gripPosition
            prevGripQuat := some sample.gripQuat
            lastAction := out },
          out)
    | _, _ => engage sample teleop grip

def makeAction (args : Args R) (axes : Axes R) (latest : Option (Sample R)) (teleop : ArmTeleop R)
    (actionDim : Nat) : ArmTeleop R × Action R :=
  if actionDim < 7 then (teleop, stillAction 0)
  else
    match latest with
    | none => (teleop, stillAction 0)
    | some sample => act args axes sample teleop

/- The gripper is the one of `QuestArmTeleop`, whatever numbers the samples are read as. -/

def Sample.ofInput (value : QuestNumber.Float64 → R) (input : QuestArmTeleop.QuestInput) :
    Sample R :=
  { rightGripFlags := input.rightGripFlags
    rightGripPx := value input.rightGripPx
    rightGripPy := value input.rightGripPy
    rightGripPz := value input.rightGripPz
    rightGripQx := value input.rightGripQx
    rightGripQy := value input.rightGripQy
    rightGripQz := value input.rightGripQz
    rightGripQw := value input.rightGripQw
    rightTrigger := value input.rightTrigger
    rightSqueeze := value input.rightSqueeze
    buttonB := input.buttonB
    buttonY := input.buttonY }

def ArmTeleop.gripper (teleop : ArmTeleop R) : QuestArmTeleop.ArmTeleop :=
  { triggerWasPressed := teleop.triggerWasPressed, gripperClosed := teleop.gripperClosed }

theorem act_gripper (args : Args R) (axes : Axes R) (sample : Sample R) (teleop : ArmTeleop R) :
    (act args axes sample teleop).1.gripper = (turnGripper args sample teleop).1.gripper := by
  simp only [act]
  split
  · rfl
  · split
    · split <;> rfl
    · rfl

theorem makeAction_gripper {value : QuestNumber.Float64 → R} {args : Args R}
    {gripperArgs : QuestArmTeleop.Args} {latest : Option QuestArmTeleop.QuestInput}
    (sameEdge : ∀ input ∈ latest, QuestArmTeleop.triggerPressed gripperArgs input =
      decide (args.armGripperThreshold ≤ value input.rightTrigger))
    (axes : Axes R) (teleop : ArmTeleop R) (actionDim : Nat) :
    (makeAction args axes (latest.map (Sample.ofInput value)) teleop actionDim).1.gripper =
      (QuestArmTeleop.makeAction gripperArgs latest teleop.gripper actionDim).1 := by
  unfold makeAction QuestArmTeleop.makeAction
  by_cases narrow : actionDim < 7
  · simp only [narrow, if_true]
  · cases latest with
    | none => simp only [narrow, if_false, Option.map_none]
    | some input =>
      simp only [narrow, if_false, Option.map_some, act_gripper, sameEdge input rfl]
      rfl

/- A session: samples come in, the headset's neutral frame is set, and actions are made. -/

structure Session (R : Type) where
  latest : Option (Sample R)
  axes : Axes R
  teleop : ArmTeleop R

def newAxes : Axes R := { right := ![1, 0, 0], up := ![0, 1, 0], forward := ![0, 0, -1] }

def newSession : Session R := { latest := none, axes := newAxes, teleop := newTeleop }

inductive Move (R : Type) where
  | store (sample : Sample R)
  | setAxes (axes : Axes R)
  | makeAction (actionDim : Nat)

structure Acted (R : Type) where
  sample : Sample R
  axes : Axes R
  out : Action R

def step (args : Args R) (s : Session R) : Move R → Session R × List (Acted R)
  | .store sample => ({ s with latest := some sample }, [])
  | .setAxes axes => ({ s with axes := axes }, [])
  | .makeAction actionDim =>
    let made := makeAction args s.axes s.latest s.teleop actionDim
    ({ s with teleop := made.1 },
      if actionDim < 7 then []
      else s.latest.toList.map fun sample => { sample := sample, axes := s.axes, out := made.2 })

/- Every sample is stored, and then acted on. -/

def polls {R : Type} (samples : List (Sample R)) : List (Move R) :=
  samples.flatMap fun sample => [.store sample, .makeAction 7]

theorem polls_cons {R : Type} (sample : Sample R) (samples : List (Sample R)) :
    polls (sample :: samples) = .store sample :: .makeAction 7 :: polls samples := rfl

def actions (args : Args R) (axes : Axes R) : ArmTeleop R → List (Sample R) → List (Acted R)
  | _, [] => []
  | teleop, sample :: samples =>
    let made := act args axes sample teleop
    { sample := sample, axes := axes, out := made.2 } :: actions args axes made.1 samples

theorem run_polls (args : Args R) (s : Session R) (samples : List (Sample R)) :
    (run (step args) s (polls samples)).2 = actions args s.axes s.teleop samples := by
  induction samples generalizing s with
  | nil => rfl
  | cons sample samples ih =>
    have later := ih
      { s with latest := some sample, teleop := (act args s.axes sample s.teleop).1 }
    simpa [polls_cons, run, step, makeAction, actions] using later

theorem polls_end (args : Args R) (s : Session R) (samples : List (Sample R))
    (first last : Sample R) :
    ∃ past before after,
      (run (step args) s (polls (samples ++ [first, last]))).2 = past ++ [before, after] ∧
        before.sample = first ∧ after.sample = last ∧ after.axes = s.axes := by
  rw [run_polls]
  generalize s.teleop = teleop
  induction samples generalizing teleop with
  | nil => exact ⟨[], _, _, rfl, rfl, rfl, rfl⟩
  | cons sample samples ih =>
    obtain ⟨past, before, after, trace, same⟩ := ih (act args s.axes sample teleop).1
    let acted : Acted R :=
      { sample := sample, axes := s.axes, out := (act args s.axes sample teleop).2 }
    have longer : actions args s.axes teleop (sample :: samples ++ [first, last]) =
        (acted :: past) ++ [before, after] := by
      simp only [List.cons_append, actions, trace, acted]
    exact ⟨acted :: past, before, after, longer, same⟩

end Model

end QuestArmMotion
