import RoboVR.Input.InputState
import RoboVR.Lib.EdgePolling
import RoboVR.Lib.TracedRun

/- The gripper of the arm teleoperation: the network thread stores input samples in a slot, and
   every simulation step polls the slot for an edge of the trigger. -/
namespace QuestArmTeleop
open QuestKeyValue QuestNumber QuestInputState
open BinaryFloat EdgePolling TracedRun

structure QuestInput where
  rightGripFlags : Int
  rightGripPx : Float64
  rightGripPy : Float64
  rightGripPz : Float64
  rightGripQx : Float64
  rightGripQy : Float64
  rightGripQz : Float64
  rightGripQw : Float64
  rightTrigger : Float64
  rightSqueeze : Float64
  buttonA : Bool
  buttonB : Bool
  buttonX : Bool
  buttonY : Bool
  deriving DecidableEq

def pyIntTen (text : Str) : Except PyError Int :=
  let signed := takeSign (toAscii text)
  if 4300 < (signed.2.filter fun c => c ≠ '_').length then .error .valueError
  else
    match readDigits 10 none signed.2 with
    | some n => .ok (if signed.1 then -(n : Int) else n)
    | none => .error .valueError

def readInput (values : Dict) : Except PyError QuestInput := do
  let required := fun key : String => (item values key.toList).bind pyFloat
  let given := fun key : String => (Dict.get values key.toList).getD ['0']
  let held := fun key : String => decide (Dict.get values key.toList = some ['1'])
  return {
    rightGripFlags := ← pyIntTen (given "right_grip_flags")
    rightGripPx := ← required "right_grip_px"
    rightGripPy := ← required "right_grip_py"
    rightGripPz := ← required "right_grip_pz"
    rightGripQx := ← required "right_grip_qx"
    rightGripQy := ← required "right_grip_qy"
    rightGripQz := ← required "right_grip_qz"
    rightGripQw := ← required "right_grip_qw"
    rightTrigger := ← pyFloat (given "right_trigger")
    rightSqueeze := ← pyFloat (given "right_squeeze")
    buttonA := held "button_a"
    buttonB := held "button_b"
    buttonX := held "button_x"
    buttonY := held "button_y" }

structure Args where
  armGripperThreshold : Float64
  armInvertGripper : Bool

structure ArmTeleop where
  triggerWasPressed : Bool := false
  gripperClosed : Bool := false

def triggerPressed (args : Args) (sample : QuestInput) : Bool :=
  sample.rightTrigger.ge args.armGripperThreshold

/-- `make_action` up to the gripper: the seventh component of the action, or none where the action
    is all zero. -/
def makeAction (args : Args) (latest : Option QuestInput) (teleop : ArmTeleop) (actionDim : Nat) :
    ArmTeleop × Option Int :=
  if actionDim < 7 then (teleop, none)
  else
    match latest with
    | none => (teleop, none)
    | some sample =>
      let pressed := triggerPressed args sample
      let toggled := pressed && !teleop.triggerWasPressed
      let closed := if toggled then !teleop.gripperClosed else teleop.gripperClosed
      let grip : Int := if closed then 1 else -1
      ({ triggerWasPressed := pressed, gripperClosed := closed },
        some (if args.armInvertGripper then -grip else grip))

/- The network thread and the simulation. -/

structure Session where
  latest : Option QuestInput := none
  teleop : ArmTeleop := {}

inductive Move where
  | updateFromValues (values : Dict)
  | makeAction (actionDim : Nat)

inductive Event where
  | stored (sample : QuestInput)
  | polled (grip : Int)

def step (args : Args) (s : Session) : Move → Session × List Event
  | .updateFromValues values =>
    match readInput values with
    | .ok sample => ({ s with latest := some sample }, [.stored sample])
    | .error _ => (s, [])
  | .makeAction actionDim =>
    let acted := makeAction args s.latest s.teleop actionDim
    ({ s with teleop := acted.1 }, acted.2.toList.map .polled)

def signalOf (args : Args) : Event → Signal
  | .stored sample => .store (triggerPressed args sample)
  | .polled _ => .poll

def storedSamples : List Event → List QuestInput :=
  List.filterMap fun
    | .stored sample => some sample
    | .polled _ => none

def presses (args : Args) (past : List Event) : Nat :=
  rises false ((storedSamples past).map (triggerPressed args))

def missedPulses (args : Args) (past : List Event) : Nat :=
  (watch (past.map (signalOf args))).missed

/-- Once the action is made, the gripper is closed if and only if the presses are odd in number. -/
def NoPressLost (args : Args) (s : Session) (past : List Event) : Move → Prop
  | .updateFromValues _ => True
  | .makeAction actionDim =>
    7 ≤ actionDim →
      ((step args s (.makeAction actionDim)).1.teleop.gripperClosed = true ↔
        Odd (presses args (past ++ (step args s (.makeAction actionDim)).2)))

/-- The pulses missed before the action are even in number. -/
def PulsesSeen (args : Args) (_ : Session) (past : List Event) : Move → Prop
  | .updateFromValues _ => True
  | .makeAction actionDim => 7 ≤ actionDim → Even (missedPulses args past)

theorem levels_signals (args : Args) (past : List Event) :
    levels (past.map (signalOf args)) = (storedSamples past).map (triggerPressed args) := by
  induction past with
  | nil => rfl
  | cons e past ih =>
    simp only [levels, storedSamples, List.map_cons] at ih ⊢
    cases e <;> simp [signalOf, ih]

theorem presses_eq (args : Args) (past : List Event) :
    presses args past = rises false (levels (past.map (signalOf args))) := by
  rw [presses, levels_signals]

structure Tracked (args : Args) (s : Session) (past : List Event) : Prop where
  slot : (watch (past.map (signalOf args))).current = (s.latest.map (triggerPressed args)).getD false
  polled : (watch (past.map (signalOf args))).polled = s.teleop.triggerWasPressed
  turned : s.teleop.gripperClosed = true ↔ Odd (watch (past.map (signalOf args))).seen
  empty : s.latest = none → past = []

theorem tracked_start (args : Args) : Tracked args {} [] where
  slot := by simp
  polled := by simp
  turned := by simp
  empty := fun _ => rfl

theorem watch_event (args : Args) (past : List Event) (e : Event) :
    watch ((past ++ [e]).map (signalOf args)) =
      (watch (past.map (signalOf args))).step (signalOf args e) := by
  rw [List.map_append, List.map_singleton, watch_append]

theorem makeAction_polls (args : Args) (sample : QuestInput) (teleop : ArmTeleop) {actionDim : Nat}
    (wide : 7 ≤ actionDim) :
    ∃ grip, makeAction args (some sample) teleop actionDim =
      ({ triggerWasPressed := triggerPressed args sample
         gripperClosed :=
          teleop.gripperClosed ^^ (triggerPressed args sample && !teleop.triggerWasPressed) },
        some grip) := by
  have kept : ¬ actionDim < 7 := by omega
  simp only [makeAction, if_neg kept]
  cases triggerPressed args sample <;> cases teleop.triggerWasPressed <;>
    cases teleop.gripperClosed <;> simp

theorem makeAction_idle (args : Args) {latest : Option QuestInput} (teleop : ArmTeleop)
    (actionDim : Nat) (idle : actionDim < 7 ∨ latest = none) :
    makeAction args latest teleop actionDim = (teleop, none) := by
  unfold makeAction
  rcases idle with narrow | rfl
  · rw [if_pos narrow]
  · simp

theorem odd_add_rise (n : Nat) (before after closed : Bool) (odd : closed = true ↔ Odd n) :
    (closed ^^ (after && !before)) = true ↔ Odd (n + rise before after) := by
  cases before <;> cases after <;> cases closed <;> simp_all [rise, Nat.odd_add_one]

theorem tracked_step (args : Args) (s : Session) (past : List Event) (move : Move)
    (tracked : Tracked args s past) :
    Tracked args (step args s move).1 (past ++ (step args s move).2) := by
  obtain ⟨slot, polled, turned, empty⟩ := tracked
  cases move with
  | updateFromValues values =>
    simp only [step]
    cases readInput values with
    | ok sample =>
      constructor
      · rw [watch_event]
        rfl
      · rw [watch_event]
        exact polled
      · rw [watch_event]
        exact turned
      · simp
    | error _ => simpa using ⟨slot, polled, turned, empty⟩
  | makeAction actionDim =>
    simp only [step]
    by_cases idle : actionDim < 7 ∨ s.latest = none
    · rw [makeAction_idle args s.teleop actionDim idle]
      simpa using ⟨slot, polled, turned, empty⟩
    · rw [not_or, Nat.not_lt] at idle
      obtain ⟨sample, held⟩ := Option.ne_none_iff_exists'.mp idle.2
      obtain ⟨grip, acted⟩ := makeAction_polls args sample s.teleop idle.1
      rw [held] at slot
      simp only [held, acted, Option.toList_some, List.map_singleton]
      simp only [Option.map_some, Option.getD_some] at slot
      constructor
      · rw [watch_event]
        exact slot
      · rw [watch_event]
        exact slot
      · rw [watch_event]
        simp only [signalOf, Watch.step, polled, slot]
        exact odd_add_rise _ _ _ _ turned
      · simp

/-- In every run the gripper follows the presses at every action if and only if the pulses missed
    are even in number at every action. -/
theorem gripper_follows_iff (args : Args) (moves : List Move) :
    AtSteps (step args) (NoPressLost args) {} [] moves ↔
      AtSteps (step args) (PulsesSeen args) {} [] moves := by
  apply atSteps_iff (Tracked args)
  · intro s past move tracked _
    exact tracked_step args s past move tracked
  · intro s past move tracked
    cases move with
    | updateFromValues values => exact Iff.rfl
    | makeAction actionDim =>
      simp only [NoPressLost, PulsesSeen]
      apply imp_congr_right
      intro wide
      have after := tracked_step args s past (.makeAction actionDim) tracked
      rw [after.turned, presses_eq]
      cases held : s.latest with
      | none =>
        have idle := makeAction_idle args s.teleop actionDim (.inr held)
        have quiet : (step args s (.makeAction actionDim)).2 = [] := by simp [step, idle]
        rw [quiet, tracked.empty held]
        simp [levels, rises, missedPulses]
      | some sample =>
        obtain ⟨grip, acted⟩ := makeAction_polls args sample s.teleop wide
        have polls : (step args s (.makeAction actionDim)).2 = [.polled grip] := by
          simp [step, held, acted]
        rw [polls, List.map_append, List.map_singleton]
        exact odd_seen_iff (past.map (signalOf args))
  · exact tracked_start args

def defaultArgs : Args :=
  { armGripperThreshold := ofDecimal binary64 false 35 (-2), armInvertGripper := false }

def atRest (trigger : Str) : Dict :=
  ("right_trigger".toList, trigger) ::
    (positionKeys "right_grip".toList ++ quatKeys "right_grip".toList).map fun key => (key, ['0'])

/-- The trigger is pressed and released between two simulation steps. -/
theorem short_press_lost :
    ¬ AtSteps (step defaultArgs) (NoPressLost defaultArgs) {} []
      [.updateFromValues (atRest ['0']), .makeAction 7, .updateFromValues (atRest ['1']),
        .updateFromValues (atRest ['0']), .makeAction 7] := by
  intro followed
  have closed := (followed.2.2.2.2.1 (by decide)).mpr (by decide +kernel)
  exact absurd closed (by decide +kernel)

end QuestArmTeleop
