import RoboVR.Teleop.ExactMotion

/- What of its history an action depends on: the sample before, if that one was clutched. -/
namespace QuestClutch
open QuestArmMotion TracedRun

def lastSample {R : Type} (past : List (Acted R)) : Option (Sample R) :=
  past.getLast?.map Acted.sample

theorem lastSample_append {R : Type} (past : List (Acted R)) (acted : Acted R) :
    lastSample (past ++ [acted]) = some acted.sample := by
  rw [lastSample, List.getLast?_concat]
  rfl

section Clutch
variable {R : Type} [Zero R] [One R] [Add R] [Sub R] [Neg R] [Mul R] [Div R]
  [LE R] [LT R] [DecidableLE R] [DecidableLT R] [Numeric R]

def motion (out : Action R) : Vec3 R × Vec3 R := (out.position, out.rotation)

def noMotion : Vec3 R × Vec3 R := (fun _ => 0, fun _ => 0)

/-- The two samples are differenced: the clutch is held through both, and not reset. -/
def Differenced (args : Args R) (before sample : Sample R) : Prop :=
  before.clutched args = true ∧ sample.clutched args = true ∧ sample.reset = false

instance (args : Args R) (before sample : Sample R) : Decidable (Differenced args before sample) :=
  inferInstanceAs (Decidable (_ ∧ _ ∧ _))

def motionOf (args : Args R) (axes : Axes R) (previous : Option (Sample R)) (sample : Sample R) :
    Vec3 R × Vec3 R :=
  match previous with
  | none => noMotion
  | some before =>
    if Differenced args before sample then
      moved args axes before.gripPosition before.gripQuat sample
    else noMotion

inductive Remembers (args : Args R) (teleop : ArmTeleop R) : Option (Sample R) → Prop where
  | nothing (position : teleop.prevGripPosition = none) (quat : teleop.prevGripQuat = none)
      (released : teleop.wasClutched = false) : Remembers args teleop none
  | released (before : Sample R) (open_ : before.clutched args = false)
      (position : teleop.prevGripPosition = none) (quat : teleop.prevGripQuat = none)
      (released : teleop.wasClutched = false) : Remembers args teleop (some before)
  | clutched (before : Sample R) (held : before.clutched args = true)
      (position : teleop.prevGripPosition = some before.gripPosition)
      (quat : teleop.prevGripQuat = some before.gripQuat)
      (clutched : teleop.wasClutched = true) : Remembers args teleop (some before)

theorem act_released {args : Args R} (axes : Axes R) {sample : Sample R}
    (open_ : sample.clutched args = false) (teleop : ArmTeleop R) :
    motion (act args axes sample teleop).2 = noMotion ∧
      Remembers args (act args axes sample teleop).1 (some sample) := by
  unfold act
  simp only [if_pos open_]
  exact ⟨rfl, .released sample open_ rfl rfl rfl⟩

omit [Sub R] [Neg R] [LT R] [DecidableLT R] in
theorem engage_remembers {args : Args R} {sample : Sample R} (held : sample.clutched args = true)
    (teleop : ArmTeleop R) (grip : R) :
    motion (engage sample teleop grip).2 = noMotion ∧
      Remembers args (engage sample teleop grip).1 (some sample) :=
  ⟨rfl, .clutched sample held rfl rfl rfl⟩

theorem act_unremembered {args : Args R} (axes : Axes R) {sample : Sample R}
    (held : sample.clutched args = true) {teleop : ArmTeleop R}
    (forgotten : teleop.prevGripPosition = none) :
    motion (act args axes sample teleop).2 = noMotion ∧
      Remembers args (act args axes sample teleop).1 (some sample) := by
  have gripped : (turnGripper args sample teleop).1.prevGripPosition = none := forgotten
  unfold act
  simp only [held, Bool.true_eq_false, if_false, gripped]
  exact engage_remembers held _ _

theorem act_remembered {args : Args R} (axes : Axes R) {before sample : Sample R}
    (held : sample.clutched args = true) (heldBefore : before.clutched args = true)
    {teleop : ArmTeleop R} (position : teleop.prevGripPosition = some before.gripPosition)
    (quat : teleop.prevGripQuat = some before.gripQuat) (clutched : teleop.wasClutched = true) :
    motion (act args axes sample teleop).2 = motionOf args axes (some before) sample ∧
      Remembers args (act args axes sample teleop).1 (some sample) := by
  have position' : (turnGripper args sample teleop).1.prevGripPosition =
      some before.gripPosition := position
  have quat' : (turnGripper args sample teleop).1.prevGripQuat = some before.gripQuat := quat
  have clutched' : (turnGripper args sample teleop).1.wasClutched = true := clutched
  unfold act
  simp only [held, Bool.true_eq_false, if_false, position', quat', clutched', false_or]
  cases reset : sample.reset with
  | true =>
    have apart : ¬ Differenced args before sample := by simp [Differenced, reset]
    rw [if_pos rfl, motionOf, if_neg apart]
    exact engage_remembers held _ _
  | false =>
    have differenced : Differenced args before sample := ⟨heldBefore, held, reset⟩
    rw [if_neg (by decide), motionOf, if_pos differenced]
    exact ⟨rfl, .clutched sample held rfl rfl rfl⟩

theorem act_motion {args : Args R} (axes : Axes R) (sample : Sample R) {teleop : ArmTeleop R}
    {previous : Option (Sample R)} (remembers : Remembers args teleop previous) :
    motion (act args axes sample teleop).2 = motionOf args axes previous sample ∧
      Remembers args (act args axes sample teleop).1 (some sample) := by
  cases held : sample.clutched args with
  | false =>
    have still : motionOf args axes previous sample = noMotion := by
      unfold motionOf
      cases previous with
      | none => rfl
      | some before => exact if_neg (by simp [Differenced, held])
    rw [still]
    exact act_released axes held teleop
  | true =>
    cases remembers with
    | nothing position quat released => exact act_unremembered axes held position
    | released before open_ position quat released =>
      have still : motionOf args axes (some before) sample = noMotion :=
        if_neg (by simp [Differenced, open_])
      rw [still]
      exact act_unremembered axes held position
    | clutched before heldBefore position quat clutched =>
      exact act_remembered axes held heldBefore position quat clutched

/-- The motion of an action is that of its sample and the one before. -/
def FollowsTwo (args : Args R) (past : List (Acted R)) (acted : Acted R) : Prop :=
  motion acted.out = motionOf args acted.axes (lastSample past) acted.sample

theorem step_cases (args : Args R) (s : Session R) (move : Move R) :
    ((step args s move).1.teleop = s.teleop ∧ (step args s move).2 = []) ∨
      ∃ actionDim sample, move = .makeAction actionDim ∧ 7 ≤ actionDim ∧ s.latest = some sample ∧
        (step args s move).1.teleop = (act args s.axes sample s.teleop).1 ∧
        (step args s move).2 =
          [{ sample := sample, axes := s.axes, out := (act args s.axes sample s.teleop).2 }] := by
  cases move with
  | store sample => exact .inl ⟨rfl, rfl⟩
  | setAxes axes => exact .inl ⟨rfl, rfl⟩
  | makeAction actionDim =>
    by_cases narrow : actionDim < 7
    · left
      simp [step, makeAction, narrow]
    · cases held : s.latest with
      | none =>
        left
        simp [step, makeAction, held]
      | some sample =>
        right
        use actionDim, sample
        simp [step, makeAction, narrow, held, Nat.le_of_not_lt narrow]

theorem remembers_step (args : Args R) (s : Session R) (past : List (Acted R)) (move : Move R)
    (remembers : Remembers args s.teleop (lastSample past)) :
    Remembers args (step args s move).1.teleop (lastSample (past ++ (step args s move).2)) ∧
      AtEvents (FollowsTwo args) past (step args s move).2 := by
  obtain ⟨same, quiet⟩ | ⟨_, sample, _, _, _, acts, made⟩ := step_cases args s move
  · rw [same, quiet, List.append_nil]
    exact ⟨remembers, trivial⟩
  · obtain ⟨follows, after⟩ := act_motion s.axes sample remembers
    rw [acts, made, lastSample_append]
    exact ⟨after, follows, trivial⟩

theorem session_follows (args : Args R) (moves : List (Move R)) :
    AtEvents (FollowsTwo args) [] (run (step args) newSession moves).2 := by
  have start : Remembers args (newSession : Session R).teleop (lastSample []) := .nothing rfl rfl rfl
  have kept : ∀ s past move, Remembers args s.teleop (lastSample past) →
      Remembers args (step args s move).1.teleop (lastSample (past ++ (step args s move).2)) :=
    fun s past move remembers => (remembers_step args s past move remembers).1
  rw [atEvents_run]
  apply atSteps_of_invariant kept _ start
  intro s past move remembers
  exact (remembers_step args s past move remembers).2

theorem last_follows {args : Args R} {moves : List (Move R)} {past : List (Acted R)}
    {first last : Acted R}
    (trace : (run (step args) newSession moves).2 = past ++ [first, last]) :
    motion last.out = motionOf args last.axes (some first.sample) last.sample := by
  have follows := session_follows args moves
  rw [trace, atEvents_append] at follows
  have second := follows.2.2.1
  rwa [FollowsTwo, List.nil_append, lastSample_append] at second

/-- Two histories that end in the same two samples, with the same axes, end in the same motion,
    and in none unless the two samples are differenced. -/
theorem motion_forgets (args : Args R) {moves moves' : List (Move R)} {past past' : List (Acted R)}
    {first last first' last' : Acted R}
    (trace : (run (step args) newSession moves).2 = past ++ [first, last])
    (trace' : (run (step args) newSession moves').2 = past' ++ [first', last'])
    (sameFirst : first.sample = first'.sample) (sameLast : last.sample = last'.sample)
    (sameAxes : last.axes = last'.axes) :
    motion last.out = motion last'.out ∧
      (first.sample.clutched args = false ∨ last.sample.clutched args = false ∨
          last.sample.reset = true →
        motion last.out = noMotion) := by
  constructor
  · rw [last_follows trace, last_follows trace', sameFirst, sameLast, sameAxes]
  · intro apart
    have still : ¬ Differenced args first.sample last.sample := by
      rintro ⟨held, heldLast, unreset⟩
      simp [held, heldLast, unreset] at apart
    rw [last_follows trace, motionOf, if_neg still]

end Clutch

section Regrip
open QuestExactMotion

noncomputable def handAt (x squeeze : ℝ) : Sample ℝ :=
  { rightGripFlags := 3
    rightGripPx := x, rightGripPy := 0, rightGripPz := 0
    rightGripQx := 0, rightGripQy := 0, rightGripQz := 0, rightGripQw := 1
    rightTrigger := 0, rightSqueeze := squeeze, buttonB := false, buttonY := false }

/-- The hand is released at `5`, and grips again at `9`; in the first history it came from `0` with
    the clutch held. -/
theorem regrip_still :
    ∃ past past' first last first' last',
      (run (step defaultArgs) newSession
          (polls ([handAt 0 1, handAt 3 1] ++ [handAt 5 0, handAt 9 1]))).2 =
        past ++ [first, last] ∧
      (run (step defaultArgs) newSession (polls ([] ++ [handAt 5 0, handAt 9 1]))).2 =
        past' ++ [first', last'] ∧
      motion last.out = motion last'.out ∧ motion last.out = noMotion := by
  obtain ⟨past, first, last, trace, isFirst, isLast, axes⟩ :=
    polls_end defaultArgs newSession [handAt 0 1, handAt 3 1] (handAt 5 0) (handAt 9 1)
  obtain ⟨past', first', last', trace', isFirst', isLast', axes'⟩ :=
    polls_end defaultArgs newSession [] (handAt 5 0) (handAt 9 1)
  obtain ⟨same, still⟩ := motion_forgets defaultArgs trace trace' (isFirst.trans isFirst'.symm)
    (isLast.trans isLast'.symm) (axes.trans axes'.symm)
  have released : first.sample.clutched defaultArgs = false := by
    rw [isFirst]
    norm_num [Sample.clutched, handAt, defaultArgs]
  exact ⟨past, past', first, last, first', last', trace, trace', same, still (.inl released)⟩

end Regrip

end QuestClutch
