import RoboVR.Teleop.Clutch

/- Which tracking the motion rests on: a position is tested before it is differenced, an
   orientation is not. -/
namespace QuestTracking
open QuestArmMotion QuestClutch QuestExactMotion TracedRun

theorem clutched_positionValid {R : Type} [LE R] [DecidableLE R] {args : Args R}
    {sample : Sample R} (held : sample.clutched args = true) : sample.positionValid = true := by
  rw [Sample.clutched, Bool.and_eq_true] at held
  exact held.1

section Tracking
variable {R : Type} [Zero R] [One R] [Add R] [Sub R] [Neg R] [Mul R] [Div R]
  [LE R] [LT R] [DecidableLE R] [DecidableLT R] [Numeric R]

/-- The arm is moved between two positions that were tracked. -/
def PositionTracked (past : List (Acted R)) (acted : Acted R) : Prop :=
  acted.out.position ≠ (fun _ => 0) →
    ∃ before, lastSample past = some before ∧
      before.positionValid = true ∧ acted.sample.positionValid = true

/-- The hand is turned between two orientations that were tracked. -/
def RotationTracked (past : List (Acted R)) (acted : Acted R) : Prop :=
  acted.out.rotation ≠ (fun _ => 0) →
    ∃ before, lastSample past = some before ∧
      before.orientationValid = true ∧ acted.sample.orientationValid = true

/-- Where two samples are differenced and the rotation is not locked, both are oriented. -/
def Oriented (args : Args R) (s : Session R) (past : List (Acted R)) : Move R → Prop
  | .store _ => True
  | .setAxes _ => True
  | .makeAction actionDim =>
    7 ≤ actionDim → args.armLockRotation = false →
      ∀ before sample, lastSample past = some before → s.latest = some sample →
        Differenced args before sample →
          before.orientationValid = true ∧ sample.orientationValid = true

theorem moving_differenced {args : Args R} {axes : Axes R} {previous : Option (Sample R)}
    {sample : Sample R} (moving : motionOf args axes previous sample ≠ noMotion) :
    ∃ before, previous = some before ∧ Differenced args before sample ∧
      motionOf args axes previous sample =
        moved args axes before.gripPosition before.gripQuat sample := by
  cases previous with
  | none => exact absurd rfl moving
  | some before =>
    by_cases differenced : Differenced args before sample
    · exact ⟨before, rfl, differenced, if_pos differenced⟩
    · exact absurd (if_neg differenced) moving

theorem follows_positionTracked {args : Args R} {past : List (Acted R)} {acted : Acted R}
    (follows : FollowsTwo args past acted) : PositionTracked past acted := by
  intro moving
  have moves : motionOf args acted.axes (lastSample past) acted.sample ≠ noMotion := by
    intro still
    rw [FollowsTwo, still] at follows
    exact moving (congrArg Prod.fst follows)
  obtain ⟨before, isBefore, ⟨heldBefore, held, _⟩, _⟩ := moving_differenced moves
  exact ⟨before, isBefore, clutched_positionValid heldBefore, clutched_positionValid held⟩

theorem follows_rotationTracked {args : Args R} {past : List (Acted R)} {acted : Acted R}
    (follows : FollowsTwo args past acted)
    (oriented : args.armLockRotation = false → ∀ before, lastSample past = some before →
      Differenced args before acted.sample →
        before.orientationValid = true ∧ acted.sample.orientationValid = true) :
    RotationTracked past acted := by
  intro turning
  have moves : motionOf args acted.axes (lastSample past) acted.sample ≠ noMotion := by
    intro still
    rw [FollowsTwo, still] at follows
    exact turning (congrArg Prod.snd follows)
  obtain ⟨before, isBefore, differenced, isMoved⟩ := moving_differenced moves
  have turned : acted.out.rotation =
      (moved args acted.axes before.gripPosition before.gripQuat acted.sample).2 :=
    congrArg Prod.snd (follows.trans isMoved)
  cases locked : args.armLockRotation with
  | true =>
    rw [moved, locked] at turned
    exact absurd turned turning
  | false => exact ⟨before, isBefore, oriented locked before isBefore differenced⟩

theorem step_tracked {args : Args R} {s : Session R} {past : List (Acted R)} {move : Move R}
    (remembers : Remembers args s.teleop (lastSample past)) (oriented : Oriented args s past move) :
    AtEvents (fun past acted => PositionTracked past acted ∧ RotationTracked past acted) past
      (step args s move).2 := by
  have follows := (remembers_step args s past move remembers).2
  obtain ⟨_, quiet⟩ | ⟨actionDim, sample, rfl, wide, latest, _, made⟩ := step_cases args s move
  · rw [quiet]
    trivial
  · rw [made] at follows ⊢
    have rotation := follows_rotationTracked follows.1 fun unlocked before isBefore differenced =>
      oriented wide unlocked before sample isBefore latest differenced
    exact ⟨⟨follows_positionTracked follows.1, rotation⟩, trivial⟩

/-- The hand turns on tracked orientations in every session whose differenced samples are
    oriented; that they are is not tested. -/
theorem motion_tracked {args : Args R} {moves : List (Move R)}
    (oriented : AtSteps (step args) (Oriented args) newSession [] moves) :
    AtEvents (fun past acted => PositionTracked past acted ∧ RotationTracked past acted) []
      (run (step args) newSession moves).2 := by
  have start : Remembers args (newSession : Session R).teleop (lastSample []) := .nothing rfl rfl rfl
  have kept : ∀ s past move, Remembers args s.teleop (lastSample past) → Oriented args s past move →
      Remembers args (step args s move).1.teleop (lastSample (past ++ (step args s move).2)) :=
    fun s past move remembers _ => (remembers_step args s past move remembers).1
  rw [atEvents_run]
  apply atSteps_mono kept _ start oriented
  intro s past move remembers met
  exact step_tracked remembers met

theorem oriented_polls {args : Args R} {samples : List (Sample R)}
    (all : ∀ sample ∈ samples, sample.orientationValid = true) (s : Session R)
    {past : List (Acted R)}
    (behind : ∀ before, lastSample past = some before → before.orientationValid = true) :
    AtSteps (step args) (Oriented args) s past (polls samples) := by
  induction samples generalizing s past with
  | nil => trivial
  | cons sample samples ih =>
    have oriented := all sample List.mem_cons_self
    have met : Oriented args (step args s (.store sample)).1 past (.makeAction 7) := by
      intro _ _ before latest isBefore isLatest _
      cases isLatest
      exact ⟨behind before isBefore, oriented⟩
    have later : ∀ before, lastSample (past ++ (step args (step args s (.store sample)).1
        (.makeAction 7)).2) = some before → before.orientationValid = true := by
      intro before isLast
      simp only [step, Nat.lt_irrefl, if_false, Option.toList_some, List.map_singleton,
        lastSample_append, Option.some.injEq] at isLast
      rw [← isLast]
      exact oriented
    have rest := ih (fun other member => all other (List.mem_cons_of_mem _ member))
      (step args (step args s (.store sample)).1 (.makeAction 7)).1 later
    simp only [polls_cons, AtSteps]
    constructor
    · trivial
    · constructor
      · simpa [step] using met
      · simpa [step] using rest

end Tracking

section Lost

theorem oriented_hands_tracked :
    AtEvents (fun past acted => PositionTracked past acted ∧ RotationTracked past acted) []
      (run (step defaultArgs) newSession (polls [handAt 0 1, handAt 3 1])).2 := by
  have all : ∀ sample ∈ [handAt 0 1, handAt 3 1], sample.orientationValid = true := by
    intro sample member
    simp only [List.mem_cons, List.not_mem_nil, or_false] at member
    obtain rfl | rfl := member <;> rfl
  have behind : ∀ before : Sample ℝ, lastSample [] = some before → before.orientationValid = true := by
    intro before isLast
    cases isLast
  exact motion_tracked (oriented_polls all newSession behind)

noncomputable def turnedHand : Sample ℝ :=
  { handAt 0 1 with rightGripQz := 1, rightGripQw := 0 }

noncomputable def lostHand : Sample ℝ :=
  { handAt 0 1 with rightGripFlags := 2, rightGripQw := 0 }

theorem turnedHand_gripQuat : turnedHand.gripQuat = ![0, 0, 1, 0] := by
  have unit : squares (![0, 0, 1, 0] : Quat ℝ) = 1 := by simp [squares]
  exact normalizeQuat_of_unit unit

theorem lostHand_gripQuat : lostHand.gripQuat = ![0, 0, 0, 1] := by
  have norm : norm4 (![0, 0, 0, 0] : Quat ℝ) = 0 := by simp [norm4, sqrt_eq]
  have small : (0 : ℝ) ≤ Numeric.small := by norm_num [small_eq]
  simp only [Sample.gripQuat, lostHand, handAt, normalizeQuatXyzw, norm, if_pos small]

theorem lost_rotvec : quatToRotvecXyzw
    (quatMultiplyXyzw lostHand.gripQuat (quatConjugateXyzw turnedHand.gripQuat)) =
      ![0, 0, -Real.pi] := by
  have change : quatMultiplyXyzw lostHand.gripQuat (quatConjugateXyzw turnedHand.gripQuat) =
      ![0, 0, -1, 0] := by
    rw [turnedHand_gripQuat, lostHand_gripQuat]
    ext i
    fin_cases i <;> simp [quatMultiplyXyzw, quatConjugateXyzw]
  have unit : squares (![0, 0, -1, 0] : Quat ℝ) = 1 := by simp [squares]
  have vectorNorm : norm3 (![0, 0, -1] : Vec3 ℝ) = 1 := by simp [norm3, sqrt_eq]
  have large : ¬ (1 : ℝ) ≤ Numeric.small := by norm_num [small_eq]
  have quarter : (Numeric.arctan2 1 0 : ℝ) = Real.pi / 2 := Complex.arg_I
  have half : (1 + 1) * (Real.pi / 2) = Real.pi := by ring
  rw [change, quatToRotvecXyzw, normalizeQuat_of_unit unit]
  simp [rotvecOfUpper, vectorNorm, large, quarter]
  ext i
  fin_cases i <;> simp [half]

theorem lost_rotation : (moved defaultArgs newAxes turnedHand.gripPosition turnedHand.gripQuat
    lostHand).2 0 = 1 := by
  have length : norm3 (![0, 0, -Real.pi] : Vec3 ℝ) = Real.pi := by
    simp [norm3, sqrt_eq, Real.pi_pos.le]
  have turns : ¬ Real.pi < (0.01 : ℝ) := by linarith [Real.pi_gt_three]
  simp [moved, lost_rotvec, deadband, length, defaultArgs, turns, baseVector, newAxes, dot, command,
    clip, single_eq]
  grind [Real.pi_gt_three]

theorem lost_differenced : Differenced defaultArgs turnedHand lostHand := by
  have held : (0.35 : ℝ) ≤ 1 := by norm_num
  exact ⟨Bool.and_eq_true_iff.mpr ⟨rfl, decide_eq_true held⟩,
    Bool.and_eq_true_iff.mpr ⟨rfl, decide_eq_true held⟩, rfl⟩

/-- The hand held still, its orientation lost: the arm turns at full speed. -/
theorem lost_orientation_turns :
    ¬ AtEvents (fun past acted => PositionTracked past acted ∧ RotationTracked past acted) []
      (run (step defaultArgs) newSession (polls [turnedHand, lostHand])).2 := by
  obtain ⟨past, before, after, trace, isFirst, isLast, axes⟩ :=
    polls_end defaultArgs newSession [] turnedHand lostHand
  intro tracked
  rw [List.nil_append] at trace
  have rotation := tracked
  rw [trace, atEvents_append] at rotation
  have follows := congrArg Prod.snd (last_follows trace)
  rw [isFirst, isLast, axes, motionOf, if_pos lost_differenced] at follows
  have turning : after.out.rotation ≠ fun _ => 0 := by
    intro still
    have first := congrFun (follows.symm.trans still) 0
    have full := lost_rotation
    simp only [newSession] at first
    linarith
  obtain ⟨_, _, _, oriented⟩ := rotation.2.2.1.2 turning
  rw [isLast] at oriented
  have lost : lostHand.orientationValid = false := rfl
  exact Bool.noConfusion (lost.symm.trans oriented)

end Lost

end QuestTracking
