import RoboVR.Lib.Increments
import RoboVR.Teleop.Clutch
import RoboVR.Teleop.HeadFrame

/- The position deadband over a stretch of samples, in exact arithmetic. -/
namespace QuestDeadband
open QuestArmMotion QuestClutch QuestExactMotion QuestHeadFrame
open Increments Matrix Rotations TracedRun

/-- A sample in the middle of a stretch, and an action that was not clipped. -/
structure Unclipped (args : Args ℝ) (axes : Axes ℝ) (acted : Acted ℝ) : Prop where
  clutched : acted.sample.clutched args = true
  unreset : acted.sample.reset = false
  sameAxes : acted.axes = axes
  inside : ∀ i, |acted.out.position i| < args.armMaxAction

def positions (stretch : List (Acted ℝ)) : List (Vec3 ℝ) :=
  stretch.map fun acted => acted.sample.gripPosition

def commands (stretch : List (Acted ℝ)) : Vec3 ℝ :=
  (stretch.map fun acted => acted.out.position).sum

/-- The displacement that a sum of position commands stands for. -/
noncomputable def mappedBack (args : Args ℝ) (axes : Axes ℝ) (command : Vec3 ℝ) : Vec3 ℝ :=
  (frameMatrix args axes)ᵀ *ᵥ ((args.armPositionGain / args.armOscPositionOutputMax)⁻¹ • command)

/-- What the commands of the stretch miss of the hand's displacement. -/
noncomputable def missed (args : Args ℝ) (axes : Axes ℝ) (start : Vec3 ℝ)
    (stretch : List (Acted ℝ)) : Vec3 ℝ :=
  mappedBack args axes (commands stretch) - (arrived start (positions stretch) - start)

/-- The steps of the stretch that the deadband suppresses. -/
noncomputable def suppressed (args : Args ℝ) (start : Vec3 ℝ) (stretch : List (Acted ℝ)) :
    List (Vec3 ℝ) :=
  (increments start (positions stretch)).filter fun v => norm3 v < args.armPositionDeadbandM

theorem unclipped_command {args : Args ℝ} {axes : Axes ℝ} {past : List (Acted ℝ)}
    {acted : Acted ℝ} {before : Sample ℝ} (unclipped : Unclipped args axes acted)
    (follows : FollowsTwo args past acted) (behind : lastSample past = some before)
    (held : before.clutched args = true) :
    acted.out.position = (args.armPositionGain / args.armOscPositionOutputMax) •
      frameMatrix args axes *ᵥ
        deadband (acted.sample.gripPosition - before.gripPosition) args.armPositionDeadbandM := by
  have differenced : Differenced args before acted.sample :=
    ⟨held, unclipped.clutched, unclipped.unreset⟩
  have commanded := congrArg Prod.fst follows
  rw [behind, motionOf, if_pos differenced, unclipped.sameAxes] at commanded
  ext i
  have inside := unclipped.inside i
  have entry := congrFun commanded i
  simp only [motion, moved, command, single_eq] at entry
  rw [entry] at inside ⊢
  rw [clip_inside inside, frameMatrix_mulVec]
  simp only [Pi.smul_apply, smul_eq_mul]
  have delta : (fun i => acted.sample.gripPosition i - before.gripPosition i) =
    acted.sample.gripPosition - before.gripPosition := rfl
  rw [delta]
  ring

theorem stretch_commands {args : Args ℝ} {axes : Axes ℝ} {past stretch : List (Acted ℝ)}
    {before : Sample ℝ} (unclipped : ∀ acted ∈ stretch, Unclipped args axes acted)
    (follows : AtEvents (FollowsTwo args) past stretch) (behind : lastSample past = some before)
    (held : before.clutched args = true) :
    commands stretch =
      (args.armPositionGain / args.armOscPositionOutputMax) • frameMatrix args axes *ᵥ ((increments before.gripPosition (positions stretch)).map fun v =>
        deadband v args.armPositionDeadbandM).sum := by
  induction stretch generalizing past before with
  | nil => simp [commands, positions, increments]
  | cons acted stretch ih =>
    have first := unclipped acted List.mem_cons_self
    have rest := ih (fun other member => unclipped other (List.mem_cons_of_mem _ member)) follows.2
      (lastSample_append past acted) first.clutched
    have here := unclipped_command first follows.1 behind held
    simp only [commands, positions, List.map_cons, List.sum_cons, increments, mulVec_add,
      smul_add] at rest ⊢
    rw [here, rest]

theorem norm3_neg (v : Vec3 ℝ) : norm3 (-v) = norm3 v := by
  simp only [norm3, Pi.neg_apply, neg_mul_neg]

/-- The commands of a stretch miss exactly what the deadband suppressed in it. -/
theorem missed_eq {args : Args ℝ} (signs : Signs args) {axes : Axes ℝ}
    (orthonormal : Orthonormal axes) (gain : args.armPositionGain ≠ 0)
    (outputMax : args.armOscPositionOutputMax ≠ 0) {past stretch : List (Acted ℝ)}
    {before : Sample ℝ} (unclipped : ∀ acted ∈ stretch, Unclipped args axes acted)
    (follows : AtEvents (FollowsTwo args) past stretch) (behind : lastSample past = some before)
    (held : before.clutched args = true) :
    missed args axes before.gripPosition stretch =
      -(suppressed args before.gripPosition stretch).sum := by
  have orthogonal := frameMatrix_orthogonal signs orthonormal
  have scale : args.armPositionGain / args.armOscPositionOutputMax ≠ 0 := div_ne_zero gain outputMax
  rw [missed, mappedBack, stretch_commands unclipped follows behind held, inv_smul_smul₀ scale,
    transpose_mulVec_mulVec orthogonal]
  exact followed_sub (fun v => norm3 v < args.armPositionDeadbandM) _ _

/-- Over a stretch of clutched samples that no command clips, the arm stays within the deadband of
    the hand exactly if the suppressed steps add up to less than the deadband. -/
theorem missed_lt_iff {args : Args ℝ} (signs : Signs args) {axes : Axes ℝ}
    (orthonormal : Orthonormal axes) (gain : args.armPositionGain ≠ 0)
    (outputMax : args.armOscPositionOutputMax ≠ 0) {moves : List (Move ℝ)}
    {past stretch rest : List (Acted ℝ)} {first : Acted ℝ}
    (trace : (run (step args) newSession moves).2 = past ++ first :: (stretch ++ rest))
    (held : first.sample.clutched args = true)
    (unclipped : ∀ acted ∈ stretch, Unclipped args axes acted) :
    norm3 (missed args axes first.sample.gripPosition stretch) < args.armPositionDeadbandM ↔
      norm3 (suppressed args first.sample.gripPosition stretch).sum < args.armPositionDeadbandM := by
  have follows := session_follows args moves
  rw [trace, atEvents_append] at follows
  have behind := follows.2.2
  rw [atEvents_append] at behind
  rw [missed_eq signs orthonormal gain outputMax unclipped behind.1 (lastSample_append _ first) held,
    norm3_neg]

section Slow

theorem hand_step (a b : ℝ) :
    (handAt b 1).gripPosition - (handAt a 1).gripPosition = ![b - a, 0, 0] := by
  ext i
  fin_cases i <;> simp [handAt, Sample.gripPosition]

theorem norm3_line (x : ℝ) : norm3 ![x, 0, 0] = |x| := by
  simp [norm3, sqrt_eq, Real.sqrt_mul_self_eq_abs]

theorem handAt_clutched (a : ℝ) : (handAt a 1).clutched defaultArgs = true := by
  have squeezed : (0.35 : ℝ) ≤ 1 := by norm_num
  exact Bool.and_eq_true_iff.mpr ⟨rfl, decide_eq_true squeezed⟩

theorem baseVector_line (x limit : ℝ) (i : Fin 3) :
    |baseVector defaultArgs newAxes (deadband ![x, 0, 0] limit) i| ≤ |x| := by
  rw [deadband]
  split
  · fin_cases i <;> simp [baseVector, newAxes, dot]
  · fin_cases i <;> simp [baseVector, newAxes, dot, defaultArgs]

theorem hand_unclipped {past : List (Acted ℝ)} {acted : Acted ℝ} {a b : ℝ}
    (follows : FollowsTwo defaultArgs past acted) (behind : lastSample past = some (handAt a 1))
    (isHand : acted.sample = handAt b 1) (sameAxes : acted.axes = newAxes)
    (short : |b - a| < 1 / 120) : Unclipped defaultArgs newAxes acted := by
  have held : acted.sample.clutched defaultArgs = true := by rw [isHand, handAt_clutched]
  have unreset : acted.sample.reset = false := by
    rw [isHand]
    rfl
  have differenced : Differenced defaultArgs (handAt a 1) acted.sample :=
    ⟨handAt_clutched a, held, unreset⟩
  have commanded := congrArg Prod.fst follows
  rw [behind, motionOf, if_pos differenced, sameAxes, isHand] at commanded
  constructor
  · exact held
  · exact unreset
  · exact sameAxes
  · intro i
    have entry := congrFun commanded i
    have delta : (fun j => (handAt b 1).gripPosition j - (handAt a 1).gripPosition j) =
        ![b - a, 0, 0] := hand_step a b
    simp only [motion, moved, command, single_eq, delta] at entry
    have bound := baseVector_line (b - a) defaultArgs.armPositionDeadbandM i
    generalize baseVector defaultArgs newAxes _ i = x at entry bound
    have inside : |x * defaultArgs.armPositionGain / defaultArgs.armOscPositionOutputMax| <
        defaultArgs.armMaxAction := by
      have scaled : x * defaultArgs.armPositionGain / defaultArgs.armOscPositionOutputMax =
          x * 120 := by
        norm_num [defaultArgs]
        ring
      rw [scaled, abs_mul, abs_of_pos (by norm_num : (0 : ℝ) < 120)]
      simp only [defaultArgs]
      linarith
    rwa [entry, clip_of_inside inside]

theorem default_gain : defaultArgs.armPositionGain ≠ 0 := by norm_num [defaultArgs]

theorem default_outputMax : defaultArgs.armOscPositionOutputMax ≠ 0 := by norm_num [defaultArgs]

structure TwoSteps (past : List (Acted ℝ)) (a b c : ℝ) (second third : Acted ℝ) : Prop where
  follows : AtEvents (FollowsTwo defaultArgs) past [second, third]
  behind : lastSample past = some (handAt a 1)
  isSecond : second.sample = handAt b 1
  isThird : third.sample = handAt c 1
  secondAxes : second.axes = newAxes
  thirdAxes : third.axes = newAxes
  secondShort : |b - a| < 1 / 120
  thirdShort : |c - b| < 1 / 120

theorem steps_unclipped {past : List (Acted ℝ)} {a b c : ℝ} {second third : Acted ℝ}
    (steps : TwoSteps past a b c second third) :
    Unclipped defaultArgs newAxes second ∧ Unclipped defaultArgs newAxes third := by
  have behindThird : lastSample (past ++ [second]) = some (handAt b 1) := by
    rw [lastSample_append, steps.isSecond]
  constructor
  · exact hand_unclipped steps.follows.1 steps.behind steps.isSecond steps.secondAxes
      steps.secondShort
  · exact hand_unclipped steps.follows.2.1 behindThird steps.isThird steps.thirdAxes
      steps.thirdShort

theorem steps_suppressed {past : List (Acted ℝ)} {a b c : ℝ} {second third : Acted ℝ}
    (steps : TwoSteps past a b c second third) :
    suppressed defaultArgs (handAt a 1).gripPosition [second, third] =
      (if |b - a| < defaultArgs.armPositionDeadbandM then [![b - a, 0, 0]] else []) ++
        if |c - b| < defaultArgs.armPositionDeadbandM then [![c - b, 0, 0]] else [] := by
  simp only [suppressed, positions, increments, List.map_cons, List.map_nil, steps.isSecond,
    steps.isThird, hand_step, List.filter_cons, List.filter_nil, norm3_line, decide_eq_true_eq]
  split <;> rfl

theorem steps_sum (a b c : ℝ) : [![b - a, 0, 0], ![c - b, 0, 0]].sum = ![c - a, 0, 0] := by
  ext i
  fin_cases i <;> simp

/-- One millimetre is not followed, and two millimetres behind it are. -/
theorem quick_hand_followed :
    ∃ first second third,
      (run (step defaultArgs) newSession (polls [handAt 0 1, handAt 0.001 1, handAt 0.003 1])).2 =
        [first, second, third] ∧
      suppressed defaultArgs first.sample.gripPosition [second, third] = [![0.001, 0, 0]] ∧
      norm3 (missed defaultArgs newAxes first.sample.gripPosition [second, third]) <
        defaultArgs.armPositionDeadbandM := by
  have follows := session_follows defaultArgs
    (polls [handAt 0 1, handAt 0.001 1, handAt 0.003 1])
  have trace := run_polls defaultArgs newSession [handAt 0 1, handAt 0.001 1, handAt 0.003 1]
  simp only [actions] at trace
  rw [trace] at follows
  have steps : TwoSteps _ 0 0.001 0.003 _ _ :=
    ⟨follows.2, rfl, rfl, rfl, rfl, rfl, by norm_num [abs_lt], by norm_num [abs_lt]⟩
  have one := steps_suppressed steps
  rw [if_pos (by norm_num [defaultArgs]), if_neg (by norm_num [defaultArgs, abs_lt]), sub_zero,
    List.append_nil] at one
  have unclipped := steps_unclipped steps
  have bound := @missed_lt_iff defaultArgs default_signs newAxes newAxes_orthonormal default_gain
    default_outputMax _ [] [_, _] [] _ trace (handAt_clutched 0)
    (List.forall_mem_cons.mpr ⟨unclipped.1, List.forall_mem_singleton.mpr unclipped.2⟩)
  refine ⟨_, _, _, trace, one, bound.mpr ?_⟩
  rw [one]
  norm_num [norm3_line, defaultArgs, abs_lt]

/-- The same two millimetres in two steps are not. -/
theorem slow_hand_missed :
    ∃ first second third,
      (run (step defaultArgs) newSession (polls [handAt 0 1, handAt 0.001 1, handAt 0.002 1])).2 =
        [first, second, third] ∧
      first.sample.clutched defaultArgs = true ∧
      Unclipped defaultArgs newAxes second ∧ Unclipped defaultArgs newAxes third ∧
      ¬ norm3 (missed defaultArgs newAxes first.sample.gripPosition [second, third]) <
        defaultArgs.armPositionDeadbandM := by
  have follows := session_follows defaultArgs
    (polls [handAt 0 1, handAt 0.001 1, handAt 0.002 1])
  have trace := run_polls defaultArgs newSession [handAt 0 1, handAt 0.001 1, handAt 0.002 1]
  simp only [actions] at trace
  rw [trace] at follows
  have steps : TwoSteps _ 0 0.001 0.002 _ _ :=
    ⟨follows.2, rfl, rfl, rfl, rfl, rfl, by norm_num [abs_lt], by norm_num [abs_lt]⟩
  have both := steps_suppressed steps
  rw [if_pos (by norm_num [defaultArgs]), if_pos (by norm_num [defaultArgs, abs_lt])] at both
  have unclipped := steps_unclipped steps
  have missing := missed_eq default_signs newAxes_orthonormal default_gain default_outputMax
    (List.forall_mem_cons.mpr ⟨unclipped.1, List.forall_mem_singleton.mpr unclipped.2⟩) steps.follows
    steps.behind (handAt_clutched 0)
  refine ⟨_, _, _, trace, handAt_clutched 0, unclipped.1, unclipped.2, ?_⟩
  rw [missing, norm3_neg, both, List.singleton_append, steps_sum, norm3_line]
  norm_num [defaultArgs]

end Slow

end QuestDeadband
