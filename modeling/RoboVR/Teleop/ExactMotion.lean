import RoboVR.Teleop.ArmMotion

/- The motion in exact arithmetic, with the defaults of the command line. -/
namespace QuestExactMotion
open QuestArmMotion

noncomputable instance : Numeric ℝ where
  small := 1e-9
  sqrt := Real.sqrt
  arctan2 y x := Complex.arg ⟨x, y⟩
  single x := x

/-- `parse_args` without options. -/
noncomputable def defaultArgs : Args ℝ :=
  { armClutchThreshold := 0.35, armGripperThreshold := 0.35
    armPositionGain := 6, armRotationGain := 6
    armPositionDeadbandM := 0.0015, armRotationDeadbandRad := 0.01
    armOscPositionOutputMax := 0.05, armOscRotationOutputMax := 0.5
    armMaxAction := 1
    armForwardSign := 1, armRightSign := 1, armUpSign := 1
    armLockRotation := false, armInvertGripper := false }

theorem small_eq : (Numeric.small : ℝ) = 1e-9 := rfl

theorem sqrt_eq (x : ℝ) : Numeric.sqrt x = Real.sqrt x := rfl

theorem single_eq (x : ℝ) : Numeric.single x = x := rfl

theorem squares_nonneg (q : Quat ℝ) : 0 ≤ squares q := by
  unfold squares
  linarith [mul_self_nonneg (q 0), mul_self_nonneg (q 1), mul_self_nonneg (q 2),
    mul_self_nonneg (q 3)]

theorem squares_normalize (q : Quat ℝ) : squares (normalizeQuatXyzw q) = 1 := by
  have norm : norm4 q * norm4 q = squares q := Real.mul_self_sqrt (squares_nonneg q)
  unfold normalizeQuatXyzw
  by_cases tiny : norm4 q ≤ Numeric.small
  · simp [tiny, squares]
  · have positive : 0 < norm4 q := by
      rw [small_eq] at tiny
      linarith
    rw [if_neg tiny]
    have scaled : squares (fun i => q i / norm4 q) = squares q / (norm4 q * norm4 q) := by
      simp only [squares]
      field_simp
    rw [scaled, norm, div_self]
    rw [← norm]
    positivity

theorem normalizeQuat_of_unit {q : Quat ℝ} (unit : squares q = 1) : normalizeQuatXyzw q = q := by
  have norm : norm4 q = 1 := (congrArg Real.sqrt unit).trans Real.sqrt_one
  have large : ¬ (1 : ℝ) ≤ Numeric.small := by norm_num [small_eq]
  rw [normalizeQuatXyzw, norm, if_neg large]
  simp only [div_one]

theorem clip_of_inside {x bound : ℝ} (inside : |x| < bound) : clip x bound = x := by
  obtain ⟨above, below⟩ := abs_lt.mp inside
  rw [clip, if_neg above.not_gt]
  exact if_neg below.not_gt

theorem clip_inside {x bound : ℝ} (inside : |clip x bound| < bound) : clip x bound = x := by
  unfold clip at inside ⊢
  grind

end QuestExactMotion
