import RoboVR.Lib.Rotations
import RoboVR.Teleop.ExactMotion

/- The frame that the headset and the arm share: how it is set, and what it does to the motions of
   the hand in exact arithmetic. -/
namespace QuestHeadFrame
open QuestArmMotion QuestExactMotion Rotations Matrix

section Model
variable {R : Type} [Zero R] [One R] [Add R] [Sub R] [Neg R] [Mul R] [Div R] [LE R] [DecidableLE R]
  [Numeric R]

structure HeadPose (R : Type) where
  px : R
  py : R
  pz : R
  qx : R
  qy : R
  qz : R
  qw : R
  resetRequested : Bool

/-- The neutral frame of `RobosuiteStereoSource`, and the one it shares with the arm. -/
structure HeadTracking (R : Type) where
  neutralHeadQuat : Option (Quat R)
  neutralHeadPosition : Option (Vec3 R)
  neutralHeadAxes : Option (Axes R)
  resetButtonWasDown : Bool
  neutralFrame : Axes R

def newTracking : HeadTracking R :=
  { neutralHeadQuat := none, neutralHeadPosition := none, neutralHeadAxes := none
    resetButtonWasDown := false, neutralFrame := newAxes }

def quatNormalizedXyzw (pose : HeadPose R) : Quat R :=
  normalizeQuatXyzw ![pose.qx, pose.qy, pose.qz, pose.qw]

def headAxes (quat : Quat R) : Axes R :=
  { right := quatRotateXyzw quat ![1, 0, 0]
    up := quatRotateXyzw quat ![0, 1, 0]
    forward := quatRotateXyzw quat ![0, 0, -1] }

def resets (t : HeadTracking R) (pose : HeadPose R) : Bool :=
  t.neutralHeadQuat.isNone || (pose.resetRequested && !t.resetButtonWasDown)

/-- What is neutral afterwards; without a reset only the camera moves. -/
def updateHeadTrackedCamera (t : HeadTracking R) (latestHeadPose : Option (HeadPose R)) :
    HeadTracking R :=
  match latestHeadPose with
  | none => t
  | some pose =>
    let current := quatNormalizedXyzw pose
    if resets t pose then
      { neutralHeadQuat := some current
        neutralHeadPosition := some ![pose.px, pose.py, pose.pz]
        neutralHeadAxes := some (headAxes current)
        resetButtonWasDown := pose.resetRequested
        neutralFrame := headAxes current }
    else { t with resetButtonWasDown := pose.resetRequested }

end Model

structure Orthonormal (axes : Axes ℝ) : Prop where
  right : dot axes.right axes.right = 1
  up : dot axes.up axes.up = 1
  forward : dot axes.forward axes.forward = 1
  right_up : dot axes.right axes.up = 0
  right_forward : dot axes.right axes.forward = 0
  up_forward : dot axes.up axes.forward = 0

theorem dot_quatRotate (q : Quat ℝ) (v w : Vec3 ℝ) :
    dot (quatRotateXyzw q v) (quatRotateXyzw q w) = squares q * squares q * dot v w := by
  simp [dot, quatRotateXyzw, quatMultiplyXyzw, quatConjugateXyzw, squares]
  ring

theorem headAxes_orthonormal {q : Quat ℝ} (unit : squares q = 1) : Orthonormal (headAxes q) := by
  constructor <;> simp only [headAxes, dot_quatRotate, unit] <;> simp [dot]

theorem newAxes_orthonormal : Orthonormal newAxes := by
  constructor <;> simp [newAxes, dot]

/-- The signs of the axes are plus or minus one. -/
structure Signs (args : Args ℝ) : Prop where
  forward : args.armForwardSign = 1 ∨ args.armForwardSign = -1
  right : args.armRightSign = 1 ∨ args.armRightSign = -1
  up : args.armUpSign = 1 ∨ args.armUpSign = -1

noncomputable def frameMatrix (args : Args ℝ) (axes : Axes ℝ) : Matrix (Fin 3) (Fin 3) ℝ :=
  .of fun i j => baseVector args axes (Pi.single j 1) i

theorem frameMatrix_mulVec (args : Args ℝ) (axes : Axes ℝ) (v : Vec3 ℝ) :
    frameMatrix args axes *ᵥ v = baseVector args axes v := by
  ext i
  fin_cases i <;>
    simp [mulVec, dotProduct, Fin.sum_univ_three, frameMatrix, baseVector, dot] <;> ring

def rowAxis (axes : Axes ℝ) : Fin 3 → Vec3 ℝ := ![axes.forward, axes.right, axes.up]

def rowSign (args : Args ℝ) : Fin 3 → ℝ :=
  ![args.armForwardSign, -args.armRightSign, args.armUpSign]

theorem frameMatrix_apply (args : Args ℝ) (axes : Axes ℝ) (i j : Fin 3) :
    frameMatrix args axes i j = rowSign args i * rowAxis axes i j := by
  fin_cases i <;> fin_cases j <;>
    simp [frameMatrix, baseVector, dot, rowAxis, rowSign, mul_comm]

theorem rowSign_mul_self {args : Args ℝ} (signs : Signs args) (i : Fin 3) :
    rowSign args i * rowSign args i = 1 := by
  obtain ⟨forward, right, up⟩ := signs
  fin_cases i
  · obtain sign | sign := forward <;> simp [rowSign, sign]
  · obtain sign | sign := right <;> simp [rowSign, sign]
  · obtain sign | sign := up <;> simp [rowSign, sign]

theorem dot_rowAxis {axes : Axes ℝ} (orthonormal : Orthonormal axes) (i j : Fin 3) :
    dot (rowAxis axes i) (rowAxis axes j) = if i = j then 1 else 0 := by
  have swap : ∀ v w : Vec3 ℝ, dot v w = dot w v := by
    intro v w
    simp only [dot, mul_comm]
  obtain ⟨right, up, forward, rightUp, rightForward, upForward⟩ := orthonormal
  fin_cases i <;> fin_cases j <;>
    simp [rowAxis, right, up, forward, rightUp, rightForward, upForward, swap axes.up axes.right,
      swap axes.forward axes.right, swap axes.forward axes.up]

theorem frameMatrix_orthogonal {args : Args ℝ} (signs : Signs args) {axes : Axes ℝ}
    (orthonormal : Orthonormal axes) :
    frameMatrix args axes * (frameMatrix args axes)ᵀ = 1 := by
  ext i j
  have entry : (frameMatrix args axes * (frameMatrix args axes)ᵀ) i j =
      rowSign args i * rowSign args j * dot (rowAxis axes i) (rowAxis axes j) := by
    simp only [mul_apply, transpose_apply, frameMatrix_apply, Fin.sum_univ_three, dot]
    ring
  rw [entry, dot_rowAxis orthonormal, one_apply]
  by_cases same : i = j
  · rw [if_pos same, same, rowSign_mul_self signs, mul_one]
  · rw [if_neg same, mul_zero]

theorem frameMatrix_det (args : Args ℝ) {q : Quat ℝ} (unit : squares q = 1) :
    (frameMatrix args (headAxes q)).det =
      args.armForwardSign * args.armRightSign * args.armUpSign := by
  have volume : (frameMatrix args (headAxes q)).det =
      args.armForwardSign * args.armRightSign * args.armUpSign *
        (squares q * squares q * squares q) := by
    simp [det_fin_three, frameMatrix, baseVector, dot, headAxes, quatRotateXyzw, quatMultiplyXyzw,
      quatConjugateXyzw, squares]
    ring
  rw [volume, unit, mul_one, mul_one, mul_one]

/- A rotation of the hand is given as a rotation vector. -/

theorem norm3_eq_length (v : Vec3 ℝ) : norm3 v = length v := by
  simp [norm3, sqrt_eq, length, dotProduct, Fin.sum_univ_three]

theorem quatRotate_eq (q : Quat ℝ) (v : Vec3 ℝ) :
    quatRotateXyzw q v =
      (q 3 * q 3 - ![q 0, q 1, q 2] ⬝ᵥ ![q 0, q 1, q 2]) • v +
        (2 * q 3) • crossProduct ![q 0, q 1, q 2] v +
        (2 * (![q 0, q 1, q 2] ⬝ᵥ v)) • ![q 0, q 1, q 2] := by
  ext i
  simp only [Pi.add_apply, Pi.smul_apply, smul_eq_mul]
  fin_cases i <;>
    simp [quatRotateXyzw, quatMultiplyXyzw, quatConjugateXyzw, cross_apply, dotProduct,
      Fin.sum_univ_three] <;> ring

theorem rotate_rotvecOfUpper {q : Quat ℝ} (unit : squares q = 1)
    (turned : Numeric.small < norm3 ![q 0, q 1, q 2]) (v : Vec3 ℝ) :
    rotate (rotvecOfUpper q) v = quatRotateXyzw q v := by
  have square := length_mul_self ![q 0, q 1, q 2]
  have sum : q 3 * q 3 + length ![q 0, q 1, q 2] * length ![q 0, q 1, q 2] = 1 := by
    rw [square, ← unit]
    simp [squares, dotProduct, Fin.sum_univ_three]
    ring
  have vector : rotvecOfUpper q =
      (2 * Complex.arg ⟨q 3, length ![q 0, q 1, q 2]⟩ / length ![q 0, q 1, q 2]) •
        ![q 0, q 1, q 2] := by
    have angle : Numeric.arctan2 (length ![q 0, q 1, q 2]) (q 3) =
      Complex.arg ⟨q 3, length ![q 0, q 1, q 2]⟩ := rfl
    simp only [rotvecOfUpper]
    rw [if_neg (not_le.mpr turned), norm3_eq_length, angle]
    ext i
    simp only [Pi.smul_apply, smul_eq_mul]
    ring
  have positive : 0 < length ![q 0, q 1, q 2] := by
    rw [← norm3_eq_length]
    apply lt_trans _ turned
    norm_num [small_eq]
  rw [vector, rotate_half positive sum, quatRotate_eq, square]

theorem quatRotate_neg (q : Quat ℝ) (v : Vec3 ℝ) :
    quatRotateXyzw (fun i => -q i) v = quatRotateXyzw q v := by
  ext i
  fin_cases i <;> simp [quatRotateXyzw, quatMultiplyXyzw, quatConjugateXyzw] <;> ring

theorem rotate_quatToRotvec {q : Quat ℝ} (unit : squares q = 1)
    (turned : Numeric.small < norm3 ![q 0, q 1, q 2]) (v : Vec3 ℝ) :
    rotate (quatToRotvecXyzw q) v = quatRotateXyzw q v := by
  rw [quatToRotvecXyzw, normalizeQuat_of_unit unit]
  by_cases lower : q 3 < 0
  · have unit' : squares (fun i => -q i) = 1 := by simpa [squares] using unit
    have turned' : Numeric.small < norm3 ![-q 0, -q 1, -q 2] := by simpa [norm3] using turned
    rw [if_pos lower, rotate_rotvecOfUpper unit' turned', quatRotate_neg]
  · rw [if_neg lower, rotate_rotvecOfUpper unit turned]

/-- The frame changes rotations as it changes displacements, at the rotation vector of a hand. -/
structure SameFrame (args : Args ℝ) (axes : Axes ℝ) (rotvec : Vec3 ℝ) : Prop where
  orthonormal : Orthonormal axes
  mapped : ∀ delta, baseVector args axes delta = frameMatrix args axes *ᵥ delta
  orthogonal : frameMatrix args axes * (frameMatrix args axes)ᵀ = 1
  reflected : baseVector args axes rotvec =
    (frameMatrix args axes).det • frameMatrix args axes *ᵥ rotvec
  conjugated : ∀ v, rotate (baseVector args axes rotvec) v =
    frameMatrix args axes *ᵥ rotate rotvec ((frameMatrix args axes)ᵀ *ᵥ v)

theorem sameFrame_iff {args : Args ℝ} (signs : Signs args) {q : Quat ℝ} (unit : squares q = 1)
    (rotvec : Vec3 ℝ) :
    SameFrame args (headAxes q) rotvec ↔
      args.armForwardSign * args.armRightSign * args.armUpSign = 1 ∨ rotvec = 0 := by
  have orthonormal := headAxes_orthonormal unit
  have orthogonal := frameMatrix_orthogonal signs orthonormal
  have reflects := mulVec_eq_det_smul_iff orthogonal rotvec
  rw [frameMatrix_mulVec, frameMatrix_det args unit] at reflects
  constructor
  · intro same
    have reflected := same.reflected
    rw [frameMatrix_mulVec, frameMatrix_det args unit] at reflected
    exact reflects.mp reflected
  · intro proper
    have reflected : baseVector args (headAxes q) rotvec =
        (frameMatrix args (headAxes q)).det • frameMatrix args (headAxes q) *ᵥ rotvec := by
      rw [frameMatrix_mulVec, frameMatrix_det args unit]
      exact reflects.mpr proper
    constructor
    · exact orthonormal
    · exact fun delta => (frameMatrix_mulVec args (headAxes q) delta).symm
    · exact orthogonal
    · exact reflected
    · intro v
      rw [reflected, rotate_conjugate orthogonal]

/-- Behind a reset the hand's rotations are mapped with its displacements exactly if the signs do
    not reflect. -/
theorem reset_sameFrame_iff {args : Args ℝ} (signs : Signs args) (t : HeadTracking ℝ)
    {pose : HeadPose ℝ} (reset : resets t pose = true) (rotvec : Vec3 ℝ) :
    SameFrame args (updateHeadTrackedCamera t (some pose)).neutralFrame rotvec ↔
      args.armForwardSign * args.armRightSign * args.armUpSign = 1 ∨ rotvec = 0 := by
  rw [updateHeadTrackedCamera, if_pos reset]
  exact sameFrame_iff signs (squares_normalize _) rotvec

theorem default_signs : Signs defaultArgs := ⟨.inl rfl, .inl rfl, .inl rfl⟩

def uprightHead : HeadPose ℝ :=
  { px := 0, py := 0, pz := 0, qx := 0, qy := 0, qz := 0, qw := 1, resetRequested := false }

theorem default_sameFrame :
    SameFrame defaultArgs (updateHeadTrackedCamera newTracking (some uprightHead)).neutralFrame
      ![0, 0, 1] := by
  have proper : defaultArgs.armForwardSign * defaultArgs.armRightSign * defaultArgs.armUpSign = 1 := by
    norm_num [defaultArgs]
  exact (reset_sameFrame_iff default_signs newTracking rfl _).mpr (.inl proper)

/-- With `--arm-right-sign -1` a turn of the wrist is followed the wrong way. -/
theorem mirrored_not_sameFrame :
    ¬ SameFrame { defaultArgs with armRightSign := -1 }
        (updateHeadTrackedCamera newTracking (some uprightHead)).neutralFrame ![0, 0, 1] := by
  intro same
  have signs : Signs { defaultArgs with armRightSign := -1 } := ⟨.inl rfl, .inr rfl, .inl rfl⟩
  obtain proper | still := (sameFrame_iff signs (squares_normalize _) _).mp same
  · norm_num [defaultArgs] at proper
  · have turn := congrFun still 2
    simp at turn

end QuestHeadFrame
