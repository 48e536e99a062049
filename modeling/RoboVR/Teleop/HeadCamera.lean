import RoboVR.Teleop.HeadFrame
import RoboVR.Lib.Smoothing
import RoboVR.Lib.TracedRun

/- The camera that follows the head: its yaw, its pitch and its position, smoothed over the frames.
   The arithmetic is a parameter of the model, and exact in what is proved of it. -/
namespace QuestHeadCamera
open QuestArmMotion QuestExactMotion QuestHeadFrame TracedRun Rotations Smoothing

/-- What the camera needs of the arithmetic besides `Numeric`, with the constant `0.95`. -/
class Angles (R : Type) where
  cos : R → R
  sin : R → R
  arcsin : R → R
  radians : R → R
  maxSmoothing : R

structure CameraArgs (R : Type) where
  center : Vec3 R
  target : Vec3 R
  headYawGain : R
  headPitchGain : R
  headPositionGain : R
  headPositionDeadzoneM : R
  headSmoothing : R
  maxHeadYawDeg : R
  maxHeadPitchDeg : R

structure Camera (R : Type) where
  tracking : HeadTracking R
  filteredYaw : R
  filteredPitch : R
  filteredCenterOffset : Vec3 R

structure LookAt (R : Type) where
  center : Vec3 R
  target : Vec3 R

section Model
variable {R : Type} [Zero R] [One R] [Add R] [Sub R] [Neg R] [Mul R] [Div R]
  [LE R] [LT R] [DecidableLE R] [DecidableLT R] [Numeric R] [Angles R]

def newCamera : Camera R :=
  { tracking := newTracking, filteredYaw := 0, filteredPitch := 0
    filteredCenterOffset := fun _ => 0 }

-- named, so that the indices of a vector carry no proof of their own
local instance three_neZero : NeZero 3 := ⟨by decide⟩

def cross (a b : Vec3 R) : Vec3 R :=
  ![a 1 * b 2 - a 2 * b 1, a 2 * b 0 - a 0 * b 2, a 0 * b 1 - a 1 * b 0]

def rotateAxisAngle (vector axis : Vec3 R) (angle : R) : Vec3 R :=
  if norm3 axis ≤ Numeric.small then vector
  else
    let unit : Vec3 R := fun i => axis i / norm3 axis
    fun i => vector i * Angles.cos angle + cross unit vector i * Angles.sin angle +
      unit i * dot unit vector * (1 - Angles.cos angle)

def upAxis : Vec3 R := ![0, 0, 1]

def scaled (v : Vec3 R) : Vec3 R :=
  let size := if norm3 v < Numeric.small then Numeric.small else norm3 v
  fun i => v i / size

def CameraArgs.baseDirection (args : CameraArgs R) : Vec3 R :=
  fun i => args.target i - args.center i

def CameraArgs.baseForward (args : CameraArgs R) : Vec3 R := scaled args.baseDirection

def CameraArgs.baseRight (args : CameraArgs R) : Vec3 R := scaled (cross args.baseDirection upAxis)

def CameraArgs.baseUp (args : CameraArgs R) : Vec3 R := scaled (cross args.baseRight args.baseForward)

def clipBetween (low high x : R) : R :=
  let raised := if x < low then low else x
  if high < raised then high else raised

def CameraArgs.smoothing (args : CameraArgs R) : R :=
  clipBetween 0 Angles.maxSmoothing args.headSmoothing

def smooth (smoothing old new : R) : R := smoothing * old + (1 - smoothing) * new

/-- Where the head looks against where it looked in its neutral pose. -/
def lookedForward (neutral current : Quat R) : Vec3 R :=
  quatRotateXyzw (quatMultiplyXyzw (quatConjugateXyzw neutral) current) ![0, 0, -1]

def wantedYaw (args : CameraArgs R) (neutral current : Quat R) : R :=
  let forward := lookedForward neutral current
  clip (-Numeric.arctan2 (forward 0) (-forward 2) * args.headYawGain)
    (Angles.radians args.maxHeadYawDeg)

def wantedPitch (args : CameraArgs R) (neutral current : Quat R) : R :=
  let forward := lookedForward neutral current
  clip (Angles.arcsin (clip (forward 1) 1) * args.headPitchGain)
    (Angles.radians args.maxHeadPitchDeg)

def deadzone (args : CameraArgs R) (delta : Vec3 R) : Vec3 R :=
  let size := norm3 delta
  if size < args.headPositionDeadzoneM then fun _ => 0
  else if Numeric.small < size then
    fun i => delta i * (size - args.headPositionDeadzoneM) / size
  else delta

def alongAxes (axes : Axes R) (delta : Vec3 R) : Vec3 R :=
  ![dot delta axes.right, dot delta axes.up, dot delta axes.forward]

def centerOffset (args : CameraArgs R) (delta : Vec3 R) : Vec3 R :=
  fun i => args.headPositionGain *
    (args.baseRight i * delta 0 + args.baseUp i * delta 1 + args.baseForward i * delta 2)

def wantedOffset (args : CameraArgs R) (neutralPosition : Vec3 R) (axes : Axes R)
    (position : Vec3 R) : Vec3 R :=
  centerOffset args (deadzone args (alongAxes axes fun i => position i - neutralPosition i))

def direction (args : CameraArgs R) (yaw pitch : R) : Vec3 R :=
  let turned := rotateAxisAngle args.baseDirection upAxis yaw
  rotateAxisAngle turned (cross turned upAxis) pitch

def lookAt (args : CameraArgs R) (yaw pitch : R) (offset : Vec3 R) : LookAt R :=
  let center : Vec3 R := fun i => args.center i + offset i
  { center := center, target := fun i => center i + direction args yaw pitch i }

/-- `update_head_tracked_camera`. The parts of the neutral pose are set together, so the last case
    never comes. -/
def updateCamera (args : CameraArgs R) (c : Camera R) (latest : Option (HeadPose R)) :
    Camera R × List (LookAt R) :=
  match latest with
  | none => (c, [])
  | some pose =>
    let tracking := updateHeadTrackedCamera c.tracking (some pose)
    if resets c.tracking pose then ({ newCamera with tracking := tracking }, [])
    else
      match c.tracking.neutralHeadQuat, c.tracking.neutralHeadPosition,
        c.tracking.neutralHeadAxes with
      | some neutral, some neutralPosition, some axes =>
        let current := quatNormalizedXyzw pose
        let yaw := smooth args.smoothing c.filteredYaw (wantedYaw args neutral current)
        let pitch := smooth args.smoothing c.filteredPitch (wantedPitch args neutral current)
        let wanted := wantedOffset args neutralPosition axes ![pose.px, pose.py, pose.pz]
        let offset : Vec3 R :=
          fun i => smooth args.smoothing (c.filteredCenterOffset i) (wanted i)
        ({ tracking := tracking, filteredYaw := yaw, filteredPitch := pitch
           filteredCenterOffset := offset },
          [lookAt args yaw pitch offset])
      | _, _, _ => ({ c with tracking := tracking }, [])

end Model

noncomputable instance : Angles ℝ where
  cos := Real.cos
  sin := Real.sin
  arcsin := Real.arcsin
  radians degrees := degrees * Real.pi / 180
  maxSmoothing := 0.95

/- Where the camera looks. -/

noncomputable def spherical (r heading elevation : ℝ) : Vec3 ℝ :=
  ![r * Real.cos elevation * Real.cos heading, r * Real.cos elevation * Real.sin heading,
    r * Real.sin elevation]

theorem norm3_level {p : ℝ} (positive : 0 ≤ p) (angle : ℝ) :
    norm3 ![p * Real.sin angle, -(p * Real.cos angle), 0] = p := by
  have square : p * Real.sin angle * (p * Real.sin angle) +
      -(p * Real.cos angle) * -(p * Real.cos angle) + 0 * 0 = p * p := by
    linear_combination p * p * Real.sin_sq_add_cos_sq angle
  simp only [norm3, sqrt_eq, Matrix.cons_val]
  rw [square, Real.sqrt_mul_self positive]

theorem turned_spherical (r heading elevation yaw : ℝ) :
    rotateAxisAngle (spherical r heading elevation) upAxis yaw =
      spherical r (heading + yaw) elevation := by
  have unit : norm3 (upAxis : Vec3 ℝ) = 1 := by simp [norm3, upAxis, sqrt_eq]
  have large : ¬ (1 : ℝ) ≤ Numeric.small := by norm_num [small_eq]
  rw [rotateAxisAngle, unit, if_neg large]
  ext i
  fin_cases i <;>
    simp [spherical, upAxis, cross, dot, Angles.cos, Angles.sin, Real.cos_add, Real.sin_add] <;> ring

theorem cross_spherical (r heading elevation : ℝ) :
    cross (spherical r heading elevation) upAxis =
      ![r * Real.cos elevation * Real.sin heading, -(r * Real.cos elevation * Real.cos heading),
        0] := by
  ext i
  fin_cases i <;> simp [spherical, upAxis, cross]

theorem positive_of_large {x : ℝ} (large : Numeric.small < x) : 0 < x := by
  rw [small_eq] at large
  linarith

theorem level_div {p : ℝ} (positive : 0 < p) (angle : ℝ) :
    (fun i => (![p * Real.sin angle, -(p * Real.cos angle), 0] : Vec3 ℝ) i / p) =
      ![Real.sin angle, -Real.cos angle, 0] := by
  ext i
  fin_cases i
  · exact mul_div_cancel_left₀ _ positive.ne'
  · simp [neg_div, mul_div_cancel_left₀ _ positive.ne']
  · simp

theorem pitched_spherical {r heading elevation : ℝ}
    (slanted : Numeric.small < r * Real.cos elevation) (pitch : ℝ) :
    rotateAxisAngle (spherical r heading elevation)
        (cross (spherical r heading elevation) upAxis) pitch =
      spherical r heading (elevation + pitch) := by
  have positive := positive_of_large slanted
  have square := Real.sin_sq_add_cos_sq heading
  rw [rotateAxisAngle, cross_spherical, norm3_level positive.le, if_neg slanted.not_ge]
  simp only [level_div positive]
  ext i
  fin_cases i <;>
    simp [spherical, cross, dot, Angles.cos, Angles.sin, Real.cos_add, Real.sin_add]
  · ring
  · ring
  · linear_combination r * Real.cos elevation * Real.sin pitch * square

/-- The camera's base direction is not upright, and this is its length, heading and elevation. -/
structure Slanted (args : CameraArgs ℝ) (r heading elevation : ℝ) : Prop where
  positive : Numeric.small < r
  base : args.baseDirection = spherical r heading elevation
  slanted : Numeric.small < r * Real.cos elevation

theorem direction_spherical {args : CameraArgs ℝ} {r heading elevation : ℝ}
    (base : Slanted args r heading elevation) (yaw pitch : ℝ) :
    direction args yaw pitch = spherical r (heading + yaw) (elevation + pitch) := by
  unfold direction
  rw [base.base, turned_spherical]
  exact pitched_spherical base.slanted pitch

/- How far the camera moves. -/

theorem scaled_of_large {v : Vec3 ℝ} {size : ℝ} (norm : norm3 v = size)
    (large : Numeric.small < size) : scaled v = fun i => v i / size := by
  unfold scaled
  rw [norm, if_neg large.not_gt]

theorem norm3_spherical {r : ℝ} (positive : 0 ≤ r) (heading elevation : ℝ) :
    norm3 (spherical r heading elevation) = r := by
  have square : r * Real.cos elevation * Real.cos heading *
        (r * Real.cos elevation * Real.cos heading) +
      r * Real.cos elevation * Real.sin heading * (r * Real.cos elevation * Real.sin heading) +
      r * Real.sin elevation * (r * Real.sin elevation) = r * r := by
    linear_combination r * r * Real.cos elevation ^ 2 * Real.sin_sq_add_cos_sq heading +
      r * r * Real.sin_sq_add_cos_sq elevation
  simp only [norm3, sqrt_eq, spherical, Matrix.cons_val]
  rw [square, Real.sqrt_mul_self positive]

theorem baseAxes {args : CameraArgs ℝ} {r heading elevation : ℝ}
    (base : Slanted args r heading elevation) :
    args.baseForward = spherical 1 heading elevation ∧
      args.baseRight = ![Real.sin heading, -Real.cos heading, 0] ∧
      args.baseUp = ![-(Real.cos heading * Real.sin elevation),
        -(Real.sin heading * Real.sin elevation), Real.cos elevation] := by
  have positive := positive_of_large base.positive
  have across := positive_of_large base.slanted
  have forward : args.baseForward = spherical 1 heading elevation := by
    rw [CameraArgs.baseForward, base.base,
      scaled_of_large (norm3_spherical positive.le heading elevation) base.positive]
    ext i
    fin_cases i <;> simp [spherical] <;> field_simp
  have right : args.baseRight = ![Real.sin heading, -Real.cos heading, 0] := by
    rw [CameraArgs.baseRight, base.base, cross_spherical,
      scaled_of_large (norm3_level across.le heading) base.slanted]
    exact level_div across heading
  have up : cross args.baseRight args.baseForward =
      ![-(Real.cos heading * Real.sin elevation), -(Real.sin heading * Real.sin elevation),
        Real.cos elevation] := by
    rw [forward, right]
    ext i
    fin_cases i <;> simp [cross, spherical]
    linear_combination Real.cos elevation * Real.sin_sq_add_cos_sq heading
  refine ⟨forward, right, ?_⟩
  have unit : norm3 (cross args.baseRight args.baseForward) = 1 := by
    have square : -(Real.cos heading * Real.sin elevation) *
          -(Real.cos heading * Real.sin elevation) +
        -(Real.sin heading * Real.sin elevation) * -(Real.sin heading * Real.sin elevation) +
        Real.cos elevation * Real.cos elevation = 1 := by
      linear_combination Real.sin elevation ^ 2 * Real.sin_sq_add_cos_sq heading +
        Real.sin_sq_add_cos_sq elevation
    rw [up]
    simp only [norm3, sqrt_eq, Matrix.cons_val]
    rw [square, Real.sqrt_one]
  have large : Numeric.small < (1 : ℝ) := by norm_num [small_eq]
  rw [CameraArgs.baseUp, scaled_of_large unit large, up]
  simp only [div_one]

theorem baseAxes_orthonormal {args : CameraArgs ℝ} {r heading elevation : ℝ}
    (base : Slanted args r heading elevation) :
    Orthonormal { right := args.baseRight, up := args.baseUp, forward := args.baseForward } := by
  obtain ⟨forward, right, up⟩ := baseAxes base
  have level := Real.sin_sq_add_cos_sq heading
  have steep := Real.sin_sq_add_cos_sq elevation
  constructor <;> simp only [forward, right, up, spherical, dot, Matrix.cons_val]
  · linear_combination level
  · linear_combination Real.sin elevation ^ 2 * level + steep
  · linear_combination Real.cos elevation ^ 2 * level + steep
  · ring
  · ring
  · linear_combination -(Real.sin elevation * Real.cos elevation) * level

theorem dot_self (v : Vec3 ℝ) : dot v v = length v * length v := by
  rw [length_mul_self]
  simp [dot, dotProduct, Fin.sum_univ_three]

theorem length_eq_of_dot {v w : Vec3 ℝ} (same : dot v v = dot w w) : length v = length w := by
  rw [dot_self, dot_self] at same
  exact (mul_self_inj (Real.sqrt_nonneg _) (Real.sqrt_nonneg _)).mp same

theorem length_centerOffset {args : CameraArgs ℝ} {r heading elevation : ℝ}
    (base : Slanted args r heading elevation) (delta : Vec3 ℝ) :
    length (centerOffset args delta) = |args.headPositionGain| * length delta := by
  obtain ⟨right, up, forward, rightUp, rightForward, upForward⟩ := baseAxes_orthonormal base
  rw [← length_smul (abs_nonneg _)]
  apply length_eq_of_dot
  have square := abs_mul_abs_self args.headPositionGain
  simp only [dot, centerOffset, Pi.smul_apply, smul_eq_mul] at *
  linear_combination
    args.headPositionGain ^ 2 * (delta 0 ^ 2 * right + delta 1 ^ 2 * up + delta 2 ^ 2 * forward +
      2 * delta 0 * delta 1 * rightUp + 2 * delta 0 * delta 2 * rightForward +
      2 * delta 1 * delta 2 * upForward) -
    (delta 0 ^ 2 + delta 1 ^ 2 + delta 2 ^ 2) * square

theorem dot_quatRotate_right (q : Quat ℝ) (v w : Vec3 ℝ) :
    dot v (quatRotateXyzw q w) = dot (quatRotateXyzw (quatConjugateXyzw q) v) w := by
  simp [dot, quatRotateXyzw, quatMultiplyXyzw, quatConjugateXyzw]
  ring

theorem length_alongAxes {q : Quat ℝ} (unit : squares q = 1) (delta : Vec3 ℝ) :
    length (alongAxes (headAxes q) delta) = length delta := by
  have back : squares (quatConjugateXyzw q) = 1 := by
    rw [← unit]
    simp [squares, quatConjugateXyzw]
  have rotated := dot_quatRotate (quatConjugateXyzw q) delta delta
  rw [back, one_mul, one_mul] at rotated
  apply length_eq_of_dot
  rw [← rotated]
  generalize turned : quatRotateXyzw (quatConjugateXyzw q) delta = w
  have along : alongAxes (headAxes q) delta = ![w 0, w 1, -w 2] := by
    simp only [alongAxes, headAxes, dot_quatRotate_right, turned]
    simp [dot]
  rw [along]
  simp [dot]

theorem length_deadzone (args : CameraArgs ℝ) (delta : Vec3 ℝ) :
    length (deadzone args delta) ≤
      max (length delta - args.headPositionDeadzoneM) Numeric.small := by
  have zero : length (fun _ : Fin 3 => (0 : ℝ)) = 0 := by simp [length, dotProduct]
  unfold deadzone
  rw [norm3_eq_length]
  simp only
  split
  · rw [zero, small_eq]
    exact le_max_of_le_right (by norm_num)
  · next outside =>
    split
    · next large =>
      have positive := positive_of_large large
      have scaled : (fun i => delta i * (length delta - args.headPositionDeadzoneM) /
          length delta) = ((length delta - args.headPositionDeadzoneM) / length delta) • delta := by
        ext i
        simp only [Pi.smul_apply, smul_eq_mul]
        ring
      rw [scaled, length_smul (div_nonneg (sub_nonneg.mpr (not_lt.mp outside)) positive.le),
        div_mul_cancel₀ _ positive.ne']
      exact le_max_left _ _
    · next small => exact le_max_of_le_right (not_lt.mp small)

end QuestHeadCamera
