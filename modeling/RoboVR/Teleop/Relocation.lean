import RoboVR.Teleop.CameraBounds
import RoboVR.Teleop.Station

/- The headset measures in a space with an origin of its own. Wherever it is, camera and arm do the
   same: poses that are all turned and shifted alike give the same runs. -/
namespace QuestRelocation
open QuestArmMotion QuestExactMotion QuestHeadFrame QuestHeadCamera QuestStation TracedRun

-- named, so that the indices of a vector carry no proof of their own
local instance three_positive : NeZero 3 := ⟨by decide⟩
local instance four_positive : NeZero 4 := ⟨by decide⟩

/-- A change of the space that the headset measures in. -/
structure Relocation where
  turn : Quat ℝ
  unit : squares turn = 1
  shift : Vec3 ℝ

namespace Relocation
variable (m : Relocation)

noncomputable def vector (v : Vec3 ℝ) : Vec3 ℝ := quatRotateXyzw m.turn v

noncomputable def point (p : Vec3 ℝ) : Vec3 ℝ := fun i => m.vector p i + m.shift i

noncomputable def quat (q : Quat ℝ) : Quat ℝ := quatMultiplyXyzw m.turn q

noncomputable def axes (axes : Axes ℝ) : Axes ℝ :=
  { right := m.vector axes.right, up := m.vector axes.up, forward := m.vector axes.forward }

noncomputable def headPose (pose : HeadPose ℝ) : HeadPose ℝ :=
  let p := m.point ![pose.px, pose.py, pose.pz]
  let q := m.quat ![pose.qx, pose.qy, pose.qz, pose.qw]
  { px := p 0, py := p 1, pz := p 2, qx := q 0, qy := q 1, qz := q 2, qw := q 3
    resetRequested := pose.resetRequested }

noncomputable def sample (sample : Sample ℝ) : Sample ℝ :=
  let p := m.point sample.gripPosition
  let q := m.quat ![sample.rightGripQx, sample.rightGripQy, sample.rightGripQz, sample.rightGripQw]
  { sample with
    rightGripPx := p 0
    rightGripPy := p 1
    rightGripPz := p 2
    rightGripQx := q 0
    rightGripQy := q 1
    rightGripQz := q 2
    rightGripQw := q 3 }

noncomputable def tick : Tick ℝ → Tick ℝ
  | .headPose pose => .headPose (m.headPose pose)
  | .input sample => .input (m.sample sample)
  | .updateHeadTrackedCamera => .updateHeadTrackedCamera
  | .makeAction actionDim => .makeAction actionDim

end Relocation

/-- A quaternion that is not taken as the identity for being too small. -/
def Proper (q : Quat ℝ) : Prop := Numeric.small < norm4 q

def ProperHead (pose : HeadPose ℝ) : Prop := Proper ![pose.qx, pose.qy, pose.qz, pose.qw]

/-- Asked of a hand only where its position is valid. -/
def ProperHand (sample : Sample ℝ) : Prop :=
  sample.positionValid = true →
    Proper ![sample.rightGripQx, sample.rightGripQy, sample.rightGripQz, sample.rightGripQw]

/- Quaternions and rotations. -/

theorem squares_multiply (a b : Quat ℝ) :
    squares (quatMultiplyXyzw a b) = squares a * squares b := by
  simp [squares, quatMultiplyXyzw]
  ring

theorem squares_conjugate (q : Quat ℝ) : squares (quatConjugateXyzw q) = squares q := by
  simp [squares, quatConjugateXyzw]

theorem quatRotate_multiply (a b : Quat ℝ) (v : Vec3 ℝ) :
    quatRotateXyzw (quatMultiplyXyzw a b) v = quatRotateXyzw a (quatRotateXyzw b v) := by
  ext i
  fin_cases i <;> simp [quatRotateXyzw, quatMultiplyXyzw, quatConjugateXyzw] <;> ring

theorem quatRotate_sub (q : Quat ℝ) (v w : Vec3 ℝ) :
    (fun i => quatRotateXyzw q v i - quatRotateXyzw q w i) =
      quatRotateXyzw q fun i => v i - w i := by
  ext i
  fin_cases i <;> simp [quatRotateXyzw, quatMultiplyXyzw, quatConjugateXyzw] <;> ring

theorem quatRotate_mul (q : Quat ℝ) (v : Vec3 ℝ) (c : ℝ) :
    (quatRotateXyzw q fun i => v i * c) = fun i => quatRotateXyzw q v i * c := by
  ext i
  fin_cases i <;> simp [quatRotateXyzw, quatMultiplyXyzw, quatConjugateXyzw] <;> ring

theorem relative_turned (t a b : Quat ℝ) :
    quatMultiplyXyzw (quatConjugateXyzw (quatMultiplyXyzw t a)) (quatMultiplyXyzw t b) =
      fun i => squares t * quatMultiplyXyzw (quatConjugateXyzw a) b i := by
  ext i
  fin_cases i <;> simp [squares, quatMultiplyXyzw, quatConjugateXyzw] <;> ring

theorem multiply_div (t q : Quat ℝ) (c : ℝ) :
    (fun i => quatMultiplyXyzw t q i / c) = quatMultiplyXyzw t fun i => q i / c := by
  ext i
  fin_cases i <;> simp [quatMultiplyXyzw] <;> ring

section
variable (m : Relocation)

theorem dot_vector (v w : Vec3 ℝ) : dot (m.vector v) (m.vector w) = dot v w := by
  unfold Relocation.vector
  rw [dot_quatRotate, m.unit, one_mul, one_mul]

theorem norm4_quat (q : Quat ℝ) : norm4 (m.quat q) = norm4 q := by
  have same : squares (m.quat q) = squares q := by
    rw [Relocation.quat, squares_multiply, m.unit, one_mul]
  exact congrArg Real.sqrt same

theorem normalize_quat {q : Quat ℝ} (proper : Proper q) :
    normalizeQuatXyzw (m.quat q) = m.quat (normalizeQuatXyzw q) := by
  have large : ¬ norm4 q ≤ Numeric.small := not_le.mpr proper
  unfold normalizeQuatXyzw
  rw [norm4_quat, if_neg large, if_neg large]
  exact multiply_div m.turn q (norm4 q)

theorem headAxes_quat (q : Quat ℝ) : headAxes (m.quat q) = m.axes (headAxes q) := by
  simp only [headAxes, Relocation.quat, Relocation.axes, Relocation.vector, quatRotate_multiply]

theorem point_sub (p n : Vec3 ℝ) :
    (fun i => m.point p i - m.point n i) = m.vector fun i => p i - n i := by
  unfold Relocation.vector
  rw [← quatRotate_sub]
  ext i
  simp [Relocation.point, Relocation.vector]

/- The camera. -/

theorem position_headPose (pose : HeadPose ℝ) :
    ![(m.headPose pose).px, (m.headPose pose).py, (m.headPose pose).pz] =
      m.point ![pose.px, pose.py, pose.pz] := by
  ext i
  fin_cases i <;> rfl

theorem normalized_headPose {pose : HeadPose ℝ} (proper : ProperHead pose) :
    quatNormalizedXyzw (m.headPose pose) = m.quat (quatNormalizedXyzw pose) := by
  have raw : ![(m.headPose pose).qx, (m.headPose pose).qy, (m.headPose pose).qz,
      (m.headPose pose).qw] = m.quat ![pose.qx, pose.qy, pose.qz, pose.qw] := by
    ext i
    fin_cases i <;> rfl
  unfold quatNormalizedXyzw
  rw [raw]
  exact normalize_quat m proper

theorem resets_headPose {t t' : HeadTracking ℝ}
    (quat : t'.neutralHeadQuat = t.neutralHeadQuat.map m.quat)
    (button : t'.resetButtonWasDown = t.resetButtonWasDown) (pose : HeadPose ℝ) :
    resets t' (m.headPose pose) = resets t pose := by
  simp only [resets, quat, button, Option.isNone_map]
  rfl

theorem lookedForward_quat (a b : Quat ℝ) :
    lookedForward (m.quat a) (m.quat b) = lookedForward a b := by
  unfold lookedForward Relocation.quat
  rw [relative_turned, m.unit]
  simp only [one_mul]

theorem wantedYaw_quat (args : CameraArgs ℝ) (a b : Quat ℝ) :
    wantedYaw args (m.quat a) (m.quat b) = wantedYaw args a b := by
  simp only [wantedYaw, lookedForward_quat]

theorem wantedPitch_quat (args : CameraArgs ℝ) (a b : Quat ℝ) :
    wantedPitch args (m.quat a) (m.quat b) = wantedPitch args a b := by
  simp only [wantedPitch, lookedForward_quat]

theorem wantedOffset_point (args : CameraArgs ℝ) (n p : Vec3 ℝ) (axes : Axes ℝ) :
    wantedOffset args (m.point n) (m.axes axes) (m.point p) = wantedOffset args n axes p := by
  unfold wantedOffset
  rw [point_sub]
  simp only [alongAxes, Relocation.axes, dot_vector]

structure SameCamera (c c' : Camera ℝ) : Prop where
  yaw : c'.filteredYaw = c.filteredYaw
  pitch : c'.filteredPitch = c.filteredPitch
  offset : c'.filteredCenterOffset = c.filteredCenterOffset
  quat : c'.tracking.neutralHeadQuat = c.tracking.neutralHeadQuat.map m.quat
  position : c'.tracking.neutralHeadPosition = c.tracking.neutralHeadPosition.map m.point
  axes : c'.tracking.neutralHeadAxes = c.tracking.neutralHeadAxes.map m.axes
  button : c'.tracking.resetButtonWasDown = c.tracking.resetButtonWasDown

theorem update_sameCamera (args : CameraArgs ℝ) {c c' : Camera ℝ} (same : SameCamera m c c')
    {latest : Option (HeadPose ℝ)} (proper : ∀ pose ∈ latest, ProperHead pose) :
    SameCamera m (updateCamera args c latest).1 (updateCamera args c' (latest.map m.headPose)).1 ∧
      (updateCamera args c' (latest.map m.headPose)).2 = (updateCamera args c latest).2 := by
  cases latest with
  | none => exact ⟨same, rfl⟩
  | some pose =>
    have current := normalized_headPose m (proper pose rfl)
    have resets_ := resets_headPose m same.quat same.button pose
    by_cases reset : resets c.tracking pose = true
    · simp only [Option.map_some, updateCamera, updateHeadTrackedCamera, resets_, reset, if_true]
      constructor
      · constructor
        · rfl
        · rfl
        · rfl
        · exact congrArg some current
        · exact congrArg some (position_headPose m pose)
        · exact congrArg some ((congrArg headAxes current).trans (headAxes_quat m _))
        · rfl
      · trivial
    · obtain ⟨yaw, pitch, offset, quat, position, axes, button⟩ := same
      simp only [Option.map_some, updateCamera, updateHeadTrackedCamera, resets_, reset, quat,
        position, axes]
      cases neutral : c.tracking.neutralHeadQuat with
      | none => simp [resets, neutral] at reset
      | some q =>
        cases c.tracking.neutralHeadPosition with
        | none => exact ⟨⟨yaw, pitch, offset, by simp, by simp, by simp, rfl⟩, by simp⟩
        | some p =>
          cases c.tracking.neutralHeadAxes with
          | none => exact ⟨⟨yaw, pitch, offset, by simp, by simp, by simp, rfl⟩, by simp⟩
          | some axes =>
            simp only [Option.map_some, current, position_headPose, wantedYaw_quat,
              wantedPitch_quat, wantedOffset_point, yaw, pitch, offset]
            exact ⟨⟨rfl, rfl, rfl, rfl, rfl, rfl, rfl⟩, rfl⟩

/-- Wherever the origin of the headset's space is, the camera looks at the same. -/
theorem camera_relocated (args : CameraArgs ℝ) {poses : List (Option (HeadPose ℝ))}
    (proper : ∀ pose, some pose ∈ poses → ProperHead pose) :
    (run (updateCamera args) newCamera (poses.map (Option.map m.headPose))).2 =
      (run (updateCamera args) newCamera poses).2 := by
  have start : SameCamera m newCamera newCamera := ⟨rfl, rfl, rfl, rfl, rfl, rfl, rfl⟩
  have along : ∀ {c c' : Camera ℝ}, SameCamera m c c' →
      (run (updateCamera args) c' (poses.map (Option.map m.headPose))).2 =
        (run (updateCamera args) c poses).2 := by
    induction poses with
    | nil => exact fun _ => rfl
    | cons latest poses ih =>
      intro c c' same
      have here : ∀ pose ∈ latest, ProperHead pose := by
        rintro pose rfl
        exact proper pose List.mem_cons_self
      obtain ⟨later, looks⟩ := update_sameCamera m args same here
      have rest := ih (fun pose mem => proper pose (List.mem_cons_of_mem latest mem)) later
      rw [List.map_cons, run, run, looks, rest]
  exact along start

end

noncomputable def turnedSpace : Relocation where
  turn := ![0, 3 / 5, 0, 4 / 5]
  unit := by
    simp [squares]
    norm_num
  shift := ![1, 0, 0]

theorem uprightHead_proper : ProperHead uprightHead := by
  simp [ProperHead, Proper, uprightHead, norm4, sqrt_eq, small_eq]
  norm_num

noncomputable def steppedHead : HeadPose ℝ :=
  { uprightHead with px := 1 / 10, qy := 3 / 5, qw := 4 / 5 }

theorem steppedHead_proper : ProperHead steppedHead := by
  simp [ProperHead, Proper, steppedHead, uprightHead, norm4, sqrt_eq, small_eq]
  norm_num

theorem level_relocated :
    (run (updateCamera levelArgs) newCamera
        ([some uprightHead, some steppedHead, none].map (Option.map turnedSpace.headPose))).2 =
      (run (updateCamera levelArgs) newCamera [some uprightHead, some steppedHead, none]).2 := by
  apply camera_relocated
  intro pose mem
  have one : pose = uprightHead ∨ pose = steppedHead := by simpa using mem
  rcases one with rfl | rfl
  · exact uprightHead_proper
  · exact steppedHead_proper

/- The arm. -/

section
variable (m : Relocation)

theorem norm3_vector (v : Vec3 ℝ) : norm3 (m.vector v) = norm3 v :=
  congrArg Real.sqrt (dot_vector m v v)

theorem vector_zero : m.vector (fun _ => 0) = fun _ => 0 := by
  ext i
  fin_cases i <;> simp [Relocation.vector, quatRotateXyzw, quatMultiplyXyzw, quatConjugateXyzw]

theorem deadband_vector (v : Vec3 ℝ) (limit : ℝ) :
    deadband (m.vector v) limit = m.vector (deadband v limit) := by
  unfold deadband
  rw [norm3_vector]
  split
  · exact (vector_zero m).symm
  · rfl

theorem baseVector_vector (args : Args ℝ) (axes : Axes ℝ) (v : Vec3 ℝ) :
    baseVector args (m.axes axes) (m.vector v) = baseVector args axes v := by
  simp only [baseVector, Relocation.axes, dot_vector]

noncomputable def conjugated (q : Quat ℝ) : Quat ℝ :=
  quatMultiplyXyzw m.turn (quatMultiplyXyzw q (quatConjugateXyzw m.turn))

theorem conjugated_delta (g p : Quat ℝ) :
    quatMultiplyXyzw (m.quat g) (quatConjugateXyzw (m.quat p)) =
      conjugated m (quatMultiplyXyzw g (quatConjugateXyzw p)) := by
  ext i
  fin_cases i <;>
    simp [conjugated, Relocation.quat, quatMultiplyXyzw, quatConjugateXyzw] <;> ring

theorem conjugated_last (q : Quat ℝ) : conjugated m q 3 = q 3 := by
  have scaled : conjugated m q 3 = squares m.turn * q 3 := by
    simp [conjugated, quatMultiplyXyzw, quatConjugateXyzw, squares]
    ring
  rw [scaled, m.unit, one_mul]

theorem conjugated_vector (q : Quat ℝ) :
    ![conjugated m q 0, conjugated m q 1, conjugated m q 2] = m.vector ![q 0, q 1, q 2] := by
  ext i
  fin_cases i <;>
    simp [conjugated, Relocation.vector, quatRotateXyzw, quatMultiplyXyzw, quatConjugateXyzw] <;>
    ring

theorem norm4_conjugated (q : Quat ℝ) : norm4 (conjugated m q) = norm4 q := by
  have same : squares (conjugated m q) = squares q := by
    rw [conjugated, squares_multiply, squares_multiply, squares_conjugate, m.unit, one_mul, mul_one]
  exact congrArg Real.sqrt same

theorem normalize_conjugated (q : Quat ℝ) :
    normalizeQuatXyzw (conjugated m q) = conjugated m (normalizeQuatXyzw q) := by
  unfold normalizeQuatXyzw
  rw [norm4_conjugated]
  split
  · have unit := m.unit
    simp only [squares] at unit
    ext i
    fin_cases i <;> simp [conjugated, quatMultiplyXyzw, quatConjugateXyzw]
    · ring
    · ring
    · ring
    · linear_combination -unit
  · ext i
    fin_cases i <;> simp [conjugated, quatMultiplyXyzw, quatConjugateXyzw] <;> ring

theorem conjugated_neg (q : Quat ℝ) :
    (fun i => -conjugated m q i) = conjugated m fun i => -q i := by
  ext i
  fin_cases i <;> simp [conjugated, quatMultiplyXyzw, quatConjugateXyzw] <;> ring

theorem rotvecOfUpper_conjugated (q : Quat ℝ) :
    rotvecOfUpper (conjugated m q) = m.vector (rotvecOfUpper q) := by
  simp only [rotvecOfUpper]
  rw [conjugated_vector, norm3_vector, conjugated_last]
  split
  · exact (vector_zero m).symm
  · simp only [div_mul_eq_mul_div, mul_div_assoc]
    exact (quatRotate_mul m.turn _ _).symm

theorem quatToRotvec_conjugated (q : Quat ℝ) :
    quatToRotvecXyzw (conjugated m q) = m.vector (quatToRotvecXyzw q) := by
  simp only [quatToRotvecXyzw]
  rw [normalize_conjugated, conjugated_last, ← rotvecOfUpper_conjugated]
  split
  · rw [conjugated_neg]
  · rfl

theorem gripPosition_sample (sample : Sample ℝ) :
    (m.sample sample).gripPosition = m.point sample.gripPosition := by
  ext i
  fin_cases i <;> rfl

theorem gripQuat_sample {sample : Sample ℝ}
    (proper : Proper ![sample.rightGripQx, sample.rightGripQy, sample.rightGripQz,
      sample.rightGripQw]) :
    (m.sample sample).gripQuat = m.quat sample.gripQuat := by
  have raw : ![(m.sample sample).rightGripQx, (m.sample sample).rightGripQy,
      (m.sample sample).rightGripQz, (m.sample sample).rightGripQw] =
        m.quat ![sample.rightGripQx, sample.rightGripQy, sample.rightGripQz,
          sample.rightGripQw] := by
    ext i
    fin_cases i <;> rfl
  unfold Sample.gripQuat
  rw [raw]
  exact normalize_quat m proper

theorem moved_sample (args : Args ℝ) (axes : Axes ℝ) (prevPosition : Vec3 ℝ) (prevQuat : Quat ℝ)
    {sample : Sample ℝ} (quat : (m.sample sample).gripQuat = m.quat sample.gripQuat) :
    moved args (m.axes axes) (m.point prevPosition) (m.quat prevQuat) (m.sample sample) =
      moved args axes prevPosition prevQuat sample := by
  unfold moved
  simp only [gripPosition_sample, quat, point_sub, conjugated_delta, quatToRotvec_conjugated,
    deadband_vector, baseVector_vector]

noncomputable def Relocation.teleop (t : ArmTeleop ℝ) : ArmTeleop ℝ :=
  { t with
    prevGripPosition := t.prevGripPosition.map m.point
    prevGripQuat := t.prevGripQuat.map m.quat }

theorem act_sample (args : Args ℝ) (axes : Axes ℝ) {sample : Sample ℝ} (proper : ProperHand sample)
    (t : ArmTeleop ℝ) :
    act args (m.axes axes) (m.sample sample) (m.teleop t) =
      (m.teleop (act args axes sample t).1, (act args axes sample t).2) := by
  have gripper : turnGripper args (m.sample sample) (m.teleop t) =
      (m.teleop (turnGripper args sample t).1, (turnGripper args sample t).2) := rfl
  have clutched : (m.sample sample).clutched args = sample.clutched args := rfl
  have reset : (m.sample sample).reset = sample.reset := rfl
  simp only [act, gripper, clutched, reset]
  generalize turnGripper args sample t = turned
  obtain ⟨t, grip⟩ := turned
  cases held : sample.clutched args with
  | false => rfl
  | true =>
    have valid : sample.positionValid = true := by
      simp only [Sample.clutched, Bool.and_eq_true] at held
      exact held.1
    have quat := gripQuat_sample m (proper valid)
    have engaged : engage (m.sample sample) (m.teleop t) grip =
        (m.teleop (engage sample t grip).1, (engage sample t grip).2) := by
      simp only [engage, gripPosition_sample, quat]
      rfl
    simp only [Bool.true_eq_false, if_false, engaged]
    cases position : t.prevGripPosition with
    | none => simp [Relocation.teleop, position]
    | some prevPosition =>
      cases before : t.prevGripQuat with
      | none => simp [Relocation.teleop, position, before]
      | some prevQuat =>
        simp only [Relocation.teleop, position, before, Option.map_some]
        by_cases anew : t.wasClutched = false ∨ sample.reset = true
        · simp only [anew, if_true]
        · simp only [anew, if_false, moved_sample m args axes prevPosition prevQuat quat,
            gripPosition_sample, quat, Option.map_some]

theorem makeAction_sample (args : Args ℝ) (axes : Axes ℝ) {latest : Option (Sample ℝ)}
    (proper : ∀ sample ∈ latest, ProperHand sample) (t : ArmTeleop ℝ) (actionDim : Nat) :
    makeAction args (m.axes axes) (latest.map m.sample) (m.teleop t) actionDim =
      (m.teleop (makeAction args axes latest t actionDim).1,
        (makeAction args axes latest t actionDim).2) := by
  unfold makeAction
  by_cases narrow : actionDim < 7
  · simp only [narrow, if_true]
  · cases latest with
    | none => simp only [narrow, if_false, Option.map_none]
    | some sample =>
      simp only [narrow, if_false, Option.map_some]
      exact act_sample m args axes (proper sample rfl) t

structure SameStation (s s' : Station ℝ) : Prop where
  pose : s'.latestHeadPose = s.latestHeadPose.map m.headPose
  input : s'.latestInput = s.latestInput.map m.sample
  quat : s'.head.neutralHeadQuat = s.head.neutralHeadQuat.map m.quat
  button : s'.head.resetButtonWasDown = s.head.resetButtonWasDown
  frame : s.head.neutralHeadQuat ≠ none → s'.head.neutralFrame = m.axes s.head.neutralFrame
  teleop : s'.armTeleop = m.teleop s.armTeleop
  properHead : ∀ pose ∈ s.latestHeadPose, ProperHead pose
  properHand : ∀ sample ∈ s.latestInput, ProperHand sample

/-- The arm acts only once the neutral frame was set, and what comes in is proper. -/
def Framed (s : Station ℝ) (_ : List (Acted ℝ)) : Tick ℝ → Prop
  | .headPose pose => ProperHead pose
  | .input sample => ProperHand sample
  | .updateHeadTrackedCamera => True
  | .makeAction _ => s.head.neutralHeadQuat ≠ none

theorem update_sameStation {s s' : Station ℝ} (same : SameStation m s s') :
    SameStation m
      { s with head := updateHeadTrackedCamera s.head s.latestHeadPose }
      { s' with head := updateHeadTrackedCamera s'.head s'.latestHeadPose } := by
  obtain ⟨pose, input, quat, button, frame, teleop, properHead, properHand⟩ := same
  rw [pose]
  cases latest : s.latestHeadPose with
  | none => exact ⟨by simp, input, quat, button, frame, teleop, by simp, properHand⟩
  | some headPose =>
    have current := normalized_headPose m (properHead headPose latest)
    have resets_ := resets_headPose m quat button headPose
    have kept : ∀ pose ∈ some headPose, ProperHead pose := latest ▸ properHead
    by_cases reset : resets s.head headPose = true
    · simp only [Option.map_some, updateHeadTrackedCamera, resets_, reset, if_true]
      refine ⟨rfl, input, congrArg some current, rfl, fun _ => ?_, teleop, kept, properHand⟩
      exact (congrArg headAxes current).trans (headAxes_quat m _)
    · simp only [Option.map_some, updateHeadTrackedCamera, resets_, reset]
      exact ⟨rfl, input, quat, rfl, frame, teleop, kept, properHand⟩

theorem tick_sameStation (args : Args ℝ) {s s' : Station ℝ} (same : SameStation m s s')
    {past : List (Acted ℝ)} {t : Tick ℝ} (framed : Framed s past t) :
    SameStation m (tick args s t).1 (tick args s' (m.tick t)).1 ∧
      (tick args s' (m.tick t)).2.map Acted.out = (tick args s t).2.map Acted.out := by
  cases t with
  | headPose pose =>
    obtain ⟨_, input, quat, button, frame, teleop, _, properHand⟩ := same
    refine ⟨⟨rfl, input, quat, button, frame, teleop, ?_, properHand⟩, rfl⟩
    rintro other is
    cases is
    exact framed
  | input sample =>
    obtain ⟨pose, _, quat, button, frame, teleop, properHead, _⟩ := same
    refine ⟨⟨pose, rfl, quat, button, frame, teleop, properHead, ?_⟩, rfl⟩
    rintro other is
    cases is
    exact framed
  | updateHeadTrackedCamera => exact ⟨update_sameStation m same, rfl⟩
  | makeAction actionDim =>
    obtain ⟨pose, input, quat, button, frame, teleop, properHead, properHand⟩ := same
    have made := makeAction_sample m args s.head.neutralFrame properHand s.armTeleop actionDim
    rw [← frame framed, ← input, ← teleop] at made
    constructor
    · exact ⟨pose, input, quat, button, frame, congrArg Prod.fst made, properHead, properHand⟩
    · simp only [tick, Relocation.tick, made]
      split
      · rfl
      · rw [input]
        cases s.latestInput <;> rfl

/-- Wherever the origin of the headset's space is, the arm makes the same actions. -/
theorem arm_relocated (args : Args ℝ) {ticks : List (Tick ℝ)}
    (framed : AtSteps (tick args) Framed newStation [] ticks) :
    (run (tick args) newStation (ticks.map m.tick)).2.map Acted.out =
      (run (tick args) newStation ticks).2.map Acted.out := by
  have start : SameStation m newStation newStation :=
    ⟨rfl, rfl, rfl, rfl, fun set_ => absurd rfl set_, rfl, by simp [newStation],
      by simp [newStation]⟩
  have along : ∀ {s s' : Station ℝ} {past : List (Acted ℝ)}, SameStation m s s' →
      AtSteps (tick args) Framed s past ticks →
      (run (tick args) s' (ticks.map m.tick)).2.map Acted.out =
        (run (tick args) s ticks).2.map Acted.out := by
    clear framed
    induction ticks with
    | nil => exact fun _ _ => rfl
    | cons t ticks ih =>
      intro s s' past same framed
      obtain ⟨later, outs⟩ := tick_sameStation m args same framed.1
      have rest := ih later framed.2
      rw [List.map_cons, run, run, List.map_append, List.map_append, outs, rest]
  exact along start framed

end

def squeezingHand : Sample ℝ :=
  { rightGripFlags := 3
    rightGripPx := 0, rightGripPy := 0, rightGripPz := 0
    rightGripQx := 0, rightGripQy := 0, rightGripQz := 0, rightGripQw := 1
    rightTrigger := 0, rightSqueeze := 1, buttonB := false, buttonY := false }

theorem default_relocated :
    (run (tick defaultArgs) newStation
        ([.headPose uprightHead, .updateHeadTrackedCamera, .input squeezingHand, .makeAction 7,
          .input { squeezingHand with rightGripPx := 1 }, .makeAction 7].map
            turnedSpace.tick)).2.map Acted.out =
      (run (tick defaultArgs) newStation
        [.headPose uprightHead, .updateHeadTrackedCamera, .input squeezingHand, .makeAction 7,
          .input { squeezingHand with rightGripPx := 1 }, .makeAction 7]).2.map Acted.out := by
  have proper : ∀ x, ProperHand { squeezingHand with rightGripPx := x } := by
    intro x _
    simp [Proper, squeezingHand, norm4, sqrt_eq, small_eq]
    norm_num
  have neutral : ∀ s : Station ℝ, s.latestHeadPose = some uprightHead →
      (updateHeadTrackedCamera s.head s.latestHeadPose).neutralHeadQuat ≠ none := by
    intro s latest
    rw [latest, updateHeadTrackedCamera]
    split
    · simp
    · next kept =>
      intro unset
      have first : s.head.neutralHeadQuat = none := unset
      simp [resets, first] at kept
  apply arm_relocated
  refine ⟨uprightHead_proper, trivial, proper 0, ?_, proper 1, ?_, trivial⟩
  · exact neutral _ rfl
  · exact neutral { newStation with latestHeadPose := some uprightHead } rfl

end QuestRelocation
