import RoboVR.Teleop.HeadCamera

/- Over every run of the camera: how far it goes from its base, where it looks, and where it comes
   to rest. -/
namespace QuestHeadCamera
open QuestArmMotion QuestExactMotion QuestHeadFrame TracedRun Rotations Smoothing

noncomputable def CameraArgs.yawLimit (args : CameraArgs ℝ) : ℝ := Angles.radians args.maxHeadYawDeg

noncomputable def CameraArgs.pitchLimit (args : CameraArgs ℝ) : ℝ :=
  Angles.radians args.maxHeadPitchDeg

/-- For a head that stays within `reach` of some point. -/
noncomputable def CameraArgs.offsetLimit (args : CameraArgs ℝ) (reach : ℝ) : ℝ :=
  |args.headPositionGain| * max (2 * reach - args.headPositionDeadzoneM) Numeric.small

def headPosition (pose : HeadPose ℝ) : Vec3 ℝ := ![pose.px, pose.py, pose.pz]

structure Neutral (middle : Vec3 ℝ) (reach : ℝ) (t : HeadTracking ℝ) (q : Quat ℝ) (p : Vec3 ℝ) :
    Prop where
  quat : t.neutralHeadQuat = some q
  position : t.neutralHeadPosition = some p
  axes : t.neutralHeadAxes = some (headAxes q)
  unit : squares q = 1
  near : length (p - middle) ≤ reach

structure Within (args : CameraArgs ℝ) (middle : Vec3 ℝ) (reach : ℝ) (c : Camera ℝ) : Prop where
  yaw : |c.filteredYaw| ≤ args.yawLimit
  pitch : |c.filteredPitch| ≤ args.pitchLimit
  offset : length c.filteredCenterOffset ≤ args.offsetLimit reach
  neutral : c.tracking.neutralHeadQuat = none ∨
    ∃ quat position, Neutral middle reach c.tracking quat position

/-- The limits of what the camera is made to look at. -/
structure InView (args : CameraArgs ℝ) (r heading elevation reach : ℝ) (look : LookAt ℝ) :
    Prop where
  center : length (look.center - args.center) ≤ args.offsetLimit reach
  sight : ∃ yaw pitch, |yaw| ≤ args.yawLimit ∧ |pitch| ≤ args.pitchLimit ∧
    look.target - look.center = spherical r (heading + yaw) (elevation + pitch)

/-- The limits of the command line are not negative. -/
structure Limits (args : CameraArgs ℝ) : Prop where
  yaw : 0 ≤ args.maxHeadYawDeg
  pitch : 0 ≤ args.maxHeadPitchDeg

theorem smoothing_range (args : CameraArgs ℝ) : 0 ≤ args.smoothing ∧ args.smoothing ≤ 0.95 := by
  have max_ : (Angles.maxSmoothing : ℝ) = 0.95 := rfl
  unfold CameraArgs.smoothing clipBetween
  rw [max_]
  constructor <;> grind

theorem smooth_eq_follow (s old new : ℝ) : smooth s old new = follow s old new := rfl

theorem clip_abs_le {bound : ℝ} (nonneg : 0 ≤ bound) (x : ℝ) : |clip x bound| ≤ bound := by
  unfold clip
  rw [abs_le]
  constructor <;> grind

theorem radians_nonneg {degrees : ℝ} (nonneg : 0 ≤ degrees) :
    (0 : ℝ) ≤ Angles.radians degrees := by
  have turn : (Angles.radians degrees : ℝ) = degrees * Real.pi / 180 := rfl
  rw [turn]
  positivity

theorem smooth_abs_le {s bound old new : ℝ} (range : 0 ≤ s ∧ s ≤ 0.95) (before : |old| ≤ bound)
    (aim : |new| ≤ bound) : |smooth s old new| ≤ bound := by
  rw [smooth_eq_follow]
  refine abs_le.mpr (follow_mem (convex_Icc (-bound) bound) range.1 ?_ ?_ ?_)
  · linarith [range.2]
  · exact abs_le.mp before
  · exact abs_le.mp aim

section
variable {args : CameraArgs ℝ} {r heading elevation : ℝ} {middle : Vec3 ℝ} {reach : ℝ}

theorem length_wantedOffset (base : Slanted args r heading elevation) {quat : Quat ℝ}
    (unit : squares quat = 1) {neutral position : Vec3 ℝ} (from_ : length (neutral - middle) ≤ reach)
    (to_ : length (position - middle) ≤ reach) :
    length (wantedOffset args neutral (headAxes quat) position) ≤ args.offsetLimit reach := by
  have apart : length (fun i => position i - neutral i) ≤ 2 * reach := by
    have split : (fun i => position i - neutral i) = (position - middle) + (middle - neutral) := by
      ext i
      simp
    have sum := length_add_le (position - middle) (middle - neutral)
    rw [split]
    rw [length_sub_comm] at from_
    linarith
  unfold wantedOffset CameraArgs.offsetLimit
  rw [length_centerOffset base]
  refine mul_le_mul_of_nonneg_left ((length_deadzone args _).trans ?_) (abs_nonneg _)
  rw [length_alongAxes unit]
  exact max_le_max_right _ (by linarith)

theorem lookAt_inView (base : Slanted args r heading elevation) {yaw pitch : ℝ} {offset : Vec3 ℝ}
    (turned : |yaw| ≤ args.yawLimit) (tilted : |pitch| ≤ args.pitchLimit)
    (moved : length offset ≤ args.offsetLimit reach) :
    InView args r heading elevation reach (lookAt args yaw pitch offset) := by
  have center : (lookAt args yaw pitch offset).center - args.center = offset := by
    ext i
    simp [lookAt]
  have sight : (lookAt args yaw pitch offset).target - (lookAt args yaw pitch offset).center =
      direction args yaw pitch := by
    ext i
    simp [lookAt]
  constructor
  · rw [center]
    exact moved
  · refine ⟨yaw, pitch, turned, tilted, ?_⟩
    rw [sight, direction_spherical base]

theorem tracking_kept {t : HeadTracking ℝ} {pose : HeadPose ℝ} (goesOn : ¬ resets t pose = true) :
    updateHeadTrackedCamera t (some pose) =
      { t with resetButtonWasDown := pose.resetRequested } := by
  rw [updateHeadTrackedCamera, if_neg goesOn]

theorem newCamera_within (limits : Limits args) (reach : ℝ) (t : HeadTracking ℝ)
    (neutral : t.neutralHeadQuat = none ∨ ∃ quat position, Neutral middle reach t quat position) :
    Within args middle reach { newCamera with tracking := t } := by
  have zero : length (fun _ : Fin 3 => (0 : ℝ)) = 0 := by simp [length, dotProduct]
  have small : (0 : ℝ) ≤ Numeric.small := by norm_num [small_eq]
  constructor
  · simpa [newCamera, CameraArgs.yawLimit] using radians_nonneg limits.yaw
  · simpa [newCamera, CameraArgs.pitchLimit] using radians_nonneg limits.pitch
  · simp only [newCamera, zero, CameraArgs.offsetLimit]
    exact mul_nonneg (abs_nonneg _) (le_max_of_le_right small)
  · exact neutral

theorem update_within (base : Slanted args r heading elevation) (limits : Limits args)
    {c : Camera ℝ} (within : Within args middle reach c) {latest : Option (HeadPose ℝ)}
    (near : ∀ pose ∈ latest, length (headPosition pose - middle) ≤ reach) :
    Within args middle reach (updateCamera args c latest).1 ∧
      ∀ look ∈ (updateCamera args c latest).2, InView args r heading elevation reach look := by
  cases latest with
  | none => exact ⟨within, by simp [updateCamera]⟩
  | some pose =>
    have here := near pose rfl
    by_cases reset : resets c.tracking pose = true
    · simp only [updateCamera, reset, if_true]
      refine ⟨newCamera_within limits reach _ (.inr ?_), by simp⟩
      refine ⟨quatNormalizedXyzw pose, headPosition pose, ?_⟩
      rw [updateHeadTrackedCamera, if_pos reset]
      exact ⟨rfl, rfl, rfl, squares_normalize _, here⟩
    · have set_ : c.tracking.neutralHeadQuat ≠ none := by
        intro unset
        simp [resets, unset] at reset
      obtain ⟨quat, position, neutral⟩ := within.neutral.resolve_left set_
      have range := smoothing_range args
      have yaw := smooth_abs_le range within.yaw (clip_abs_le (radians_nonneg limits.yaw)
        (-Numeric.arctan2 (lookedForward quat (quatNormalizedXyzw pose) 0)
          (-lookedForward quat (quatNormalizedXyzw pose) 2) * args.headYawGain))
      have pitch := smooth_abs_le range within.pitch (clip_abs_le (radians_nonneg limits.pitch)
        (Angles.arcsin (clip (lookedForward quat (quatNormalizedXyzw pose) 1) 1) *
          args.headPitchGain))
      have offset := follow_mem (convex_length (args.offsetLimit reach)) range.1
        (by linarith [range.2]) within.offset (length_wantedOffset base neutral.unit neutral.near here)
      simp only [updateCamera, reset, neutral.quat, neutral.position, neutral.axes]
      constructor
      · refine ⟨yaw, pitch, offset, .inr ⟨quat, position, ?_⟩⟩
        rw [tracking_kept reset]
        exact ⟨neutral.quat, neutral.position, neutral.axes, neutral.unit, neutral.near⟩
      · intro look mem
        rw [if_neg Bool.false_ne_true, List.mem_singleton] at mem
        rw [mem]
        exact lookAt_inView base yaw pitch offset

/-- While the head stays within `reach` of some point, the camera stays near its base, and it looks
    over the distance of its target, within the limits of yaw and pitch about its base direction. -/
theorem camera_in_view (base : Slanted args r heading elevation) (limits : Limits args)
    {poses : List (Option (HeadPose ℝ))}
    (near : ∀ pose, some pose ∈ poses → length (headPosition pose - middle) ≤ reach) :
    ∀ look ∈ (run (updateCamera args) newCamera poses).2,
      InView args r heading elevation reach look := by
  have start : Within args middle reach newCamera :=
    newCamera_within limits reach newTracking (.inl rfl)
  have kept : ∀ (c : Camera ℝ) (past : List (LookAt ℝ)) (latest : Option (HeadPose ℝ)),
      (∀ pose ∈ latest, length (headPosition pose - middle) ≤ reach) →
      (Within args middle reach c ∧ ∀ look ∈ past, InView args r heading elevation reach look) →
      Within args middle reach (updateCamera args c latest).1 ∧
        ∀ look ∈ past ++ (updateCamera args c latest).2,
          InView args r heading elevation reach look := by
    rintro c past latest close ⟨within, before⟩
    obtain ⟨after, now⟩ := update_within base limits within close
    refine ⟨after, fun look mem => ?_⟩
    rcases List.mem_append.mp mem with old | new
    · exact before look old
    · exact now look new
  have good : ∀ latest ∈ poses, ∀ pose ∈ latest, length (headPosition pose - middle) ≤ reach := by
    rintro latest mem pose rfl
    exact near pose mem
  have all := @run_invariant_good _ _ _ (updateCamera args)
    (fun latest => ∀ pose ∈ latest, length (headPosition pose - middle) ≤ reach)
    (fun c past => Within args middle reach c ∧
      ∀ look ∈ past, InView args r heading elevation reach look)
    kept newCamera [] ⟨start, by simp⟩ poses good
  simpa using all.2

end

noncomputable def levelArgs : CameraArgs ℝ :=
  { center := ![0, 0, 1], target := ![1, 0, 1]
    headYawGain := 1, headPitchGain := 1, headPositionGain := 1
    headPositionDeadzoneM := 0.015, headSmoothing := 0.35
    maxHeadYawDeg := 45, maxHeadPitchDeg := 30 }

theorem level_slanted : Slanted levelArgs 1 0 0 := by
  constructor
  · norm_num [small_eq]
  · ext i
    fin_cases i <;> simp [CameraArgs.baseDirection, levelArgs, spherical]
  · norm_num [small_eq]

theorem level_in_view :
    ∃ look ∈ (run (updateCamera levelArgs) newCamera [some uprightHead, none, some uprightHead]).2,
      InView levelArgs 1 0 0 1 look := by
  have limits : Limits levelArgs := ⟨by norm_num [levelArgs], by norm_num [levelArgs]⟩
  have near : ∀ pose, some pose ∈ [some uprightHead, none, some uprightHead] →
      length (headPosition pose - 0) ≤ 1 := by
    intro pose mem
    have same : pose = uprightHead := by simpa using mem
    have zero : headPosition uprightHead - 0 = fun _ => 0 := by
      ext i
      fin_cases i <;> simp [headPosition, uprightHead]
    rw [same, zero]
    simp [length, dotProduct]
  have looks : (run (updateCamera levelArgs) newCamera
      [some uprightHead, none, some uprightHead]).2 ≠ [] := by
    simp [run, updateCamera, updateHeadTrackedCamera, resets, newCamera, newTracking, uprightHead]
  obtain ⟨look, mem⟩ := List.exists_mem_of_ne_nil _ looks
  exact ⟨look, mem, camera_in_view level_slanted limits near look mem⟩

/- A head that is held. -/

structure Held (c : Camera ℝ) (pose : HeadPose ℝ) (q : Quat ℝ) (p : Vec3 ℝ) (axes : Axes ℝ) :
    Prop where
  quat : c.tracking.neutralHeadQuat = some q
  position : c.tracking.neutralHeadPosition = some p
  axes : c.tracking.neutralHeadAxes = some axes
  goesOn : resets c.tracking pose = false

section
variable {args : CameraArgs ℝ} {c : Camera ℝ} {pose : HeadPose ℝ} {q : Quat ℝ} {p : Vec3 ℝ}
  {axes : Axes ℝ}

theorem update_held (held : Held c pose q p axes) :
    Held (updateCamera args c (some pose)).1 pose q p axes ∧
      (updateCamera args c (some pose)).1.filteredYaw =
        follow args.smoothing c.filteredYaw (wantedYaw args q (quatNormalizedXyzw pose)) ∧
      (updateCamera args c (some pose)).1.filteredPitch =
        follow args.smoothing c.filteredPitch (wantedPitch args q (quatNormalizedXyzw pose)) ∧
      (updateCamera args c (some pose)).1.filteredCenterOffset =
        follow args.smoothing c.filteredCenterOffset
          (wantedOffset args p axes (headPosition pose)) := by
  have same := tracking_kept (Bool.not_eq_true _ ▸ held.goesOn)
  simp only [updateCamera, held.goesOn, held.quat, held.position, held.axes]
  refine ⟨⟨?_, ?_, ?_, ?_⟩, rfl, rfl, rfl⟩
  · rw [same]
    exact held.quat
  · rw [same]
    exact held.position
  · rw [same]
    exact held.axes
  · rw [same]
    simp [resets, held.quat]

/-- While the head is held, every update takes the same part of what is left, at most 95 percent,
    of the way of the camera's yaw, pitch and offset to those of the head. -/
theorem camera_settles (held : Held c pose q p axes) (n : ℕ) :
    (0 ≤ args.smoothing ∧ args.smoothing ≤ 0.95) ∧
      (run (updateCamera args) c (List.replicate n (some pose))).1.filteredYaw -
          wantedYaw args q (quatNormalizedXyzw pose) =
        args.smoothing ^ n * (c.filteredYaw - wantedYaw args q (quatNormalizedXyzw pose)) ∧
      (run (updateCamera args) c (List.replicate n (some pose))).1.filteredPitch -
          wantedPitch args q (quatNormalizedXyzw pose) =
        args.smoothing ^ n * (c.filteredPitch - wantedPitch args q (quatNormalizedXyzw pose)) ∧
      (run (updateCamera args) c (List.replicate n (some pose))).1.filteredCenterOffset -
          wantedOffset args p axes (headPosition pose) =
        args.smoothing ^ n •
          (c.filteredCenterOffset - wantedOffset args p axes (headPosition pose)) := by
  refine ⟨smoothing_range args, ?_⟩
  induction n generalizing c with
  | zero => simp [run]
  | succ n ih =>
    obtain ⟨later, yaw, pitch, offset⟩ := @update_held args c pose q p axes held
    obtain ⟨yaws, pitches, offsets⟩ := ih later
    rw [List.replicate_succ, run]
    rw [yaws, pitches, offsets, yaw, pitch, offset, follow_sub, follow_sub, follow_sub, smul_smul,
      smul_eq_mul, smul_eq_mul, pow_succ, mul_assoc, mul_assoc]
    exact ⟨rfl, rfl, rfl⟩

end

noncomputable def neutralCamera : Camera ℝ :=
  (updateCamera levelArgs newCamera (some uprightHead)).1

theorem level_settles :
    (run (updateCamera levelArgs) { neutralCamera with filteredYaw := 1 }
        (List.replicate 3 (some uprightHead))).1.filteredYaw -
          wantedYaw levelArgs (quatNormalizedXyzw uprightHead) (quatNormalizedXyzw uprightHead) =
      levelArgs.smoothing ^ 3 *
        (1 - wantedYaw levelArgs (quatNormalizedXyzw uprightHead)
          (quatNormalizedXyzw uprightHead)) := by
  have held : Held { neutralCamera with filteredYaw := 1 } uprightHead
      (quatNormalizedXyzw uprightHead) (headPosition uprightHead)
      (headAxes (quatNormalizedXyzw uprightHead)) := ⟨rfl, rfl, rfl, rfl⟩
  exact (camera_settles held 3).2.1

end QuestHeadCamera
