import Mathlib

/- Rotation vectors, and what a change of frame does to them: under a reflection a rotation vector
   turns around, a displacement does not. -/
namespace Rotations
open Matrix

noncomputable def length (v : Fin 3 → ℝ) : ℝ := Real.sqrt (v ⬝ᵥ v)

/-- The rotation about the direction of `w` by its length. -/
noncomputable def rotate (w v : Fin 3 → ℝ) : Fin 3 → ℝ :=
  Real.cos (length w) • v + (Real.sin (length w) / length w) • crossProduct w v +
    ((1 - Real.cos (length w)) / (length w * length w) * (w ⬝ᵥ v)) • w

theorem length_mul_self (v : Fin 3 → ℝ) : length v * length v = v ⬝ᵥ v :=
  Real.mul_self_sqrt (Finset.sum_nonneg fun i _ => mul_self_nonneg (v i))

theorem length_smul_self {c : ℝ} (unit : c * c = 1) (v : Fin 3 → ℝ) :
    length (c • v) = length v := by
  simp only [length, smul_dotProduct, dotProduct_smul, smul_eq_mul]
  rw [← mul_assoc, unit, one_mul]

theorem length_smul {c : ℝ} (positive : 0 ≤ c) (v : Fin 3 → ℝ) :
    length (c • v) = c * length v := by
  simp only [length, smul_dotProduct, dotProduct_smul, smul_eq_mul]
  rw [← mul_assoc, Real.sqrt_mul (mul_self_nonneg c), Real.sqrt_mul_self positive]

theorem half_angle {w s : ℝ} (turned : 0 < s) (unit : w * w + s * s = 1) :
    0 < Complex.arg ⟨w, s⟩ ∧ Real.cos (Complex.arg ⟨w, s⟩) = w ∧
      Real.sin (Complex.arg ⟨w, s⟩) = s := by
  have norm : ‖(⟨w, s⟩ : ℂ)‖ = 1 := by
    rw [Complex.norm_def, Complex.normSq_mk, unit, Real.sqrt_one]
  have nonzero : (⟨w, s⟩ : ℂ) ≠ 0 := norm_pos_iff.mp (norm.symm ▸ one_pos)
  have sin : Real.sin (Complex.arg ⟨w, s⟩) = s := by
    rw [Complex.sin_arg, norm, div_one]
  constructor
  · by_contra below
    have reversed := Real.sin_nonpos_of_nonpos_of_neg_pi_le (not_lt.mp below)
      (Complex.neg_pi_lt_arg ⟨w, s⟩).le
    linarith
  · constructor
    · rw [Complex.cos_arg nonzero, norm, div_one]
    · exact sin

/-- The rotation vector of a quaternion `(u, w)` of norm one rotates as the quaternion does. -/
theorem rotate_half {u : Fin 3 → ℝ} {w : ℝ} (turned : 0 < length u)
    (unit : w * w + length u * length u = 1) (v : Fin 3 → ℝ) :
    rotate ((2 * Complex.arg ⟨w, length u⟩ / length u) • u) v =
      (w * w - length u * length u) • v + (2 * w) • crossProduct u v +
        (2 * (u ⬝ᵥ v)) • u := by
  obtain ⟨positive, cos, sin⟩ := half_angle turned unit
  generalize named : length u = s at turned unit positive cos sin ⊢
  generalize Complex.arg ⟨w, s⟩ = half at positive cos sin ⊢
  have angle : length ((2 * half / s) • u) = 2 * half := by
    rw [length_smul (by positivity), named, div_mul_cancel₀ _ turned.ne']
  have double : 2 * w ^ 2 - 1 = w * w - s * s := by linear_combination unit
  have versine : 1 - (w * w - s * s) = 2 * s * s := by linear_combination -unit
  simp only [rotate, angle, Real.cos_two_mul, Real.sin_two_mul, cos, sin, map_smul,
    LinearMap.smul_apply, smul_dotProduct, smul_smul, smul_eq_mul, double, versine]
  congr 1
  · congr 2
    field_simp
  · congr 1
    field_simp

theorem transpose_mulVec_cross (M : Matrix (Fin 3) (Fin 3) ℝ) (v w : Fin 3 → ℝ) :
    Mᵀ *ᵥ crossProduct (M *ᵥ v) (M *ᵥ w) = M.det • crossProduct v w := by
  ext i
  fin_cases i <;>
    simp [mulVec, dotProduct, Fin.sum_univ_three, cross_apply, det_fin_three] <;> ring

section Orthogonal
variable {M : Matrix (Fin 3) (Fin 3) ℝ} (orthogonal : M * Mᵀ = 1)
include orthogonal

theorem transpose_mul : Mᵀ * M = 1 := mul_eq_one_comm.mp orthogonal

theorem mulVec_transpose_mulVec (v : Fin 3 → ℝ) : M *ᵥ (Mᵀ *ᵥ v) = v := by
  rw [mulVec_mulVec, orthogonal, one_mulVec]

theorem transpose_mulVec_mulVec (v : Fin 3 → ℝ) : Mᵀ *ᵥ (M *ᵥ v) = v := by
  rw [mulVec_mulVec, transpose_mul orthogonal, one_mulVec]

theorem det_mul_det : M.det * M.det = 1 := by
  have product := congrArg det orthogonal
  rwa [det_mul, det_transpose, det_one] at product

theorem dotProduct_mulVec_mulVec (v w : Fin 3 → ℝ) : (M *ᵥ v) ⬝ᵥ (M *ᵥ w) = v ⬝ᵥ w := by
  rw [dotProduct_mulVec, ← mulVec_transpose, transpose_mulVec_mulVec orthogonal]

theorem length_mulVec (v : Fin 3 → ℝ) : length (M *ᵥ v) = length v := by
  rw [length, dotProduct_mulVec_mulVec orthogonal, length]

theorem cross_mulVec (v w : Fin 3 → ℝ) :
    crossProduct (M *ᵥ v) (M *ᵥ w) = M.det • M *ᵥ crossProduct v w := by
  have pulled := congrArg (M *ᵥ ·) (transpose_mulVec_cross M v w)
  simpa only [mulVec_transpose_mulVec orthogonal, mulVec_smul] using pulled

theorem rotate_mulVec (w v : Fin 3 → ℝ) :
    rotate (M.det • M *ᵥ w) (M *ᵥ v) = M *ᵥ rotate w v := by
  have unit := det_mul_det orthogonal
  have sameLength : length (M.det • M *ᵥ w) = length w := by
    rw [length_smul_self unit, length_mulVec orthogonal]
  have cross : crossProduct (M.det • M *ᵥ w) (M *ᵥ v) = M *ᵥ crossProduct w v := by
    rw [map_smul, LinearMap.smul_apply, cross_mulVec orthogonal, smul_smul, unit, one_smul]
  have along : ((M.det • M *ᵥ w) ⬝ᵥ (M *ᵥ v)) • (M.det • M *ᵥ w) = (w ⬝ᵥ v) • M *ᵥ w := by
    rw [smul_dotProduct, dotProduct_mulVec_mulVec orthogonal, smul_eq_mul, smul_smul, mul_right_comm,
      unit, one_mul]
  simp only [rotate, sameLength, cross, mul_smul, along, mulVec_add, mulVec_smul]

theorem rotate_conjugate (w v : Fin 3 → ℝ) :
    rotate (M.det • M *ᵥ w) v = M *ᵥ rotate w (Mᵀ *ᵥ v) := by
  rw [← rotate_mulVec orthogonal, mulVec_transpose_mulVec orthogonal]

/-- The plain image is the right rotation vector for no reflection, and for no rotation. -/
theorem mulVec_eq_det_smul_iff (w : Fin 3 → ℝ) :
    M *ᵥ w = M.det • M *ᵥ w ↔ M.det = 1 ∨ w = 0 := by
  constructor
  · intro same
    by_cases reflects : M.det = 1
    · exact .inl reflects
    · right
      have scaled : (M.det - 1) • M *ᵥ w = 0 := by
        rw [sub_smul, one_smul, ← same, sub_self]
      have image : M *ᵥ w = 0 := (smul_eq_zero.mp scaled).resolve_left (sub_ne_zero.mpr reflects)
      rw [← transpose_mulVec_mulVec orthogonal w, image, mulVec_zero]
  · rintro (proper | rfl)
    · rw [proper, one_smul]
    · rw [mulVec_zero, smul_zero]

end Orthogonal

end Rotations
