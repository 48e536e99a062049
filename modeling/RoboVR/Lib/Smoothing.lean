import RoboVR.Lib.Rotations

/- A value that follows its targets: each round it goes a part of the way to the newest one. -/
namespace Smoothing

section
variable {E : Type} [AddCommGroup E] [Module ℝ E]

def follow (s : ℝ) (x target : E) : E := s • x + (1 - s) • target

/-- It stays in a convex set that its targets are in. -/
theorem follow_mem {s : ℝ} {K : Set E} (convex : Convex ℝ K) (nonneg : 0 ≤ s) (small : s ≤ 1)
    {x target : E} (inside : x ∈ K) (aim : target ∈ K) : follow s x target ∈ K :=
  convex inside aim nonneg (sub_nonneg.mpr small) (add_sub_cancel s 1)

theorem follow_sub (s : ℝ) (x target : E) : follow s x target - target = s • (x - target) := by
  unfold follow
  module

end

/- Vectors of three entries. -/
open Rotations

theorem length_eq_norm (v : Fin 3 → ℝ) : length v = ‖WithLp.toLp 2 v‖ := by
  rw [EuclideanSpace.norm_eq, length, dotProduct]
  simp only [Real.norm_eq_abs, sq_abs]
  simp only [pow_two]

theorem length_add_le (v w : Fin 3 → ℝ) : length (v + w) ≤ length v + length w := by
  simp only [length_eq_norm, WithLp.toLp_add]
  exact norm_add_le _ _

theorem length_sub_comm (v w : Fin 3 → ℝ) : length (v - w) = length (w - v) := by
  simp only [length_eq_norm, WithLp.toLp_sub]
  exact norm_sub_rev _ _

theorem convex_length (bound : ℝ) : Convex ℝ {v : Fin 3 → ℝ | length v ≤ bound} := by
  intro v inside w within a b nonneg positive sum
  have scaled := length_add_le (a • v) (b • w)
  rw [length_smul nonneg, length_smul positive] at scaled
  have first := mul_le_mul_of_nonneg_left inside nonneg
  have second := mul_le_mul_of_nonneg_left within positive
  have whole : a * bound + b * bound = bound := by rw [← add_mul, sum, one_mul]
  change length (a • v + b • w) ≤ bound
  linarith

end Smoothing
