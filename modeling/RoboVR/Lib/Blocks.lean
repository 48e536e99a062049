import Mathlib.Tactic

/- Arrays in C order: a list of equal blocks, one behind the other, and blocks of blocks. -/
namespace Blocks

variable {α : Type*}

def block (n i : Nat) (xs : List α) : List α := (xs.drop (i * n)).take n

theorem block_length {n i count : Nat} {xs : List α} (long : xs.length = count * n)
    (inside : i < count) : (block n i xs).length = n := by
  have room : (i + 1) * n ≤ count * n := Nat.mul_le_mul_right n inside
  rw [Nat.succ_mul] at room
  rw [block, List.length_take, List.length_drop, long]
  omega

theorem joined_length {count n : Nat} {f : Nat → List α}
    (each : ∀ i, i < count → (f i).length = n) :
    ((List.range count).flatMap f).length = count * n := by
  induction count with
  | zero => simp
  | succ count ih =>
    have before := ih fun i below => each i (Nat.lt_succ_of_lt below)
    rw [List.range_succ, List.flatMap_append, List.length_append, before,
      List.flatMap_singleton, each count (Nat.lt_succ_self count), Nat.succ_mul]

theorem block_joined {count n : Nat} {f : Nat → List α}
    (each : ∀ i, i < count → (f i).length = n) {i : Nat} (inside : i < count) :
    block n i ((List.range count).flatMap f) = f i := by
  induction count with
  | zero => exact absurd inside (Nat.not_lt_zero i)
  | succ count ih =>
    have shorter : ∀ i, i < count → (f i).length = n :=
      fun i below => each i (Nat.lt_succ_of_lt below)
    have before := joined_length shorter
    rw [List.range_succ, List.flatMap_append, List.flatMap_singleton]
    rcases Nat.lt_succ_iff_lt_or_eq.mp inside with below | rfl
    · have room : (i + 1) * n ≤ count * n := Nat.mul_le_mul_right n below
      rw [Nat.succ_mul] at room
      rw [← ih shorter below, block, block, List.drop_append_of_le_length (by omega),
        List.take_append_of_le_length]
      rw [List.length_drop]
      omega
    · rw [block, List.drop_left' before, List.take_of_length_le]
      exact Nat.le_of_eq (each i inside)

theorem block_block {n w x y : Nat} (inside : x < w) (xs : List α) :
    block n x (block (w * n) y xs) = block n (y * w + x) xs := by
  have room : (x + 1) * n ≤ w * n := Nat.mul_le_mul_right n inside
  rw [Nat.succ_mul] at room
  have place : y * (w * n) + x * n = (y * w + x) * n := by ring
  rw [block, block, block, List.drop_take, List.take_take, List.drop_drop, place,
    Nat.min_eq_left]
  omega

end Blocks
