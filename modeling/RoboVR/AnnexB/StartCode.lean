import RoboVR.Lib.Delimited

/- Annex-B start codes as `video.py` finds them, and the stream of NAL units they delimit.
   Bytes are `UInt8`, `bytes` and `bytearray` both lists of them. Offsets are never
   negative at a call, so the guards for that and for swapped arguments are left out. -/
namespace AnnexBStartCode
open Delimited

abbrev Bytes := List UInt8

def startCodeSize (data : Bytes) (offset : Nat) : Nat :=
  if offset + 3 ≤ data.length ∧ (data.drop offset).take 3 = [0, 0, 1] then 3
  else if offset + 4 ≤ data.length ∧ (data.drop offset).take 4 = [0, 0, 0, 1] then 4
  else 0

/-- `_find_start_code`, with `none` for -1. -/
def findStartCode (data : Bytes) (offset : Nat) : Option Nat :=
  (List.range' offset (max offset (data.length - 2) - offset)).find? fun i =>
    startCodeSize data i != 0

def headCode : Bytes → Nat
  | 0 :: 0 :: 1 :: _ => 3
  | 0 :: 0 :: 0 :: 1 :: _ => 4
  | _ => 0

inductive HeadCode : Bytes → Nat → Prop where
  | three (rest : Bytes) : HeadCode (0 :: 0 :: 1 :: rest) 3
  | four (rest : Bytes) : HeadCode (0 :: 0 :: 0 :: 1 :: rest) 4

theorem headCode_cases (xs : Bytes) : headCode xs = 0 ∨ HeadCode xs (headCode xs) := by
  unfold headCode
  split
  · exact Or.inr (HeadCode.three _)
  · exact Or.inr (HeadCode.four _)
  · exact Or.inl rfl

theorem headCode_shape {xs : Bytes} (marked : headCode xs ≠ 0) : HeadCode xs (headCode xs) :=
  (headCode_cases xs).resolve_left marked

theorem headCode_size {xs : Bytes} (marked : headCode xs ≠ 0) :
    headCode xs = 3 ∨ headCode xs = 4 := by
  cases headCode_shape marked <;> simp [headCode]

theorem headCode_length (xs : Bytes) : headCode xs ≤ xs.length := by
  rcases headCode_cases xs with none | shape
  · omega
  · cases shape <;> simp [headCode]

theorem headCode_append {xs : Bytes} (ys : Bytes) (marked : headCode xs ≠ 0) :
    headCode (xs ++ ys) = headCode xs := by
  cases headCode_shape marked <;> simp [headCode]

theorem headCode_whole {xs ys : Bytes} (inside : headCode (xs ++ ys) ≤ xs.length)
    (marked : headCode (xs ++ ys) ≠ 0) : headCode xs = headCode (xs ++ ys) := by
  have shape := headCode_shape marked
  generalize headCode (xs ++ ys) = n at *
  match xs, inside with
  | [], inside => simp at inside; omega
  | [a], inside => cases shape <;> simp at inside
  | [a, b], inside => cases shape <;> simp at inside
  | [a, b, c], inside =>
    cases shape
    · rfl
    · simp at inside
  | a :: b :: c :: e :: xs, _ => cases shape <;> rfl

/-- Four bytes decide whether a start code begins here. -/
theorem headCode_settled {xs : Bytes} (ys : Bytes) (plain : headCode xs = 0)
    (seen : 4 ≤ xs.length) : headCode (xs ++ ys) = 0 := by
  match xs, seen with
  | a :: b :: c :: e :: xs, _ =>
    rcases headCode_cases (a :: b :: c :: e :: xs ++ ys) with none | shape
    · exact none
    · simp only [List.cons_append] at shape
      generalize headCode (a :: b :: c :: e :: (xs ++ ys)) = n at shape
      cases shape <;> simp [headCode] at plain

theorem headCode_overlap {pre xs : Bytes} (inside : pre.length < headCode (pre ++ xs))
    (marked : headCode xs ≠ 0) : pre.length + headCode xs = headCode (pre ++ xs) := by
  have outer : HeadCode (pre ++ xs) _ := headCode_shape (by omega)
  have inner := headCode_shape marked
  generalize headCode (pre ++ xs) = n at *
  generalize headCode xs = m at *
  -- a code inside another: at its head, or after the first zero of a four-byte one
  match pre with
  | [] =>
    cases inner <;> cases outer <;> rfl
  | [a] =>
    cases inner <;> cases outer
    rfl
  | [a, b] =>
    cases inner <;> simp at outer
    all_goals cases outer
  | [a, b, c] =>
    cases inner <;> simp at outer
    all_goals cases outer
    all_goals simp at inside
  | a :: b :: c :: e :: pre =>
    simp only [List.length_cons] at inside
    cases outer <;> omega

def startCode : Delimiter UInt8 where
  mark := headCode
  mark_le_length := headCode_length
  stable xs ys marked := headCode_append ys marked
  settled pre xs ys nonempty plain marked := by
    rw [← List.append_assoc]
    apply headCode_settled ys plain
    have short := headCode_size marked
    have bound := headCode_length xs
    have some_ := List.length_pos_of_ne_nil nonempty
    simp only [List.length_append]
    omega
  overlap pre xs inside marked := headCode_overlap inside marked

@[simp] theorem startCode_mark (xs : Bytes) : startCode.mark xs = headCode xs := rfl

theorem take_three_iff (xs : Bytes) :
    3 ≤ xs.length ∧ xs.take 3 = [0, 0, 1] ↔ ∃ rest, xs = 0 :: 0 :: 1 :: rest := by
  match xs with
  | [] => simp
  | [a] => simp
  | [a, b] => simp
  | a :: b :: c :: xs => simp

theorem take_four_iff (xs : Bytes) :
    4 ≤ xs.length ∧ xs.take 4 = [0, 0, 0, 1] ↔ ∃ rest, xs = 0 :: 0 :: 0 :: 1 :: rest := by
  match xs with
  | [] => simp
  | [a] => simp
  | [a, b] => simp
  | [a, b, c] => simp
  | a :: b :: c :: e :: xs => simp

theorem startCodeSize_eq (data : Bytes) (offset : Nat) :
    startCodeSize data offset = headCode (data.drop offset) := by
  have three : (offset + 3 ≤ data.length ∧ (data.drop offset).take 3 = [0, 0, 1]) ↔
      ∃ rest, data.drop offset = 0 :: 0 :: 1 :: rest := by
    rw [← take_three_iff, List.length_drop]
    exact and_congr_left' (by omega)
  have four : (offset + 4 ≤ data.length ∧ (data.drop offset).take 4 = [0, 0, 0, 1]) ↔
      ∃ rest, data.drop offset = 0 :: 0 :: 0 :: 1 :: rest := by
    rw [← take_four_iff, List.length_drop]
    exact and_congr_left' (by omega)
  unfold startCodeSize
  split_ifs with h3 h4
  · obtain ⟨rest, eq⟩ := three.mp h3
    rw [eq, headCode]
  · obtain ⟨rest, eq⟩ := four.mp h4
    rw [eq, headCode]
  · refine ((headCode_cases (data.drop offset)).resolve_right fun shape => ?_).symm
    generalize headCode (data.drop offset) = n at shape
    generalize data.drop offset = xs at *
    cases shape with
    | three rest => exact h3 (three.mpr ⟨rest, rfl⟩)
    | four rest => exact h4 (four.mpr ⟨rest, rfl⟩)

@[simp] theorem startCodeSize_zero (data : Bytes) : startCodeSize data 0 = headCode data := by
  rw [startCodeSize_eq, List.drop_zero]

theorem findStartCode_eq (data : Bytes) (offset : Nat) :
    findStartCode data offset =
      (startCode.seek (data.drop offset)).map fun c => offset + c.1.length := by
  cases found : startCode.seek (data.drop offset) with
  | none =>
    rw [Option.map_none, findStartCode, List.find?_eq_none]
    intro i _
    have plain := (seek_none_iff startCode).mp found
    rcases Nat.lt_or_ge i offset with before | after
    · rename_i inRange; simp only [List.mem_range'_1] at inRange; omega
    · have := plain ((data.drop offset).take (i - offset)) (data.drop i) (by
        rw [← Nat.add_sub_cancel' after, ← List.drop_drop, Nat.add_sub_cancel_left,
          List.take_append_drop])
      simp [startCodeSize_eq, ← startCode_mark, this]
  | some c =>
    obtain ⟨pre, rest⟩ := c
    obtain ⟨split, here, earlier⟩ := seek_some startCode found
    have at_ : data.drop (offset + pre.length) = rest := by
      rw [← List.drop_drop, split, List.drop_left]
    have long : 3 ≤ rest.length := by
      have size := headCode_size here
      have bound := headCode_length rest
      omega
    have total : data.length - offset = pre.length + rest.length := by
      rw [← List.length_drop, split, List.length_append]
    rw [Option.map_some, findStartCode, List.find?_range'_eq_some]
    refine ⟨?_, ?_, ?_⟩
    · simpa [startCodeSize_eq, at_] using here
    · simp only [List.mem_range'_1]; omega
    · intro j low high
      have within : j - offset < pre.length := by simp only at high; omega
      have gap : data.drop j = pre.drop (j - offset) ++ rest := by
        rw [← Nat.add_sub_cancel' low, ← List.drop_drop, split,
          List.drop_append_of_le_length (by omega), Nat.add_sub_cancel_left]
      have := earlier (pre.take (j - offset)) (pre.drop (j - offset))
        (by rw [List.take_append_drop]) (by simpa using within)
      simp only [startCode_mark] at this
      simp [startCodeSize_eq, gap, this]

end AnnexBStartCode
