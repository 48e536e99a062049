import Mathlib

/- Decimal numbers as text: printing with a fixed number of fraction digits, and what a reader
   of digits gets back. -/
namespace DecimalText

/-- `num / den`, to the nearest integer, halves to the even one. -/
def roundHalfEven (num den : Nat) : Nat :=
  let quotient := num / den
  let twice := 2 * (num % den)
  if twice > den ∨ (twice = den ∧ quotient % 2 = 1) then quotient + 1 else quotient

def padded (width n : Nat) : List Char :=
  List.replicate (width - (Nat.toDigits 10 n).length) '0' ++ Nat.toDigits 10 n

def fixedPoint (digits n : Nat) : List Char :=
  Nat.toDigits 10 (n / 10 ^ digits) ++ '.' :: padded digits (n % 10 ^ digits)

def AllDigits (text : List Char) : Prop := ∀ c ∈ text, c.isDigit = true

theorem toDigits_digits (n : Nat) : AllDigits (Nat.toDigits 10 n) := fun _ mem =>
  Nat.isDigit_of_mem_toDigits (by decide) (by decide) mem

theorem toDigits_short {n width : Nat} (positive : 0 < width) (small : n < 10 ^ width) :
    (Nat.toDigits 10 n).length ≤ width :=
  (Nat.length_toDigits_le_iff (by decide) positive).mpr small

theorem padded_digits (width n : Nat) : AllDigits (padded width n) := by
  intro c mem
  rcases List.mem_append.mp mem with zero | digit
  · rw [List.eq_of_mem_replicate zero]
    rfl
  · exact toDigits_digits n c digit

theorem padded_length {width n : Nat} (positive : 0 < width) (small : n < 10 ^ width) :
    (padded width n).length = width := by
  have bound := toDigits_short positive small
  rw [padded, List.length_append, List.length_replicate]
  omega

theorem padded_read (width n : Nat) : Nat.ofDigitChars 10 (padded width n) 0 = n := by
  rw [padded, Nat.ofDigitChars_append, Nat.ofDigitChars_replicate_zero, Nat.mul_zero,
    Nat.ofDigitChars_toDigits (by decide) (by decide)]

theorem fixedPoint_length {digits n width : Nat} (positive : 0 < digits) (some_ : 0 < width)
    (small : n / 10 ^ digits < 10 ^ width) : (fixedPoint digits n).length ≤ width + 1 + digits := by
  have whole := toDigits_short some_ small
  have fraction := padded_length positive (Nat.mod_lt n (Nat.pow_pos (by decide : 0 < 10)))
  rw [fixedPoint, List.length_append, List.length_cons, fraction]
  omega

theorem fixedPoint_read {digits : Nat} (positive : 0 < digits) (n : Nat) :
    Nat.ofDigitChars 10 (Nat.toDigits 10 (n / 10 ^ digits) ++ padded digits (n % 10 ^ digits)) 0 =
      n := by
  have fraction := padded_length positive (Nat.mod_lt n (Nat.pow_pos (by decide : 0 < 10)))
  rw [Nat.ofDigitChars_append, Nat.ofDigitChars_toDigits (by decide) (by decide),
    Nat.ofDigitChars_eq_ofDigitChars_zero, padded_read, fraction]
  exact Nat.div_add_mod n _

theorem roundHalfEven_le (num den : Nat) : roundHalfEven num den ≤ num / den + 1 := by
  unfold roundHalfEven
  simp only
  split <;> omega

theorem roundHalfEven_one (num : Nat) : roundHalfEven num 1 = num := by
  simp [roundHalfEven, Nat.mod_one]

end DecimalText
