import RoboVR.Lib.DecimalText

/- Binary floating-point values: what the bits of one stand for, how it is printed, and the
   value nearest to a decimal number. -/
namespace BinaryFloat
open DecimalText

/-- A value is `mantissa * 2 ^ exponent` when it is finite. -/
inductive Binary where
  | nan (negative : Bool)
  | infinite (negative : Bool)
  | finite (negative : Bool) (mantissa : Nat) (exponent : Int)
  deriving DecidableEq

def Binary.isFinite : Binary → Bool
  | .finite .. => true
  | _ => false

structure Format where
  precision : Nat
  least : Int
  overflow : Nat

def binary64 : Format := { precision := 53, least := -1074, overflow := 1024 }

/-- A 32-bit float with its bits: sign, 8 bits of exponent, 23 bits of fraction. -/
def ofBits32 (bits : UInt32) : Binary :=
  let negative := decide (2 ^ 31 ≤ bits.toNat)
  let exponent : Nat := bits.toNat / 2 ^ 23 % 2 ^ 8
  let fraction : Nat := bits.toNat % 2 ^ 23
  if exponent = 255 then if fraction = 0 then .infinite negative else .nan negative
  else if exponent = 0 then .finite negative fraction (-149)
  else .finite negative (fraction + 2 ^ 23) ((exponent : Int) - 150)

def signed (negative : Bool) (magnitude : Nat) : Int := if negative then -magnitude else magnitude

/-- `a >= b`. A NaN compares with nothing; two finite values at their lesser exponent. -/
def Binary.ge : Binary → Binary → Bool
  | .nan _, _ | _, .nan _ => false
  | .infinite negative, b => !negative || b == .infinite true
  | .finite .., .infinite negative => negative
  | .finite negative mantissa exponent, .finite negative' mantissa' exponent' =>
    let least := min exponent exponent'
    signed negative' (mantissa' * 2 ^ (exponent' - least).toNat) ≤
      signed negative (mantissa * 2 ^ (exponent - least).toNat)

def scaled (mantissa : Nat) (exponent : Int) (factor : Nat) : Nat :=
  roundHalfEven (mantissa * factor * 2 ^ exponent.toNat) (2 ^ (-exponent).toNat)

def signText (negative : Bool) : List Char := if negative then ['-'] else []

def printFixed (signedNan : Bool) (digits : Nat) : Binary → List Char
  | .nan negative => signText (negative && signedNan) ++ ['n', 'a', 'n']
  | .infinite negative => signText negative ++ ['i', 'n', 'f']
  | .finite negative mantissa exponent =>
    signText negative ++ fixedPoint digits (scaled mantissa exponent (10 ^ digits))

def leading (num den : Nat) : Int :=
  let guess := (num.log2 : Int) - den.log2
  if num * 2 ^ (-guess).toNat < den * 2 ^ guess.toNat then guess - 1 else guess

/-- The value of a format nearest to `num / den`, halves to the even mantissa. -/
def nearest (format : Format) (negative : Bool) (num den : Nat) : Binary :=
  if num = 0 then .finite negative 0 0
  else
    let exponent := max (leading num den - (format.precision - 1)) format.least
    let mantissa := roundHalfEven (num * 2 ^ (-exponent).toNat) (den * 2 ^ exponent.toNat)
    if mantissa * 2 ^ exponent.toNat ≥ 2 ^ format.overflow * 2 ^ (-exponent).toNat then
      .infinite negative
    else .finite negative mantissa exponent

def ofDecimal (format : Format) (negative : Bool) (digits : Nat) (exponent : Int) : Binary :=
  nearest format negative (digits * 10 ^ exponent.toNat) (10 ^ (-exponent).toNat)

theorem ofBits32_small {bits : UInt32} {negative : Bool} {mantissa : Nat} {exponent : Int}
    (finite : ofBits32 bits = .finite negative mantissa exponent) :
    mantissa < 2 ^ 24 ∧ exponent ≤ 104 := by
  unfold ofBits32 at finite
  simp only at finite
  split at finite
  · split at finite <;> simp at finite
  · have fraction : bits.toNat % 2 ^ 23 < 2 ^ 23 := Nat.mod_lt _ (by decide)
    have top : bits.toNat / 2 ^ 23 % 2 ^ 8 < 2 ^ 8 := Nat.mod_lt _ (by decide)
    split at finite
    · simp only [Binary.finite.injEq] at finite
      omega
    · simp only [Binary.finite.injEq] at finite
      omega

theorem scaled_small {mantissa : Nat} {exponent : Int} {digits : Nat} (positive : 0 < digits)
    (small : mantissa < 2 ^ 24) (bounded : exponent ≤ 104) :
    scaled mantissa exponent (10 ^ digits) / 10 ^ digits < 10 ^ 39 := by
  have unit : 1 < 10 ^ digits := Nat.one_lt_pow (by omega) (by decide)
  rw [Nat.div_lt_iff_lt_mul (by omega)]
  unfold scaled
  by_cases whole : 0 ≤ exponent
  · have power : 2 ^ exponent.toNat ≤ 2 ^ 104 := Nat.pow_le_pow_right (by decide) (by omega)
    have none_ : (-exponent).toNat = 0 := by omega
    rw [none_, Nat.pow_zero, roundHalfEven_one]
    calc
      mantissa * 10 ^ digits * 2 ^ exponent.toNat
        ≤ 2 ^ 24 * 10 ^ digits * 2 ^ 104 := by gcongr
      _ < 10 ^ 39 * 10 ^ digits := by
        have : (2 : Nat) ^ 24 * 2 ^ 104 < 10 ^ 39 := by norm_num
        nlinarith
  · have none_ : exponent.toNat = 0 := by omega
    rw [none_, Nat.pow_zero, Nat.mul_one]
    calc
      roundHalfEven (mantissa * 10 ^ digits) (2 ^ (-exponent).toNat)
        ≤ mantissa * 10 ^ digits / 2 ^ (-exponent).toNat + 1 := roundHalfEven_le _ _
      _ ≤ mantissa * 10 ^ digits + 1 := Nat.add_le_add_right (Nat.div_le_self _ _) 1
      _ < 10 ^ 39 * 10 ^ digits := by
        have : (2 : Nat) ^ 24 + 1 < 10 ^ 39 := by norm_num
        nlinarith

/- How large the nearest value can be. -/

theorem toNat_zpow (e : Int) : (2 : ℝ) ^ e.toNat = 2 ^ e * 2 ^ (-e).toNat := by
  rcases le_total 0 e with up | down
  · obtain ⟨n, rfl⟩ := Int.eq_ofNat_of_zero_le up
    simp
  · obtain ⟨n, rfl⟩ := Int.exists_eq_neg_ofNat down
    simp

theorem below_leading (num : Nat) {den : Nat} (some_ : den ≠ 0) :
    (num : ℝ) < den * 2 ^ (leading num den + 1) := by
  unfold leading
  simp only
  split
  · next less =>
    have cast : (num : ℝ) * 2 ^ (-((num.log2 : Int) - den.log2)).toNat <
        den * 2 ^ ((num.log2 : Int) - den.log2).toNat := by exact_mod_cast less
    rw [toNat_zpow ((num.log2 : Int) - den.log2), ← mul_assoc,
      mul_lt_mul_iff_left₀ (by positivity)] at cast
    rwa [sub_add_cancel]
  · have high : (num : ℝ) < 2 ^ (num.log2 + 1) := by exact_mod_cast Nat.lt_log2_self
    have low : (2 : ℝ) ^ den.log2 ≤ den := by exact_mod_cast Nat.log2_self_le some_
    calc
      (num : ℝ) < 2 ^ (num.log2 + 1) := high
      _ = 2 ^ den.log2 * 2 ^ ((num.log2 : Int) - den.log2 + 1) := by
        rw [← zpow_natCast, ← zpow_natCast, ← zpow_add₀ two_ne_zero]
        congr 1
        push_cast
        ring
      _ ≤ den * 2 ^ ((num.log2 : Int) - den.log2 + 1) := by gcongr

theorem leading_le (num den : Nat) : leading num den ≤ num.log2 := by
  unfold leading
  simp only
  split <;> omega

theorem nearest_finite {format : Format} {negative sign : Bool} {num den mantissa : Nat}
    {exponent : Int} (some_ : den ≠ 0)
    (finite : nearest format negative num den = .finite sign mantissa exponent) :
    mantissa ≤ 2 ^ format.precision ∧
      exponent ≤ max 0 (max ((num.log2 : Int) - (format.precision - 1)) format.least) := by
  unfold nearest at finite
  split at finite
  · simp only [Binary.finite.injEq] at finite
    obtain ⟨_, rfl, rfl⟩ := finite
    simp
  · simp only at finite
    split at finite
    · simp at finite
    · simp only [Binary.finite.injEq] at finite
      obtain ⟨_, rfl, rfl⟩ := finite
      have top := leading_le num den
      generalize chosen : max (leading num den - ((format.precision : Int) - 1)) format.least = e
      have above : leading num den + 1 ≤ e + format.precision := by omega
      refine ⟨?_, by omega⟩
      refine (roundHalfEven_le _ _).trans ?_
      rw [Nat.add_one_le_iff, Nat.div_lt_iff_lt_mul (by positivity)]
      have real : (num : ℝ) * 2 ^ (-e).toNat < 2 ^ format.precision * (den * 2 ^ e.toNat) := by
        have bound := below_leading num some_
        calc
          (num : ℝ) * 2 ^ (-e).toNat < den * 2 ^ (leading num den + 1) * 2 ^ (-e).toNat := by gcongr
          _ ≤ den * 2 ^ (e + format.precision) * 2 ^ (-e).toNat := by
            gcongr
            norm_num
          _ = 2 ^ format.precision * (den * 2 ^ e.toNat) := by
            rw [toNat_zpow e, zpow_add₀ two_ne_zero, zpow_natCast]
            ring
      exact_mod_cast real

end BinaryFloat
