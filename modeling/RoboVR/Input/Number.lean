import RoboVR.Input.KeyValue
import RoboVR.Lib.BinaryFloat

/- Python's `float` and `int` of a string, as far as the parse helpers use them: either may
   raise ValueError, and nothing else. -/
namespace QuestNumber
open QuestKeyValue DecimalText BinaryFloat

inductive PyError where
  | valueError
  | keyError
  deriving DecidableEq

abbrev Float64 := Binary

/-- The first of each ten decimal digits of Unicode 14. -/
def digitZeros : List Nat :=
  [0x30, 0x660, 0x6F0, 0x7C0, 0x966, 0x9E6, 0xA66, 0xAE6, 0xB66, 0xBE6, 0xC66, 0xCE6, 0xD66,
    0xDE6, 0xE50, 0xED0, 0xF20, 0x1040, 0x1090, 0x17E0, 0x1810, 0x1946, 0x19D0, 0x1A80, 0x1A90,
    0x1B50, 0x1BB0, 0x1C40, 0x1C50, 0xA620, 0xA8D0, 0xA900, 0xA9D0, 0xA9F0, 0xAA50, 0xABF0,
    0xFF10, 0x104A0, 0x10D30, 0x11066, 0x110F0, 0x11136, 0x111D0, 0x112F0, 0x11450, 0x114D0,
    0x11650, 0x116C0, 0x11730, 0x118E0, 0x11950, 0x11C50, 0x11D50, 0x11DA0, 0x16A60, 0x16AC0,
    0x16B50, 0x1D7CE, 0x1D7D8, 0x1D7E2, 0x1D7EC, 0x1D7F6, 0x1E140, 0x1E2F0, 0x1E950, 0x1FBF0]

/-- Digits and spaces of other scripts become ASCII; other characters break the number. -/
def toAsciiChar (c : Char) : Char :=
  if c.toNat < 128 then c
  else if isSpace c then ' '
  else
    match digitZeros.find? fun first => first ≤ c.toNat ∧ c.toNat < first + 10 with
    | some first => Nat.digitChar (c.toNat - first)
    | none => '?'

def isCSpace (c : Char) : Bool := (9 ≤ c.toNat && c.toNat ≤ 13) || c.toNat == 32

def toAscii (text : Str) : Str :=
  ((text.map toAsciiChar).dropWhile isCSpace).rdropWhile isCSpace

def takeSign : Str → Bool × Str
  | '+' :: text => (false, text)
  | '-' :: text => (true, text)
  | text => (false, text)

/-- Without its underscores, each of which must stand between two digits. -/
def dropUnderscores : Option Char → Str → Option Str
  | _, [] => some []
  | previous, '_' :: text =>
    if (previous.map Char.isDigit).getD false && (text.head?.map Char.isDigit).getD false then
      dropUnderscores none text
    else none
  | _, c :: text => (dropUnderscores (some c) text).map (c :: ·)

def readExponent : Str → Option Int
  | [] => some 0
  | c :: text =>
    if c = 'e' ∨ c = 'E' then
      let signed := takeSign text
      if signed.2 ≠ [] ∧ signed.2.all Char.isDigit then
        let n : Int := Nat.ofDigitChars 10 signed.2 0
        some (if signed.1 then -n else n)
      else none
    else none

def readFraction : Str → Str × Str
  | '.' :: text => (text.takeWhile Char.isDigit, text.dropWhile Char.isDigit)
  | text => ([], text)

def readDecimal (negative : Bool) (text : Str) : Option Float64 :=
  let whole := text.takeWhile Char.isDigit
  let fraction := readFraction (text.dropWhile Char.isDigit)
  if whole = [] ∧ fraction.1 = [] then none
  else
    (readExponent fraction.2).map fun exponent =>
      ofDecimal binary64 negative (Nat.ofDigitChars 10 (whole ++ fraction.1) 0)
        (exponent - fraction.1.length)

def readFloat (text : Str) : Option Float64 :=
  let signed := takeSign text
  let lower := signed.2.map Char.toLower
  if lower = "inf".toList ∨ lower = "infinity".toList then some (.infinite signed.1)
  else if lower = "nan".toList then some (.nan signed.1)
  else readDecimal signed.1 signed.2

/-- `float(text)`. -/
def pyFloat (text : Str) : Except PyError Float64 :=
  match (dropUnderscores none (toAscii text)).bind readFloat with
  | some value => .ok value
  | none => .error .valueError

def digitValue (c : Char) : Nat :=
  if c.isDigit then c.toNat - 48
  else if c.isLower then c.toNat - 87
  else if c.isUpper then c.toNat - 55
  else 37

def readDigits (base : Nat) : Option Nat → Str → Option Nat
  | read, [] => read
  | some n, '_' :: c :: text =>
    if digitValue c < base then readDigits base (some (n * base + digitValue c)) text else none
  | read, c :: text =>
    if digitValue c < base then readDigits base (some (read.getD 0 * base + digitValue c)) text
    else none

def readBaseTen (text : Str) : Option Nat :=
  if 4300 < (text.filter fun c => c ≠ '_').length then none
  else
    match readDigits 10 none text with
    | some n => if text.head? = some '0' ∧ n ≠ 0 then none else some n
    | none => none

def skipUnderscore : Str → Str
  | '_' :: text => text
  | text => text

def readInt : Str → Option Nat
  | '0' :: 'x' :: text | '0' :: 'X' :: text => readDigits 16 none (skipUnderscore text)
  | '0' :: 'o' :: text | '0' :: 'O' :: text => readDigits 8 none (skipUnderscore text)
  | '0' :: 'b' :: text | '0' :: 'B' :: text => readDigits 2 none (skipUnderscore text)
  | text => readBaseTen text

/-- `int(text, 0)`. -/
def pyInt (text : Str) : Except PyError Int :=
  let signed := takeSign (toAscii text)
  match readInt signed.2 with
  | some n => .ok (if signed.1 then -(n : Int) else n)
  | none => .error .valueError

/- Printed numbers read back. -/

theorem digit_plain {c : Char} (digit : c.isDigit = true) : isPlain c = true := by
  simp [isPlain, Char.isAlphanum, digit]

theorem digit_code {c : Char} (digit : c.isDigit = true) : 48 ≤ c.toNat ∧ c.toNat ≤ 57 := by
  have codes : c.toNat = c.val.toNat := rfl
  have low : '0'.val.toNat = 48 := rfl
  have high : '9'.val.toNat = 57 := rfl
  simp only [Char.isDigit, Bool.and_eq_true, decide_eq_true_eq, ge_iff_le,
    UInt32.le_iff_toNat_le] at digit
  omega

theorem digit_ne {c d : Char} (digit : c.isDigit = true) (other : d.isDigit = false) : c ≠ d := by
  rintro rfl
  rw [digit] at other
  exact absurd other (by decide)

theorem plain_toAscii {text : Str} (plain : Plain text) : toAscii text = text := by
  have same : text.map toAsciiChar = text := by
    calc
      text.map toAsciiChar = text.map id := by
        apply List.map_congr_left
        intro c mem
        have bounds := plain_code (plain c mem)
        rw [toAsciiChar, if_pos (by omega)]
        rfl
      _ = text := List.map_id text
  have noSpace : ∀ c ∈ text, isCSpace c = false := by
    intro c mem
    have bounds := plain_code (plain c mem)
    simp only [isCSpace, Bool.or_eq_false_iff, Bool.and_eq_false_iff, decide_eq_false_iff_not,
      beq_eq_false_iff_ne]
    omega
  rw [toAscii, same]
  exact trim_none noSpace

theorem takeSign_digit {c : Char} (digit : c.isDigit = true) (text : Str) :
    takeSign (c :: text) = (false, c :: text) := by
  have plus := digit_ne digit (by decide : '+'.isDigit = false)
  have minus := digit_ne digit (by decide : '-'.isDigit = false)
  unfold takeSign
  split
  · rename_i same
    exact absurd (List.cons.inj same).1 plus
  · rename_i same
    exact absurd (List.cons.inj same).1 minus
  · rfl

theorem readDigits_step {base : Nat} {read : Option Nat} {c : Char} {text : Str}
    (digit : c ≠ '_') : readDigits base read (c :: text) =
      if digitValue c < base then readDigits base (some (read.getD 0 * base + digitValue c)) text
      else none := by
  cases read with
  | none => simp [readDigits]
  | some n =>
    rw [readDigits]
    intro m d rest _ same
    exact absurd same digit

theorem readDigits_digits {text : Str} (digits : AllDigits text) (n : Nat) :
    readDigits 10 (some n) text = some (Nat.ofDigitChars 10 text n) := by
  induction text generalizing n with
  | nil => simp [readDigits]
  | cons c text ih =>
    have digit := digits c List.mem_cons_self
    have bounds := digit_code digit
    have value : digitValue c = c.toNat - 48 := by rw [digitValue, if_pos digit]
    have notUnderscore := digit_ne digit (by decide : '_'.isDigit = false)
    rw [readDigits_step notUnderscore, value, if_pos (by omega),
      ih fun d mem => digits d (List.mem_cons_of_mem c mem), Nat.ofDigitChars_cons]
    simp [Nat.mul_comm]

theorem toDigits_head {n : Nat} (zero : (Nat.toDigits 10 n).head? = some '0') : n = 0 := by
  induction n using Nat.strongRecOn with
  | ind n ih =>
    rw [Nat.toDigits_eq_if (by decide)] at zero
    split at zero
    · rename_i small
      interval_cases n <;> simp_all [Nat.digitChar]
    · rename_i large
      rw [List.head?_append_of_ne_nil _ Nat.toDigits_ne_nil] at zero
      have quotient := ih (n / 10) (by omega) zero
      omega

theorem readInt_digits {text : Str} (digits : AllDigits text) : readInt text = readBaseTen text := by
  have second : ∀ c d rest, text = c :: d :: rest → d.isDigit = true := by
    intro c d rest same
    exact digits d (by simp [same])
  unfold readInt
  split
  case h_7 => rfl
  all_goals
    exact absurd (second _ _ _ rfl) (by decide)

theorem pyInt_digits {n : Nat} (short : (Nat.toDigits 10 n).length ≤ 4300) :
    pyInt (Nat.toDigits 10 n) = .ok n := by
  have digits := toDigits_digits n
  have noUnderscore : (Nat.toDigits 10 n).filter (fun c => c ≠ '_') = Nat.toDigits 10 n := by
    rw [List.filter_eq_self]
    intro c mem
    exact decide_eq_true (digit_ne (digits c mem) (by decide))
  have read : readDigits 10 none (Nat.toDigits 10 n) = some n := by
    have value := readDigits_digits digits 0
    rw [Nat.ofDigitChars_toDigits (by decide) (by decide)] at value
    obtain ⟨c, text, same⟩ := List.exists_cons_of_ne_nil (Nat.toDigits_ne_nil : Nat.toDigits 10 n ≠ [])
    have notUnderscore : c ≠ '_' :=
      digit_ne (digits c (by simp [same])) (by decide)
    rw [same, readDigits_step notUnderscore] at value
    rw [same, readDigits_step notUnderscore]
    exact value
  have noZero : ¬((Nat.toDigits 10 n).head? = some '0' ∧ n ≠ 0) := fun zero =>
    zero.2 (toDigits_head zero.1)
  have unsigned : takeSign (Nat.toDigits 10 n) = (false, Nat.toDigits 10 n) := by
    obtain ⟨c, text, same⟩ := List.exists_cons_of_ne_nil (Nat.toDigits_ne_nil : Nat.toDigits 10 n ≠ [])
    rw [same]
    exact takeSign_digit (digits c (by simp [same])) text
  rw [pyInt, plain_toAscii fun c mem => digit_plain (digits c mem), unsigned]
  simp only
  rw [readInt_digits digits, readBaseTen, noUnderscore, if_neg (by omega), read]
  simp only
  rw [if_neg noZero]
  rfl

def printedValue (signedNan : Bool) (digits : Nat) : Binary → Float64
  | .nan negative => .nan (negative && signedNan)
  | .infinite negative => .infinite negative
  | .finite negative mantissa exponent =>
    ofDecimal binary64 negative (scaled mantissa exponent (10 ^ digits)) (-digits)

theorem dropUnderscores_none {text : Str} (free : '_' ∉ text) (previous : Option Char) :
    dropUnderscores previous text = some text := by
  induction text generalizing previous with
  | nil => rw [dropUnderscores]
  | cons c text ih =>
    have later := ih (fun mem => free (List.mem_cons_of_mem c mem)) (some c)
    have here : c ≠ '_' := fun same => free (same ▸ List.mem_cons_self)
    rw [dropUnderscores, later]
    · rfl
    · exact here

theorem pyFloat_read {text : Str} {value : Float64} (plain : Plain text) (free : '_' ∉ text)
    (read : readFloat text = some value) : pyFloat text = .ok value := by
  rw [pyFloat, plain_toAscii plain, dropUnderscores_none free, Option.bind_some, read]

theorem takeSign_signText (negative : Bool) {c : Char} (digit : c.isDigit = true) (text : Str) :
    takeSign (signText negative ++ c :: text) = (negative, c :: text) := by
  cases negative with
  | true => rfl
  | false => exact takeSign_digit digit text

theorem readDecimal_fixed (negative : Bool) {whole fraction : Str} (digits : AllDigits whole)
    (more : AllDigits fraction) (some_ : whole ≠ []) :
    readDecimal negative (whole ++ '.' :: fraction) =
      some (ofDecimal binary64 negative (Nat.ofDigitChars 10 (whole ++ fraction) 0)
        (-fraction.length)) := by
  have front : (whole ++ '.' :: fraction).takeWhile Char.isDigit = whole := by
    rw [List.takeWhile_append_of_pos digits]
    simp
  have back : (whole ++ '.' :: fraction).dropWhile Char.isDigit = '.' :: fraction := by
    rw [List.dropWhile_append_of_pos digits]
    simp
  have inside : readFraction ('.' :: fraction) = (fraction, []) := by
    rw [readFraction, List.takeWhile_eq_self_iff.mpr more, List.dropWhile_eq_nil_iff.mpr more]
  rw [readDecimal, front, back, inside, if_neg fun none_ => some_ none_.1]
  simp [readExponent]

theorem fixedPoint_plain (digits n : Nat) : ∀ c ∈ fixedPoint digits n, c.isDigit ∨ c = '.' := by
  intro c mem
  rcases List.mem_append.mp mem with whole | behind
  · exact .inl (toDigits_digits _ c whole)
  · rcases List.mem_cons.mp behind with point | fraction
    · exact .inr point
    · exact .inl (padded_digits _ _ c fraction)

theorem fixed_plain (negative : Bool) (digits n : Nat) :
    Plain (signText negative ++ fixedPoint digits n) ∧
      '_' ∉ signText negative ++ fixedPoint digits n := by
  have signs : ∀ c ∈ signText negative, c = '-' := by cases negative <;> simp [signText]
  constructor
  · intro c mem
    rcases List.mem_append.mp mem with sign | number
    · rw [signs c sign]
      decide
    · rcases fixedPoint_plain digits n c number with digit | rfl
      · exact digit_plain digit
      · decide
  · intro mem
    rcases List.mem_append.mp mem with sign | number
    · exact absurd (signs _ sign) (by decide)
    · rcases fixedPoint_plain digits n _ number with digit | point
      · exact absurd digit (by decide)
      · exact absurd point (by decide)

theorem readFloat_digit (negative : Bool) {c : Char} (digit : c.isDigit = true) (text : Str) :
    readFloat (signText negative ++ c :: text) = readDecimal negative (c :: text) := by
  have same : c.toLower = c := by
    have bounds := digit_code digit
    have codes : c.toNat = c.val.toNat := rfl
    rw [Char.toLower, dif_neg]
    rintro ⟨upper, _⟩
    simp only [ge_iff_le, UInt32.le_iff_toNat_le] at upper
    have low : 'A'.val.toNat = 65 := rfl
    omega
  have notI := digit_ne digit (by decide : 'i'.isDigit = false)
  have notN := digit_ne digit (by decide : 'n'.isDigit = false)
  rw [readFloat, takeSign_signText negative digit]
  simp only [List.map_cons, same]
  rw [if_neg, if_neg]
  · intro nan
    exact notN (List.cons.inj nan).1
  · rintro (inf | infinity)
    · exact notI (List.cons.inj inf).1
    · exact notI (List.cons.inj infinity).1

theorem pyFloat_fixed (negative : Bool) {digits : Nat} (positive : 0 < digits) (n : Nat) :
    pyFloat (signText negative ++ fixedPoint digits n) =
      .ok (ofDecimal binary64 negative n (-digits)) := by
  obtain ⟨plain, free⟩ := fixed_plain negative digits n
  have whole := toDigits_digits (n / 10 ^ digits)
  have fraction := padded_digits digits (n % 10 ^ digits)
  have length := padded_length positive (Nat.mod_lt n (Nat.pow_pos (by decide : 0 < 10)))
  have decimal := readDecimal_fixed negative whole fraction Nat.toDigits_ne_nil
  obtain ⟨c, text, same⟩ :=
    List.exists_cons_of_ne_nil (Nat.toDigits_ne_nil : Nat.toDigits 10 (n / 10 ^ digits) ≠ [])
  have first : c.isDigit = true := whole c (by simp [same])
  have value := readFloat_digit negative first (text ++ '.' :: padded digits (n % 10 ^ digits))
  rw [← List.cons_append, ← same, decimal, fixedPoint_read positive, length] at value
  rw [fixedPoint] at plain free ⊢
  exact pyFloat_read plain free value

/-- Python reads what `%.nf` prints. -/
theorem pyFloat_printFixed (signedNan : Bool) {digits : Nat} (positive : 0 < digits)
    (value : Binary) :
    pyFloat (printFixed signedNan digits value) = .ok (printedValue signedNan digits value) := by
  cases value with
  | nan negative =>
    rw [printFixed, printedValue]
    cases negative <;> cases signedNan <;>
      exact pyFloat_read (by decide) (by decide) (by decide)
  | infinite negative =>
    rw [printFixed, printedValue]
    cases negative <;> exact pyFloat_read (by decide) (by decide) (by decide)
  | finite negative mantissa exponent => exact pyFloat_fixed negative positive _

theorem printFixed_plain (signedNan : Bool) (digits : Nat) (value : Binary) :
    Plain (printFixed signedNan digits value) := by
  cases value with
  | nan negative =>
    rw [printFixed]
    cases negative <;> cases signedNan <;> decide
  | infinite negative =>
    rw [printFixed]
    cases negative <;> decide
  | finite negative mantissa exponent => exact (fixed_plain negative digits _).1

end QuestNumber
