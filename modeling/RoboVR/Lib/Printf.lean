import RoboVR.Lib.BinaryFloat

/- `printf` with the conversions `%lld`, `%llu`, `%u`, `%d` and `%.nf`, where `n` is not zero. -/
namespace Printf
open DecimalText BinaryFloat

def literal (text : String) : List Char :=
  text.toByteArray.data.toList.map fun b => Char.ofNat b.toNat

inductive Conversion where
  | lld
  | llu
  | u
  | d
  | fixed (digits : Nat) (positive : 0 < digits)
  deriving DecidableEq

/-- An argument with its type. A float is passed as the double of the same value. -/
inductive Arg where
  | longLong (n : Int64)
  | unsignedLongLong (n : UInt64)
  | unsigned (n : UInt32)
  | int (n : Int32)
  | float (bits : UInt32)

def intText (n : Int) : List Char := signText (n < 0) ++ Nat.toDigits 10 n.natAbs

def token (signedNan : Bool) : Conversion → Arg → Option (List Char)
  | .lld, .longLong n => some (intText n.toInt)
  | .llu, .unsignedLongLong n => some (Nat.toDigits 10 n.toNat)
  | .u, .unsigned n => some (Nat.toDigits 10 n.toNat)
  | .d, .int n => some (intText n.toInt)
  | .fixed digits _, .float bits => some (printFixed signedNan digits (ofBits32 bits))
  | _, _ => none

def readConversion : List Char → Option (Conversion × List Char)
  | 'l' :: 'l' :: 'd' :: text => some (.lld, text)
  | 'l' :: 'l' :: 'u' :: text => some (.llu, text)
  | 'u' :: text => some (.u, text)
  | 'd' :: text => some (.d, text)
  | '.' :: c :: 'f' :: text =>
    if digit : c.isDigit ∧ 0 < c.toNat - 48 then some (.fixed (c.toNat - 48) digit.2, text)
    else none
  | _ => none

/-- What a format consists of: each conversion behind its literal text, and the text behind the last one. -/
structure Template where
  pieces : List (List Char × Conversion)
  rest : List Char
  deriving DecidableEq

def readFrom : Nat → List Char → Option Template
  | _, [] => some { pieces := [], rest := [] }
  | 0, _ :: _ => none
  | fuel + 1, c :: text =>
    if c = '%' then
      (readConversion text).bind fun (conversion, text) =>
        (readFrom fuel text).map fun template =>
          { template with pieces := ([], conversion) :: template.pieces }
    else
      (readFrom fuel text).map fun template =>
        match template.pieces with
        | [] => { pieces := [], rest := c :: template.rest }
        | piece :: pieces => { template with pieces := (c :: piece.1, piece.2) :: pieces }

def readFormat (text : List Char) : Option Template := readFrom text.length text

def fill (signedNan : Bool) (rest : List Char) :
    List (List Char × Conversion) → List Arg → Option (List Char)
  | [], _ => some rest
  | _ :: _, [] => none
  | (text, conversion) :: pieces, arg :: args =>
    (token signedNan conversion arg).bind fun printed =>
      (fill signedNan rest pieces args).map fun more => text ++ printed ++ more

def sprintf (signedNan : Bool) (format : List Char) (args : List Arg) : Option (List Char) :=
  (readFormat format).bind fun template => fill signedNan template.rest template.pieces args

/-- The string in a buffer of so many characters: what fits in front of the closing zero. -/
def snprintf (signedNan : Bool) (size : Nat) (format : List Char) (args : List Arg) :
    Option (List Char) :=
  (sprintf signedNan format args).map fun text =>
    (text.take (size - 1)).takeWhile fun c => c ≠ Char.ofNat 0

example : snprintf true 8 "%u=%.1f!".toList [.unsigned 7, .float 0xBFA00000] =
    some "7=-1.2!".toList := by decide

/- All tokens of a format. -/

inductive Kind where
  | longLong
  | unsignedLongLong
  | unsigned
  | int
  | double
  deriving DecidableEq

def Conversion.kind : Conversion → Kind
  | .lld => .longLong
  | .llu => .unsignedLongLong
  | .u => .unsigned
  | .d => .int
  | .fixed _ _ => .double

def Arg.kind : Arg → Kind
  | .longLong _ => .longLong
  | .unsignedLongLong _ => .unsignedLongLong
  | .unsigned _ => .unsigned
  | .int _ => .int
  | .float _ => .double

def tokens (signedNan : Bool) : List Conversion → List Arg → Option (List (List Char))
  | [], _ => some []
  | _ :: _, [] => none
  | conversion :: conversions, arg :: args =>
    (token signedNan conversion arg).bind fun printed =>
      (tokens signedNan conversions args).map fun more => printed :: more

theorem token_kind {conversion : Conversion} {arg : Arg} (same : conversion.kind = arg.kind)
    (signedNan : Bool) : ∃ text, token signedNan conversion arg = some text := by
  cases conversion <;> cases arg <;> simp only [Conversion.kind, Arg.kind, reduceCtorEq] at same
  all_goals exact ⟨_, rfl⟩

theorem tokens_kind {conversions : List Conversion} {args : List Arg}
    (same : conversions.map Conversion.kind = args.map Arg.kind) (signedNan : Bool) :
    ∃ texts, tokens signedNan conversions args = some texts := by
  induction conversions generalizing args with
  | nil => exact ⟨[], rfl⟩
  | cons conversion conversions ih =>
    cases args with
    | nil => exact absurd same (by simp)
    | cons arg args =>
      rw [List.map_cons, List.map_cons, List.cons.injEq] at same
      obtain ⟨printed, first⟩ := token_kind same.1 signedNan
      obtain ⟨texts, others⟩ := ih same.2
      exact ⟨printed :: texts, by simp [tokens, first, others]⟩

theorem tokens_cons {signedNan : Bool} {conversion : Conversion} {conversions : List Conversion}
    {args : List Arg} {texts : List (List Char)}
    (printed : tokens signedNan (conversion :: conversions) args = some texts) :
    ∃ arg later text more, args = arg :: later ∧ texts = text :: more ∧
      token signedNan conversion arg = some text ∧ tokens signedNan conversions later = some more := by
  cases args with
  | nil => exact absurd printed (by simp [tokens])
  | cons arg args =>
    rw [tokens, Option.bind_eq_some_iff] at printed
    obtain ⟨text, first, others⟩ := printed
    obtain ⟨more, later, same⟩ := Option.map_eq_some_iff.mp others
    exact ⟨arg, args, text, more, rfl, same.symm, first, later⟩

theorem tokens_length {signedNan : Bool} {conversions : List Conversion} {args : List Arg}
    {texts : List (List Char)} (printed : tokens signedNan conversions args = some texts) :
    texts.length = conversions.length := by
  induction conversions generalizing args texts with
  | nil =>
    rw [tokens, Option.some.injEq] at printed
    rw [← printed]
    rfl
  | cons conversion conversions ih =>
    obtain ⟨arg, later, text, more, _, rfl, _, others⟩ := tokens_cons printed
    rw [List.length_cons, List.length_cons, ih others]

theorem tokens_get {signedNan : Bool} {conversions : List Conversion} {args : List Arg}
    {texts : List (List Char)} (printed : tokens signedNan conversions args = some texts)
    {i : Nat} {conversion : Conversion} (there : conversions[i]? = some conversion) :
    ∃ arg, args[i]? = some arg ∧ texts[i]? = token signedNan conversion arg := by
  induction conversions generalizing args texts i with
  | nil => exact absurd there (by simp)
  | cons head conversions ih =>
    obtain ⟨arg, later, text, more, rfl, rfl, first, others⟩ := tokens_cons printed
    cases i with
    | zero =>
      rw [List.getElem?_cons_zero, Option.some.injEq] at there
      exact ⟨arg, rfl, by rw [← there, first]; rfl⟩
    | succ i =>
      rw [List.getElem?_cons_succ] at there
      exact ih others there

/- How long the tokens are. -/

def longest : Conversion → Nat
  | .lld | .llu => 20
  | .u => 10
  | .d => 11
  | .fixed digits _ => 41 + digits

theorem signText_length (negative : Bool) : (signText negative).length ≤ 1 := by
  cases negative <;> decide

theorem printFixed_length (signedNan : Bool) {digits : Nat} (positive : 0 < digits)
    (bits : UInt32) : (printFixed signedNan digits (ofBits32 bits)).length ≤ 41 + digits := by
  cases value : ofBits32 bits with
  | nan negative =>
    have sign := signText_length (negative && signedNan)
    simp only [printFixed, List.length_append, List.length_cons, List.length_nil]
    omega
  | infinite negative =>
    have sign := signText_length negative
    simp only [printFixed, List.length_append, List.length_cons, List.length_nil]
    omega
  | finite negative mantissa exponent =>
    obtain ⟨small, bounded⟩ := ofBits32_small value
    have sign := signText_length negative
    have number := fixedPoint_length positive (by decide : 0 < 39)
      (scaled_small positive small bounded)
    simp only [printFixed, List.length_append]
    omega

theorem token_length {signedNan : Bool} {conversion : Conversion} {arg : Arg} {text : List Char}
    (printed : token signedNan conversion arg = some text) : text.length ≤ longest conversion := by
  unfold token at printed
  split at printed <;> simp only [Option.some.injEq, reduceCtorEq] at printed
  · rename_i n
    have low := n.le_toInt
    have high := n.toInt_lt
    have sign := signText_length (n.toInt < 0)
    have number := toDigits_short (by decide : 0 < 19) (by omega : n.toInt.natAbs < 10 ^ 19)
    simp only [← printed, intText, List.length_append, longest]
    omega
  · rename_i n
    have high := n.toNat_lt
    have number := toDigits_short (by decide : 0 < 20) (by omega : n.toNat < 10 ^ 20)
    rw [← printed]
    exact number
  · rename_i n
    have high := n.toNat_lt
    have number := toDigits_short (by decide : 0 < 10) (by omega : n.toNat < 10 ^ 10)
    rw [← printed]
    exact number
  · rename_i n
    have low := n.le_toInt
    have high := n.toInt_lt
    have sign := signText_length (n.toInt < 0)
    have number := toDigits_short (by decide : 0 < 10) (by omega : n.toInt.natAbs < 10 ^ 10)
    simp only [← printed, intText, List.length_append, longest]
    omega
  · rename_i digits positive bits
    rw [← printed]
    exact printFixed_length signedNan positive bits

end Printf
