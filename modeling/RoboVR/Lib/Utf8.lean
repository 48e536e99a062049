import Mathlib

/- UTF-8 read with a replacement character for what is not UTF-8: one for each longest
   beginning of a character that breaks off, and one for each other byte. -/
namespace Utf8

def replacement : Char := Char.ofNat 0xFFFD

/-- A character of which some bytes are still to come, the next one between `low` and `high`. -/
structure Pending where
  need : Nat
  low : UInt8
  high : UInt8
  code : Nat

inductive Lead where
  | whole (c : Char)
  | first (pending : Pending)
  | bad

def lead (b : UInt8) : Lead :=
  if b < 0x80 then .whole (Char.ofNat b.toNat)
  else if b < 0xC2 then .bad
  else if b < 0xE0 then .first { need := 1, low := 0x80, high := 0xBF, code := b.toNat - 0xC0 }
  else if b < 0xF0 then
    .first { need := 2
             low := if b = 0xE0 then 0xA0 else 0x80
             high := if b = 0xED then 0x9F else 0xBF
             code := b.toNat - 0xE0 }
  else if b < 0xF5 then
    .first { need := 3
             low := if b = 0xF0 then 0x90 else 0x80
             high := if b = 0xF4 then 0x8F else 0xBF
             code := b.toNat - 0xF0 }
  else .bad

/-- The characters of a stream. A byte that does not go on with the character before it is read
    as a first byte. -/
def decodeFrom : Option Pending → List UInt8 → List Char
  | none, [] => []
  | some _, [] => [replacement]
  | none, b :: bs =>
    match lead b with
    | .whole c => c :: decodeFrom none bs
    | .first pending => decodeFrom (some pending) bs
    | .bad => replacement :: decodeFrom none bs
  | some pending, b :: bs =>
    if pending.low ≤ b ∧ b ≤ pending.high then
      let code := pending.code * 64 + b.toNat % 64
      if pending.need = 1 then Char.ofNat code :: decodeFrom none bs
      else
        decodeFrom (some { need := pending.need - 1, low := 0x80, high := 0xBF, code := code }) bs
    else
      replacement ::
        (match lead b with
        | .whole c => c :: decodeFrom none bs
        | .first pending => decodeFrom (some pending) bs
        | .bad => replacement :: decodeFrom none bs)

def decode (bytes : List UInt8) : List Char := decodeFrom none bytes

def ascii (text : List Char) : List UInt8 := text.map fun c => UInt8.ofNat c.toNat

theorem lead_ascii {c : Char} (small : c.toNat < 0x80) :
    lead (UInt8.ofNat c.toNat) = .whole c := by
  have same : (UInt8.ofNat c.toNat).toNat = c.toNat := by
    rw [UInt8.toNat_ofNat']
    exact Nat.mod_eq_of_lt (by omega)
  have below : UInt8.ofNat c.toNat < 0x80 := by
    rw [UInt8.lt_iff_toNat_lt, same]
    exact small
  rw [lead, if_pos below, same, Char.ofNat_toNat]

theorem decode_ascii {text : List Char} (small : ∀ c ∈ text, c.toNat < 0x80) :
    decode (ascii text) = text := by
  unfold decode ascii
  induction text with
  | nil => rfl
  | cons c text ih =>
    rw [List.map_cons, decodeFrom, lead_ascii (small c List.mem_cons_self)]
    simp only
    rw [ih fun d mem => small d (List.mem_cons_of_mem c mem)]

def encode (text : List Char) : List UInt8 := text.flatMap String.utf8EncodeChar

theorem toNat_byte {n : Nat} (small : n < 256) : (UInt8.ofNat n).toNat = n := by
  rw [UInt8.toNat_ofNat']
  exact Nat.mod_eq_of_lt small

theorem decodeFrom_more {need : Nat} {low high : UInt8} {code n : Nat} (more : need ≠ 1)
    (small : n < 256) (fits : low.toNat ≤ n ∧ n ≤ high.toNat) (bs : List UInt8) :
    decodeFrom (some { need := need, low := low, high := high, code := code })
        (UInt8.ofNat n :: bs) =
      decodeFrom (some { need := need - 1, low := 0x80, high := 0xBF, code := code * 64 + n % 64 })
        bs := by
  have inside : low ≤ UInt8.ofNat n ∧ UInt8.ofNat n ≤ high := by
    rw [UInt8.le_iff_toNat_le, UInt8.le_iff_toNat_le, toNat_byte small]
    exact fits
  rw [decodeFrom]
  simp only [if_pos inside, if_neg more, toNat_byte small]

theorem decodeFrom_last {low high : UInt8} {code n : Nat} (small : n < 256)
    (fits : low.toNat ≤ n ∧ n ≤ high.toNat) (bs : List UInt8) :
    decodeFrom (some { need := 1, low := low, high := high, code := code }) (UInt8.ofNat n :: bs) =
      Char.ofNat (code * 64 + n % 64) :: decodeFrom none bs := by
  have inside : low ≤ UInt8.ofNat n ∧ UInt8.ofNat n ≤ high := by
    rw [UInt8.le_iff_toNat_le, UInt8.le_iff_toNat_le, toNat_byte small]
    exact fits
  rw [decodeFrom]
  simp only [if_pos inside, if_pos, toNat_byte small]

theorem decodeFrom_first {b : UInt8} {pending : Pending} (first : lead b = .first pending)
    (bs : List UInt8) : decodeFrom none (b :: bs) = decodeFrom (some pending) bs := by
  rw [decodeFrom, first]

theorem byte_lt {n : Nat} {b : UInt8} (small : n < 256) : UInt8.ofNat n < b ↔ n < b.toNat := by
  rw [UInt8.lt_iff_toNat_lt, toNat_byte small]

theorem byte_eq {n : Nat} {b : UInt8} (small : n < 256) : UInt8.ofNat n = b ↔ n = b.toNat := by
  rw [← UInt8.toNat_inj, toNat_byte small]

theorem lead_two {n : Nat} (bounds : 0xC2 ≤ n ∧ n < 0xE0) :
    lead (UInt8.ofNat n) = .first { need := 1, low := 0x80, high := 0xBF, code := n - 0xC0 } := by
  have small : n < 256 := by omega
  rw [lead, if_neg (by rw [byte_lt small]; simp; omega), if_neg (by rw [byte_lt small]; simp; omega),
    if_pos (by rw [byte_lt small]; simp; omega), toNat_byte small]

theorem lead_three {n : Nat} (bounds : 0xE0 ≤ n ∧ n < 0xF0) :
    lead (UInt8.ofNat n) = .first
      { need := 2
        low := if n = 0xE0 then 0xA0 else 0x80
        high := if n = 0xED then 0x9F else 0xBF
        code := n - 0xE0 } := by
  have small : n < 256 := by omega
  rw [lead, if_neg (by rw [byte_lt small]; simp; omega), if_neg (by rw [byte_lt small]; simp; omega),
    if_neg (by rw [byte_lt small]; simp; omega), if_pos (by rw [byte_lt small]; simp; omega),
    toNat_byte small]
  simp [byte_eq small]

theorem lead_four {n : Nat} (bounds : 0xF0 ≤ n ∧ n < 0xF5) :
    lead (UInt8.ofNat n) = .first
      { need := 3
        low := if n = 0xF0 then 0x90 else 0x80
        high := if n = 0xF4 then 0x8F else 0xBF
        code := n - 0xF0 } := by
  have small : n < 256 := by omega
  rw [lead, if_neg (by rw [byte_lt small]; simp; omega), if_neg (by rw [byte_lt small]; simp; omega),
    if_neg (by rw [byte_lt small]; simp; omega), if_neg (by rw [byte_lt small]; simp; omega),
    if_pos (by rw [byte_lt small]; simp; omega), toNat_byte small]
  simp [byte_eq small]

theorem decodeFrom_encodeChar (c : Char) (bs : List UInt8) :
    decodeFrom none (String.utf8EncodeChar c ++ bs) = c :: decodeFrom none bs := by
  have valid : c.val.toNat < 0xD800 ∨ (0xDFFF < c.val.toNat ∧ c.val.toNat < 0x110000) := c.valid
  have back : ∀ m, m = c.val.toNat → Char.ofNat m = c := by
    rintro m rfl
    exact Char.ofNat_toNat c
  unfold String.utf8EncodeChar
  generalize c.val.toNat = n at valid back ⊢
  simp only
  split
  · next one =>
    have whole : lead (UInt8.ofNat n) = .whole c := by
      rw [lead, if_pos (by rw [byte_lt (by omega)]; simp; omega), toNat_byte (by omega),
        back n rfl]
    rw [List.singleton_append, decodeFrom, whole]
  · split
    · next two =>
      rw [List.cons_append, List.singleton_append, decodeFrom_first (lead_two (by omega)),
        decodeFrom_last (by omega) (by simp; omega), back _ (by omega)]
    · split
      · next three =>
        have second : (if n / 4096 % 16 + 224 = 0xE0 then (0xA0 : UInt8) else 0x80).toNat ≤
              n / 64 % 64 + 128 ∧
            n / 64 % 64 + 128 ≤
              (if n / 4096 % 16 + 224 = 0xED then (0x9F : UInt8) else 0xBF).toNat := by
          split <;> split <;> simp <;> omega
        rw [List.cons_append, List.cons_append, List.singleton_append,
          decodeFrom_first (lead_three (by omega)), decodeFrom_more (by decide) (by omega) second,
          decodeFrom_last (by omega) (by simp; omega), back _ (by omega)]
      · next four =>
        have second : (if n / 262144 % 8 + 240 = 0xF0 then (0x90 : UInt8) else 0x80).toNat ≤
              n / 4096 % 64 + 128 ∧
            n / 4096 % 64 + 128 ≤
              (if n / 262144 % 8 + 240 = 0xF4 then (0x8F : UInt8) else 0xBF).toNat := by
          split <;> split <;> simp <;> omega
        rw [List.cons_append, List.cons_append, List.cons_append, List.singleton_append,
          decodeFrom_first (lead_four (by omega)), decodeFrom_more (by decide) (by omega) second,
          decodeFrom_more (by decide) (by omega) (by simp; omega),
          decodeFrom_last (by omega) (by simp; omega), back _ (by omega)]

theorem decode_encode (text : List Char) : decode (encode text) = text := by
  unfold decode encode
  induction text with
  | nil => rfl
  | cons c text ih => rw [List.flatMap_cons, decodeFrom_encodeChar, ih]

theorem encode_injective {a b : List Char} (same : encode a = encode b) : a = b := by
  have read := congrArg decode same
  rwa [decode_encode, decode_encode] at read

theorem encodeChar_ascii {c : Char} (small : c.toNat < 0x80) :
    String.utf8EncodeChar c = [UInt8.ofNat c.toNat] := by
  have code : c.val.toNat = c.toNat := rfl
  unfold String.utf8EncodeChar
  rw [code]
  simp only
  rw [if_pos (by omega)]

theorem encodeChar_high {c : Char} (large : 0x80 ≤ c.val.toNat) :
    ∀ b ∈ String.utf8EncodeChar c, 0x80 ≤ b.toNat := by
  have valid : c.val.toNat < 0x110000 := by
    have code : c.val.toNat < 0xD800 ∨ (0xDFFF < c.val.toNat ∧ c.val.toNat < 0x110000) := c.valid
    omega
  unfold String.utf8EncodeChar
  generalize c.val.toNat = n at large valid ⊢
  simp only
  split
  · omega
  · split
    · intro b mem
      simp only [List.mem_cons, List.not_mem_nil, or_false] at mem
      rcases mem with rfl | rfl <;> rw [toNat_byte (by omega)] <;> omega
    · split
      · intro b mem
        simp only [List.mem_cons, List.not_mem_nil, or_false] at mem
        rcases mem with rfl | rfl | rfl <;> rw [toNat_byte (by omega)] <;> omega
      · intro b mem
        simp only [List.mem_cons, List.not_mem_nil, or_false] at mem
        rcases mem with rfl | rfl | rfl | rfl <;> rw [toNat_byte (by omega)] <;> omega

theorem mem_encode {text : List Char} {a : Char} (small : a.toNat < 0x80) :
    UInt8.ofNat a.toNat ∈ encode text ↔ a ∈ text := by
  have code : ∀ c : Char, c.val.toNat = c.toNat := fun _ => rfl
  unfold encode
  rw [List.mem_flatMap]
  constructor
  · rintro ⟨c, mem, inside⟩
    by_cases below : c.toNat < 0x80
    · rw [encodeChar_ascii below, List.mem_singleton, byte_eq (by omega), toNat_byte (by omega)] at inside
      have same : a = c := by
        rw [← Char.ofNat_toNat a, inside, Char.ofNat_toNat]
      exact same ▸ mem
    · have high := encodeChar_high (by rw [code]; omega) _ inside
      rw [toNat_byte (by omega)] at high
      omega
  · intro mem
    exact ⟨a, mem, by simp [encodeChar_ascii small]⟩

example : decode [0x61, 0xE2, 0x82, 0xAC, 0xE2, 0x82, 0x41, 0xFF] =
    ['a', Char.ofNat 0x20AC, replacement, 'A', replacement] := by decide

end Utf8
