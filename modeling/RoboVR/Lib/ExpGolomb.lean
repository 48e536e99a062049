import Mathlib

/- Bits, most significant first, and the Exp-Golomb code of a number: as many zeros as its
   successor has bits behind the leading one, and then the bits of the successor. -/
namespace ExpGolomb

def lowBits : Nat → Nat → List Bool
  | 0, _ => []
  | width + 1, m => m.testBit width :: lowBits width m

@[simp] theorem lowBits_length (width m : Nat) : (lowBits width m).length = width := by
  induction width with
  | zero => rfl
  | succ width ih => rw [lowBits, List.length_cons, ih]

theorem lowBits_getElem? {width m i : Nat} (inside : i < width) :
    (lowBits width m)[i]? = some (m.testBit (width - 1 - i)) := by
  induction width generalizing i with
  | zero => omega
  | succ width ih =>
    cases i with
    | zero => simp [lowBits]
    | succ i =>
      have same : width + 1 - 1 - (i + 1) = width - 1 - i := by omega
      rw [lowBits, List.getElem?_cons_succ, ih (by omega), same]

def valueFrom (high : Nat) (bits : List Bool) : Nat :=
  bits.foldl (fun value bit => 2 * value + bit.toNat) high

@[simp] theorem valueFrom_nil (high : Nat) : valueFrom high [] = high := rfl

@[simp] theorem valueFrom_cons (high : Nat) (bit : Bool) (bits : List Bool) :
    valueFrom high (bit :: bits) = valueFrom (2 * high + bit.toNat) bits := rfl

theorem valueFrom_lt (high : Nat) (bits : List Bool) :
    valueFrom high bits < (high + 1) * 2 ^ bits.length := by
  induction bits generalizing high with
  | nil => simp
  | cons bit bits ih =>
    have next := ih (2 * high + bit.toNat)
    have small := bit.toNat_le
    have room : (2 * high + bit.toNat + 1) * 2 ^ bits.length ≤ (2 * (high + 1)) * 2 ^ bits.length :=
      Nat.mul_le_mul_right _ (by omega)
    rw [valueFrom_cons, List.length_cons, Nat.pow_succ]
    calc valueFrom (2 * high + bit.toNat) bits
        < (2 * high + bit.toNat + 1) * 2 ^ bits.length := next
      _ ≤ (2 * (high + 1)) * 2 ^ bits.length := room
      _ = (high + 1) * (2 ^ bits.length * 2) := by ring

theorem mod_two_pow_succ (m width : Nat) :
    m % 2 ^ (width + 1) = (m.testBit width).toNat * 2 ^ width + m % 2 ^ width := by
  have split : m % 2 ^ (width + 1) = m % 2 ^ width + 2 ^ width * (m / 2 ^ width % 2) := by
    rw [Nat.pow_succ, Nat.mod_mul]
  have bit : (m.testBit width).toNat = m / 2 ^ width % 2 := by
    rw [Nat.testBit_eq_decide_div_mod_eq]
    rcases Nat.mod_two_eq_zero_or_one (m / 2 ^ width) with even | odd
    · simp [even]
    · simp [odd]
  rw [split, bit, Nat.mul_comm, Nat.add_comm]

theorem valueFrom_lowBits (high width m : Nat) :
    valueFrom high (lowBits width m) = high * 2 ^ width + m % 2 ^ width := by
  induction width generalizing high with
  | zero => simp [lowBits, Nat.mod_one]
  | succ width ih =>
    rw [lowBits, valueFrom_cons, ih, mod_two_pow_succ]
    ring

def bitsOf (bytes : List UInt8) : List Bool := bytes.flatMap fun byte => lowBits 8 byte.toNat

@[simp] theorem bitsOf_length (bytes : List UInt8) : (bitsOf bytes).length = bytes.length * 8 := by
  simp [bitsOf, List.length_flatMap]

theorem bitsOf_append (xs ys : List UInt8) : bitsOf (xs ++ ys) = bitsOf xs ++ bitsOf ys := by
  simp [bitsOf]

theorem bitsOf_getElem? {bytes : List UInt8} {pos : Nat} (inside : pos < bytes.length * 8) :
    (bitsOf bytes)[pos]? = some ((bytes.getD (pos / 8) 0).toNat.testBit (7 - pos % 8)) := by
  induction bytes generalizing pos with
  | nil => simp at inside
  | cons byte rest ih =>
    have first : bitsOf (byte :: rest) = lowBits 8 byte.toNat ++ bitsOf rest := rfl
    rw [first]
    by_cases here : pos < 8
    · have zero : pos / 8 = 0 := by omega
      have same : 8 - 1 - pos = 7 - pos % 8 := by omega
      rw [List.getElem?_append_left (by simpa using here), lowBits_getElem? here, zero, same]
      rfl
    · have later : pos / 8 = (pos - 8) / 8 + 1 := by omega
      have same : pos % 8 = (pos - 8) % 8 := by omega
      rw [List.length_cons] at inside
      rw [List.getElem?_append_right (by simpa using here), lowBits_length, ih (by omega), later, same]
      rfl

/-- The code of a number. -/
def ueBits (n : Nat) : List Bool :=
  List.replicate (n + 1).log2 false ++ lowBits ((n + 1).log2 + 1) (n + 1)

def readZeros : List Bool → Option (Nat × List Bool)
  | [] => none
  | true :: bits => some (0, bits)
  | false :: bits => (readZeros bits).map fun c => (c.1 + 1, c.2)

theorem readZeros_iff {bits rest : List Bool} {zeros : Nat} :
    readZeros bits = some (zeros, rest) ↔ bits = List.replicate zeros false ++ true :: rest := by
  induction bits generalizing zeros with
  | nil => simp [readZeros]
  | cons bit bits ih =>
    cases bit with
    | true => cases zeros <;> simp [readZeros, List.replicate_succ]
    | false =>
      cases zeros with
      | zero => simp [readZeros]
      | succ zeros => simp [readZeros, List.replicate_succ, ← ih, Prod.ext_iff]

def readUe (bits : List Bool) : Option Nat :=
  match readZeros bits with
  | none => none
  | some (zeros, rest) =>
    if zeros ≤ rest.length then some (2 ^ zeros - 1 + valueFrom 0 (rest.take zeros)) else none

theorem readUe_replicate {zeros : Nat} {rest : List Bool} (enough : zeros ≤ rest.length) :
    readUe (List.replicate zeros false ++ true :: rest) =
      some (2 ^ zeros - 1 + valueFrom 0 (rest.take zeros)) := by
  have read := readZeros_iff.mpr (rfl : List.replicate zeros false ++ true :: rest = _)
  rw [readUe, read]
  exact if_pos enough

theorem readUe_ueBits (n : Nat) (rest : List Bool) : readUe (ueBits n ++ rest) = some n := by
  have nonzero : n + 1 ≠ 0 := by omega
  have low : 2 ^ (n + 1).log2 ≤ n + 1 := Nat.log2_self_le nonzero
  have high : n + 1 < 2 ^ ((n + 1).log2 + 1) := Nat.lt_log2_self
  have code : ueBits n ++ rest = List.replicate (n + 1).log2 false ++
      true :: (lowBits (n + 1).log2 (n + 1) ++ rest) := by
    rw [ueBits, lowBits, Nat.testBit_log2 nonzero]
    simp
  have suffix : (n + 1) % 2 ^ (n + 1).log2 = n + 1 - 2 ^ (n + 1).log2 := by
    rw [Nat.mod_eq_sub_mod low, Nat.mod_eq_of_lt]
    rw [Nat.pow_succ] at high
    omega
  have taken : (lowBits (n + 1).log2 (n + 1) ++ rest).take (n + 1).log2 =
      lowBits (n + 1).log2 (n + 1) := List.take_left' (lowBits_length _ _)
  rw [code, readUe_replicate (by simp), taken, valueFrom_lowBits, suffix]
  have some_ := Nat.two_pow_pos (n + 1).log2
  congr 1
  omega

end ExpGolomb
