import Mathlib

/- Records of fixed-width integers in memory and on the wire, least significant byte
   first. A packed record has its fields end to end; a naturally aligned object puts each
   field at a multiple of its width and leaves gaps. Where no gap is needed they agree. -/
namespace ByteRecord

def toLE : Nat → Nat → List UInt8
  | 0, _ => []
  | width + 1, n => UInt8.ofNat n :: toLE width (n / 256)

def ofLE : List UInt8 → Nat
  | [] => 0
  | b :: bs => b.toNat + 256 * ofLE bs

@[simp] theorem toLE_length (width n : Nat) : (toLE width n).length = width := by
  induction width generalizing n with
  | zero => rfl
  | succ width ih => simp [toLE, ih]

theorem ofLE_bound (bs : List UInt8) : ofLE bs < 256 ^ bs.length := by
  induction bs with
  | nil => simp [ofLE]
  | cons b bs ih =>
    have head := b.toNat_lt
    simp only [ofLE, List.length_cons, Nat.pow_succ]
    omega

theorem ofLE_toLE (width n : Nat) : ofLE (toLE width n) = n % 256 ^ width := by
  induction width generalizing n with
  | zero => simp [toLE, ofLE, Nat.mod_one]
  | succ width ih =>
    have digits : n % 256 ^ (width + 1) = n % 256 + 256 * (n / 256 % 256 ^ width) := by
      rw [Nat.pow_succ, Nat.mul_comm]
      exact Nat.mod_mul
    simp only [toLE, ofLE, ih, UInt8.toNat_ofNat', digits]

theorem toLE_ofLE (bs : List UInt8) : toLE bs.length (ofLE bs) = bs := by
  induction bs with
  | nil => rfl
  | cons b bs ih =>
    have head := b.toNat_lt
    have low : UInt8.ofNat (b.toNat + 256 * ofLE bs) = b := by
      apply UInt8.toNat_inj.mp
      rw [UInt8.toNat_ofNat']
      omega
    have high : (b.toNat + 256 * ofLE bs) / 256 = ofLE bs := by omega
    simp only [List.length_cons, toLE, ofLE, low, high, ih]

structure Field where
  width : Nat
  signed : Bool
  deriving DecidableEq

def unsigned (width : Nat) : Field := { width := width, signed := false }
def signed (width : Nat) : Field := { width := width, signed := true }

def Field.card (f : Field) : Nat := 256 ^ f.width

def Field.InRange (f : Field) (v : Int) : Prop :=
  if f.signed then -f.card ≤ 2 * v ∧ 2 * v < f.card else 0 ≤ v ∧ v < f.card

instance (f : Field) (v : Int) : Decidable (f.InRange v) := by
  unfold Field.InRange
  exact inferInstance

def Field.encode (f : Field) (v : Int) : List UInt8 := toLE f.width (v % f.card).toNat

def Field.decode (f : Field) (bs : List UInt8) : Int :=
  if f.signed ∧ f.card ≤ 2 * ofLE bs then ofLE bs - f.card else ofLE bs

theorem inRange_unsigned (width : Nat) (v : Int) :
    (unsigned width).InRange v ↔ 0 ≤ v ∧ v < 256 ^ width := by
  simp [unsigned, Field.InRange, Field.card]

theorem inRange_signed (width : Nat) (v : Int) :
    (signed width).InRange v ↔ -256 ^ width ≤ 2 * v ∧ 2 * v < 256 ^ width := by
  simp [signed, Field.InRange, Field.card]

theorem card_positive (f : Field) : 0 < f.card := Nat.pow_pos (by decide)

@[simp] theorem encode_length (f : Field) (v : Int) : (f.encode v).length = f.width := by
  simp [Field.encode]

theorem decode_encode (f : Field) (v : Int) (fits : f.InRange v) : f.decode (f.encode v) = v := by
  have pos := card_positive f
  have below : (v % (f.card : Int)).toNat < f.card := by
    have := Int.emod_lt_of_pos v (show (0 : Int) < f.card by omega)
    omega
  have stored : ofLE (f.encode v) = (v % (f.card : Int)).toNat := by
    rw [Field.encode, ofLE_toLE]
    exact Nat.mod_eq_of_lt below
  have nonneg := Int.emod_nonneg v (show (f.card : Int) ≠ 0 by omega)
  unfold Field.decode
  rw [stored]
  unfold Field.InRange at fits
  cases sign : f.signed with
  | false =>
    simp only [sign, Bool.false_eq_true, if_false, false_and] at fits ⊢
    rw [Int.emod_eq_of_lt fits.1 fits.2]
    omega
  | true =>
    simp only [sign, if_true, true_and] at fits ⊢
    by_cases negative : v < 0
    · have wrapped : v % (f.card : Int) = v + f.card := by
        rw [← Int.add_emod_right]
        exact Int.emod_eq_of_lt (by omega) (by omega)
      rw [if_pos (by omega), wrapped]
      omega
    · have plain : v % (f.card : Int) = v := Int.emod_eq_of_lt (by omega) (by omega)
      rw [if_neg (by omega), plain]
      omega

theorem decode_inRange (f : Field) (bs : List UInt8) (size : bs.length = f.width) :
    f.InRange (f.decode bs) := by
  have bound : ofLE bs < f.card := by
    rw [Field.card, ← size]
    exact ofLE_bound bs
  unfold Field.InRange Field.decode
  cases f.signed with
  | false => simp; omega
  | true =>
    simp only [if_true, true_and]
    split <;> omega

theorem encode_decode (f : Field) (bs : List UInt8) (size : bs.length = f.width) :
    f.encode (f.decode bs) = bs := by
  have bound : ofLE bs < f.card := by
    rw [Field.card, ← size]
    exact ofLE_bound bs
  have residue : (f.decode bs % (f.card : Int)).toNat = ofLE bs := by
    unfold Field.decode
    split
    · rw [Int.sub_emod_right, Int.emod_eq_of_lt (by omega) (by omega)]
      omega
    · rw [Int.emod_eq_of_lt (by omega) (by omega)]
      omega
  rw [Field.encode, residue, ← size, toLE_ofLE]

def size : List Field → Nat
  | [] => 0
  | f :: fs => f.width + size fs

def Fits : List Field → List Int → Prop
  | [], [] => True
  | f :: fs, v :: vs => f.InRange v ∧ Fits fs vs
  | _, _ => False

instance decidableFits : (fs : List Field) → (vs : List Int) → Decidable (Fits fs vs)
  | [], [] => isTrue trivial
  | [], _ :: _ => isFalse id
  | _ :: _, [] => isFalse id
  | f :: fs, v :: vs =>
    have := decidableFits fs vs
    inferInstanceAs (Decidable (f.InRange v ∧ Fits fs vs))

def pack : List Field → List Int → List UInt8
  | f :: fs, v :: vs => f.encode v ++ pack fs vs
  | _, _ => []

def unpack : List Field → List UInt8 → List Int
  | [], _ => []
  | f :: fs, bs => f.decode (bs.take f.width) :: unpack fs (bs.drop f.width)

theorem pack_length (fs : List Field) (vs : List Int) (fits : Fits fs vs) :
    (pack fs vs).length = size fs := by
  induction fs generalizing vs with
  | nil => rfl
  | cons f fs ih =>
    cases vs with
    | nil => exact fits.elim
    | cons v vs => simp [pack, size, ih vs fits.2]

theorem unpack_pack (fs : List Field) (vs : List Int) (rest : List UInt8) (fits : Fits fs vs) :
    unpack fs (pack fs vs ++ rest) = vs := by
  induction fs generalizing vs with
  | nil =>
    cases vs with
    | nil => rfl
    | cons v vs => exact fits.elim
  | cons f fs ih =>
    cases vs with
    | nil => exact fits.elim
    | cons v vs =>
      have head := encode_length f v
      simp only [pack, unpack, List.append_assoc]
      rw [List.take_left' head, List.drop_left' head, ih vs fits.2, decode_encode f v fits.1]

theorem unpack_fits (fs : List Field) (bs : List UInt8) (enough : size fs ≤ bs.length) :
    Fits fs (unpack fs bs) := by
  induction fs generalizing bs with
  | nil => trivial
  | cons f fs ih =>
    simp only [size] at enough
    constructor
    · exact decode_inRange f _ (by rw [List.length_take]; omega)
    · exact ih (bs.drop f.width) (by rw [List.length_drop]; omega)

theorem pack_unpack (fs : List Field) (bs : List UInt8) (enough : size fs ≤ bs.length) :
    pack fs (unpack fs bs) = bs.take (size fs) := by
  induction fs generalizing bs with
  | nil => rfl
  | cons f fs ih =>
    simp only [size] at enough
    simp only [unpack, pack, size]
    rw [encode_decode f _ (by rw [List.length_take]; omega),
      ih (bs.drop f.width) (by rw [List.length_drop]; omega), List.take_add]

/- Objects in memory: the field of width w lies at the next multiple of w. -/
section Objects

def gap (pos width : Nat) : Nat := (width - pos % width) % width

/-- The bytes of an object from position `pos` on; the gaps hold whatever `garbage` says. -/
def object (garbage : Nat → UInt8) : Nat → List Field → List Int → List UInt8
  | pos, f :: fs, v :: vs =>
    (List.range (gap pos f.width)).map (fun i => garbage (pos + i)) ++ f.encode v ++
      object garbage (pos + gap pos f.width + f.width) fs vs
  | _, _, _ => []

def members : Nat → List Field → List UInt8 → List Int
  | _, [], _ => []
  | pos, f :: fs, bs =>
    f.decode ((bs.drop (gap pos f.width)).take f.width) ::
      members (pos + gap pos f.width + f.width) fs (bs.drop (gap pos f.width + f.width))

def Gapless : Nat → List Field → Prop
  | _, [] => True
  | pos, f :: fs => gap pos f.width = 0 ∧ Gapless (pos + f.width) fs

instance decidableGapless : (pos : Nat) → (fs : List Field) → Decidable (Gapless pos fs)
  | _, [] => isTrue trivial
  | pos, f :: fs =>
    have := decidableGapless (pos + f.width) fs
    inferInstanceAs (Decidable (gap pos f.width = 0 ∧ Gapless (pos + f.width) fs))

theorem object_gapless (garbage : Nat → UInt8) (pos : Nat) (fs : List Field) (vs : List Int)
    (tight : Gapless pos fs) : object garbage pos fs vs = pack fs vs := by
  induction fs generalizing pos vs with
  | nil => cases vs <;> rfl
  | cons f fs ih =>
    cases vs with
    | nil => rfl
    | cons v vs =>
      simp only [object, pack, tight.1, Nat.add_zero, ih (pos + f.width) vs tight.2,
        List.range_zero, List.map_nil, List.nil_append]

theorem members_gapless (pos : Nat) (fs : List Field) (bs : List UInt8)
    (tight : Gapless pos fs) : members pos fs bs = unpack fs bs := by
  induction fs generalizing pos bs with
  | nil => rfl
  | cons f fs ih =>
    simp only [members, unpack, tight.1, Nat.add_zero, Nat.zero_add, List.drop_zero,
      ih (pos + f.width) _ tight.2]

end Objects

end ByteRecord
