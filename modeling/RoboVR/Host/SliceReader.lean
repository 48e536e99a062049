import RoboVR.AnnexB.SliceHeader

/- The start codes and slice headers that `loadH264TestStream` reads with lambdas of its own,
   against those of the Python encoder. Its bits are those of the first 32 bytes or so. -/
namespace HostSliceReader
open AnnexBStartCode AnnexBSliceHeader

def byteAt (data : Bytes) (i : Nat) : UInt8 := data.getD i 0

def startCodeSize (data : Bytes) (offset : Nat) : Nat :=
  if offset + 3 ≤ data.length ∧ byteAt data offset = 0 ∧ byteAt data (offset + 1) = 0 ∧
      byteAt data (offset + 2) = 1 then 3
  else if offset + 4 ≤ data.length ∧ byteAt data offset = 0 ∧ byteAt data (offset + 1) = 0 ∧
      byteAt data (offset + 2) = 0 ∧ byteAt data (offset + 3) = 1 then 4
  else 0

/-- `none` for npos. -/
def findStartCode (bytes : Bytes) (offset : Nat) : Option Nat :=
  (List.range' offset (bytes.length - 2 - offset)).find? fun i => startCodeSize bytes i != 0

def readRbsp : Nat → Bytes → Bytes
  | _, [] => []
  | 0, _ => []
  | room + 1, 0 :: 0 :: 3 :: rest => 0 :: 0 :: readRbsp (room - 1) rest
  | room + 1, byte :: rest => byte :: readRbsp room rest

def bitAt (rbsp : Bytes) (bitOffset : Nat) : Bool :=
  (byteAt rbsp (bitOffset / 8)).toNat >>> (7 - bitOffset % 8) &&& 1 != 0

/-- The zeros before the first one bit and the offset behind it; `left` more zeros are allowed. -/
def leadingZeroBits (rbsp : Bytes) (left bitOffset : Nat) : Option (Nat × Nat) :=
  if bitOffset < rbsp.length * 8 then
    if bitAt rbsp bitOffset then some (0, bitOffset + 1)
    else
      match left with
      | 0 => none
      | left + 1 => (leadingZeroBits rbsp left (bitOffset + 1)).map fun c => (c.1 + 1, c.2)
  else some (0, bitOffset)

def readSuffix (rbsp : Bytes) : Nat → UInt32 → Nat → Option UInt32
  | 0, suffix, _ => some suffix
  | count + 1, suffix, bitOffset =>
    if rbsp.length * 8 ≤ bitOffset then none
    else
      readSuffix rbsp count (suffix <<< 1 ||| if bitAt rbsp bitOffset then 1 else 0) (bitOffset + 1)

/-- `nal` begins with the NAL header. -/
def readFirstMbInSlice (nal : Bytes) : Option UInt32 :=
  if nal = [] then none
  else
    let rbsp := readRbsp 32 (nal.drop 1)
    match leadingZeroBits rbsp 31 0 with
    | none => none
    | some (zeros, bitOffset) =>
      (readSuffix rbsp zeros 0 bitOffset).map fun suffix =>
        (1 <<< UInt32.ofNat zeros : UInt32) - (1 : UInt32) + suffix

/- The start codes are the same. -/

theorem take_bytes (data : Bytes) (offset : Nat) :
    (offset + 3 ≤ data.length ∧ (data.drop offset).take 3 = [0, 0, 1] ↔
      offset + 3 ≤ data.length ∧ byteAt data offset = 0 ∧ byteAt data (offset + 1) = 0 ∧
        byteAt data (offset + 2) = 1) ∧
    (offset + 4 ≤ data.length ∧ (data.drop offset).take 4 = [0, 0, 0, 1] ↔
      offset + 4 ≤ data.length ∧ byteAt data offset = 0 ∧ byteAt data (offset + 1) = 0 ∧
        byteAt data (offset + 2) = 0 ∧ byteAt data (offset + 3) = 1) := by
  have read : ∀ i, byteAt data (offset + i) = byteAt (data.drop offset) i := by
    intro i
    simp [byteAt, List.getD]
  have zero := read 0
  have length : (data.drop offset).length = data.length - offset := List.length_drop
  rw [Nat.add_zero] at zero
  rw [zero, read, read, read]
  generalize data.drop offset = xs at length
  match xs with
  | [] => simp at length ⊢; omega
  | [a] => simp at length ⊢; omega
  | [a, b] => simp at length ⊢; omega
  | [a, b, c] => simp [byteAt] at length ⊢
  | a :: b :: c :: e :: xs => simp [byteAt]

theorem startCodeSize_same (data : Bytes) (offset : Nat) :
    startCodeSize data offset = AnnexBStartCode.startCodeSize data offset := by
  obtain ⟨three, four⟩ := take_bytes data offset
  simp only [startCodeSize, AnnexBStartCode.startCodeSize, ← three, ← four]

theorem findStartCode_same (bytes : Bytes) (offset : Nat) :
    findStartCode bytes offset = AnnexBStartCode.findStartCode bytes offset := by
  have count : max offset (bytes.length - 2) - offset = bytes.length - 2 - offset := by omega
  simp only [findStartCode, AnnexBStartCode.findStartCode, count, startCodeSize_same]

/- The bytes are the first of those that Python reads. -/

theorem rbspLoop_more {zeros : Nat} (enough : 2 ≤ zeros) (bytes : Bytes) :
    rbspLoop zeros bytes = rbspLoop 2 bytes := by
  induction bytes generalizing zeros with
  | nil => simp [rbspLoop]
  | cons byte rest ih =>
    by_cases escape : byte = 3
    · simp [rbspLoop, enough, escape]
    · by_cases zero : byte = 0
      · simp [rbspLoop, zero, ih (by omega : 2 ≤ zeros + 1), ih (by omega : 2 ≤ 3)]
      · simp [rbspLoop, escape, zero]

theorem rbspLoop_one {bytes : Bytes} (other : ∀ rest, bytes ≠ 0 :: 3 :: rest) :
    rbspLoop 1 bytes = rbspLoop 0 bytes := by
  match bytes, other with
  | [], _ => simp [rbspLoop]
  | [byte], _ => simp [rbspLoop]
  | byte :: next :: rest, other =>
    by_cases zero : byte = 0
    · have escape : next ≠ 3 := by
        rintro rfl
        exact other rest (by rw [zero])
      by_cases again : next = 0
      · simp [rbspLoop, zero, again, rbspLoop_more (by omega : 2 ≤ 3)]
      · simp [rbspLoop, zero, escape, again]
    · simp [rbspLoop, zero]

theorem readRbsp_prefix (room : Nat) (bytes : Bytes) :
    ∃ more, rbspLoop 0 bytes = readRbsp room bytes ++ more ∧
      (more = [] ∨ room ≤ (readRbsp room bytes).length) := by
  fun_induction readRbsp room bytes with
  | case1 room => exact ⟨[], by simp [rbspLoop]⟩
  | case2 bytes => exact ⟨_, rfl, by simp⟩
  | case3 room rest ih =>
    obtain ⟨more, split, enough⟩ := ih
    refine ⟨more, by simp [rbspLoop, split], enough.imp id fun long => ?_⟩
    simp only [List.length_cons]
    omega
  | case4 room byte rest other ih =>
    obtain ⟨more, split, enough⟩ := ih
    have next : rbspLoop 0 (byte :: rest) = byte :: rbspLoop 0 rest := by
      by_cases zero : byte = 0
      · have plain : ∀ tail, rest ≠ 0 :: 3 :: tail := by
          rintro tail rfl
          exact other tail zero rfl
        simp [rbspLoop, zero, rbspLoop_one plain]
      · simp [rbspLoop, zero]
    refine ⟨more, by rw [next, split, List.cons_append], enough.imp id fun long => ?_⟩
    simp only [List.length_cons]
    omega

/- The bits are read alike as long as they lie in those bytes. -/

theorem readBit_prefix {rbsp : Bytes} (more : Bytes) {pos : Nat} (inside : pos < rbsp.length * 8) :
    BitReader.readBit ⟨rbsp ++ more, pos⟩ =
      some (if bitAt rbsp pos then 1 else 0, ⟨rbsp ++ more, pos + 1⟩) := by
  have here : pos / 8 < rbsp.length := by omega
  have bounded : ¬ (rbsp ++ more).length * 8 ≤ pos := by
    rw [List.length_append]
    omega
  have byte : (rbsp ++ more).getD (pos / 8) 0 = byteAt rbsp (pos / 8) := by
    simp [byteAt, List.getD, List.getElem?_append_left here]
  simp only [BitReader.readBit, if_neg bounded, byte, bitAt, Nat.and_one_is_mod]
  rcases Nat.mod_two_eq_zero_or_one ((byteAt rbsp (pos / 8)).toNat >>> (7 - pos % 8)) with bit | bit
  · simp [bit]
  · simp [bit]

theorem leadingZeroBits_prefix {rbsp more : Bytes} {fuel pos zeros left : Nat} {r : BitReader}
    (counted : BitReader.countZeros fuel ⟨rbsp ++ more, pos⟩ = some (zeros, r))
    (inside : pos + zeros < rbsp.length * 8) (few : zeros ≤ left) :
    leadingZeroBits rbsp left pos = some (zeros, pos + zeros + 1) ∧
      r = ⟨rbsp ++ more, pos + zeros + 1⟩ := by
  induction fuel generalizing pos zeros left with
  | zero => simp [BitReader.countZeros] at counted
  | succ fuel ih =>
    rw [BitReader.countZeros, readBit_prefix more (by omega)] at counted
    rw [leadingZeroBits.eq_def, if_pos (by omega : pos < rbsp.length * 8)]
    cases bit : bitAt rbsp pos with
    | true =>
      simp only [bit, if_true, Option.some.injEq, Prod.mk.injEq] at counted
      obtain ⟨rfl, rfl⟩ := counted
      simp
    | false =>
      simp only [bit, Bool.false_eq_true, if_false, Option.map_eq_some_iff] at counted
      obtain ⟨⟨zeros', r'⟩, later, same⟩ := counted
      cases same
      obtain ⟨left, rfl⟩ : ∃ n, left = n + 1 := ⟨left - 1, by omega⟩
      obtain ⟨read, behind⟩ := ih later (by omega) (by omega : zeros' ≤ left)
      have next : pos + 1 + zeros' + 1 = pos + (zeros' + 1) + 1 := by omega
      rw [next] at read behind
      exact ⟨by simp [read], behind⟩

theorem ofNat_bit (value : Nat) (bit : Bool) :
    UInt32.ofNat (value <<< 1 ||| if bit then 1 else 0) =
      UInt32.ofNat value <<< 1 ||| if bit then 1 else 0 := by
  rw [UInt32.ofNat_or, UInt32.ofNat_shiftLeft _ _ (by decide)]
  cases bit <;> rfl

theorem readSuffix_prefix {rbsp more : Bytes} {count value pos read : Nat} {r : BitReader}
    (bits : BitReader.readBitsFrom value count ⟨rbsp ++ more, pos⟩ = some (read, r))
    (inside : pos + count ≤ rbsp.length * 8) :
    readSuffix rbsp count (UInt32.ofNat value) pos = some (UInt32.ofNat read) := by
  induction count generalizing value pos with
  | zero =>
    rw [BitReader.readBitsFrom, Option.some.injEq, Prod.mk.injEq] at bits
    rw [readSuffix, bits.1]
  | succ count ih =>
    rw [BitReader.readBitsFrom, readBit_prefix more (by omega)] at bits
    rw [readSuffix, if_neg (by omega), ← ofNat_bit]
    exact ih bits (by omega)

theorem readBit_bound {data : Bytes} {pos bit : Nat} {r : BitReader}
    (read : BitReader.readBit ⟨data, pos⟩ = some (bit, r)) :
    pos < data.length * 8 ∧ r = ⟨data, pos + 1⟩ := by
  simp only [BitReader.readBit] at read
  split at read
  · exact absurd read (by simp)
  · obtain ⟨_, rfl⟩ := Prod.mk.inj (Option.some.inj read)
    exact ⟨by omega, rfl⟩

theorem countZeros_bound {data : Bytes} {fuel pos zeros : Nat} {r : BitReader}
    (counted : BitReader.countZeros fuel ⟨data, pos⟩ = some (zeros, r)) :
    pos + zeros < data.length * 8 := by
  induction fuel generalizing pos zeros with
  | zero => simp [BitReader.countZeros] at counted
  | succ fuel ih =>
    rw [BitReader.countZeros] at counted
    cases read : BitReader.readBit ⟨data, pos⟩ with
    | none => simp [read] at counted
    | some next =>
      obtain ⟨bit, r'⟩ := next
      obtain ⟨here, rfl⟩ := readBit_bound read
      cases bit with
      | zero =>
        simp only [read, Option.map_eq_some_iff] at counted
        obtain ⟨⟨zeros', r'⟩, later, same⟩ := counted
        cases same
        have := ih later
        omega
      | succ bit =>
        simp only [read, Option.some.injEq, Prod.mk.injEq] at counted
        omega

theorem readBitsFrom_bound {data : Bytes} {count value pos read : Nat} {r : BitReader}
    (bits : BitReader.readBitsFrom value (count + 1) ⟨data, pos⟩ = some (read, r)) :
    pos + (count + 1) ≤ data.length * 8 := by
  induction count generalizing value pos with
  | zero =>
    rw [BitReader.readBitsFrom] at bits
    cases here : BitReader.readBit ⟨data, pos⟩ with
    | none => simp [here] at bits
    | some next => have := (readBit_bound here).1; omega
  | succ count ih =>
    rw [BitReader.readBitsFrom] at bits
    cases here : BitReader.readBit ⟨data, pos⟩ with
    | none => simp [here] at bits
    | some next =>
      obtain ⟨bit, r'⟩ := next
      obtain ⟨_, rfl⟩ := readBit_bound here
      simp only [here] at bits
      have := ih bits
      omega

theorem value_bits {zeros suffix : Nat} (small : 1 <<< zeros - 1 + suffix < 2 ^ 32 - 1) :
    zeros ≤ 31 := by
  rw [Nat.one_shiftLeft] at small
  by_contra many
  have large : 2 ^ 32 ≤ 2 ^ zeros := Nat.pow_le_pow_right (by decide) (by omega)
  omega

theorem value_same {zeros suffix : Nat} (few : zeros ≤ 31) :
    (1 <<< UInt32.ofNat zeros : UInt32) - (1 : UInt32) + UInt32.ofNat suffix =
      UInt32.ofNat (1 <<< zeros - 1 + suffix) := by
  have one : 1 ≤ 1 <<< zeros := by
    rw [Nat.one_shiftLeft]
    exact Nat.one_le_two_pow
  rw [UInt32.ofNat_add, UInt32.ofNat_sub one, UInt32.ofNat_shiftLeft _ _ (by omega)]
  rfl

/-- What Python reads of a slice header, the loader reads, up to the largest code of 31 zeros. -/
theorem readFirstMbInSlice_of_python {nal : Bytes} {mb : Nat}
    (decoded : firstMbInSlice nal = some mb) (small : mb < 2 ^ 32 - 1) :
    readFirstMbInSlice (nalPayload nal) = some (UInt32.ofNat mb) := by
  unfold firstMbInSlice at decoded
  simp only at decoded
  split at decoded
  · exact absurd decoded (by simp)
  · next long =>
    have nonempty : nalPayload nal ≠ [] := by
      intro empty
      simp [empty] at long
    generalize nalPayload nal = payload at decoded nonempty
    obtain ⟨more, split, enough⟩ := readRbsp_prefix 32 (payload.drop 1)
    rw [rbspFromEbsp, split] at decoded
    simp only [readFirstMbInSlice, if_neg nonempty]
    generalize readRbsp 32 (payload.drop 1) = rbsp at decoded enough
    have inside : ∀ n, n < 64 → n ≤ (rbsp ++ more).length * 8 → n ≤ rbsp.length * 8 := by
      intro n few fits
      rcases enough with rfl | long
      · simpa using fits
      · omega
    rw [BitReader.readUe] at decoded
    cases counted : BitReader.countZeros (BitReader.unread ⟨rbsp ++ more, 0⟩ + 1)
      ⟨rbsp ++ more, 0⟩ with
    | none => simp [counted] at decoded
    | some c =>
      obtain ⟨zeros, r⟩ := c
      have bound := countZeros_bound counted
      cases zeros with
      | zero =>
        obtain ⟨read, _⟩ := leadingZeroBits_prefix counted
          (inside 1 (by decide) bound) (Nat.zero_le 31)
        simp only [counted, Option.map_some, Option.some.injEq] at decoded
        simp [read, readSuffix, ← decoded]
      | succ zeros =>
        simp only [counted, Option.map_map, Option.map_eq_some_iff] at decoded
        obtain ⟨⟨suffix, r'⟩, bits, value⟩ := decoded
        simp only [Function.comp_apply] at value
        have few : zeros + 1 ≤ 31 := value_bits (value ▸ small)
        obtain ⟨read, behind⟩ := leadingZeroBits_prefix counted
          (inside (0 + (zeros + 1) + 1) (by omega) bound) few
        rw [BitReader.readBits, behind] at bits
        have room := readBitsFrom_bound bits
        have read_ := readSuffix_prefix bits (inside _ (by omega) room)
        have zero : UInt32.ofNat 0 = 0 := rfl
        rw [zero] at read_
        simp only [read, read_, Option.map_some]
        rw [value_same few, value]

end HostSliceReader
