import RoboVR.Lib.ExpGolomb
import RoboVR.Host.SliceReader

/- Slice headers as an encoder writes them, and both readers of them, against one reader of bits. -/
namespace HostSliceHeaders
open AnnexBStartCode AnnexBSliceHeader HostSliceReader ExpGolomb

/- What an encoder writes. -/

/-- Emulation prevention: a 3 behind two zeros, before any byte up to 3. -/
def escapeLoop : Nat → Bytes → Bytes
  | _, [] => []
  | zeros, byte :: rest =>
    if 2 ≤ zeros ∧ byte ≤ 3 then 3 :: byte :: escapeLoop (if byte = 0 then 1 else 0) rest
    else byte :: escapeLoop (if byte = 0 then zeros + 1 else 0) rest

def escape (rbsp : Bytes) : Bytes := escapeLoop 0 rbsp

theorem rbspLoop_escapeLoop (zeros : Nat) (rbsp : Bytes) :
    rbspLoop zeros (escapeLoop zeros rbsp) = rbsp := by
  induction rbsp generalizing zeros with
  | nil => rfl
  | cons byte rest ih =>
    by_cases escaped : 2 ≤ zeros ∧ byte ≤ 3
    · rw [escapeLoop, if_pos escaped, rbspLoop, if_pos ⟨escaped.1, rfl⟩, rbspLoop,
        if_neg (by omega), Nat.zero_add, ih]
    · have kept : ¬ (2 ≤ zeros ∧ byte = 3) := by
        rintro ⟨two, rfl⟩
        exact escaped ⟨two, by decide⟩
      rw [escapeLoop, if_neg escaped, rbspLoop, if_neg kept, ih]

theorem rbspFromEbsp_escape (rbsp : Bytes) : rbspFromEbsp (escape rbsp) = rbsp :=
  rbspLoop_escapeLoop 0 rbsp

def codeBytes (long : Bool) : Bytes := if long then [0, 0, 0, 1] else [0, 0, 1]

theorem nalPayload_code (long : Bool) (body : Bytes) : nalPayload (codeBytes long ++ body) = body := by
  have marked : headCode (codeBytes long ++ body) ≠ 0 := by cases long <;> simp [codeBytes, headCode]
  rw [nalPayload_of_code marked]
  cases long <;> rfl

/- The Python reader. -/

theorem readBit_none {data : Bytes} {pos : Nat} (done : (bitsOf data).drop pos = []) :
    BitReader.readBit ⟨data, pos⟩ = none := by
  have past : data.length * 8 ≤ pos := by
    rw [← bitsOf_length, ← List.drop_eq_nil_iff]
    exact done
  exact if_pos past

theorem readBit_some {data : Bytes} {pos : Nat} {bit : Bool} {bits : List Bool}
    (here : (bitsOf data).drop pos = bit :: bits) :
    BitReader.readBit ⟨data, pos⟩ = some (bit.toNat, ⟨data, pos + 1⟩) ∧
      (bitsOf data).drop (pos + 1) = bits := by
  have inside : pos < data.length * 8 := by
    by_contra past
    rw [List.drop_eq_nil_of_le (by rw [bitsOf_length]; omega)] at here
    cases here
  have at_ : (bitsOf data)[pos]? = some bit := by
    rw [← List.head?_drop, here]
    rfl
  rw [bitsOf_getElem? inside, Option.some.injEq, Nat.testBit_eq_decide_div_mod_eq] at at_
  constructor
  · have past : ¬ data.length * 8 ≤ pos := by omega
    have value : ((data.getD (pos / 8) 0).toNat >>> (7 - pos % 8)) &&& 1 = bit.toNat := by
      rw [Nat.and_one_is_mod, Nat.shiftRight_eq_div_pow, ← at_]
      rcases Nat.mod_two_eq_zero_or_one
        ((data.getD (pos / 8) 0).toNat / 2 ^ (7 - pos % 8)) with even | odd
      · rw [even]
        rfl
      · rw [odd]
        rfl
    simp only [BitReader.readBit, if_neg past, value]
  · rw [← List.drop_drop, here]
    rfl

theorem countZeros_bits {data : Bytes} {fuel pos : Nat}
    (enough : ((bitsOf data).drop pos).length < fuel) :
    BitReader.countZeros fuel ⟨data, pos⟩ =
      (readZeros ((bitsOf data).drop pos)).map fun c => (c.1, ⟨data, pos + c.1 + 1⟩) := by
  induction fuel generalizing pos with
  | zero => omega
  | succ fuel ih =>
    cases bits : (bitsOf data).drop pos with
    | nil => simp [BitReader.countZeros, readBit_none bits, readZeros]
    | cons bit bits_ =>
      obtain ⟨read, next⟩ := readBit_some bits
      cases bit with
      | true => simp [BitReader.countZeros, read, readZeros]
      | false =>
        have shorter : ((bitsOf data).drop (pos + 1)).length < fuel := by
          rw [bits, List.length_cons] at enough
          rw [next]
          omega
        have later := ih shorter
        simp only [BitReader.countZeros, read, Bool.toNat_false, later, next, readZeros,
          Option.map_map]
        congr 1
        funext c
        simp only [Function.comp_apply, Prod.mk.injEq, BitReader.mk.injEq, true_and]
        omega

theorem shift_bit (value : Nat) (bit : Bool) : value <<< 1 ||| bit.toNat = 2 * value + bit.toNat := by
  have small : bit.toNat < 2 ^ 1 := by cases bit <;> decide
  rw [← Nat.shiftLeft_add_eq_or_of_lt small, Nat.shiftLeft_eq]
  omega

theorem readBitsFrom_bits (data : Bytes) (value count pos : Nat) :
    (BitReader.readBitsFrom value count ⟨data, pos⟩).map Prod.fst =
      if count ≤ ((bitsOf data).drop pos).length then
        some (valueFrom value (((bitsOf data).drop pos).take count))
      else none := by
  induction count generalizing value pos with
  | zero => simp [BitReader.readBitsFrom]
  | succ count ih =>
    cases bits : (bitsOf data).drop pos with
    | nil => simp [BitReader.readBitsFrom, readBit_none bits]
    | cons bit bits_ =>
      obtain ⟨read, next⟩ := readBit_some bits
      have later := ih (2 * value + bit.toNat) (pos + 1)
      rw [next] at later
      simp only [BitReader.readBitsFrom, read, shift_bit, later]
      simp

theorem readUe_bits (data : Bytes) :
    (BitReader.readUe ⟨data, 0⟩).map Prod.fst = ExpGolomb.readUe (bitsOf data) := by
  have enough : ((bitsOf data).drop 0).length < BitReader.unread ⟨data, 0⟩ + 1 := by
    simp [BitReader.unread]
  have counted := countZeros_bits enough
  rw [List.drop_zero] at counted
  simp only [BitReader.readUe, counted, ExpGolomb.readUe]
  cases zeros : readZeros (bitsOf data) with
  | none => rfl
  | some c =>
    obtain ⟨count, rest⟩ := c
    have split := readZeros_iff.mp zeros
    have behind : (bitsOf data).drop (0 + count + 1) = rest := by
      rw [split, ← List.singleton_append, ← List.append_assoc]
      apply List.drop_left'
      simp
    cases count with
    | zero => simp
    | succ count =>
      have read := readBitsFrom_bits data 0 (count + 1) (0 + (count + 1) + 1)
      rw [behind] at read
      simp only [Option.map_some, Option.map_map, BitReader.readBits, Nat.one_shiftLeft]
      cases result : BitReader.readBitsFrom 0 (count + 1) ⟨data, 0 + (count + 1) + 1⟩ with
      | none =>
        rw [result] at read
        simp only [Option.map_none] at read ⊢
        split at read
        · cases read
        · next short => rw [if_neg short]
      | some c =>
        rw [result] at read
        simp only [Option.map_some, Function.comp_apply] at read ⊢
        split at read
        · next long =>
          rw [if_pos long, ← Option.some.inj read]
        · cases read

theorem firstMbInSlice_bits (long : Bool) (header byte : UInt8) (rest : Bytes) :
    firstMbInSlice (codeBytes long ++ header :: byte :: rest) =
      ExpGolomb.readUe (bitsOf (rbspFromEbsp (byte :: rest))) := by
  rw [firstMbInSlice, nalPayload_code, ← readUe_bits]
  simp

/- The loader. -/

theorem bitAt_bits {rbsp : Bytes} {pos : Nat} (inside : pos < rbsp.length * 8) :
    (bitsOf rbsp).drop pos = bitAt rbsp pos :: (bitsOf rbsp).drop (pos + 1) := by
  have bound : pos < (bitsOf rbsp).length := by simpa using inside
  have at_ := bitsOf_getElem? inside
  rw [List.getElem?_eq_getElem bound, Option.some.injEq] at at_
  have same : bitAt rbsp pos = (byteAt rbsp (pos / 8)).toNat.testBit (7 - pos % 8) := by
    rw [bitAt, Nat.testBit, Nat.and_comm]
  rw [List.drop_eq_getElem_cons bound, at_, same]
  rfl

theorem leadingZeroBits_some {rbsp : Bytes} {left pos zeros bitOffset : Nat}
    (within : pos ≤ rbsp.length * 8)
    (counted : leadingZeroBits rbsp left pos = some (zeros, bitOffset)) :
    zeros ≤ left ∧
      ((∃ rest, (bitsOf rbsp).drop pos = List.replicate zeros false ++ true :: rest ∧
          (bitsOf rbsp).drop bitOffset = rest) ∨
        (bitOffset = rbsp.length * 8 ∧ pos + zeros = bitOffset)) := by
  induction left generalizing pos zeros with
  | zero =>
    rw [leadingZeroBits.eq_def] at counted
    split at counted
    · next inside =>
      have bits := bitAt_bits inside
      split at counted
      · next one =>
        cases counted
        rw [one] at bits
        exact ⟨le_refl 0, .inl ⟨_, bits, rfl⟩⟩
      · cases counted
    · cases counted
      exact ⟨le_refl 0, .inr ⟨by omega, by omega⟩⟩
  | succ left ih =>
    rw [leadingZeroBits.eq_def] at counted
    split at counted
    · next inside =>
      have bits := bitAt_bits inside
      split at counted
      · next one =>
        cases counted
        rw [one] at bits
        exact ⟨by omega, .inl ⟨_, bits, rfl⟩⟩
      · next zero =>
        rw [Bool.not_eq_true] at zero
        simp only [Option.map_eq_some_iff] at counted
        obtain ⟨⟨zeros', offset'⟩, later, same⟩ := counted
        cases same
        obtain ⟨few, stopped⟩ := ih (by omega) later
        constructor
        · omega
        · rcases stopped with ⟨rest, parts, behind⟩ | ⟨end_, total⟩
          · refine .inl ⟨rest, ?_, behind⟩
            rw [bits, zero, parts, List.replicate_succ, List.cons_append]
          · exact .inr ⟨end_, by omega⟩
    · cases counted
      exact ⟨by omega, .inr ⟨by omega, by omega⟩⟩

theorem readSuffix_some {rbsp : Bytes} {count pos value : Nat} {suffix : UInt32}
    (read : readSuffix rbsp count (UInt32.ofNat value) pos = some suffix) :
    count ≤ ((bitsOf rbsp).drop pos).length ∧
      suffix = UInt32.ofNat (valueFrom value (((bitsOf rbsp).drop pos).take count)) := by
  induction count generalizing pos value with
  | zero =>
    cases read
    exact ⟨Nat.zero_le _, by simp⟩
  | succ count ih =>
    rw [readSuffix] at read
    split at read
    · cases read
    · next inside =>
      have bits := bitAt_bits (by omega : pos < rbsp.length * 8)
      have bit : (if bitAt rbsp pos then 1 else 0) = (bitAt rbsp pos).toNat := by
        cases bitAt rbsp pos <;> rfl
      rw [← ofNat_bit, bit, shift_bit] at read
      obtain ⟨room, same⟩ := ih read
      rw [bits]
      constructor
      · rw [List.length_cons]
        omega
      · rw [same, List.take_succ_cons, valueFrom_cons]

/-- What the loader reads, it reads without a wide shift and without a wrapped sum, and the
    Python reader reads it of the same bits and any more. -/
theorem loader_bits {rbsp : Bytes} {zeros bitOffset : Nat} (nonempty : rbsp ≠ [])
    (counted : leadingZeroBits rbsp 31 0 = some (zeros, bitOffset)) :
    zeros < 32 ∧ ∀ suffix, readSuffix rbsp zeros 0 bitOffset = some suffix →
      ((1 <<< UInt32.ofNat zeros : UInt32) - (1 : UInt32)).toNat + suffix.toNat < 2 ^ 32 ∧
        ∀ more, ∃ mb, ExpGolomb.readUe (bitsOf (rbsp ++ more)) = some mb ∧ mb < 2 ^ 32 - 1 := by
  obtain ⟨few, stopped⟩ := leadingZeroBits_some (Nat.zero_le _) counted
  refine ⟨by omega, ?_⟩
  intro suffix read
  have zero : (0 : UInt32) = UInt32.ofNat 0 := rfl
  rw [zero] at read
  obtain ⟨room, same⟩ := readSuffix_some read
  have power : 2 ^ zeros ≤ 2 ^ 31 := Nat.pow_le_pow_right (by decide) few
  have some_ := Nat.two_pow_pos zeros
  have value : valueFrom 0 (((bitsOf rbsp).drop bitOffset).take zeros) < 2 ^ zeros := by
    have bound := valueFrom_lt 0 (((bitsOf rbsp).drop bitOffset).take zeros)
    rw [List.length_take, Nat.min_eq_left room] at bound
    omega
  constructor
  · have one : 1 ≤ 1 <<< zeros := by
      rw [Nat.one_shiftLeft]
      exact some_
    have mask : ((1 <<< UInt32.ofNat zeros : UInt32) - (1 : UInt32)).toNat = 2 ^ zeros - 1 := by
      have shifted : (1 <<< UInt32.ofNat zeros : UInt32) - (1 : UInt32) =
          UInt32.ofNat (1 <<< zeros - 1) := by
        rw [UInt32.ofNat_sub one, UInt32.ofNat_shiftLeft _ _ (by omega)]
        rfl
      rw [shifted, UInt32.toNat_ofNat', Nat.one_shiftLeft, Nat.mod_eq_of_lt]
      omega
    rw [mask, same, UInt32.toNat_ofNat', Nat.mod_eq_of_lt (by omega)]
    omega
  · intro more
    rcases stopped with ⟨rest, parts, behind⟩ | ⟨end_, total⟩
    · rw [List.drop_zero] at parts
      rw [behind] at room value
      have longer : zeros ≤ (rest ++ bitsOf more).length := by
        rw [List.length_append]
        omega
      have whole : bitsOf (rbsp ++ more) =
          List.replicate zeros false ++ true :: (rest ++ bitsOf more) := by
        rw [bitsOf_append, parts, List.append_assoc, List.cons_append]
      have taken : (rest ++ bitsOf more).take zeros = rest.take zeros :=
        List.take_append_of_le_length room
      refine ⟨_, by rw [whole, readUe_replicate longer], ?_⟩
      rw [taken]
      omega
    · -- all bits are zeros, so there is no suffix behind them
      have bytes := List.length_pos_of_ne_nil nonempty
      rw [List.length_drop, bitsOf_length, end_] at room
      omega

theorem readRbsp_some (byte : UInt8) (rest : Bytes) : readRbsp 32 (byte :: rest) ≠ [] := by
  obtain ⟨more, parts, complete | long⟩ := readRbsp_prefix 32 (byte :: rest)
  · rw [complete, List.append_nil] at parts
    rw [← parts]
    simp [rbspLoop]
  · intro empty
    rw [empty] at long
    exact absurd long (by decide)

theorem firstMbInSlice_written (long : Bool) (header : UInt8) {n : Nat} {rbsp : Bytes}
    {following : List Bool} (written : bitsOf rbsp = ueBits n ++ following) :
    firstMbInSlice (codeBytes long ++ header :: escape rbsp) = some n := by
  cases rbsp with
  | nil =>
    have empty := congrArg List.length written
    simp only [bitsOf_length, List.length_append, ueBits, List.length_replicate, lowBits_length,
      List.length_nil] at empty
    omega
  | cons byte rest =>
    have escaped : escape (byte :: rest) =
        byte :: escapeLoop (if byte = 0 then 1 else 0) rest := by
      simp [escape, escapeLoop]
    have whole := rbspFromEbsp_escape (byte :: rest)
    rw [escaped] at whole ⊢
    rw [firstMbInSlice_bits, whole, written, readUe_ueBits]

theorem readFirstMbInSlice_eq (long : Bool) (header byte : UInt8) (rest : Bytes) :
    readFirstMbInSlice (header :: byte :: rest) =
      (firstMbInSlice (codeBytes long ++ header :: byte :: rest)).bind fun mb =>
        if mb < 2 ^ 32 - 1 then some (UInt32.ofNat mb) else none := by
  have agrees : ∀ mb, firstMbInSlice (codeBytes long ++ header :: byte :: rest) = some mb →
      mb < 2 ^ 32 - 1 → readFirstMbInSlice (header :: byte :: rest) = some (UInt32.ofNat mb) := by
    intro mb decoded small
    have read := readFirstMbInSlice_of_python decoded small
    rwa [nalPayload_code] at read
  cases read : readFirstMbInSlice (header :: byte :: rest) with
  | none =>
    cases decoded : firstMbInSlice (codeBytes long ++ header :: byte :: rest) with
    | none => rfl
    | some mb =>
      have large : ¬ mb < 2 ^ 32 - 1 := by
        intro small
        rw [agrees mb decoded small] at read
        cases read
      rw [Option.bind_some, if_neg large]
  | some value =>
    have body : (header :: byte :: rest).drop 1 = byte :: rest := rfl
    have held := read
    simp only [readFirstMbInSlice, List.cons_ne_nil, if_false, body] at held
    cases counted : leadingZeroBits (readRbsp 32 (byte :: rest)) 31 0 with
    | none => simp [counted] at held
    | some c =>
      obtain ⟨zeros, bitOffset⟩ := c
      simp only [counted, Option.map_eq_some_iff] at held
      obtain ⟨suffix, suffixRead, _⟩ := held
      obtain ⟨more, split, _⟩ := readRbsp_prefix 32 (byte :: rest)
      obtain ⟨mb, bits, small⟩ := ((loader_bits (readRbsp_some byte rest) counted).2 suffix suffixRead).2 more
      have decoded : firstMbInSlice (codeBytes long ++ header :: byte :: rest) = some mb := by
        rw [firstMbInSlice_bits, rbspFromEbsp, split, bits]
      rw [agrees mb decoded small] at read
      rw [decoded, Option.bind_some, if_pos small, read]

/-- Python reads every number that an encoder writes, and on every NAL body of two bytes or more
    the loader reads the same below 2 ^ 32 - 1 and nothing otherwise, with shifts below 32 and a
    sum below 2 ^ 32. -/
theorem slice_headers_agree :
    (∀ (long : Bool) (header : UInt8) (n : Nat) (following : List Bool) (rbsp : Bytes),
      bitsOf rbsp = ueBits n ++ following →
        firstMbInSlice (codeBytes long ++ header :: escape rbsp) = some n) ∧
    ∀ (long : Bool) (header byte : UInt8) (rest : Bytes),
      readFirstMbInSlice (header :: byte :: rest) =
        ((firstMbInSlice (codeBytes long ++ header :: byte :: rest)).bind fun mb =>
          if mb < 2 ^ 32 - 1 then some (UInt32.ofNat mb) else none) ∧
      ∀ zeros bitOffset,
        leadingZeroBits (readRbsp 32 (byte :: rest)) 31 0 = some (zeros, bitOffset) →
          zeros < 32 ∧ ∀ suffix,
            readSuffix (readRbsp 32 (byte :: rest)) zeros 0 bitOffset = some suffix →
              ((1 <<< UInt32.ofNat zeros : UInt32) - (1 : UInt32)).toNat + suffix.toNat < 2 ^ 32 := by
  constructor
  · intro long header n following rbsp written
    exact firstMbInSlice_written long header written
  · intro long header byte rest
    refine ⟨readFirstMbInSlice_eq long header byte rest, ?_⟩
    intro zeros bitOffset counted
    obtain ⟨few, read⟩ := loader_bits (readRbsp_some byte rest) counted
    exact ⟨few, fun suffix suffixRead => (read suffix suffixRead).1⟩

/-- Twenty-four zeros on both sides of a one, with two escapes. -/
theorem escaped_header_read :
    firstMbInSlice
      ([0, 0, 0, 1] ++ 0x65 :: [0, 0, 3, 0, 0x80, 0, 0, 3, 0]) = some 16777215 :=
  slice_headers_agree.1 true 0x65 16777215 (List.replicate 7 false) [0, 0, 0, 0x80, 0, 0, 0]
    (by decide +kernel)

end HostSliceHeaders
