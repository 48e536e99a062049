import RoboVR.AnnexB.StartCode

/- The slice header fields that decide picture boundaries: NAL type and
   first_mb_in_slice. Python integers are unbounded, so values are Nat;
   EOFError is `none`. -/
namespace AnnexBSliceHeader
open AnnexBStartCode

def nalPayload (nal : Bytes) : Bytes :=
  let size := startCodeSize nal 0
  if size ≠ 0 then nal.drop size else nal

/-- The loop of `_rbsp_from_ebsp`: `zeros` counts the zero bytes just copied. -/
def rbspLoop : Nat → Bytes → Bytes
  | _, [] => []
  | zeros, byte :: rest =>
    if 2 ≤ zeros ∧ byte = 0x03 then rbspLoop 0 rest
    else byte :: rbspLoop (if byte = 0 then zeros + 1 else 0) rest

def rbspFromEbsp (ebsp : Bytes) : Bytes := rbspLoop 0 ebsp

structure BitReader where
  data : Bytes
  bitPos : Nat
  deriving DecidableEq, Repr

def BitReader.readBit (r : BitReader) : Option (Nat × BitReader) :=
  if r.data.length * 8 ≤ r.bitPos then none
  else
    let byte := r.data.getD (r.bitPos / 8) 0
    some ((byte.toNat >>> (7 - r.bitPos % 8)) &&& 1, { r with bitPos := r.bitPos + 1 })

def BitReader.readBitsFrom : Nat → Nat → BitReader → Option (Nat × BitReader)
  | value, 0, r => some (value, r)
  | value, count + 1, r =>
    match r.readBit with
    | none => none
    | some (bit, r) => BitReader.readBitsFrom ((value <<< 1) ||| bit) count r

def BitReader.readBits (r : BitReader) (count : Nat) : Option (Nat × BitReader) :=
  r.readBitsFrom 0 count

def BitReader.countZeros : Nat → BitReader → Option (Nat × BitReader)
  | 0, _ => none
  | fuel + 1, r =>
    match r.readBit with
    | none => none
    | some (0, r) => (BitReader.countZeros fuel r).map fun c => (c.1 + 1, c.2)
    | some (_, r) => some (0, r)

def BitReader.unread (r : BitReader) : Nat := r.data.length * 8 - r.bitPos

/-- `read_ue`. The zeros end before the data does, or EOFError ends them. -/
def BitReader.readUe (r : BitReader) : Option (Nat × BitReader) :=
  match r.countZeros (r.unread + 1) with
  | none => none
  | some (0, r) => some (0, r)
  | some (zeros, r) => (r.readBits zeros).map fun c => (1 <<< zeros - 1 + c.1, c.2)

def firstMbInSlice (nal : Bytes) : Option Nat :=
  let payload := nalPayload nal
  if payload.length < 2 then none
  else (BitReader.readUe ⟨rbspFromEbsp (payload.drop 1), 0⟩).map Prod.fst

theorem readBit_unread {r r' : BitReader} {bit : Nat} (read : r.readBit = some (bit, r')) :
    r'.unread + 1 = r.unread := by
  unfold BitReader.readBit at read
  split at read
  · contradiction
  · obtain ⟨_, rfl⟩ := Prod.mk.inj (Option.some.inj read)
    simp only [BitReader.unread]
    omega

theorem countZeros_enough {fuel : Nat} {r : BitReader} (enough : r.unread < fuel) :
    r.countZeros fuel = r.countZeros (r.unread + 1) := by
  induction fuel generalizing r with
  | zero => omega
  | succ fuel ih =>
    simp only [BitReader.countZeros]
    cases read : r.readBit with
    | none => rfl
    | some next =>
      obtain ⟨bit, r'⟩ := next
      have progress := readBit_unread read
      cases bit with
      | zero => simp only [ih (by omega : r'.unread < fuel), progress]
      | succ bit => rfl

/-- The byte after the start code. Code-only NALs have none and read 0. -/
def headerByte (nal : Bytes) : Nat := (nal.getD (startCodeSize nal 0) 0).toNat

def nalType (nal : Bytes) : Nat := headerByte nal &&& 0x1F

def isVcl (nal : Bytes) : Bool := 1 ≤ nalType nal && nalType nal ≤ 5

def startsNewAu (nal : Bytes) : Bool :=
  nalType nal == 9 || (isVcl nal && firstMbInSlice nal == some 0)

/-- What `_process_nal` drops: no start code, or nothing after it. -/
def codeOnly (nal : Bytes) : Bool :=
  startCodeSize nal 0 == 0 || nal.length ≤ startCodeSize nal 0

theorem nalPayload_of_code {nal : Bytes} (marked : headCode nal ≠ 0) :
    nalPayload nal = nal.drop (headCode nal) := by
  simp [nalPayload, marked]

theorem headerByte_eq (nal : Bytes) :
    headerByte nal = ((nal.drop (headCode nal)).getD 0 0).toNat := by
  simp [headerByte, List.getD]

theorem codeOnly_iff {nal : Bytes} (marked : headCode nal ≠ 0) :
    codeOnly nal = true ↔ nal.drop (headCode nal) = [] := by
  simp [codeOnly, marked]

theorem same_payload_same_role {a b : Bytes} (ha : headCode a ≠ 0) (hb : headCode b ≠ 0)
    (same : a.drop (headCode a) = b.drop (headCode b)) :
    isVcl a = isVcl b ∧ nalType a = nalType b ∧ startsNewAu a = startsNewAu b ∧
      codeOnly a = codeOnly b := by
  have type : nalType a = nalType b := by rw [nalType, nalType, headerByte_eq, headerByte_eq, same]
  have vcl : isVcl a = isVcl b := by rw [isVcl, isVcl, type]
  have mb : firstMbInSlice a = firstMbInSlice b := by
    rw [firstMbInSlice, firstMbInSlice, nalPayload_of_code ha, nalPayload_of_code hb, same]
  refine ⟨vcl, type, by rw [startsNewAu, startsNewAu, type, vcl, mb], ?_⟩
  rw [Bool.eq_iff_iff, codeOnly_iff ha, codeOnly_iff hb, same]

end AnnexBSliceHeader
