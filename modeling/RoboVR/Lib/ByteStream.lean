import Mathlib

/- Byte streams over a connection. A stream arrives in pieces of any size and is read by
   exact reads; it is written in pieces that the connection may cut or refuse. Frames that
   carry their own length are recovered from what has arrived, whatever the pieces. -/
namespace ByteStream

/-- What a connection will still deliver, and whether an error or an orderly close ends it. -/
structure Incoming where
  segments : List (List UInt8)
  arrived : ∀ segment ∈ segments, segment ≠ []
  broken : Bool

def Incoming.pending (conn : Incoming) : List UInt8 := conn.segments.flatten

inductive Received where
  | data (bytes : List UInt8)
  | closed
  | failed
  deriving DecidableEq

def Incoming.ended (conn : Incoming) : Received := if conn.broken then .failed else .closed

theorem arrived_rest {segment : List UInt8} {later : List (List UInt8)} (n : Nat)
    (arrived : ∀ s ∈ segment :: later, s ≠ []) :
    ∀ s ∈ (if n < segment.length then segment.drop n :: later else later), s ≠ [] := by
  intro s mem
  split at mem
  · next inside =>
    rcases List.mem_cons.mp mem with rfl | tail
    · intro empty
      rw [List.drop_eq_nil_iff] at empty
      omega
    · exact arrived s (List.mem_cons_of_mem _ tail)
  · exact arrived s (List.mem_cons_of_mem _ mem)

def Incoming.recv (conn : Incoming) (n : Nat) : Received × Incoming :=
  match conn with
  | { segments := [], arrived, broken } =>
    (Incoming.ended { segments := [], arrived, broken }, { segments := [], arrived, broken })
  | { segments := segment :: later, arrived, broken } =>
    (.data (segment.take n),
      { segments := if n < segment.length then segment.drop n :: later else later
        arrived := arrived_rest n arrived
        broken := broken })

/-- Reads until `size` bytes are there. Each read adds a byte, so `size` rounds suffice. -/
def Incoming.readFrom : Nat → Incoming → Nat → List UInt8 → Received × Incoming
  | 0, conn, _, chunks => (.data chunks, conn)
  | rounds + 1, conn, size, chunks =>
    if chunks.length < size then
      match conn.recv (size - chunks.length) with
      | (.data bytes, conn) => conn.readFrom rounds size (chunks ++ bytes)
      | (stop, conn) => (stop, conn)
    else (.data chunks, conn)

def Incoming.readExact (conn : Incoming) (size : Nat) : Received × Incoming :=
  conn.readFrom size size []

theorem recv_nil {conn : Incoming} (n : Nat) (empty : conn.segments = []) :
    conn.recv n = (conn.ended, conn) := by
  obtain ⟨segments, arrived, broken⟩ := conn
  simp only at empty
  subst empty
  rfl

theorem recv_cons {conn : Incoming} {segment : List UInt8} {later : List (List UInt8)} (n : Nat)
    (more : conn.segments = segment :: later) (positive : 0 < n) :
    ∃ bytes rest, conn.recv n = (.data bytes, rest) ∧ bytes ≠ [] ∧ bytes.length ≤ n ∧
      conn.pending = bytes ++ rest.pending ∧ rest.broken = conn.broken := by
  obtain ⟨segments, arrived, broken⟩ := conn
  simp only at more
  subst more
  have nonempty := arrived segment (by simp)
  refine ⟨segment.take n, _, rfl, ?_, by simp, ?_, rfl⟩
  · intro empty
    rw [List.take_eq_nil_iff] at empty
    rcases empty with zero | nil
    · omega
    · exact nonempty nil
  · simp only [Incoming.pending, List.flatten_cons]
    split
    · rw [List.flatten_cons, ← List.append_assoc, List.take_append_drop]
    · rw [List.take_of_length_le (by omega)]

theorem readFrom_enough (rounds size : Nat) (conn : Incoming) (chunks : List UInt8)
    (time : size ≤ rounds + chunks.length) (enough : size ≤ chunks.length + conn.pending.length)
    (inside : chunks.length ≤ size) :
    ∃ rest, conn.readFrom rounds size chunks =
        (.data (chunks ++ conn.pending.take (size - chunks.length)), rest) ∧
      rest.pending = conn.pending.drop (size - chunks.length) ∧ rest.broken = conn.broken := by
  induction rounds generalizing conn chunks with
  | zero =>
    have none_left : size - chunks.length = 0 := by omega
    rw [none_left]
    exact ⟨conn, by simp [Incoming.readFrom], rfl, rfl⟩
  | succ rounds ih =>
    by_cases short : chunks.length < size
    · cases split : conn.segments with
      | nil =>
        have empty : conn.pending = [] := by rw [Incoming.pending, split]; rfl
        rw [empty] at enough
        simp only [List.length_nil] at enough
        omega
      | cons segment later =>
        obtain ⟨bytes, next, read, nonempty, bounded, parts, same⟩ :=
          recv_cons (size - chunks.length) split (by omega)
        have grows := List.length_pos_iff.mpr nonempty
        have total : conn.pending.length = bytes.length + next.pending.length := by
          rw [parts, List.length_append]
        obtain ⟨rest, result, left, kept⟩ := ih next (chunks ++ bytes)
          (by simp only [List.length_append]; omega) (by simp only [List.length_append]; omega)
          (by simp only [List.length_append]; omega)
        have remaining : size - (chunks ++ bytes).length = size - chunks.length - bytes.length := by
          rw [List.length_append]; omega
        refine ⟨rest, ?_, ?_, kept.trans same⟩
        · simp only [Incoming.readFrom, if_pos short, read, result, remaining]
          rw [parts, List.take_append, List.take_of_length_le bounded, List.append_assoc]
        · rw [left, remaining, parts, List.drop_append, List.drop_of_length_le bounded,
            List.nil_append]
    · have none_left : size - chunks.length = 0 := by omega
      rw [none_left]
      exact ⟨conn, by simp [Incoming.readFrom, short], rfl, rfl⟩

theorem readFrom_short {rounds size : Nat} {conn : Incoming} {chunks : List UInt8}
    (time : size ≤ rounds + chunks.length)
    (short : chunks.length + conn.pending.length < size) :
    (conn.readFrom rounds size chunks).1 = conn.ended := by
  induction rounds generalizing conn chunks with
  | zero => omega
  | succ rounds ih =>
    have below : chunks.length < size := by omega
    cases split : conn.segments with
    | nil =>
      simp only [Incoming.readFrom, if_pos below, recv_nil _ split]
      unfold Incoming.ended
      cases conn.broken <;> rfl
    | cons segment later =>
      obtain ⟨bytes, next, read, nonempty, bounded, parts, same⟩ :=
        recv_cons (size - chunks.length) split (by omega)
      have grows := List.length_pos_iff.mpr nonempty
      have total : conn.pending.length = bytes.length + next.pending.length := by
        rw [parts, List.length_append]
      simp only [Incoming.readFrom, if_pos below, read]
      rw [ih (by simp only [List.length_append]; omega)
        (by simp only [List.length_append]; omega), Incoming.ended, Incoming.ended, same]

theorem readExact_enough {size : Nat} {conn : Incoming} (enough : size ≤ conn.pending.length) :
    ∃ rest, conn.readExact size = (.data (conn.pending.take size), rest) ∧
      rest.pending = conn.pending.drop size ∧ rest.broken = conn.broken := by
  have result := readFrom_enough size size conn []
    (by simp) (by simpa using enough) (by simp)
  simpa [Incoming.readExact] using result

theorem readExact_short {size : Nat} {conn : Incoming} (short : conn.pending.length < size) :
    ∃ stop next, conn.readExact size = (stop, next) ∧ (stop = .closed ∨ stop = .failed) := by
  have ended : (conn.readExact size).1 = conn.ended := by
    apply readFrom_short
    · simp
    · simpa using short
  refine ⟨conn.ended, (conn.readExact size).2, by rw [← ended], ?_⟩
  unfold Incoming.ended
  split <;> simp

/- Writing. -/
section Writing

inductive SendResult where
  | sent (n : Nat)
  | interrupted
  | failed
  deriving DecidableEq

structure Written where
  bytes : List UInt8
  ok : Bool
  left : List SendResult

/-- Writes until everything is out or a write fails; no results left counts as a failure. -/
def writeExact : List SendResult → List UInt8 → Written
  | results, [] => { bytes := [], ok := true, left := results }
  | [], _ :: _ => { bytes := [], ok := false, left := [] }
  | .sent n :: results, b :: bs =>
    let more := writeExact results ((b :: bs).drop n)
    { more with bytes := (b :: bs).take n ++ more.bytes }
  | .interrupted :: results, b :: bs => writeExact results (b :: bs)
  | .failed :: results, _ :: _ => { bytes := [], ok := false, left := results }

theorem writeExact_spec (results : List SendResult) (bytes : List UInt8) :
    (writeExact results bytes).bytes <+: bytes ∧
      ((writeExact results bytes).ok = true ↔ (writeExact results bytes).bytes = bytes) := by
  induction results generalizing bytes with
  | nil => cases bytes <;> simp [writeExact]
  | cons result results ih =>
    cases bytes with
    | nil => simp [writeExact]
    | cons b bs =>
      cases result with
      | sent n =>
        obtain ⟨before, exact_⟩ := ih ((b :: bs).drop n)
        simp only [writeExact]
        constructor
        · conv => rhs; rw [← List.take_append_drop n (b :: bs)]
          exact (List.prefix_append_right_inj _).mpr before
        · rw [exact_]
          conv => rhs; rhs; rw [← List.take_append_drop n (b :: bs)]
          exact (List.append_right_inj _).symm
      | interrupted => simpa only [writeExact] using ih (b :: bs)
      | failed => simp [writeExact]

theorem writeExact_sent {bytes : List UInt8} (results : List SendResult) (nonempty : bytes ≠ []) :
    writeExact (.sent bytes.length :: results) bytes =
      { bytes := bytes, ok := true, left := results } := by
  cases bytes with
  | nil => exact absurd rfl nonempty
  | cons b bs => simp [writeExact]

end Writing

/- Frames that begin with enough to know where they end. -/
section Frames
variable {P : Type} (encode : P → List UInt8)

/-- No encoding is the beginning of another one. -/
def SelfDelimiting : Prop :=
  ∀ p q r s, encode p ++ r = encode q ++ s → p = q

def wire (frames : List P) : List UInt8 := (frames.map encode).flatten

def NoFrame (rest : List UInt8) : Prop := ∀ p tail, rest ≠ encode p ++ tail

@[simp] theorem wire_nil : wire encode [] = [] := rfl

@[simp] theorem wire_cons (p : P) (frames : List P) :
    wire encode (p :: frames) = encode p ++ wire encode frames := rfl

theorem wire_append (as bs : List P) : wire encode (as ++ bs) = wire encode as ++ wire encode bs := by
  simp [wire]

theorem frames_longest (delimiting : SelfDelimiting encode) {frames others : List P}
    {rest tail : List UInt8} (last : NoFrame encode rest)
    (same : wire encode frames ++ rest = wire encode others ++ tail) : others <+: frames := by
  induction others generalizing frames with
  | nil => exact List.nil_prefix
  | cons q others ih =>
    cases frames with
    | nil =>
      rw [wire_nil, List.nil_append, wire_cons, List.append_assoc] at same
      exact absurd same (last q _)
    | cons p frames =>
      rw [wire_cons, wire_cons, List.append_assoc, List.append_assoc] at same
      have equal := delimiting p q _ _ same
      subst equal
      rw [List.append_cancel_left_eq] at same
      exact List.cons_prefix_cons.mpr ⟨rfl, ih same⟩

end Frames

end ByteStream
