import RoboVR.Lib.ByteStream

/- Frames with a header of fixed size that says how much follows it. What a reader gets of a
   stream depends on the bytes that arrive and not on the pieces in which they do. -/
namespace FrameReader
open ByteStream

variable {H : Type} (size : Nat) (accept : List UInt8 → Option (H × Nat))

/-- The first frame of some bytes, and what is behind it. -/
def parseFrame (bytes : List UInt8) : Option ((H × List UInt8) × List UInt8) :=
  if size ≤ bytes.length then
    match accept (bytes.take size) with
    | some (header, n) =>
      if n ≤ (bytes.drop size).length then
        some ((header, (bytes.drop size).take n), (bytes.drop size).drop n)
      else none
    | none => none
  else none

def parseFrom : Nat → List UInt8 → List (H × List UInt8)
  | 0, _ => []
  | rounds + 1, bytes =>
    match parseFrame size accept bytes with
    | some (frame, behind) => frame :: parseFrom rounds behind
    | none => []

def parse (bytes : List UInt8) : List (H × List UInt8) := parseFrom size accept bytes.length bytes

inductive Outcome (H : Type) where
  | frame (header : H) (payload : List UInt8)
  | refused
  | ended

def readFrame (conn : Incoming) : Outcome H × Incoming :=
  match conn.readExact size with
  | (.data headerBytes, conn) =>
    match accept headerBytes with
    | some (header, n) =>
      match conn.readExact n with
      | (.data payload, conn) => (.frame header payload, conn)
      | (_, conn) => (.ended, conn)
    | none => (.refused, conn)
  | (_, conn) => (.ended, conn)

variable {size accept}

theorem parseFrame_some {bytes behind : List UInt8} {header : H} {payload : List UInt8} :
    parseFrame size accept bytes = some ((header, payload), behind) ↔
      ∃ headerBytes, headerBytes.length = size ∧
        accept headerBytes = some (header, payload.length) ∧
        bytes = headerBytes ++ payload ++ behind := by
  constructor
  · intro parsed
    unfold parseFrame at parsed
    split at parsed
    · next enough =>
      split at parsed
      · next header' n accepted =>
        split at parsed
        · next inside =>
          simp only [Option.some.injEq, Prod.mk.injEq] at parsed
          obtain ⟨⟨rfl, rfl⟩, rfl⟩ := parsed
          refine ⟨bytes.take size, List.length_take_of_le enough, ?_, ?_⟩
          · rw [List.length_take_of_le inside]
            exact accepted
          · rw [List.append_assoc, List.take_append_drop, List.take_append_drop]
        · exact absurd parsed (by simp)
      · exact absurd parsed (by simp)
    · exact absurd parsed (by simp)
  · rintro ⟨headerBytes, rfl, accepted, rfl⟩
    have head : (headerBytes ++ payload ++ behind).take headerBytes.length = headerBytes := by
      rw [List.append_assoc, List.take_left]
    have rest : (headerBytes ++ payload ++ behind).drop headerBytes.length = payload ++ behind := by
      rw [List.append_assoc, List.drop_left]
    unfold parseFrame
    rw [if_pos (by simp only [List.length_append]; omega), head, accepted, rest]
    simp

theorem parseFrame_shorter {bytes behind : List UInt8} {frame : H × List UInt8}
    (positive : 0 < size) (parsed : parseFrame size accept bytes = some (frame, behind)) :
    behind.length < bytes.length := by
  obtain ⟨headerBytes, long, _, rfl⟩ := parseFrame_some.mp parsed
  simp only [List.length_append]
  omega

theorem parseFrom_enough (positive : 0 < size) {rounds more : Nat} {bytes : List UInt8}
    (enough : bytes.length ≤ rounds) :
    parseFrom size accept (rounds + more) bytes = parseFrom size accept rounds bytes := by
  induction rounds generalizing bytes with
  | zero =>
    cases more with
    | zero => rfl
    | succ more =>
      have empty : bytes = [] := List.length_eq_zero_iff.mp (by omega)
      have none_ : parseFrame size accept bytes = none := by
        rw [empty, parseFrame, if_neg (by simp only [List.length_nil]; omega)]
      simp only [parseFrom, none_]
  | succ rounds ih =>
    rw [Nat.add_right_comm, parseFrom, parseFrom]
    split
    · next parsed =>
      have shorter := parseFrame_shorter positive parsed
      rw [ih (by omega)]
    · rfl

theorem parse_cons (positive : 0 < size) {bytes behind : List UInt8} {frame : H × List UInt8}
    (parsed : parseFrame size accept bytes = some (frame, behind)) :
    parse size accept bytes = frame :: parse size accept behind := by
  have shorter := parseFrame_shorter positive parsed
  obtain ⟨rounds, length⟩ := Nat.exists_eq_add_of_lt shorter
  rw [parse, length, parseFrom, parsed]
  simp only
  rw [parseFrom_enough positive (Nat.le_refl _)]
  rfl

theorem parse_none {bytes : List UInt8} (stop : parseFrame size accept bytes = none) :
    parse size accept bytes = [] := by
  rw [parse]
  cases bytes.length with
  | zero => rfl
  | succ rounds => rw [parseFrom, stop]

/-- The frames of a beginning are the first ones of the whole. -/
theorem parse_front (positive : 0 < size) {some_ all : List UInt8} (front : some_ <+: all) :
    parse size accept some_ <+: parse size accept all := by
  induction length : some_.length using Nat.strongRecOn generalizing some_ all with
  | ind n ih =>
    obtain ⟨more, rfl⟩ := front
    cases parsed : parseFrame size accept some_ with
    | none =>
      rw [parse_none parsed]
      exact List.nil_prefix
    | some found =>
      obtain ⟨⟨header, payload⟩, behind⟩ := found
      have shorter := parseFrame_shorter positive parsed
      obtain ⟨headerBytes, long, accepted, split⟩ := parseFrame_some.mp parsed
      have whole : parseFrame size accept (some_ ++ more) =
          some ((header, payload), behind ++ more) := by
        refine parseFrame_some.mpr ⟨headerBytes, long, accepted, ?_⟩
        rw [split, List.append_assoc]
      rw [parse_cons positive parsed, parse_cons positive whole]
      have later := ih behind.length (by omega) (List.prefix_append behind more) rfl
      exact List.cons_prefix_cons.mpr ⟨rfl, later⟩

/-- A frame that is not all there is none. -/
theorem parse_part {bytes missing behind : List UInt8} {frame : H × List UInt8}
    (whole : parseFrame size accept (bytes ++ missing) = some (frame, behind))
    (short : behind.length < missing.length) : parse size accept bytes = [] := by
  apply parse_none
  cases parsed : parseFrame size accept bytes with
  | none => rfl
  | some found =>
    exfalso
    obtain ⟨⟨header, payload⟩, rest⟩ := found
    obtain ⟨headerBytes, long, accepted, split⟩ := parseFrame_some.mp parsed
    have again : parseFrame size accept (bytes ++ missing) =
        some ((header, payload), rest ++ missing) := by
      refine parseFrame_some.mpr ⟨headerBytes, long, accepted, ?_⟩
      rw [split, List.append_assoc]
    rw [again] at whole
    simp only [Option.some.injEq, Prod.mk.injEq] at whole
    have lengths := congrArg List.length whole.2
    rw [List.length_append] at lengths
    omega

theorem readFrame_parse (conn : Incoming) :
    match parseFrame size accept conn.pending with
    | some ((header, payload), behind) =>
      ∃ rest, readFrame size accept conn = (.frame header payload, rest) ∧ rest.pending = behind
    | none => ∀ header payload, (readFrame size accept conn).1 ≠ .frame header payload := by
  unfold parseFrame readFrame
  split
  · next found shape =>
    split at shape
    · next enough =>
      obtain ⟨rest, read, left, _⟩ := readExact_enough enough
      rw [read]
      split at shape
      · next header' n accepted =>
        split at shape
        · next inside =>
          simp only [Option.some.injEq, Prod.mk.injEq] at shape
          obtain ⟨⟨rfl, rfl⟩, rfl⟩ := shape
          rw [← left] at inside ⊢
          obtain ⟨final, body, behind, _⟩ := readExact_enough inside
          simp only [accepted, body]
          exact ⟨final, rfl, behind⟩
        · exact absurd shape (by simp)
      · exact absurd shape (by simp)
    · exact absurd shape (by simp)
  · next shape =>
    intro header payload
    by_cases enough : size ≤ conn.pending.length
    · obtain ⟨rest, read, left, _⟩ := readExact_enough enough
      rw [if_pos enough] at shape
      rw [read]
      simp only
      split
      · next header' n accepted =>
        rw [accepted] at shape
        simp only at shape
        have outside : rest.pending.length < n := by
          rw [left]
          by_contra inside
          rw [if_pos (by omega)] at shape
          exact absurd shape (by simp)
        obtain ⟨stop, next_, body, ended⟩ := readExact_short outside
        rw [body]
        rcases ended with rfl | rfl <;> simp
      · simp
    · obtain ⟨stop, next_, read, ended⟩ := readExact_short (Nat.lt_of_not_le enough)
      rw [read]
      rcases ended with rfl | rfl <;> simp

theorem readFrame_parsed {conn rest : Incoming} {header : H} {payload : List UInt8}
    (read : readFrame size accept conn = (.frame header payload, rest)) :
    parseFrame size accept conn.pending = some ((header, payload), rest.pending) := by
  have found := @readFrame_parse H size accept conn
  split at found
  · next parsed =>
    obtain ⟨rest', read', rfl⟩ := found
    rw [read] at read'
    simp only [Prod.mk.injEq, Outcome.frame.injEq] at read'
    obtain ⟨⟨rfl, rfl⟩, rfl⟩ := read'
    exact parsed
  · exact absurd (congrArg Prod.fst read) (found header payload)

theorem readFrame_frame (positive : 0 < size) {conn rest : Incoming} {header : H}
    {payload : List UInt8} (read : readFrame size accept conn = (.frame header payload, rest)) :
    parse size accept conn.pending = (header, payload) :: parse size accept rest.pending :=
  parse_cons positive (readFrame_parsed read)

theorem readFrame_other {conn : Incoming}
    (other : ∀ header payload, (readFrame size accept conn).1 ≠ .frame header payload) :
    parse size accept conn.pending = [] := by
  have found := @readFrame_parse H size accept conn
  split at found
  · next header payload _ _ =>
    obtain ⟨rest, read, _⟩ := found
    exact absurd (congrArg Prod.fst read) (other header payload)
  · next none_ => exact parse_none none_

theorem parse_refused {headerBytes rest : List UInt8} (long : headerBytes.length = size)
    (refused : accept headerBytes = none) : parse size accept (headerBytes ++ rest) = [] := by
  apply parse_none
  subst long
  rw [parseFrame, List.take_left, refused]
  split <;> rfl

/- What a sender writes, packet by packet. Some of it the reader may refuse. -/

/-- The header of a packet is taken iff the packet is, and announces the payload. -/
structure Coded (size : Nat) (accept : List UInt8 → Option (H × Nat)) (headerBytes : List UInt8)
    (ok : Bool) (frame : H × List UInt8) : Prop where
  long : headerBytes.length = size
  accepts : accept headerBytes = if ok then some (frame.1, frame.2.length) else none

section
variable {headerBytes : List UInt8} {ok : Bool} {frame : H × List UInt8}

theorem parse_coded (positive : 0 < size) (coded : Coded size accept headerBytes ok frame)
    (tail : List UInt8) :
    parse size accept (headerBytes ++ frame.2 ++ tail) =
      if ok then frame :: parse size accept tail else [] := by
  have accepts := coded.accepts
  split
  · next taken =>
    rw [if_pos taken] at accepts
    exact parse_cons positive (parseFrame_some.mpr ⟨headerBytes, coded.long, accepts, rfl⟩)
  · next refused =>
    rw [if_neg refused] at accepts
    rw [List.append_assoc]
    exact parse_refused coded.long accepts

theorem parse_cut (positive : 0 < size) (coded : Coded size accept headerBytes ok frame)
    {part : List UInt8} (front : part <+: headerBytes ++ frame.2)
    (short : part ≠ headerBytes ++ frame.2) : parse size accept part = [] := by
  obtain ⟨missing, whole⟩ := front
  have more : missing ≠ [] := by
    rintro rfl
    exact short (by rw [← whole, List.append_nil])
  have all := parse_coded positive coded []
  rw [List.append_nil, ← whole] at all
  cases ok with
  | true =>
    have one : parseFrame size accept (part ++ missing) = some (frame, []) := by
      apply parseFrame_some.mpr
      exact ⟨headerBytes, coded.long, coded.accepts, by rw [whole, List.append_nil]⟩
    exact parse_part one (List.length_pos_iff.mpr more)
  | false =>
    have inside : parse size accept part <+: parse size accept (part ++ missing) :=
      parse_front positive (List.prefix_append part missing)
    rw [all] at inside
    exact List.prefix_nil.mp inside

end

/-- The packets of a stream are read up to the first that is refused. -/
theorem parse_packets {P : Type} {headerOf : P → List UInt8} {ok : P → Bool}
    {frameOf : P → H × List UInt8} (positive : 0 < size) {packets : List P}
    (coded : ∀ p ∈ packets, Coded size accept (headerOf p) (ok p) (frameOf p))
    {tail : List UInt8} (last : parse size accept tail = []) :
    parse size accept (wire (fun p => headerOf p ++ (frameOf p).2) packets ++ tail) =
      (packets.takeWhile ok).map frameOf := by
  induction packets with
  | nil => exact last
  | cons p packets ih =>
    have later := ih fun q mem => coded q (List.mem_cons_of_mem p mem)
    rw [wire_cons, List.append_assoc, parse_coded positive (coded p List.mem_cons_self)]
    by_cases taken : ok p = true
    · rw [if_pos taken, later, List.takeWhile_cons_of_pos taken]
      rfl
    · rw [if_neg taken, List.takeWhile_cons_of_neg taken]
      rfl

end FrameReader
