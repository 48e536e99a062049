import RoboVR.Client.Transport
import RoboVR.Lib.FrameReader
import RoboVR.Wire.SendLimits

/- The transport thread on connections that deliver bytes. What `receiveHostPackets` polls is read
   off the connection; everything else the thread does on it, the sends that may end it included,
   goes on as it does. -/
namespace QuestHostReader
open ByteStream FrameReader TracedRun
open QuestTeleop (Bytes PacketHeader kPacketHeaderSize unpackHeader)
open QuestSendLimits (acceptsHeader)
open QuestH264Decoder (Turn)
open QuestTransport (SendTurn Phase Acts goOn)

/-- What a round of `receiveHostPackets` reads; none where it returns false without a packet. -/
def readHostPacket (conn : Incoming) : Option (UInt16 × Bytes) × Incoming :=
  match conn.readExact kPacketHeaderSize with
  | (.data headerBytes, conn) =>
    let header := unpackHeader headerBytes
    if acceptsHeader header then
      match (if header.payloadSize ≠ 0 then conn.readExact header.payloadSize.toNat
        else (.data [], conn)) with
      | (.data payload, conn) => (some (header.type, payload), conn)
      | (_, conn) => (none, conn)
    else (none, conn)
  | (_, conn) => (none, conn)

structure Reader where
  thread : QuestTransport.State := {}
  incoming : Nat → Incoming

def Reader.leave (r : Reader) (conn : Nat) (rest : Incoming) : Reader :=
  { r with incoming := Function.update r.incoming conn rest }

@[simp] theorem leave_thread (r : Reader) (conn : Nat) (rest : Incoming) :
    (r.leave conn rest).thread = r.thread := rfl

@[simp] theorem leave_self (r : Reader) (conn : Nat) (rest : Incoming) :
    (r.leave conn rest).incoming conn = rest := by
  simp [Reader.leave]

theorem leave_other (r : Reader) {conn other : Nat} (rest : Incoming) (else_ : other ≠ conn) :
    (r.leave conn rest).incoming other = r.incoming other := by
  simp [Reader.leave, else_]

inductive Move where
  | thread (move : QuestTransport.Move)
  | receive (readable : Bool) (turn : Turn) (acks : List SendTurn)

inductive Event where
  | taken (conn : Nat) (packet : UInt16 × Bytes)
  | refused (conn : Nat)
  | thread (event : QuestTransport.Event)

section
variable (signedNan : Bool)

def onThread (r : Reader) (move : QuestTransport.Move) : Reader × List Event :=
  let moved := QuestTransport.step signedNan r.thread move
  ({ r with thread := moved.1 }, moved.2.map .thread)

def receive (r : Reader) (conn : Nat) (readable : Bool) (turn : Turn) (acks : List SendTurn) :
    Reader × List Event :=
  if readable then
    let read := readHostPacket (r.incoming conn)
    let behind := r.leave conn read.2
    match read.1 with
    | some packet =>
      let after := onThread signedNan behind (.receive (.packet packet.1 packet.2 turn acks))
      (after.1, .taken conn packet :: after.2)
    | none =>
      let after := onThread signedNan behind (.receive .refused)
      (after.1, .refused conn :: after.2)
  else onThread signedNan r (.receive .nothing)

/-- The rounds of `receiveHostPackets` are fed by the connection alone. -/
def step (r : Reader) : Move → Reader × List Event
  | .thread (.receive _) => (r, [])
  | .thread move => onThread signedNan r move
  | .receive readable turn acks =>
    match r.thread.phase with
    | .receiving conn => receive signedNan r conn readable turn acks
    | _ => (r, [])

end

def takenOf (conn : Nat) : Event → Option (UInt16 × Bytes)
  | .taken other packet => if other = conn then some packet else none
  | _ => none

def taken (conn : Nat) (trace : List Event) : List (UInt16 × Bytes) :=
  trace.filterMap (takenOf conn)

def Open (s : QuestTransport.State) (conn : Nat) : Prop :=
  s.phase.conn = some conn ∨ s.connections ≤ conn

/-- Nothing is left to read: the last round was refused, or all of it is read. -/
def ReadOut (r : Reader) (trace : List Event) (conn : Nat) : Prop :=
  .refused conn ∈ trace ∨ Open r.thread conn ∧ (r.incoming conn).pending = []

/- The packets in the bytes of a connection. -/

def acceptBytes (headerBytes : Bytes) : Option (PacketHeader × Nat) :=
  let header := unpackHeader headerBytes
  if acceptsHeader header then some (header, header.payloadSize.toNat) else none

def parsed (bytes : Bytes) : List (PacketHeader × Bytes) :=
  parse kPacketHeaderSize acceptBytes bytes

def typed (packet : PacketHeader × Bytes) : UInt16 × Bytes := (packet.1.type, packet.2)

def packetsIn (bytes : Bytes) : List (UInt16 × Bytes) := (parsed bytes).map typed

theorem readHostPacket_eq (conn : Incoming) :
    readHostPacket conn =
      match readFrame kPacketHeaderSize acceptBytes conn with
      | (.frame header payload, rest) => (some (header.type, payload), rest)
      | (_, rest) => (none, rest) := by
  unfold readHostPacket readFrame acceptBytes
  rcases conn.readExact kPacketHeaderSize with ⟨first, behind⟩
  cases first with
  | closed | failed => rfl
  | data headerBytes =>
    by_cases accepted : acceptsHeader (unpackHeader headerBytes) = true
    · simp only [if_pos accepted]
      by_cases zero : (unpackHeader headerBytes).payloadSize = 0
      · rw [if_neg (by simp [zero]), zero]
        rfl
      · rcases behind.readExact (unpackHeader headerBytes).payloadSize.toNat with ⟨second, final⟩
        cases second <;> simp [zero]
    · simp only [if_neg accepted]

theorem readHostPacket_packets (conn : Incoming) :
    packetsIn conn.pending = match (readHostPacket conn).1 with
      | some packet => packet :: packetsIn (readHostPacket conn).2.pending
      | none => [] := by
  rw [readHostPacket_eq]
  rcases read : readFrame kPacketHeaderSize acceptBytes conn with ⟨outcome, rest⟩
  cases outcome with
  | frame header payload =>
    simp only
    rw [packetsIn, parsed, readFrame_frame (by decide) read]
    rfl
  | refused | ended =>
    simp only
    rw [packetsIn, parsed, readFrame_other (by simp [read])]
    rfl

theorem packetsIn_front {some_ all : Bytes} (front : some_ <+: all) :
    packetsIn some_ <+: packetsIn all :=
  List.IsPrefix.map typed (parse_front (by decide) front)

/- What a run takes. -/

theorem goOn_conn (s : QuestTransport.State) (conn : Nat) (ok : Bool) (next : Phase) :
    (goOn s conn ok next).1.connections = s.connections ∧
      ((goOn s conn ok next).1.phase.conn = next.conn ∨
        (goOn s conn ok next).1.phase.conn = none) := by
  unfold goOn
  split
  · exact ⟨rfl, .inl rfl⟩
  · exact ⟨rfl, .inr rfl⟩

theorem acts_conn {signedNan : Bool} {s after : QuestTransport.State}
    {es : List QuestTransport.Event} (acts : Acts signedNan s after es) :
    (after.connections = s.connections ∧
        (after.phase.conn = s.phase.conn ∨ after.phase.conn = none)) ∨
      (after.connections = s.connections + 1 ∧ after.phase.conn = some s.connections) := by
  cases acts with
  | idle => exact .inl ⟨rfl, .inl rfl⟩
  | published sample => exact .inl ⟨rfl, .inl rfl⟩
  | stopped => exact .inl ⟨rfl, .inl rfl⟩
  | finished here => exact .inl ⟨rfl, .inr rfl⟩
  | connected nowNs hello here => exact .inr ⟨rfl, rfl⟩
  | moved here there unposed => exact .inl ⟨rfl, .inl (there.trans here.symm)⟩
  | left here => exact .inl ⟨rfl, .inr rfl⟩
  | acked here there unposed calls =>
    rw [here, ← there]
    exact .inl (goOn_conn _ _ _ _)
  | waited nowNs here early =>
    rw [here]
    exact .inl ⟨rfl, .inl rfl⟩
  | beaten here due sent kept =>
    rw [here]
    exact .inl (goOn_conn _ _ _ _)
  | unposed here empty =>
    rw [here]
    exact .inl ⟨rfl, .inl rfl⟩
  | posed here full sent =>
    rw [here]
    exact .inl (goOn_conn _ _ _ _)

theorem acts_open {signedNan : Bool} {s after : QuestTransport.State}
    {es : List QuestTransport.Event} (acts : Acts signedNan s after es)
    (made : ∀ conn, s.phase.conn = some conn → conn < s.connections) :
    (∀ conn, after.phase.conn = some conn → conn < after.connections) ∧
      ∀ conn, Open after conn → Open s conn := by
  unfold Open
  rcases acts_conn acts with ⟨count, same | gone⟩ | ⟨count, new⟩
  · rw [count, same]
    exact ⟨made, fun _ still => still⟩
  · rw [count, gone]
    exact ⟨by simp, fun _ still => .inr (still.resolve_left (by simp))⟩
  · rw [count, new]
    constructor
    · intro conn is
      cases is
      omega
    · intro conn still
      right
      rcases still with is | beyond
      · cases is
        exact Nat.le_refl _
      · omega

@[simp] theorem taken_append (conn : Nat) (past es : List Event) :
    taken conn (past ++ es) = taken conn past ++ taken conn es :=
  List.filterMap_append

@[simp] theorem taken_thread (conn : Nat) (es : List QuestTransport.Event) :
    taken conn (es.map .thread) = [] := by
  induction es with
  | nil => rfl
  | cons e es ih => exact ih

/-- Of each connection the packets at its front are taken. Those behind them are still there while
    it is open, and there are none once it is refused. -/
structure Reads (incoming : Nat → Incoming) (r : Reader) (past : List Event) : Prop where
  made : ∀ conn, r.thread.phase.conn = some conn → conn < r.thread.connections
  front : ∀ conn, taken conn past <+: packetsIn (incoming conn).pending
  ahead : ∀ conn, Open r.thread conn →
    taken conn past ++ packetsIn (r.incoming conn).pending = packetsIn (incoming conn).pending
  spent : ∀ conn, .refused conn ∈ past →
    taken conn past = packetsIn (incoming conn).pending

section
variable (signedNan : Bool) {incoming : Nat → Incoming}

theorem reads_start : Reads incoming { incoming := incoming } [] where
  made _ is := by simp [Phase.conn] at is
  front _ := List.nil_prefix
  ahead _ _ := rfl
  spent _ mem := absurd mem List.not_mem_nil

theorem reads_thread {r : Reader} {past : List Event} (reads : Reads incoming r past)
    (move : QuestTransport.Move) :
    Reads incoming (onThread signedNan r move).1 (past ++ (onThread signedNan r move).2) := by
  have acts := QuestTransport.step_acts signedNan r.thread move
  obtain ⟨made, open_⟩ := acts_open acts reads.made
  have same (conn : Nat) : taken conn (past ++ (onThread signedNan r move).2) =
      taken conn past := by
    rw [onThread, taken_append, taken_thread, List.append_nil]
  constructor
  · exact made
  · intro conn
    rw [same]
    exact reads.front conn
  · intro conn still
    rw [same]
    exact reads.ahead conn (open_ conn still)
  · intro conn mem
    rw [same]
    rcases List.mem_append.mp mem with old | new
    · exact reads.spent conn old
    · rw [onThread] at new
      obtain ⟨_, _, bad⟩ := List.mem_map.mp new
      cases bad

theorem reads_taken {r : Reader} {past : List Event} (reads : Reads incoming r past) {here : Nat}
    (on : r.thread.phase.conn = some here) {packet : UInt16 × Bytes} {rest : Incoming}
    (read : readHostPacket (r.incoming here) = (some packet, rest)) :
    Reads incoming (r.leave here rest) (past ++ [.taken here packet]) := by
  have found := readHostPacket_packets (r.incoming here)
  simp only [read] at found
  have ahead := reads.ahead here (.inl on)
  rw [found] at ahead
  have grown : taken here (past ++ [.taken here packet]) ++ packetsIn rest.pending =
      packetsIn (incoming here).pending := by
    rw [← ahead]
    simp [taken, takenOf]
  have other {conn : Nat} (else_ : conn ≠ here) :
      taken conn (past ++ [.taken here packet]) = taken conn past := by
    simp [taken, takenOf, else_.symm]
  constructor
  · exact reads.made
  · intro conn
    by_cases is : conn = here
    · rw [is, ← grown]
      exact List.prefix_append _ _
    · rw [other is]
      exact reads.front conn
  · intro conn still
    by_cases is : conn = here
    · rw [is, leave_self]
      exact grown
    · rw [other is, leave_other r rest is]
      exact reads.ahead conn still
  · intro conn mem
    have old : .refused conn ∈ past := by simpa using mem
    have spent := reads.spent conn old
    by_cases is : conn = here
    · subst is
      -- nothing is behind what was refused
      rw [← ahead] at spent
      simp at spent
    · rw [other is]
      exact spent

theorem reads_refused {r : Reader} {past : List Event} (reads : Reads incoming r past)
    {here : Nat} (at_ : r.thread.phase = .receiving here) {rest : Incoming}
    (read : readHostPacket (r.incoming here) = (none, rest)) :
    let after := onThread signedNan (r.leave here rest) (.receive .refused)
    Reads incoming after.1 (past ++ .refused here :: after.2) := by
  intro after
  have on : r.thread.phase.conn = some here := by rw [at_]; rfl
  have found := readHostPacket_packets (r.incoming here)
  simp only [read] at found
  have ahead := reads.ahead here (.inl on)
  rw [found, List.append_nil] at ahead
  have left : after = ({ r.leave here rest with thread := { r.thread with phase := .offline } },
      [.thread (.closed here)]) := by
    simp only [after, onThread, QuestTransport.step, leave_thread, at_]
    rfl
  have same (conn : Nat) : taken conn (past ++ [.refused here, .thread (.closed here)]) =
      taken conn past := by
    simp [taken, takenOf]
  rw [left]
  constructor
  · intro conn is
    simp [Phase.conn] at is
  · intro conn
    rw [same]
    exact reads.front conn
  · intro conn still
    have beyond : r.thread.connections ≤ conn := still.resolve_left (by simp [Phase.conn])
    have else_ : conn ≠ here := by
      have known := reads.made here on
      omega
    have kept : (r.leave here rest).incoming conn = r.incoming conn := leave_other r rest else_
    rw [same]
    simp only [kept]
    exact reads.ahead conn (.inr beyond)
  · intro conn mem
    rw [same]
    simp only [List.mem_append, List.mem_cons, List.not_mem_nil, reduceCtorEq, or_false,
      Event.refused.injEq] at mem
    rcases mem with old | rfl
    · exact reads.spent conn old
    · exact ahead

theorem reads_step (r : Reader) (past : List Event) (move : Move)
    (reads : Reads incoming r past) :
    Reads incoming (step signedNan r move).1 (past ++ (step signedNan r move).2) := by
  have idle : Reads incoming r (past ++ []) := by rwa [List.append_nil]
  cases move with
  | thread move =>
    cases move with
    | receive polled => exact idle
    | _ => exact reads_thread signedNan reads _
  | receive readable turn acks =>
    simp only [step]
    split
    · next here at_ =>
      have on : r.thread.phase.conn = some here := by rw [at_]; rfl
      unfold receive
      split
      · rcases read : readHostPacket (r.incoming here) with ⟨found, rest⟩
        cases found with
        | some packet =>
          have after := reads_thread signedNan (reads_taken reads on read)
            (.receive (.packet packet.1 packet.2 turn acks))
          rwa [List.append_assoc] at after
        | none => exact reads_refused signedNan reads at_ read
      · exact reads_thread signedNan reads _
    · exact idle

/-- In every run of the headset, what the thread has taken off a connection are the first of the
    packets in its bytes, and all of them once it is read out. -/
theorem run_taken (incoming : Nat → Incoming) (moves : List Move) (conn : Nat) :
    taken conn (run (step signedNan) { incoming := incoming } moves).2 <+:
        packetsIn (incoming conn).pending ∧
      (ReadOut (run (step signedNan) { incoming := incoming } moves).1
          (run (step signedNan) { incoming := incoming } moves).2 conn →
        taken conn (run (step signedNan) { incoming := incoming } moves).2 =
          packetsIn (incoming conn).pending) := by
  have start : Reads incoming { incoming := incoming } [] := reads_start
  have reads := run_invariant (reads_step signedNan) start moves
  rw [List.nil_append] at reads
  refine ⟨reads.front conn, ?_⟩
  rintro (refused | ⟨still, empty⟩)
  · exact reads.spent conn refused
  · have ahead := reads.ahead conn still
    rwa [empty, show packetsIn [] = [] from rfl, List.append_nil] at ahead

end

end QuestHostReader
