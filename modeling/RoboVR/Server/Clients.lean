import RoboVR.Server.Quest3Server

/- The server thread over one client after another: whatever they send, it goes back to accept,
   and its counters say what came. -/
namespace QuestServerClients
open ByteStream
open QuestTeleop (Bytes)
open QuestProtocol
open QuestKeyValue QuestNumber QuestPacketReader QuestServer

def serveConnection (id : Nat) (server : Quest3Server) (conn : Incoming) : Outcome :=
  (QuestServer.readConnection (setConnected { server with conn := some id } true) conn).map
    fun server => setConnected (bump { server with conn := none } .disconnects) false

/-- What the thread does with clients that come one after another, and whether it then waits for
    the next one. An exception ends it; `describe` is the text of the exception. -/
def runFrom (describe : PyError → Str) : Nat → Quest3Server → List Incoming → Bool × Quest3Server
  | _, server, [] => (true, server)
  | id, server, conn :: conns =>
    match serveConnection id server conn with
    | .ok server => runFrom describe (id + 1) server conns
    | .error (e, server) => (false, setConnected (recordError server (describe e)) false)

def run (describe : PyError → Str) (conns : List Incoming) : Bool × Quest3Server :=
  runFrom describe 0 {} conns

def typeKeys : List (StatKey × Int) :=
  [(.hello, PT_HELLO), (.heartbeat, PT_HEARTBEAT), (.pose, PT_POSE), (.stats, PT_STATS),
    (.goodbye, PT_GOODBYE), (.error, PT_ERROR)]

def logCount (log : ReadLog) (key : StatKey) : Nat :=
  (if key = .packets then log.handled.length else 0) +
    log.handled.countP (fun packet => (key, packet.packetType) ∈ typeKeys) +
    if key = .badPackets then log.badPackets else 0

theorem bump_stats (server : Quest3Server) (key other : StatKey) :
    (bump server key).stats other = server.stats other + if other = key then 1 else 0 := by
  unfold bump
  simp only [Function.update_apply]
  split
  · rename_i same
    rw [same]
  · rfl

theorem typeKeys_type {key : StatKey} {code : Int} (mem : (key, code) ∈ typeKeys) :
    key ≠ .packets ∧ key ≠ .badPackets ∧ key ≠ .disconnects := by
  have all : ∀ entry ∈ typeKeys,
      entry.1 ≠ .packets ∧ entry.1 ≠ .badPackets ∧ entry.1 ≠ .disconnects := by decide
  exact all (key, code) mem

theorem typeKeys_only {typed : StatKey} {code : Int} (mem : (typed, code) ∈ typeKeys)
    (key : StatKey) : (key, code) ∈ typeKeys ↔ key = typed := by
  have codes : ∀ one ∈ typeKeys, ∀ other ∈ typeKeys, one.2 = other.2 → one.1 = other.1 := by
    decide
  constructor
  · intro also
    exact codes _ also _ mem rfl
  · rintro rfl
    exact mem

theorem typeKeys_code {key : StatKey} {code other : Int} (one : (key, other) ∈ typeKeys)
    (mem : (key, code) ∈ typeKeys) : other = code := by
  have keys : ∀ one ∈ typeKeys, ∀ other ∈ typeKeys, one.1 = other.1 → one.2 = other.2 := by
    decide
  exact keys _ one _ mem rfl

theorem typed_counts {server : Quest3Server} {typed : StatKey} {code : Int}
    (mem : (typed, code) ∈ typeKeys) (key : StatKey) :
    (bump (bump server .packets) typed).stats key =
      server.stats key + (if key = .packets then 1 else 0) +
        if (key, code) ∈ typeKeys then 1 else 0 := by
  rw [bump_stats, bump_stats]
  simp only [typeKeys_only mem]

theorem handlePacket_counts (server : Quest3Server) (packet : Packet) :
    ∃ next, handlePacket server packet = .ok next ∧
      ∀ key, next.stats key = server.stats key + (if key = .packets then 1 else 0) +
        if (key, packet.packetType) ∈ typeKeys then 1 else 0 := by
  unfold handlePacket
  simp only
  split
  · rename_i hello
    exact ⟨_, rfl, fun key => typed_counts (by rw [hello]; decide) key⟩
  split
  · rename_i heartbeat
    exact ⟨_, rfl, fun key => typed_counts (by rw [heartbeat]; decide) key⟩
  split
  · rename_i pose
    obtain ⟨state, made⟩ := setPose_ok (bump (bump server .packets) .pose) packet.timestampNs
      (parseKeyValuePayload packet.payload)
    exact ⟨_, made, fun key => typed_counts (by rw [pose]; decide) key⟩
  split
  · rename_i stats
    split
    · exact ⟨_, rfl, fun key => typed_counts (by rw [stats]; decide) key⟩
    · exact ⟨_, rfl, fun key => typed_counts (by rw [stats]; decide) key⟩
  split
  · rename_i goodbye
    refine ⟨_, rfl, fun key => ?_⟩
    rw [setConnected_stats]
    exact typed_counts (by rw [goodbye]; decide) key
  split
  · rename_i error
    exact ⟨_, rfl, fun key => typed_counts (by rw [error]; decide) key⟩
  · refine ⟨_, rfl, fun key => ?_⟩
    have none_ : (key, packet.packetType) ∉ typeKeys := by
      intro mem
      simp only [typeKeys, List.mem_cons, Prod.mk.injEq, List.not_mem_nil, or_false] at mem
      tauto
    rw [bump_stats, if_neg none_, Nat.add_zero]

theorem readConnectionFrom_counts (rounds : Nat) (server : Quest3Server) (conn : Incoming) :
    ∃ next, QuestServer.readConnectionFrom rounds server conn = .ok next ∧
      ∀ key, next.stats key =
        server.stats key + logCount (QuestPacketReader.readConnectionFrom rounds conn) key := by
  induction rounds generalizing server conn with
  | zero => exact ⟨server, rfl, fun key => by simp [logCount, QuestPacketReader.readConnectionFrom]⟩
  | succ rounds ih =>
    have quiet : ∀ key, server.stats key =
        server.stats key + logCount { handled := [], badPackets := 0 } key := by
      intro key
      simp [logCount]
    have bad : ∀ key, (bump server .badPackets).stats key =
        server.stats key + logCount { handled := [], badPackets := 1 } key := by
      intro key
      rw [bump_stats]
      simp [logCount]
    unfold QuestServer.readConnectionFrom QuestPacketReader.readConnectionFrom
    rcases recvall conn (ByteRecord.size PACKET_HEADER) with ⟨received, behind⟩
    cases received with
    | closed => exact ⟨server, rfl, quiet⟩
    | failed => exact ⟨server, rfl, quiet⟩
    | data headerBytes =>
      simp only
      cases unpackPacketHeader headerBytes with
      | none => exact ⟨_, rfl, bad⟩
      | some header =>
        simp only
        split
        · exact ⟨_, rfl, bad⟩
        · rcases (if header.payloadSize ≠ 0 then recvall behind header.payloadSize.toNat
            else (.data [], behind)) with ⟨content, after⟩
          cases content with
          | closed => exact ⟨server, rfl, quiet⟩
          | failed => exact ⟨server, rfl, quiet⟩
          | data payload =>
            obtain ⟨next, handled, counts⟩ := handlePacket_counts server
              { packetType := header.packetType, timestampNs := header.timestampNs,
                payload := payload }
            obtain ⟨last, read, more⟩ := ih next after
            simp only [handled]
            refine ⟨last, read, fun key => ?_⟩
            rw [more, counts]
            simp only [logCount, List.length_cons, List.countP_cons, decide_eq_true_eq]
            split <;> omega

theorem readConnection_ok (server : Quest3Server) (conn : Incoming) :
    ∃ next, QuestServer.readConnection server conn = .ok next := by
  obtain ⟨next, read, _⟩ := readConnectionFrom_counts (conn.pending.length + 1) server conn
  exact ⟨next, read⟩

abbrev Parsed := List WirePacket × Bytes

def ParsedAs (conn : Incoming) (parsed : Parsed) : Prop :=
  conn.pending = wire WirePacket.bytes parsed.1 ++ parsed.2 ∧ NoFrame WirePacket.bytes parsed.2

def parsedCount (parsed : Parsed) (key : StatKey) : Nat :=
  (if key = .packets then parsed.1.length else 0) +
    parsed.1.countP (fun packet => (key, packet.packet.packetType) ∈ typeKeys) +
    (if key = .badPackets ∧ BadHeader parsed.2 then 1 else 0) +
    if key = .disconnects then 1 else 0

theorem untyped_count {key : StatKey} (untyped : ∀ code, (key, code) ∉ typeKeys)
    (packets : List WirePacket) :
    packets.countP (fun packet => (key, packet.packet.packetType) ∈ typeKeys) = 0 := by
  rw [List.countP_eq_zero]
  intro packet _ typed
  exact untyped _ (of_decide_eq_true typed)

theorem parsedCount_packets (parsed : Parsed) : parsedCount parsed .packets = parsed.1.length := by
  rw [parsedCount, untyped_count fun code mem => (typeKeys_type mem).1 rfl]
  simp

theorem parsedCount_badPackets (parsed : Parsed) :
    parsedCount parsed .badPackets = if BadHeader parsed.2 then 1 else 0 := by
  rw [parsedCount, untyped_count fun code mem => (typeKeys_type mem).2.1 rfl]
  simp

theorem parsedCount_disconnects (parsed : Parsed) : parsedCount parsed .disconnects = 1 := by
  rw [parsedCount, untyped_count fun code mem => (typeKeys_type mem).2.2 rfl]
  simp

theorem parsedCount_typed {key : StatKey} {code : Int} (mem : (key, code) ∈ typeKeys)
    (parsed : Parsed) :
    parsedCount parsed key = parsed.1.countP fun packet => packet.packet.packetType = code := by
  obtain ⟨notPackets, notBad, notDisconnects⟩ := typeKeys_type mem
  have same : ∀ packet : WirePacket, (key, packet.packet.packetType) ∈ typeKeys ↔
      packet.packet.packetType = code := by
    intro packet
    constructor
    · exact fun also => typeKeys_code also mem
    · rintro rfl
      exact mem
  rw [parsedCount, if_neg notPackets, if_neg fun bad => notBad bad.1, if_neg notDisconnects]
  simp only [same, Nat.zero_add, Nat.add_zero]

theorem serveConnection_counts (id : Nat) (server : Quest3Server) (conn : Incoming) :
    ∃ next parsed, serveConnection id server conn = .ok next ∧ ParsedAs conn parsed ∧
      (∀ key, next.stats key = server.stats key + parsedCount parsed key) ∧
      isConnected next = false := by
  obtain ⟨packets, rest, split, last, log⟩ :=
    readConnectionFrom_framed (Nat.lt_succ_self conn.pending.length)
  obtain ⟨next, read, counts⟩ := readConnectionFrom_counts (conn.pending.length + 1)
    (setConnected { server with conn := some id } true) conn
  refine ⟨_, (packets, rest), by rw [serveConnection, QuestServer.readConnection, read]; rfl,
    ⟨split, last⟩, fun key => ?_, setConnected_connected _ _⟩
  rw [setConnected_stats, bump_stats, counts, log, setConnected_stats]
  simp only [logCount, parsedCount, List.length_map, List.countP_map, Function.comp_def, ite_and]
  omega

theorem runFrom_counts (describe : PyError → Str) (id : Nat) (server : Quest3Server)
    (conns : List Incoming) (down : isConnected server = false) :
    ∃ next parsed, runFrom describe id server conns = (true, next) ∧
      List.Forall₂ ParsedAs conns parsed ∧
      (∀ key, next.stats key =
        server.stats key + (parsed.map fun one => parsedCount one key).sum) ∧
      isConnected next = false := by
  induction conns generalizing id server with
  | nil => exact ⟨server, [], rfl, .nil, fun key => by simp, down⟩
  | cons conn conns ih =>
    obtain ⟨middle, one, served, parsedOne, countsOne, downOne⟩ :=
      serveConnection_counts id server conn
    obtain ⟨last, others, ran, parsedOthers, countsOthers, downLast⟩ := ih (id + 1) middle downOne
    refine ⟨last, one :: others, ?_, .cons parsedOne parsedOthers, fun key => ?_, downLast⟩
    · rw [runFrom, served]
      exact ran
    · rw [countsOthers, countsOne, List.map_cons, List.sum_cons, Nat.add_assoc]

theorem sum_indicator {α : Type} (P : α → Prop) [DecidablePred P] (xs : List α) :
    (xs.map fun x => if P x then 1 else 0).sum = xs.countP fun x => P x := by
  induction xs with
  | nil => rfl
  | cons x xs ih =>
    rw [List.map_cons, List.sum_cons, ih, List.countP_cons, Nat.add_comm]
    simp

/-- No client ends the thread, and the counters are those of what the clients sent. -/
theorem survives_any_client (describe : PyError → Str) (conns : List Incoming) :
    (∀ server packet, ∃ next, handlePacket server packet = .ok next) ∧
    (∀ server conn, ∃ next, QuestServer.readConnection server conn = .ok next) ∧
    ∃ (server : Quest3Server) (parsed : List Parsed),
      run describe conns = (true, server) ∧
      List.Forall₂ ParsedAs conns parsed ∧
      server.stats .disconnects = conns.length ∧
      server.stats .badPackets = parsed.countP (fun one => BadHeader one.2) ∧
      server.stats .packets = (parsed.flatMap Prod.fst).length ∧
      (∀ key code, (key, code) ∈ typeKeys →
        server.stats key =
          (parsed.flatMap Prod.fst).countP fun packet => packet.packet.packetType = code) ∧
      isConnected server = false := by
  obtain ⟨server, parsed, ran, streams, counts, down⟩ := runFrom_counts describe 0 {} conns rfl
  refine ⟨fun server packet => ?_, readConnection_ok, server, parsed, ran, streams, ?_, ?_, ?_,
    fun key code mem => ?_, down⟩
  · obtain ⟨next, handled, _⟩ := handlePacket_counts server packet
    exact ⟨next, handled⟩
  all_goals
    rw [counts]
    simp only [Nat.zero_add]
  · simp only [parsedCount_disconnects, List.map_const', List.sum_replicate, streams.length_eq,
      smul_eq_mul, Nat.mul_one]
  · simp only [parsedCount_badPackets]
    exact sum_indicator _ parsed
  · simp only [parsedCount_packets, List.length_flatMap]
  · simp only [parsedCount_typed mem, List.countP_flatMap, Function.comp_def]

end QuestServerClients
