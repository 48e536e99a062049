import RoboVR.Bridge.Descriptors
import RoboVR.Client.Delivery

/- What the bridge's packet callback gets of a connection: the packets that its client's bytes
   begin with, all of them unless `stop` cuts the connection off. -/
namespace HostReading
open ByteStream FrameReader TracedRun HostTcpServer HostDescriptors
open QuestTeleop (Bytes PacketHeader kPacketHeaderSize unpackHeader)
open QuestPacketReader (Message)

def acceptBytes (headerBytes : Bytes) : Option (PacketHeader × Nat) :=
  let header := unpackHeader headerBytes
  if acceptsHeader header then some (header, header.payloadSize.toNat) else none

theorem readPacket_eq (conn : Incoming) :
    readPacket conn = readFrame kPacketHeaderSize acceptBytes conn := by
  unfold readPacket readFrame acceptBytes
  rcases conn.readExact kPacketHeaderSize with ⟨first, behind⟩
  cases first with
  | closed | failed => rfl
  | data headerBytes =>
    by_cases accepted : acceptsHeader (unpackHeader headerBytes) = true
    · simp only [if_pos accepted]
      by_cases zero : (unpackHeader headerBytes).payloadSize = 0
      · rw [if_neg (by simp [zero]), zero]
        rfl
      · rcases behind.readExact (unpackHeader headerBytes).payloadSize.toNat with ⟨second, final⟩
        cases second <;> simp [zero]
    · simp only [if_neg accepted]

def packetsOn (conn : Nat) : Event → Option (PacketHeader × Bytes)
  | .packet other packet => if other = conn then some (packet.header, packet.payload) else none
  | _ => none

def packets (conn : Nat) (past : List Event) : List (PacketHeader × Bytes) :=
  past.filterMap (packetsOn conn)

def parsed (bytes : Bytes) : List (PacketHeader × Bytes) :=
  parse kPacketHeaderSize acceptBytes bytes

/-- The connection that the worker will still read. -/
def unheard : Worker → Option Client
  | .accepted client | .serving client | .reading client => some client
  | _ => none

structure Hearing (s : State) (past : List Event) : Prop where
  unmade : ∀ conn, s.connections ≤ conn → packets conn past = [] ∧
    ∀ fd incoming, .accepted fd conn incoming ∉ past
  one : ∀ conn fd fd' incoming incoming', .accepted fd conn incoming ∈ past →
    .accepted fd' conn incoming' ∈ past → incoming = incoming'
  rest : ∀ client, unheard s.worker = some client → ∃ fd incoming,
    .accepted fd client.conn incoming ∈ past ∧
      parsed incoming.pending = packets client.conn past ++ parsed client.incoming.pending
  front : ∀ fd conn incoming, .accepted fd conn incoming ∈ past →
    packets conn past <+: parsed incoming.pending
  calm : .stopping ∉ past → s.running = true ∨ s.worker = .absent
  whole : .stopping ∉ past → ∀ fd conn incoming, .accepted fd conn incoming ∈ past →
    (∀ client, unheard s.worker = some client → client.conn ≠ conn) →
    packets conn past = parsed incoming.pending

theorem packets_append (conn : Nat) (past es : List Event) :
    packets conn (past ++ es) = packets conn past ++ packets conn es := List.filterMap_append

def isHeard : Event → Bool
  | .packet _ _ | .accepted _ _ _ => true
  | _ => false

def Deaf (es : List Event) : Prop := ∀ e ∈ es, isHeard e = false

theorem deaf_packets {es : List Event} (deaf : Deaf es) (conn : Nat) (past : List Event) :
    packets conn (past ++ es) = packets conn past := by
  have none_ : packets conn es = [] :=
    List.filterMap_eq_nil_iff.mpr fun e mem => by
      have plain := deaf e mem
      cases e <;> first | rfl | exact absurd plain (by simp [isHeard])
  rw [packets_append, none_, List.append_nil]

theorem deaf_accepted {es : List Event} (deaf : Deaf es) {fd conn : Nat} {incoming : Incoming}
    {past : List Event} : .accepted fd conn incoming ∈ past ++ es ↔
      .accepted fd conn incoming ∈ past := by
  constructor
  · intro mem
    rcases List.mem_append.mp mem with old | new
    · exact old
    · exact absurd (deaf _ new) (by simp [isHeard])
  · exact List.mem_append_left _

theorem hearing_deaf {s after : State} {past es : List Event} (hearing : Hearing s past)
    (deaf : Deaf es) (connections : after.connections = s.connections)
    (kept : unheard after.worker = unheard s.worker ∨
      unheard after.worker = none ∧ ∀ client, unheard s.worker = some client →
        .stopping ∉ past ++ es → parsed client.incoming.pending = [])
    (calm : .stopping ∉ past ++ es → after.running = true ∨ after.worker = .absent) :
    Hearing after (past ++ es) := by
  have earlier : .stopping ∉ past ++ es → .stopping ∉ past :=
    fun none_ mem => none_ (List.mem_append_left _ mem)
  constructor
  · intro conn beyond
    rw [connections] at beyond
    rw [deaf_packets deaf]
    refine ⟨(hearing.unmade conn beyond).1, fun fd incoming mem => ?_⟩
    exact (hearing.unmade conn beyond).2 fd incoming ((deaf_accepted deaf).mp mem)
  · intro conn fd fd' incoming incoming' mem mem'
    exact hearing.one conn fd fd' incoming incoming' ((deaf_accepted deaf).mp mem)
      ((deaf_accepted deaf).mp mem')
  · intro client there
    rcases kept with same | ⟨gone, _⟩
    · rw [same] at there
      obtain ⟨fd, incoming, mem, split⟩ := hearing.rest client there
      rw [deaf_packets deaf]
      exact ⟨fd, incoming, (deaf_accepted deaf).mpr mem, split⟩
    · rw [gone] at there
      exact absurd there (by simp)
  · intro fd conn incoming mem
    rw [deaf_packets deaf]
    exact hearing.front fd conn incoming ((deaf_accepted deaf).mp mem)
  · exact calm
  · intro none_ fd conn incoming mem elsewhere
    have old := (deaf_accepted deaf).mp mem
    rw [deaf_packets deaf]
    rcases kept with same | ⟨gone, finished⟩
    · rw [same] at elsewhere
      exact hearing.whole (earlier none_) fd conn incoming old elsewhere
    · by_cases left : ∃ client, unheard s.worker = some client ∧ client.conn = conn
      · obtain ⟨client, there, rfl⟩ := left
        obtain ⟨fd', incoming', mem', split⟩ := hearing.rest client there
        rw [hearing.one _ _ _ _ _ old mem', split, finished client there none_, List.append_nil]
      · apply hearing.whole (earlier none_) fd conn incoming old
        intro client there same
        exact left ⟨client, there, same⟩

theorem hearing_start : Hearing {} [] := by
  constructor
  · exact fun _ _ => ⟨rfl, by simp⟩
  · simp
  · simp [unheard]
  · simp
  · simp
  · simp

theorem running_calm {s after : State} {past es : List Event} (hearing : Hearing s past)
    (running : after.running = s.running) (absent : after.worker = .absent ↔ s.worker = .absent)
    (none_ : .stopping ∉ past ++ es) : after.running = true ∨ after.worker = .absent := by
  rw [running, absent]
  exact hearing.calm fun mem => none_ (List.mem_append_left _ mem)

theorem hearing_accepted {s : State} {past : List Event} {fd : Nat} {incoming : Incoming}
    (hearing : Hearing s past) (here : s.worker = .accepting) :
    Hearing { openSocket s fd (.client s.connections) with
        worker := .accepted { fd := fd, conn := s.connections, incoming := incoming }
        connections := s.connections + 1 }
      (past ++ [.accepted fd s.connections incoming]) := by
  have same : ∀ conn, packets conn (past ++ [.accepted fd s.connections incoming]) =
      packets conn past := by
    intro conn
    rw [packets_append]
    simp [packets, packetsOn]
  obtain ⟨none_, new⟩ := hearing.unmade s.connections (Nat.le_refl _)
  have which : ∀ fd' conn incoming', Event.accepted fd' conn incoming' ∈
      past ++ [.accepted fd s.connections incoming] →
        .accepted fd' conn incoming' ∈ past ∨ conn = s.connections ∧ incoming' = incoming := by
    intro fd' conn incoming' mem
    rcases List.mem_append.mp mem with old | last
    · exact .inl old
    · have equal := List.mem_singleton.mp last
      simp only [Event.accepted.injEq] at equal
      exact .inr equal.2
  constructor
  · intro conn beyond
    change s.connections + 1 ≤ conn at beyond
    rw [same]
    refine ⟨(hearing.unmade conn (by omega)).1, fun fd' incoming' mem => ?_⟩
    rcases which fd' conn incoming' mem with old | last
    · exact (hearing.unmade conn (by omega)).2 fd' incoming' old
    · omega
  · intro conn fd' fd'' incoming' incoming'' mem mem'
    rcases which _ _ _ mem with old | ⟨isNew, rfl⟩
    · rcases which _ _ _ mem' with old' | ⟨isNew, _⟩
      · exact hearing.one _ _ _ _ _ old old'
      · rw [isNew] at old
        exact absurd old (new _ _)
    · rcases which _ _ _ mem' with old' | ⟨_, rfl⟩
      · rw [isNew] at old'
        exact absurd old' (new _ _)
      · rfl
  · intro client there
    simp only [unheard, Option.some.injEq] at there
    subst there
    refine ⟨fd, incoming, by simp, ?_⟩
    rw [same, none_, List.nil_append]
  · intro fd' conn incoming' mem
    rw [same]
    rcases which _ _ _ mem with old | ⟨rfl, rfl⟩
    · exact hearing.front _ _ _ old
    · rw [none_]
      exact List.nil_prefix
  · intro quiet
    exact running_calm hearing rfl (by simp [here]) quiet
  · intro quiet fd' conn incoming' mem elsewhere
    rw [same]
    rcases which _ _ _ mem with old | ⟨rfl, rfl⟩
    · apply hearing.whole (fun inside => quiet (List.mem_append_left _ inside)) _ _ _ old
      rw [here]
      simp [unheard]
    · exact absurd rfl (elsewhere _ rfl)

theorem hearing_received {s : State} {past : List Event} {client : Client} {header : PacketHeader}
    {payload : Bytes} {rest : Incoming} (hearing : Hearing s past)
    (here : s.worker = .reading client)
    (read : readPacket client.incoming = (.frame header payload, rest)) :
    Hearing { s with worker := .serving { client with incoming := rest } }
      (past ++ [.packet client.conn { header := header, payload := payload }]) := by
  have takes : parsed client.incoming.pending = (header, payload) :: parsed rest.pending := by
    rw [readPacket_eq] at read
    exact readFrame_frame (by decide) read
  have keeps : ∀ fd conn incoming, Event.accepted fd conn incoming ∈
      past ++ [.packet client.conn { header := header, payload := payload }] ↔
        .accepted fd conn incoming ∈ past := by simp
  have own : packets client.conn
      (past ++ [.packet client.conn { header := header, payload := payload }]) =
        packets client.conn past ++ [(header, payload)] := by
    rw [packets_append]
    simp [packets, packetsOn]
  have other : ∀ conn, conn ≠ client.conn → packets conn
      (past ++ [.packet client.conn { header := header, payload := payload }]) =
        packets conn past := by
    intro conn ne
    rw [packets_append]
    simp [packets, packetsOn, ne.symm]
  obtain ⟨fd, incoming, mem, split⟩ := hearing.rest client (by rw [here]; rfl)
  rw [takes] at split
  constructor
  · intro conn beyond
    have ne : conn ≠ client.conn := by
      rintro rfl
      exact (hearing.unmade _ beyond).2 fd incoming mem
    rw [other conn ne]
    refine ⟨(hearing.unmade conn beyond).1, fun fd' incoming' there => ?_⟩
    exact (hearing.unmade conn beyond).2 fd' incoming' ((keeps _ _ _).mp there)
  · intro conn fd' fd'' incoming' incoming'' first second
    exact hearing.one _ _ _ _ _ ((keeps _ _ _).mp first) ((keeps _ _ _).mp second)
  · intro now there
    simp only [unheard, Option.some.injEq] at there
    subst there
    refine ⟨fd, incoming, (keeps _ _ _).mpr mem, ?_⟩
    rw [own, split, List.append_assoc]
    rfl
  · intro fd' conn incoming' there
    have old := (keeps _ _ _).mp there
    by_cases same : conn = client.conn
    · subst same
      rw [own, hearing.one _ _ _ _ _ old mem, split]
      exact ⟨parsed rest.pending, by simp⟩
    · rw [other conn same]
      exact hearing.front _ _ _ old
  · exact running_calm hearing rfl (by simp [here])
  · intro quiet fd' conn incoming' there elsewhere
    have old := (keeps _ _ _).mp there
    have ne : conn ≠ client.conn := fun same => elsewhere _ rfl same.symm
    rw [other conn ne]
    apply hearing.whole (fun inside => quiet (List.mem_append_left _ inside)) _ _ _ old
    rw [here]
    intro now is
    rw [← Option.some.inj is]
    exact ne.symm

theorem refused_done {s : State} {past es : List Event} {client : Client} (inv : Inv s past)
    (hearing : Hearing s past) (here : s.worker = .reading client)
    (reason : s.sockets client.fd = some (.client client.conn) →
      ∀ header payload, (readPacket client.incoming).1 ≠ .frame header payload)
    (quiet : .stopping ∉ past ++ es) : parsed client.incoming.pending = [] := by
  have earlier : .stopping ∉ past := fun mem => quiet (List.mem_append_left _ mem)
  have running : s.running = true := (hearing.calm earlier).resolve_right (by simp [here])
  have free := (inv.control.on running).1
  have live : s.sockets client.fd = some (.client client.conn) := by
    cases client_ : s.clientFd with
    | none =>
      have dropped := inv.serving.dropped (by simp [here, stored]) client_
      rw [free] at dropped
      exact absurd dropped (by simp)
    | some fd =>
      obtain ⟨conn, there, socket⟩ := inv.table.client fd client_
      rw [here] at there
      simp only [stored, Option.some.injEq, Prod.mk.injEq] at there
      rw [there.1, there.2]
      exact socket
  have other := reason live
  rw [readPacket_eq] at other
  exact readFrame_other other

theorem deaf_closeClient (s : State) : Deaf (closeClient s).2 := by
  intro e mem
  unfold closeClient at mem
  split at mem
  · rw [List.mem_singleton.mp mem]
    rfl
  · exact absurd mem (by simp)

theorem deaf_closeListener (s : State) : Deaf (closeListener s).2 := by
  intro e mem
  unfold closeListener at mem
  split at mem
  · rw [List.mem_singleton.mp mem]
    rfl
  · exact absurd mem (by simp)

theorem hearing_same {s after : State} {past es : List Event} (hearing : Hearing s past)
    (deaf : Deaf es) (connections : after.connections = s.connections)
    (running : after.running = s.running) (worker : after.worker = s.worker) :
    Hearing after (past ++ es) := by
  apply hearing_deaf hearing deaf connections (.inl (by rw [worker]))
  exact running_calm hearing running (by rw [worker])

theorem hearing_step {s after : State} {past es : List Event} (inv : Inv s past)
    (hearing : Hearing s past) (acts : Acts s after es) : Hearing after (past ++ es) := by
  have gone {client : Client} (here : s.worker = .leaving client) : unheard s.worker = none := by
    rw [here]
    rfl
  cases acts with
  | idle => exact hearing_same hearing (by simp [Deaf]) rfl rfl rfl
  | returned | unopened | unbound =>
    exact hearing_same hearing (by simp [Deaf, isHeard]) rfl rfl rfl
  | @started fd event free off unused event_ kind =>
    have deaf : Deaf [.opened fd, event] := by
      rcases kind with rfl | rfl <;> simp [Deaf, isHeard]
    refine hearing_deaf hearing deaf rfl (.inl ?_) (fun _ => .inl rfl)
    rw [(inv.control.off free off).1]
    rfl
  | stopping =>
    exact hearing_deaf hearing (by simp [Deaf, isHeard]) rfl (.inl rfl) (by simp)
  | closedClient =>
    apply hearing_same hearing (deaf_closeClient s) <;> unfold closeClient <;> split <;> rfl
  | closedListener =>
    apply hearing_same hearing (deaf_closeListener s) <;> unfold closeListener <;> split <;> rfl
  | joined here done =>
    refine hearing_deaf hearing (by simp [Deaf, isHeard]) rfl (.inl ?_) (fun _ => .inr rfl)
    simp only
    rcases done with done | done
    · rw [done]
      rfl
    · rw [done]
  | checked here =>
    refine hearing_deaf hearing (by simp [Deaf]) rfl (.inl ?_) ?_
    · rw [here]
      simp only
      split <;> rfl
    · refine running_calm hearing rfl ?_
      rw [here]
      simp only
      split <;> simp
  | unaccepted here =>
    refine hearing_deaf hearing ?_ rfl (.inl ?_) (running_calm hearing rfl ?_)
    · unfold acceptFails
      split <;> simp [Deaf, isHeard]
    · rw [here]
      rfl
    · simp [here, acceptFails]
  | accepted here => exact hearing_accepted hearing here
  | @stored client here quiet =>
    rw [closeClient_none (inv.table.unstored (by rw [here]; rfl))]
    refine hearing_deaf hearing (by simp [Deaf, isHeard]) rfl (.inl ?_)
      (running_calm hearing rfl (by simp [here]))
    rw [here]
    rfl
  | @served client here =>
    have calm : .stopping ∉ past ++ [] → s.running = true := by
      intro none_
      rw [List.append_nil] at none_
      exact (hearing.calm none_).resolve_right (by simp [here])
    by_cases running : s.running = true
    · refine hearing_deaf hearing (by simp [Deaf]) rfl (.inl ?_) (fun _ => .inl running)
      rw [here]
      simp only [if_pos running]
      rfl
    · refine hearing_deaf hearing (by simp [Deaf]) rfl (.inr ⟨?_, ?_⟩) ?_
      · simp only [if_neg running]
        rfl
      · exact fun _ _ none_ => absurd (calm none_) running
      · exact fun none_ => absurd (calm none_) running
  | received here live read => exact hearing_received hearing here read
  | @refused client rest es here reason events =>
    have deaf : Deaf es := by rcases events with rfl | rfl <;> simp [Deaf, isHeard]
    refine hearing_deaf hearing deaf rfl (.inr ⟨rfl, ?_⟩) (running_calm hearing rfl (by simp [here]))
    intro other there quiet
    rw [here] at there
    rw [← Option.some.inj there]
    exact refused_done inv hearing here reason quiet
  | left here quiet own =>
    rw [closeClient_some own]
    refine hearing_deaf hearing (by simp [Deaf, isHeard]) rfl (.inl ?_)
      (running_calm hearing rfl (by simp [here]))
    rw [gone here]
    rfl
  | leftClosed here =>
    refine hearing_deaf hearing (by simp [Deaf, isHeard]) rfl (.inl ?_)
      (running_calm hearing rfl (by simp [here]))
    rw [gone here]
    rfl
  | numbered => exact hearing_same hearing (by simp [Deaf]) rfl rfl rfl
  | unsent | headed | finished =>
    exact hearing_same hearing (by simp [Deaf, isHeard]) rfl rfl rfl

theorem run_hearing (moves : List Move) :
    Hearing (run step {} moves).1 (run step {} moves).2 := by
  have kept : ∀ s past move, Inv s past ∧ Hearing s past →
      Inv (step s move).1 (past ++ (step s move).2) ∧
        Hearing (step s move).1 (past ++ (step s move).2) :=
    fun s past move both =>
      ⟨inv_step s past move both.1, hearing_step both.1 both.2 (step_acts s move)⟩
  exact (run_invariant kept ⟨inv_start, hearing_start⟩ moves).2

/- The headset at the other end. -/

theorem message_coded {m : Message} (small : m.payload.length ≤ 16 * 1024 * 1024) :
    Coded kPacketHeaderSize acceptBytes (QuestTeleop.packHeader m.header) true
      (m.header, m.payload) := by
  have size : m.header.payloadSize.toNat = m.payload.length := by
    simp only [Message.header, QuestTeleop.makePacketHeader, UInt32.toNat_ofNat']
    omega
  have fits : ¬ m.header.payloadSize > kMaxPayloadSize := by
    rw [gt_iff_lt, UInt32.lt_iff_toNat_lt, size, Nat.not_lt]
    exact small
  have known : QuestTeleop.isKnownPacketType m.header.type = true :=
    QuestTeleop.isKnownPacketType_code m.type
  have accepted : acceptsHeader m.header = true := by
    simp only [acceptsHeader, known, fits, decide_eq_true_eq]
    simp [Message.header, QuestTeleop.makePacketHeader]
  have whole := QuestTeleop.unpackHeader_packHeader m.header []
  rw [List.append_nil] at whole
  refine ⟨QuestTeleop.packHeader_length _, ?_⟩
  simp only [acceptBytes, whole, if_pos accepted, size]
  rfl

def heardOf (sent : List QuestTransport.SendCall) : List (PacketHeader × Bytes) :=
  (sent.filter fun call => call.ok).map fun call => (call.message.header, call.message.payload)

theorem parsed_framed {signedNan : Bool} {published : List QuestPosePayload.HeadPoseSample}
    {sent : List QuestTransport.SendCall}
    (known : ∀ call ∈ sent, QuestDelivery.Known signedNan published call)
    (framed : Framing.Framed (sent.map QuestOutgoing.attempt)) :
    parsed (Framing.stream (sent.map QuestOutgoing.attempt)) = heardOf sent := by
  obtain ⟨part, split, short⟩ := Framing.framed_stream framed
  have coded {call : QuestTransport.SendCall} (mem : call ∈ sent) :=
    message_coded ((known call mem).small.trans (by norm_num))
  have last : parsed part = [] := by
    rcases short with rfl | ⟨a, mem, front, cut⟩
    · rfl
    · obtain ⟨call, there, rfl⟩ := List.mem_map.mp mem
      exact parse_cut (by decide) (coded there) front cut
  have messages : ∀ m ∈ (sent.filter fun call => call.ok).map (·.message),
      Coded kPacketHeaderSize acceptBytes (QuestTeleop.packHeader m.header) true
        (m.header, m.payload) := by
    intro m mem
    obtain ⟨call, there, rfl⟩ := List.mem_map.mp mem
    exact coded (List.mem_of_mem_filter there)
  have all := parse_packets (by decide) messages last
  rw [List.takeWhile_eq_self_iff.mpr fun _ _ => rfl, List.map_map] at all
  rw [split, QuestDelivery.wholeStream_calls signedNan known]
  exact all

/-- The callback gets the packets that a client's bytes begin with, in order and each once; all
    of them as soon as the worker is done with the connection, unless `stop` was called. -/
theorem packets_heard {moves : List Move} {fd conn : Nat} {incoming : Incoming}
    (made : .accepted fd conn incoming ∈ (run step {} moves).2) :
    packets conn (run step {} moves).2 <+: parsed incoming.pending ∧
      (.stopping ∉ (run step {} moves).2 →
        (∀ client, unheard (run step {} moves).1.worker = some client → client.conn ≠ conn) →
          packets conn (run step {} moves).2 = parsed incoming.pending) :=
  ⟨(run_hearing moves).front fd conn incoming made,
    fun quiet => (run_hearing moves).whole quiet fd conn incoming made⟩

/-- Whatever has arrived of a connection that the headset makes and that can be read packet by
    packet: the bridge hears the first of the packets that the headset has sent whole, each header
    and payload as they were, and in the end all of them. -/
theorem headset_heard {signedNan : Bool} {headset : List QuestTransport.Move}
    {moves : List Move} {fd conn made : Nat} {incoming : Incoming}
    (accepted : .accepted fd conn incoming ∈ (run step {} moves).2)
    (framed : Framing.Framed (QuestOutgoing.attempts made
      (run (QuestTransport.step signedNan) {} headset).2))
    (arrives : incoming.pending <+: Framing.stream (QuestOutgoing.attempts made
      (run (QuestTransport.step signedNan) {} headset).2)) :
    let sent := QuestOutgoing.calls made (run (QuestTransport.step signedNan) {} headset).2
    packets conn (run step {} moves).2 <+: heardOf sent ∧
      (incoming.pending = Framing.stream (sent.map QuestOutgoing.attempt) →
        .stopping ∉ (run step {} moves).2 →
          (∀ client, unheard (run step {} moves).1.worker = some client → client.conn ≠ conn) →
            packets conn (run step {} moves).2 = heardOf sent) := by
  intro sent
  have stream := parsed_framed (QuestDelivery.run_known signedNan headset made) framed
  obtain ⟨heard, whole⟩ := packets_heard accepted
  constructor
  · have front : parsed incoming.pending <+: heardOf sent := by
      rw [← stream]
      exact parse_front (by decide) arrives
    exact heard.trans front
  · intro all quiet left
    rw [whole quiet left, all]
    exact stream

def isStopping : Event → Bool
  | .stopping => true
  | _ => false

/-- A HELLO and a heartbeat that arrive in two pieces. -/
theorem hello_heartbeat_heard :
    let headset : List QuestTransport.Move := [.connect 0 { results := [.sent 32, .sent 23] }, .loop,
      .receive .nothing, .sendAcks [],
      .heartbeat 5 { timestampNs := 7, results := [.sent 30, .interrupted, .sent 2, .sent 13] }]
    let past := (run (QuestTransport.step false) {} headset).2
    let wire := Framing.stream (QuestOutgoing.attempts 0 past)
    ∃ incoming : Incoming, incoming.segments = [wire.take 40, wire.drop 40] ∧
      packets 0 (run step {} ([.start (.listens 3), .worker none, .worker (some (4, incoming))] ++
        List.replicate 8 (.worker none))).2 = heardOf (QuestOutgoing.calls 0 past) := by
  intro headset past wire
  have framed : Framing.Framed (QuestOutgoing.attempts 0 past) := by
    apply (Framing.framed_iff (by decide +kernel)).mpr
    unfold Framing.NothingAfterCut
    decide +kernel
  let incoming : Incoming :=
    { segments := [wire.take 40, wire.drop 40], arrived := by decide +kernel, broken := false }
  let moves : List Move := [.start (.listens 3), .worker none, .worker (some (4, incoming))] ++
    List.replicate 8 (.worker none)
  have pending : incoming.pending = wire := by simp [incoming, Incoming.pending]
  have accepted : .accepted 4 0 incoming ∈ (run step {} moves).2 := by
    have third : (run step {} moves).2[2]? = some (.accepted 4 0 incoming) := rfl
    exact List.mem_of_getElem? third
  have quiet : .stopping ∉ (run step {} moves).2 := by
    have all : ((run step {} moves).2.all fun e => !isStopping e) = true := by decide +kernel
    intro mem
    exact absurd (List.all_eq_true.mp all _ mem) (by decide)
  have left : (unheard (run step {} moves).1.worker).isNone = true := by decide +kernel
  refine ⟨incoming, rfl, ?_⟩
  have arrives : incoming.pending <+: wire := by rw [pending]
  have heard := (headset_heard accepted framed arrives).2 pending quiet
  apply heard
  intro client there
  rw [Option.isNone_iff_eq_none.mp left] at there
  exact absurd there (by simp)

end HostReading
