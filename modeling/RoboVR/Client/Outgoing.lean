import RoboVR.Client.Transport
import RoboVR.Lib.Framing

/- What the headset writes: the numbers of its packets over all connections, and the packets of
   each connection, a HELLO and then whole packets up to one that fails. -/
namespace QuestOutgoing
open ByteStream Framing TracedRun
open QuestTeleop (Bytes)
open QuestPosePayload (HeadPoseSample)
open QuestTransport

def callOf : Event → Option SendCall
  | .sent _ call => some call
  | _ => none

def callOn (conn : Nat) : Event → Option SendCall
  | .sent other call => if other = conn then some call else none
  | _ => none

def sentCalls (past : List Event) : List SendCall := past.filterMap callOf

def calls (conn : Nat) (past : List Event) : List SendCall := past.filterMap (callOn conn)

def attempt (call : SendCall) : Attempt :=
  { packet := call.message.bytes, written := call.written }

def attempts (conn : Nat) (past : List Event) : List Attempt :=
  (calls conn past).map attempt

def IsHello (call : SendCall) : Prop := ∃ seq turn, call = send seq .hello helloPayload turn

inductive Later (signedNan : Bool) : SendCall → Prop
  | heartbeat (seq : UInt64) (turn : SendTurn) :
    Later signedNan (send seq .heartbeat heartbeatPayload turn)
  | pose (seq : UInt64) (sample : HeadPoseSample) (turn : SendTurn) :
    Later signedNan (send seq .pose (posePayload signedNan sample) turn)
  | ack {call : SendCall} (sends : SendsAck signedNan call) : Later signedNan call

theorem calls_append (conn : Nat) (past es : List Event) :
    calls conn (past ++ es) = calls conn past ++ calls conn es := List.filterMap_append

theorem sentCalls_append (past es : List Event) :
    sentCalls (past ++ es) = sentCalls past ++ sentCalls es := List.filterMap_append

theorem calls_sent (conn : Nat) (sent : List SendCall) :
    calls conn (sent.map (.sent conn)) = sent ∧ sentCalls (sent.map (.sent conn)) = sent ∧
      ∀ c, c ≠ conn → calls c (sent.map (.sent conn)) = [] := by
  refine ⟨?_, ?_, fun c ne => ?_⟩
  · have all : callOn conn ∘ Event.sent conn = some := by
      funext call
      simp [callOn]
    rw [calls, List.filterMap_map, all, List.filterMap_some]
  · rw [sentCalls, List.filterMap_map]
    exact List.filterMap_some
  · rw [calls, List.filterMap_map, List.filterMap_eq_nil_iff]
    intro call _
    simp [callOn, ne.symm]

theorem calls_decoded (conn : Nat) (decoded : List QuestMediaCodec.Event) :
    calls conn (decoded.map .decoder) = [] ∧ sentCalls (decoded.map .decoder) = [] := by
  constructor
  · rw [calls, List.filterMap_map, List.filterMap_eq_nil_iff]
    exact fun _ _ => rfl
  · rw [sentCalls, List.filterMap_map, List.filterMap_eq_nil_iff]
    exact fun _ _ => rfl

structure SendsOn (signedNan : Bool) (s after : State) (es : List Event) (conn : Nat)
    (sent : List SendCall) : Prop where
  here : s.phase.conn = some conn
  own : calls conn es = sent
  all : sentCalls es = sent
  other : ∀ c, c ≠ conn → calls c es = []
  later : ∀ call ∈ sent, Later signedNan call
  numbered : sent.map (·.message.seq) = numbers s.seq sent.length
  next : after.seq = s.seq + UInt64.ofNat sent.length
  connections : after.connections = s.connections
  front : ∀ call ∈ sent.dropLast, call.ok = true
  stays : ∀ c, after.phase.conn = some c → c = conn ∧ ∀ call ∈ sent, call.ok = true

inductive Sends (signedNan : Bool) (s after : State) (es : List Event) : Prop
  | quiet (none_ : sentCalls es = []) (no : ∀ c, calls c es = []) (seq : after.seq = s.seq)
    (connections : after.connections = s.connections)
    (conn : ∀ c, after.phase.conn = some c → s.phase.conn = some c)
  | hello {nowNs : Int} {turn : SendTurn} (here : s.phase = .offline)
    (state : after = (connect s nowNs turn).1) (events : es = (connect s nowNs turn).2)
  | more {conn : Nat} {sent : List SendCall} (sends : SendsOn signedNan s after es conn sent)

section
variable {signedNan : Bool} {s after : State} {past es : List Event}

theorem goOn_conn (s : State) {conn : Nat} {next : Phase} (ok : Bool)
    (there : next.conn = some conn) :
    (goOn s conn ok next).1.seq = s.seq ∧ (goOn s conn ok next).1.connections = s.connections ∧
      (∀ c, (goOn s conn ok next).1.phase.conn = some c → c = conn ∧ ok = true) ∧
      sentCalls (goOn s conn ok next).2 = [] ∧ ∀ c, calls c (goOn s conn ok next).2 = [] := by
  cases ok with
  | false =>
    refine ⟨rfl, rfl, fun c open_ => ?_, rfl, fun c => rfl⟩
    exact absurd open_ (by simp [goOn, close, Phase.conn])
  | true =>
    refine ⟨rfl, rfl, fun c open_ => ⟨?_, rfl⟩, rfl, fun c => rfl⟩
    have same := there.symm.trans open_
    exact (Option.some.inj same).symm

theorem sends_one {mid : State} {conn : Nat} {next : Phase} {call : SendCall} {quiet : Event}
    (here : s.phase.conn = some conn) (there : next.conn = some conn) (later : Later signedNan call)
    (number : call.message.seq = s.seq) (seq : mid.seq = s.seq + 1)
    (connections : mid.connections = s.connections) (silent : callOf quiet = none)
    (silentOn : ∀ c, callOn c quiet = none) :
    Sends signedNan s (goOn mid conn call.ok next).1
      ([quiet, .sent conn call] ++ (goOn mid conn call.ok next).2) := by
  obtain ⟨sameSeq, sameConnections, open_, none_, no⟩ := goOn_conn mid call.ok there
  refine .more (?_ : SendsOn signedNan s _ _ conn [call])
  constructor
  · exact here
  · rw [calls_append, no, calls, List.filterMap_cons_none (silentOn conn)]
    simp [callOn]
  · rw [sentCalls_append, none_, sentCalls, List.filterMap_cons_none silent]
    simp [callOf]
  · intro c other
    rw [calls_append, no, calls, List.filterMap_cons_none (silentOn c)]
    simp [callOn, other.symm]
  · intro own mem
    rwa [List.mem_singleton.mp mem]
  · simp [numbers, number]
  · rw [sameSeq, seq]
    rfl
  · rw [sameConnections, connections]
  · exact fun own mem => absurd mem (by simp)
  · intro c stays
    obtain ⟨same, ok⟩ := open_ c stays
    refine ⟨same, fun own mem => ?_⟩
    rwa [List.mem_singleton.mp mem]

theorem acts_sends (acts : Acts signedNan s after es) : Sends signedNan s after es := by
  cases acts with
  | idle => exact .quiet rfl (fun _ => rfl) rfl rfl fun _ there => there
  | published sample => exact .quiet rfl (fun _ => rfl) rfl rfl fun _ there => there
  | stopped => exact .quiet rfl (fun _ => rfl) rfl rfl fun _ there => there
  | finished here =>
    exact .quiet rfl (fun _ => rfl) rfl rfl fun _ there => absurd there (by simp [Phase.conn])
  | connected nowNs hello here => exact .hello here rfl rfl
  | moved here there _ =>
    exact .quiet rfl (fun _ => rfl) rfl rfl fun c open_ => here.trans (there.symm.trans open_)
  | left here =>
    refine .quiet rfl (fun _ => rfl) rfl rfl fun _ there => ?_
    exact absurd there (by simp [close, Phase.conn])
  | @acked conn next decoder decoded sent acks turns here there _ isCalls =>
    have packets := sendAckPackets_calls signedNan acks turns s.seq
    rw [← isCalls] at packets
    obtain ⟨sameSeq, sameConnections, open_, none_, no⟩ :=
      goOn_conn { s with decoder := decoder, seq := sent.2.1 } sent.2.2 there
    obtain ⟨own, all, other⟩ := calls_sent conn sent.1
    refine .more (?_ : SendsOn signedNan s _ _ conn sent.1)
    constructor
    · exact here
    · rw [calls_append, calls_append, no, own, (calls_decoded conn decoded).1, List.nil_append,
        List.append_nil]
    · rw [sentCalls_append, sentCalls_append, none_, all, (calls_decoded conn decoded).2,
        List.nil_append, List.append_nil]
    · intro c ne
      rw [calls_append, calls_append, no, other c ne, (calls_decoded c decoded).1]
      rfl
    · exact fun call mem => .ack (packets.acks call mem)
    · exact packets.numbered
    · rw [sameSeq]
      exact packets.next
    · exact sameConnections
    · exact packets.front
    · intro c stays
      obtain ⟨same, ok⟩ := open_ c stays
      exact ⟨same, packets.good ok⟩
  | waited nowNs here _ =>
    refine .quiet rfl (fun _ => rfl) rfl rfl fun c there => ?_
    rw [here]
    exact there
  | beaten here _ sent _ =>
    have conn_ := congrArg Phase.conn here
    refine sends_one conn_ rfl ?_ ?_ rfl rfl rfl (fun _ => rfl)
    · rw [sent]
      exact .heartbeat _ _
    · rw [sent]
      rfl
  | unposed here _ =>
    refine .quiet rfl (fun _ => rfl) rfl rfl fun c there => ?_
    rw [here]
    exact there
  | posed here _ sent =>
    have conn_ := congrArg Phase.conn here
    refine sends_one conn_ rfl ?_ ?_ rfl rfl rfl (fun _ => rfl)
    · rw [sent]
      exact .pose _ _ _
    · rw [sent]
      rfl

/-- The calls of a connection: its HELLO, and then good calls up to the last one. -/
structure ConnectionCalls (signedNan : Bool) (sent : List SendCall) (hello : SendCall)
    (rest : List SendCall) : Prop where
  split : sent = hello :: rest
  first : IsHello hello
  later : ∀ call ∈ rest, Later signedNan call
  front : ∀ call ∈ rest.dropLast, call.ok = true

structure Outgoing (signedNan : Bool) (s : State) (past : List Event) : Prop where
  numbered : (sentCalls past).map (·.message.seq) = numbers 1 (sentCalls past).length
  next : s.seq = 1 + UInt64.ofNat (sentCalls past).length
  unmade : ∀ c, s.connections ≤ c → calls c past = []
  made : ∀ c, c < s.connections →
    ∃ hello rest, ConnectionCalls signedNan (calls c past) hello rest
  current : ∀ c, s.phase.conn = some c →
    c < s.connections ∧ ∀ call ∈ (calls c past).tail, call.ok = true

theorem outgoing_start : Outgoing signedNan {} [] := by
  constructor
  · rfl
  · rfl
  · exact fun _ _ => rfl
  · exact fun c made => absurd made (by simp)
  · exact fun c there => absurd there (by simp [Phase.conn])

theorem outgoing_hello {nowNs : Int} {turn : SendTurn} (sending : Outgoing signedNan s past) :
    Outgoing signedNan (connect s nowNs turn).1 (past ++ (connect s nowNs turn).2) := by
  have all : sentCalls (connect s nowNs turn).2 = [send s.seq .hello helloPayload turn] := rfl
  have own : calls s.connections (past ++ (connect s nowNs turn).2) =
      [send s.seq .hello helloPayload turn] := by
    rw [calls_append, sending.unmade _ (Nat.le_refl _), connect]
    simp [calls, List.filterMap_cons, callOn]
  have other : ∀ c, c ≠ s.connections →
      calls c (past ++ (connect s nowNs turn).2) = calls c past := by
    intro c ne
    rw [calls_append, connect]
    simp [calls, List.filterMap_cons, callOn, ne.symm]
  constructor
  · rw [sentCalls_append, List.map_append, sending.numbered, List.length_append, numbers_append,
      all, ← sending.next]
    simp [numbers, send]
  · rw [sentCalls_append, List.length_append, all, UInt64.ofNat_add, ← UInt64.add_assoc,
      ← sending.next]
    rfl
  · intro c beyond
    change s.connections + 1 ≤ c at beyond
    rw [other c (by omega)]
    exact sending.unmade c (by omega)
  · intro c made
    change c < s.connections + 1 at made
    by_cases same : c = s.connections
    · refine ⟨send s.seq .hello helloPayload turn, [], ?_⟩
      rw [same, own]
      constructor
      · rfl
      · exact ⟨_, _, rfl⟩
      · exact fun call mem => absurd mem (by simp)
      · exact fun call mem => absurd mem (by simp)
    · rw [other c same]
      exact sending.made c (by omega)
  · intro c there
    obtain rfl := Option.some.inj (show some s.connections = some c from there)
    refine ⟨Nat.lt_succ_self _, ?_⟩
    rw [own]
    exact fun call mem => absurd mem (by simp)

theorem outgoing_more {conn : Nat} {sent : List SendCall} (sending : Outgoing signedNan s past)
    (sends : SendsOn signedNan s after es conn sent) : Outgoing signedNan after (past ++ es) := by
  obtain ⟨known, good⟩ := sending.current conn sends.here
  obtain ⟨hello, rest, before⟩ := sending.made conn known
  have own : calls conn (past ++ es) = hello :: (rest ++ sent) := by
    rw [calls_append, sends.own, before.split]
    rfl
  have other : ∀ c, c ≠ conn → calls c (past ++ es) = calls c past := by
    intro c ne
    rw [calls_append, sends.other c ne, List.append_nil]
  rw [before.split, List.tail_cons] at good
  constructor
  · rw [sentCalls_append, List.map_append, sending.numbered, List.length_append, numbers_append,
      ← sending.next, sends.all, sends.numbered]
  · rw [sends.next, sending.next, sentCalls_append, List.length_append, sends.all,
      UInt64.ofNat_add, ← UInt64.add_assoc]
  · intro c beyond
    rw [sends.connections] at beyond
    rw [other c (by omega)]
    exact sending.unmade c beyond
  · intro c made
    rw [sends.connections] at made
    by_cases same : c = conn
    · refine ⟨hello, rest ++ sent, ?_⟩
      rw [same]
      constructor
      · exact own
      · exact before.first
      · exact fun call mem => (List.mem_append.mp mem).elim (before.later call) (sends.later call)
      · intro call mem
        by_cases none_ : sent = []
        · rw [none_, List.append_nil] at mem
          exact before.front call mem
        · rw [List.dropLast_append_of_ne_nil none_] at mem
          exact (List.mem_append.mp mem).elim (good call) (sends.front call)
    · rw [other c same]
      exact sending.made c made
  · intro c there
    obtain ⟨rfl, ok⟩ := sends.stays c there
    rw [sends.connections, own]
    refine ⟨known, fun call mem => ?_⟩
    exact (List.mem_append.mp mem).elim (good call) (ok call)

theorem outgoing_step (sending : Outgoing signedNan s past) (sends : Sends signedNan s after es) :
    Outgoing signedNan after (past ++ es) := by
  cases sends with
  | quiet none_ no seq connections conn =>
    have sameAll : sentCalls (past ++ es) = sentCalls past := by
      rw [sentCalls_append, none_, List.append_nil]
    have same : ∀ c, calls c (past ++ es) = calls c past := by
      intro c
      rw [calls_append, no, List.append_nil]
    constructor
    · rw [sameAll]
      exact sending.numbered
    · rw [seq, sameAll]
      exact sending.next
    · intro c
      rw [connections, same]
      exact sending.unmade c
    · intro c
      rw [connections, same]
      exact sending.made c
    · intro c there
      rw [connections, same]
      exact sending.current c (conn c there)
  | hello here state events =>
    rw [state, events]
    exact outgoing_hello sending
  | more sends => exact outgoing_more sending sends

end

theorem run_outgoing (signedNan : Bool) (moves : List Move) :
    Outgoing signedNan (run (step signedNan) {} moves).1 (run (step signedNan) {} moves).2 := by
  have kept : ∀ s past move, Outgoing signedNan s past →
      Outgoing signedNan (step signedNan s move).1 (past ++ (step signedNan s move).2) :=
    fun s past move sending => outgoing_step sending (acts_sends (step_acts signedNan s move))
  exact run_invariant kept outgoing_start moves

/- The bytes of a connection. -/

theorem later_part {signedNan : Bool} {call : SendCall} (later : Later signedNan call) :
    call.written <+: call.message.bytes ∧
      (call.ok = true ↔ call.written = call.message.bytes) := by
  cases later with
  | heartbeat seq turn => exact ⟨send_part _ _ _ _, send_whole _ _ _ _⟩
  | pose seq sample turn => exact ⟨send_part _ _ _ _, send_whole _ _ _ _⟩
  | ack sends =>
    obtain ⟨seq, ack, turn, rfl⟩ := sends
    exact ⟨send_part _ _ _ _, send_whole _ _ _ _⟩

theorem nothingAfterCut_front {rest : List Attempt} (whole : ∀ a ∈ rest.dropLast, ¬ a.Cut) :
    NothingAfterCut rest := by
  induction rest with
  | nil => exact List.Pairwise.nil
  | cons a rest ih =>
    cases rest with
    | nil => exact List.pairwise_singleton _ _
    | cons b rest =>
      rw [List.dropLast_cons_cons] at whole
      apply List.pairwise_cons.mpr
      constructor
      · exact fun c _ cut => absurd cut (whole a List.mem_cons_self)
      · exact ih fun c mem => whole c (List.mem_cons_of_mem a mem)

theorem connection_framed {signedNan : Bool} {sent : List SendCall} {hello : SendCall}
    {rest : List SendCall} (made : ConnectionCalls signedNan sent hello rest) :
    Framed (sent.map attempt) ↔
      ((attempt hello).Cut → ∀ call ∈ rest, call.written = []) := by
  have parts : ∀ a ∈ sent.map attempt, a.written <+: a.packet := by
    intro a mem
    obtain ⟨call, there, rfl⟩ := List.mem_map.mp mem
    rw [made.split] at there
    rcases List.mem_cons.mp there with rfl | later
    · obtain ⟨seq, turn, rfl⟩ := made.first
      exact send_part _ _ _ _
    · exact (later_part (made.later call later)).1
  rw [framed_iff parts, made.split, List.map_cons]
  constructor
  · intro after cut call mem
    exact (List.pairwise_cons.mp after).1 _ (List.mem_map_of_mem mem) cut
  · intro nothing
    apply List.pairwise_cons.mpr
    constructor
    · intro a mem cut
      obtain ⟨call, there, rfl⟩ := List.mem_map.mp mem
      exact nothing cut call there
    · apply nothingAfterCut_front
      intro a mem cut
      rw [← List.map_dropLast] at mem
      obtain ⟨call, there, rfl⟩ := List.mem_map.mp mem
      have whole := (later_part (made.later call (List.mem_of_mem_dropLast there))).2
      exact cut.2 (whole.mp (made.front call there))

/-- Over any run the packets are numbered from 1 on without a gap, across all connections. What a
    connection gets can be read packet by packet unless its HELLO is cut, which the client does
    not look at, and something follows. -/
theorem packets_framed (signedNan : Bool) (moves : List Move) :
    let past := (run (step signedNan) {} moves).2
    (sentCalls past).map (·.message.seq) = numbers 1 (sentCalls past).length ∧
      ∀ conn, calls conn past = [] ∨
        ∃ hello rest, ConnectionCalls signedNan (calls conn past) hello rest ∧
          (Framed (attempts conn past) ↔
            ((attempt hello).Cut → ∀ call ∈ rest, call.written = [])) := by
  have sending := run_outgoing signedNan moves
  refine ⟨sending.numbered, fun conn => ?_⟩
  rcases Nat.lt_or_ge conn (run (step signedNan) {} moves).1.connections with made | unmade
  · obtain ⟨hello, rest, split⟩ := sending.made conn made
    exact .inr ⟨hello, rest, split, connection_framed split⟩
  · exact .inl (sending.unmade conn unmade)

end QuestOutgoing
