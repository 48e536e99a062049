import RoboVR.Client.Outgoing

/- When the headset sends heartbeats: one in the first pass over a connection, and another as soon
   as a pass finds the last one half a second old. -/
namespace QuestHeartbeats
open TracedRun
open QuestTransport QuestOutgoing

def connectTime : Event → Option Int
  | .connected _ nowNs => some nowNs
  | _ => none

def isConnect (event : Event) : Bool := (connectTime event).isSome

def dueTime : Event → Option Int
  | .clock _ nowNs true => some nowNs
  | _ => none

/-- The time of the last heartbeat since the connection was made. -/
def lastBeat (past : List Event) : Option Int :=
  ((since isConnect past).filterMap dueTime).getLast?

def connectedAt (past : List Event) : Option Int := (past.filterMap connectTime).getLast?

def isHeartbeat (call : SendCall) : Bool := decide (call.message.type = .heartbeat)

def Due (before : List Event) (nowNs : Int) (due : Bool) : Prop :=
  match lastBeat before with
  | some last => due = true ↔ heartbeatNs ≤ nowNs - last
  | none => ∀ began, connectedAt before = some began → began ≤ nowNs → due = true

def Paced (before : List Event) (event : Event) : Prop :=
  ∀ conn nowNs due, event = .clock conn nowNs due → Due before nowNs due

structure Beating (s : State) (past : List Event) : Prop where
  last : s.phase.conn ≠ none → ∃ began, connectedAt past = some began ∧
    s.lastHeartbeatNs = (lastBeat past).getD (began - 1000000000)
  paced : AtEvents Paced [] past
  sent : ((sentCalls past).filter isHeartbeat).length = (past.filterMap dueTime).length

theorem lastBeat_append {past es : List Event} (plain : ∀ e ∈ es, isConnect e = false)
    (silent : es.filterMap dueTime = []) : lastBeat (past ++ es) = lastBeat past := by
  rw [lastBeat, since_append_plain isConnect past plain, List.filterMap_append, silent,
    List.append_nil]
  rfl

theorem connectedAt_append {past es : List Event} (plain : ∀ e ∈ es, isConnect e = false) :
    connectedAt (past ++ es) = connectedAt past := by
  have none_ : es.filterMap connectTime = [] := by
    rw [List.filterMap_eq_nil_iff]
    intro e mem
    have unmarked := plain e mem
    simpa [isConnect] using unmarked
  rw [connectedAt, List.filterMap_append, none_, List.append_nil]
  rfl

structure Unrelated (es : List Event) : Prop where
  plain : ∀ e ∈ es, connectTime e = none
  silent : ∀ e ∈ es, ∀ conn nowNs due, e ≠ .clock conn nowNs due
  calls : (sentCalls es).filter isHeartbeat = []

theorem unrelated_undue {es : List Event} (unrelated : Unrelated es) :
    es.filterMap dueTime = [] := by
  rw [List.filterMap_eq_nil_iff]
  intro e mem
  have other := unrelated.silent e mem
  cases e with
  | clock conn nowNs due => exact absurd rfl (other conn nowNs due)
  | _ => rfl

theorem unrelated_plain {es : List Event} (unrelated : Unrelated es) :
    ∀ e ∈ es, isConnect e = false := by
  intro e mem
  rw [isConnect, unrelated.plain e mem]
  rfl

theorem unrelated_paced {es : List Event} (unrelated : Unrelated es) (past : List Event) :
    AtEvents Paced past es := by
  apply atEvents_of_all
  intro e mem _ conn nowNs due same
  exact absurd same (unrelated.silent e mem conn nowNs due)

theorem unrelated_append {as bs : List Event} (first : Unrelated as) (second : Unrelated bs) :
    Unrelated (as ++ bs) := by
  constructor
  · exact fun e mem => (List.mem_append.mp mem).elim (first.plain e) (second.plain e)
  · exact fun e mem => (List.mem_append.mp mem).elim (first.silent e) (second.silent e)
  · rw [sentCalls_append, List.filter_append, first.calls, second.calls]
    rfl

theorem unrelated_goOn (s : State) (conn : Nat) (ok : Bool) (next : Phase) :
    Unrelated (goOn s conn ok next).2 := by
  cases ok with
  | true => constructor <;> simp [goOn, sentCalls]
  | false => constructor <;> simp [goOn, close, sentCalls, callOf, connectTime]

theorem unrelated_acks {signedNan : Bool} {conn : Nat} {sent : List SendCall}
    (acks : ∀ call ∈ sent, SendsAck signedNan call) : Unrelated (sent.map (.sent conn)) := by
  constructor
  · simp [connectTime]
  · simp
  · rw [(calls_sent conn sent).2.1, List.filter_eq_nil_iff]
    intro call mem
    obtain ⟨seq, ack, turn, rfl⟩ := acks call mem
    exact Bool.false_ne_true

theorem unrelated_decoded (decoded : List QuestMediaCodec.Event) :
    Unrelated (decoded.map .decoder) := by
  constructor
  · simp [connectTime]
  · simp
  · rw [(calls_decoded 0 decoded).2]
    rfl

section
variable {signedNan : Bool} {s after : State} {past es : List Event}

theorem beating_unrelated (inv : Beating s past) (unrelated : Unrelated es)
    (last : after.lastHeartbeatNs = s.lastHeartbeatNs)
    (conn : after.phase.conn ≠ none → s.phase.conn ≠ none) : Beating after (past ++ es) := by
  have plain := unrelated_plain unrelated
  have undue := unrelated_undue unrelated
  constructor
  · intro open_
    obtain ⟨began, connected, same⟩ := inv.last (conn open_)
    refine ⟨began, ?_, ?_⟩
    · rw [connectedAt_append plain, connected]
    · rw [last, same, lastBeat_append plain undue]
  · rw [atEvents_append]
    exact ⟨inv.paced, unrelated_paced unrelated _⟩
  · rw [sentCalls_append, List.filter_append, unrelated.calls, List.append_nil,
      List.filterMap_append, undue, List.append_nil]
    exact inv.sent

theorem beating_connected (inv : Beating s past) (nowNs : Int) (hello : SendTurn) :
    Beating (connect s nowNs hello).1 (past ++ (connect s nowNs hello).2) := by
  have events : (connect s nowNs hello).2 = [.connected s.connections nowNs,
      .sent s.connections (send s.seq .hello helloPayload hello)] := rfl
  constructor
  · intro _
    refine ⟨nowNs, ?_, ?_⟩
    · have time : (connect s nowNs hello).2.filterMap connectTime = [nowNs] := rfl
      rw [connectedAt, List.filterMap_append, time, List.getLast?_concat]
    · rw [lastBeat, events, since_append_mark isConnect past rfl]
      rfl
  · rw [atEvents_append]
    refine ⟨inv.paced, ?_⟩
    apply atEvents_of_all
    intro e mem _ conn now due same
    rw [same, events] at mem
    exact absurd mem (by simp)
  · rw [sentCalls_append, List.filter_append, List.filterMap_append, List.length_append,
      List.length_append, inv.sent]
    rfl

theorem due_of_last (inv : Beating s past) (here : s.phase.conn ≠ none) {nowNs : Int} {due : Bool}
    (decides : due = true ↔ heartbeatNs ≤ nowNs - s.lastHeartbeatNs) : Due past nowNs due := by
  obtain ⟨began, connected, same⟩ := inv.last here
  unfold Due
  cases beat : lastBeat past with
  | some last =>
    rw [same, beat] at decides
    exact decides
  | none =>
    intro other there later
    rw [connected] at there
    obtain rfl := Option.some.inj there
    rw [same, beat] at decides
    apply decides.mpr
    simp only [heartbeatNs, Option.getD_none]
    omega

theorem beating_waited {conn : Nat} {nowNs : Int} (inv : Beating s past)
    (here : s.phase = .beating conn) (early : nowNs - s.lastHeartbeatNs < heartbeatNs) :
    Beating { s with phase := .posing conn } (past ++ [.clock conn nowNs false]) := by
  have conn_ : s.phase.conn ≠ none := by simp [here, Phase.conn]
  have plain : ∀ e ∈ [Event.clock conn nowNs false], isConnect e = false := by
    simp [isConnect, connectTime]
  constructor
  · intro _
    obtain ⟨began, connected, same⟩ := inv.last conn_
    exact ⟨began, by rw [connectedAt_append plain, connected],
      by rw [lastBeat_append plain rfl]; exact same⟩
  · rw [atEvents_append]
    refine ⟨inv.paced, ?_, trivial⟩
    intro c now due same
    cases same
    apply due_of_last inv conn_
    simp only [Bool.false_eq_true, false_iff]
    omega
  · have noCall : sentCalls [Event.clock conn nowNs false] = [] := rfl
    have undue : [Event.clock conn nowNs false].filterMap dueTime = [] := rfl
    rw [sentCalls_append, List.filterMap_append, noCall, undue, List.append_nil, List.append_nil]
    exact inv.sent

theorem beating_beaten {conn : Nat} {nowNs last : Int} {turn : SendTurn} {call : SendCall}
    (inv : Beating s past) (here : s.phase = .beating conn)
    (due : nowNs - s.lastHeartbeatNs ≥ heartbeatNs)
    (sent : call = send s.seq .heartbeat heartbeatPayload turn)
    (kept : last = if call.ok then nowNs else s.lastHeartbeatNs) :
    Beating
      (goOn { s with seq := s.seq + 1, lastHeartbeatNs := last } conn call.ok (.posing conn)).1
      (past ++ ([.clock conn nowNs true, .sent conn call] ++
        (goOn { s with seq := s.seq + 1, lastHeartbeatNs := last } conn call.ok
          (.posing conn)).2)) := by
  have conn_ : s.phase.conn ≠ none := by simp [here, Phase.conn]
  have unrelated := unrelated_goOn { s with seq := s.seq + 1, lastHeartbeatNs := last } conn
    call.ok (.posing conn)
  have plain : ∀ e ∈ [Event.clock conn nowNs true, .sent conn call], isConnect e = false := by
    simp [isConnect, connectTime]
  have beat : lastBeat (past ++ [.clock conn nowNs true, .sent conn call]) = some nowNs := by
    have time : [Event.clock conn nowNs true, .sent conn call].filterMap dueTime = [nowNs] := rfl
    rw [lastBeat, since_append_plain isConnect past plain, List.filterMap_append, time,
      List.getLast?_concat]
  rw [← List.append_assoc]
  constructor
  · intro open_
    obtain ⟨began, connected, _⟩ := inv.last conn_
    refine ⟨began, ?_, ?_⟩
    · rw [connectedAt_append (unrelated_plain unrelated), connectedAt_append plain, connected]
    · rw [lastBeat_append (unrelated_plain unrelated) (unrelated_undue unrelated), beat]
      cases ok : call.ok with
      | true =>
        rw [ok, if_pos rfl] at kept
        exact kept
      | false =>
        rw [ok] at open_
        exact absurd rfl open_
  · rw [atEvents_append, atEvents_append]
    refine ⟨⟨inv.paced, ?_, ?_, trivial⟩, unrelated_paced unrelated _⟩
    · intro c now isDue same
      cases same
      apply due_of_last inv conn_
      simp only [true_iff]
      exact due
    · intro c now isDue same
      exact absurd same (by simp)
  · rw [sentCalls_append, List.filter_append, unrelated.calls, List.append_nil, sentCalls_append,
      List.filter_append, List.filterMap_append, unrelated_undue unrelated, List.append_nil,
      List.filterMap_append, List.length_append, List.length_append, inv.sent, sent]
    rfl

theorem beating_step (inv : Beating s past) (acts : Acts signedNan s after es) :
    Beating after (past ++ es) := by
  have quiet : Unrelated [] := by constructor <;> simp [sentCalls]
  cases acts with
  | idle => exact beating_unrelated inv quiet rfl id
  | published sample =>
    refine beating_unrelated inv ?_ rfl id
    constructor <;> simp [sentCalls, callOf, connectTime]
  | stopped => exact beating_unrelated inv quiet rfl id
  | finished here => exact beating_unrelated inv quiet rfl fun there => absurd rfl there
  | connected nowNs hello here => exact beating_connected inv nowNs hello
  | moved here _ _ => exact beating_unrelated inv quiet rfl fun _ => by simp [here]
  | left here =>
    refine beating_unrelated inv ?_ rfl fun there => absurd rfl there
    constructor <;> simp [close, sentCalls, callOf, connectTime]
  | @acked conn next decoder decoded sent acks turns here there _ isCalls =>
    have packets := sendAckPackets_calls signedNan acks turns s.seq
    rw [← isCalls] at packets
    have goes := unrelated_goOn { s with decoder := decoder, seq := sent.2.1 } conn sent.2.2 next
    apply beating_unrelated inv
    · exact unrelated_append (unrelated_append (unrelated_decoded decoded)
        (unrelated_acks packets.acks)) goes
    · cases sent.2.2 <;> rfl
    · simp [here]
  | waited nowNs here early => exact beating_waited inv here early
  | beaten here due sent kept => exact beating_beaten inv here due sent kept
  | unposed here _ => exact beating_unrelated inv quiet rfl fun _ => by simp [here, Phase.conn]
  | @posed conn sample turn call here full sent =>
    have goes := unrelated_goOn { s with latestPose := none, seq := s.seq + 1 } conn call.ok
      (.looping conn)
    apply beating_unrelated inv
    · refine unrelated_append ?_ goes
      constructor
      · simp [connectTime]
      · simp
      · rw [sent]
        rfl
    · cases call.ok <;> rfl
    · simp [here, Phase.conn]

end

/-- On each connection the first reading of the clock is followed by a heartbeat, as long as the
    clock does not go back behind the connection, and a later one is iff half a second has passed
    since the last heartbeat. No other heartbeats are sent. -/
theorem heartbeats_paced (signedNan : Bool) (moves : List Move) :
    let past := (run (step signedNan) {} moves).2
    AtEvents Paced [] past ∧
      ((sentCalls past).filter isHeartbeat).length = (past.filterMap dueTime).length := by
  have kept : ∀ s past move, Beating s past →
      Beating (step signedNan s move).1 (past ++ (step signedNan s move).2) :=
    fun s past move inv => beating_step inv (step_acts signedNan s move)
  have start : Beating {} [] := by constructor <;> simp [AtEvents, sentCalls, Phase.conn]
  have inv := run_invariant kept start moves
  exact ⟨inv.paced, inv.sent⟩

end QuestHeartbeats
