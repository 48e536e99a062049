import RoboVR.Server.SendThreads

/- What a failed write does to other connections: the call that failed closes whatever socket
   `self._conn` holds by then, and clears the flag of whatever connection is served. -/
namespace QuestFailedSend
open QuestServer QuestRunThread QuestSendThreads
open TracedRun

def onlineOf : Event → Option Nat
  | .run (.online id) => some id
  | _ => none

/-- The connection for which `_set_connected(True)` ran last: the flag is about this one. -/
def lastOnline (past : List Event) : Option Nat := (past.filterMap onlineOf).getLast?

def OwnOnly (past : List Event) : Event → Prop
  | .shut failed conn => ¬ failed < conn
  | .marked failed => ∀ id ∈ lastOnline past, ¬ failed < id
  | _ => True

instance (past : List Event) (e : Event) : Decidable (OwnOnly past e) := by
  unfold OwnOnly
  split <;> exact inferInstance

def nextPhase (s : State) : Move → Option SendPhase
  | .advance thread _ =>
    (s.lock.filter fun sender => sender.thread = thread).map fun sender => sender.phase
  | _ => none

/-- When a failed call comes to `_close_socket`, `self._conn` is not set to a later connection; and
    when it comes to `_set_connected(False)`, the thread serves no later connection that is marked
    as connected. -/
def NotReplaced (s : State) (move : Move) : Prop :=
  match nextPhase s move with
  | some (.failed conn _ _) => ∀ sock ∈ s.server.conn, ¬ conn < sock
  | some (.marking conn _ _) =>
    isConnected s.server = true → ∀ id ∈ s.thread.phase.serving, ¬ conn < id
  | _ => True

/-- The flag is up only while a connection is online, and it is about the one that came online
    last. -/
structure Inv (s : State) (past : List Event) : Prop where
  last : ∀ id, s.thread.phase.online = some id → lastOnline past = some id
  down : s.thread.phase.online = none → isConnected s.server = false

theorem inv_start : Inv {} [] := by
  constructor
  · exact fun id online => absurd online (by simp [Phase.online])
  · exact fun _ => rfl

theorem isConnected_latest {one other : Quest3Server} (same : one.latest = other.latest) :
    isConnected one = isConnected other := by
  rw [isConnected, isConnected, same]

theorem lastOnline_plain (past : List Event) {es : List Event}
    (plain : ∀ e ∈ es, onlineOf e = none) : lastOnline (past ++ es) = lastOnline past := by
  rw [lastOnline, List.filterMap_append, List.filterMap_eq_nil_iff.mpr plain, List.append_nil,
    lastOnline]

theorem connected_serving {s : State} {past : List Event} (inv : Inv s past)
    (up : isConnected s.server = true) :
    ∃ id, s.thread.phase.serving = some id ∧ lastOnline past = some id := by
  cases online : s.thread.phase.online with
  | none =>
    have down := inv.down online
    rw [up] at down
    exact absurd down (by decide)
  | some id => exact ⟨id, online_serving online, inv.last id online⟩

theorem inv_sender {s after : State} {past es : List Event} (inv : Inv s past)
    (thread : after.thread = s.thread) (plain : ∀ e ∈ es, onlineOf e = none)
    (flag : isConnected after.server = isConnected s.server ∨
      isConnected after.server = false) : Inv after (past ++ es) := by
  constructor
  · rw [thread, lastOnline_plain past plain]
    exact inv.last
  · intro online
    rw [thread] at online
    rcases flag with same | down
    · rw [same]
      exact inv.down online
    · exact down

theorem inv_run {s : State} {past : List Event} {server : Quest3Server} {thread : RunThread}
    {events : List RunEvent} (inv : Inv s past) (ran : Ran s.server s.thread server thread events) :
    Inv { s with server := server, thread := thread } (past ++ events.map .run) := by
  have plain : (∀ e ∈ events.map Event.run, onlineOf e = none) →
      lastOnline (past ++ events.map Event.run) = lastOnline past := lastOnline_plain past
  cases ran with
  | idle => simpa using inv
  | accept phase =>
    constructor
    · exact fun id online => absurd online (by simp [Phase.online])
    · exact fun _ => inv.down (by rw [phase]; rfl)
  | online phase =>
    constructor
    · intro id online
      rw [lastOnline, List.filterMap_append]
      simpa [onlineOf, Phase.online] using online
    · exact fun online => absurd online (by simp [Phase.online])
  | handled phase ok =>
    constructor
    · rw [plain (by simp [onlineOf])]
      exact inv.last
    · exact fun online => absurd online (by simp [phase, Phase.online])
  | readReturns phase =>
    constructor
    · intro id online
      rw [plain (by simp)]
      exact inv.last id (by rw [phase]; exact online)
    · exact fun online => absurd online (by simp [Phase.online])
  | clearConn phase =>
    constructor
    · intro id online
      rw [plain (by simp)]
      exact inv.last id (by rw [phase]; exact online)
    · exact fun online => absurd online (by simp [Phase.online])
  | offline phase =>
    constructor
    · exact fun id online => absurd online (by simp [Phase.online])
    · exact fun _ => setConnected_connected _ false

theorem inv_step (s : State) (past : List Event) (move : Move) (inv : Inv s past) :
    Inv (step s move).1 (past ++ (step s move).2) := by
  have acts := step_acts s move
  revert acts
  generalize step s move = result
  obtain ⟨after, es⟩ := result
  intro acts
  cases acts with
  | idle => simpa using inv
  | run ran => exact inv_run inv ran
  | whole held phase same =>
    exact inv_sender inv rfl (by simp [onlineOf]) (.inl (isConnected_latest same.2.2))
  | marked held phase =>
    refine inv_sender inv rfl ?_ (.inr (setConnected_connected _ false))
    intro e mem
    rcases List.mem_append.mp mem with mark | last
    · split at mark
      · rw [List.mem_singleton.mp mark]
        rfl
      · exact absurd mark (by simp)
    · rw [List.mem_singleton.mp last]
      rfl
  | _ => exact inv_sender inv rfl (by simp [onlineOf]) (.inl (isConnected_latest rfl))

theorem marked_iff {s : State} {past : List Event} (inv : Inv s past) (failed : Nat) :
    (isConnected s.server = true → OwnOnly past (.marked failed)) ↔
      (isConnected s.server = true → ∀ id ∈ s.thread.phase.serving, ¬ failed < id) := by
  refine forall_congr' fun up => ?_
  obtain ⟨id, serving, last⟩ := connected_serving inv up
  rw [OwnOnly, serving, last]

theorem advance_ownOnly_iff {s : State} {past : List Event} (inv : Inv s past) (sender : Sender)
    (took : Nat) :
    AtEvents OwnOnly past (advance s sender took).2 ↔
      match some sender.phase with
      | some (.failed conn _ _) => ∀ sock ∈ s.server.conn, ¬ conn < sock
      | some (.marking conn _ _) =>
        isConnected s.server = true → ∀ id ∈ s.thread.phase.serving, ¬ conn < id
      | _ => True := by
  cases phase : sender.phase with
  | entered =>
    rw [advance, phase]
    simp only [capture]
    split <;> simp [AtEvents, OwnOnly]
  | captured conn =>
    rw [advance, phase]
    simp only [number]
    split
    · split <;> simp [AtEvents, OwnOnly]
    · simp [AtEvents, OwnOnly]
  | header conn packet =>
    rw [advance, phase]
    simp only [writeHeader]
    split <;> simp [AtEvents, OwnOnly]
  | payload conn packet =>
    rw [advance, phase]
    simp only [writePayload]
    split <;> simp [AtEvents, OwnOnly]
  | failed conn packet written =>
    rw [advance, phase]
    simp only [closeSocket]
    cases s.server.conn <;> simp [AtEvents, OwnOnly]
  | clearing conn packet written =>
    rw [advance, phase]
    simp [clearConn, AtEvents]
  | marking conn packet written =>
    rw [advance, phase]
    simp only
    rw [← marked_iff inv conn, markDisconnected]
    simp only [atEvents_append]
    cases up : isConnected s.server <;> simp [AtEvents, OwnOnly]

theorem step_ownOnly_iff (s : State) (past : List Event) (move : Move) (inv : Inv s past) :
    AtEvents OwnOnly past (step s move).2 ↔ NotReplaced s move := by
  cases move with
  | run move =>
    refine iff_of_true (atEvents_of_all ?_ past) trivial
    intro e mem before
    obtain ⟨event, _, rfl⟩ := List.mem_map.mp mem
    trivial
  | sendPayload thread packetType payload monotonicNs =>
    refine iff_of_true ?_ trivial
    rw [step]
    split <;> trivial
  | advance thread took =>
    cases held : s.lock with
    | none => simp [step, NotReplaced, nextPhase, held, AtEvents]
    | some sender =>
      by_cases own : sender.thread = thread
      · rw [NotReplaced, nextPhase, step, held]
        simp only [own, if_true, Option.filter_some, decide_true, Option.map_some]
        exact advance_ownOnly_iff inv sender took
      · simp [step, NotReplaced, nextPhase, held, own, AtEvents]

/-- Failed writes leave later connections alone, in every run and at every step, exactly where the
    thread has not replaced the connection when the failed call cleans up. -/
theorem failed_send_iff (moves : List Move) :
    AtEvents OwnOnly [] (run step {} moves).2 ↔
      AtSteps step (fun s _ move => NotReplaced s move) {} [] moves := by
  rw [atEvents_run]
  apply atSteps_iff Inv
  · intro s past move inv _
    exact inv_step s past move inv
  · exact step_ownOnly_iff
  · exact inv_start

/-- A write on the first connection fails, the client comes back, and the failed call closes the
    new connection. -/
theorem closes_next_connection :
    ¬ AtEvents OwnOnly []
      (run step {}
        [.run .accept, .run .setConnected, .sendPayload 0 QuestProtocol.PT_VIDEO [] 0,
          .advance 0 0, .advance 0 0, .advance 0 0, .run .readReturns, .run .clearConn,
          .run .disconnect, .run .accept, .run .setConnected, .advance 0 0]).2 := by
  decide

end QuestFailedSend
