import RoboVR.Lib.TracedRun
import RoboVR.Server.RunThread

/- `wait_for_state` beside the server thread and `close`. A caller that finds no state waits, and
   goes on when it is notified or its time is over; both take what is there then. -/
namespace QuestWaitForState
open QuestInputState QuestPacketReader QuestServer QuestRunThread
open TracedRun

structure State where
  server : Quest3Server := {}
  thread : RunThread := {}
  stop : Bool := false
  closing : Nat := 0
  waiting : List Nat := []

inductive Move where
  | run (move : RunMove)
  | leave
  | close
  | closeJoined
  | waitForState (caller : Nat)
  | wake (caller : Nat)

inductive Event where
  | run (event : RunEvent)
  | closed
  | returned (caller : Nat) (state : Option Quest3InputState)

def step (s : State) : Move → State × List Event
  | .run move =>
    let ran := runStep s.server s.thread move
    ({ s with server := ran.1, thread := ran.2.1 }, ran.2.2.map .run)
  | .leave =>
    if s.stop ∧ s.thread.phase = .accepting then
      ({ s with thread := { s.thread with phase := .ended } }, [])
    else (s, [])
  | .close =>
    ({ s with
      server := { s.server with conn := none }
      stop := true
      closing := s.closing + 1 }, [])
  | .closeJoined =>
    if s.closing = 0 then (s, [])
    else
      ({ s with server := setConnected s.server false, closing := s.closing - 1 }, [.closed])
  | .waitForState caller =>
    if caller ∈ s.waiting then (s, [])
    else
      match s.server.latest with
      | some state => (s, [.returned caller (some state)])
      | none => ({ s with waiting := caller :: s.waiting }, [])
  | .wake caller =>
    if caller ∈ s.waiting then
      ({ s with waiting := s.waiting.erase caller }, [.returned caller s.server.latest])
    else (s, [])

def Applied : Event → Prop
  | .run (.handled packet) => packet.packetType ∈ QuestServerClients.typeKeys.map Prod.snd
  | _ => False

def Bookkept : Event → Prop
  | .run (.online _) => True
  | .closed => True
  | _ => False

instance (e : Event) : Decidable (Applied e) := by
  unfold Applied
  split <;> exact inferInstance

instance (e : Event) : Decidable (Bookkept e) := by
  unfold Bookkept
  split <;> exact inferInstance

/-- A state that a call returns is one to which a received packet was applied. -/
def ReceivedData (past : List Event) : Event → Prop
  | .returned _ (some _) => ∃ e ∈ past, Applied e
  | _ => True

instance (past : List Event) (e : Event) : Decidable (ReceivedData past e) := by
  unfold ReceivedData
  split <;> exact inferInstance

def Looks (s : State) : Move → Prop
  | .waitForState caller => caller ∉ s.waiting
  | .wake caller => caller ∈ s.waiting
  | _ => False

/-- When a call looks for a state, a packet was applied, or neither a connection nor `close` has
    made a state yet. -/
def NoPlaceholder (s : State) (past : List Event) (move : Move) : Prop :=
  Looks s move → (∃ e ∈ past, Applied e) ∨ ∀ e ∈ past, ¬ Bookkept e

structure Inv (s : State) (past : List Event) : Prop where
  made : s.server.latest = none ↔ ∀ e ∈ past, ¬ Bookkept e
  online : s.thread.phase.online ≠ none → s.server.latest ≠ none

theorem inv_start : Inv {} [] := by
  constructor
  · exact iff_of_true rfl fun e mem => absurd mem (by simp)
  · exact fun online => absurd rfl online

theorem bookkept_append {past es : List Event} :
    (∀ e ∈ past ++ es, ¬ Bookkept e) ↔ (∀ e ∈ past, ¬ Bookkept e) ∧ ∀ e ∈ es, ¬ Bookkept e :=
  List.forall_mem_append

theorem made_kept {latest after : Option Quest3InputState} {past es : List Event}
    (made : latest = none ↔ ∀ e ∈ past, ¬ Bookkept e) (same : after = none ↔ latest = none)
    (plain : ∀ e ∈ es, ¬ Bookkept e) : after = none ↔ ∀ e ∈ past ++ es, ¬ Bookkept e := by
  rw [same, made, bookkept_append]
  exact ⟨fun none_ => ⟨none_, plain⟩, fun both => both.1⟩

theorem made_now {after : Option Quest3InputState} {past es : List Event} {e : Event}
    (there : after ≠ none) (mem : e ∈ es) (bookkept : Bookkept e) :
    after = none ↔ ∀ e ∈ past ++ es, ¬ Bookkept e := by
  constructor
  · exact fun none_ => absurd none_ there
  · exact fun plain => absurd bookkept (plain e (List.mem_append_right past mem))

theorem inv_run {s : State} {past : List Event} (inv : Inv s past) (move : RunMove) :
    Inv (step s (.run move)).1 (past ++ (step s (.run move)).2) := by
  have ran := runStep_ran s.server s.thread move
  simp only [step]
  revert ran
  generalize runStep s.server s.thread move = after
  intro ran
  obtain ⟨server, thread, events⟩ := after
  simp only at ran ⊢
  cases ran with
  | idle => exact ⟨made_kept inv.made Iff.rfl (by simp), inv.online⟩
  | accept phase =>
    constructor
    · exact made_kept inv.made Iff.rfl (by simp [Bookkept])
    · exact fun online => absurd rfl online
  | online phase =>
    have there := setConnected_latest s.server true
    exact ⟨made_now there (List.mem_singleton.mpr rfl) trivial, fun _ => there⟩
  | handled phase ok =>
    have before := inv.online (by simp [phase, Phase.online])
    have there := (handlePacket_keeps ok).2.2 before
    constructor
    · exact made_kept inv.made (iff_of_false there before) (by simp [Bookkept])
    · exact fun _ => there
  | readReturns phase =>
    have before := inv.online (by simp [phase, Phase.online])
    exact ⟨made_kept inv.made Iff.rfl (by simp), fun _ => before⟩
  | clearConn phase =>
    have before := inv.online (by simp [phase, Phase.online])
    exact ⟨made_kept inv.made Iff.rfl (by simp), fun _ => before⟩
  | offline phase =>
    have before := inv.online (by simp [phase, Phase.online])
    have there := setConnected_latest (bump s.server .disconnects) false
    constructor
    · exact made_kept inv.made (iff_of_false there before) (by simp [Bookkept])
    · exact fun _ => there

theorem inv_step (s : State) (past : List Event) (move : Move) (inv : Inv s past) :
    Inv (step s move).1 (past ++ (step s move).2) := by
  have plain : ∀ {after : State} {es : List Event}, after.server.latest = s.server.latest →
      after.thread = s.thread → (∀ e ∈ es, ¬ Bookkept e) → Inv after (past ++ es) := by
    intro after es latest thread quiet
    constructor
    · exact made_kept inv.made (by rw [latest]) quiet
    · rw [thread, latest]
      exact inv.online
  cases move with
  | run move => exact inv_run inv move
  | leave =>
    rw [step]
    split
    · constructor
      · exact made_kept inv.made Iff.rfl (by simp)
      · exact fun online => absurd rfl online
    · exact plain rfl rfl (by simp)
  | close => exact plain rfl rfl (by simp [step])
  | closeJoined =>
    rw [step]
    split
    · exact plain rfl rfl (by simp)
    · have there := setConnected_latest s.server false
      exact ⟨made_now there (List.mem_singleton.mpr rfl) trivial, fun _ => there⟩
  | waitForState caller =>
    rw [step]
    split
    · exact plain rfl rfl (by simp)
    · split
      · exact plain rfl rfl (by simp [Bookkept])
      · exact plain rfl rfl (by simp)
  | wake caller =>
    rw [step]
    split
    · exact plain rfl rfl (by simp [Bookkept])
    · exact plain rfl rfl (by simp)

theorem found_iff {s : State} {past : List Event} (inv : Inv s past) (caller : Nat) :
    ReceivedData past (.returned caller s.server.latest) ↔
      (∃ e ∈ past, Applied e) ∨ ∀ e ∈ past, ¬ Bookkept e := by
  rw [← inv.made]
  cases found : s.server.latest with
  | none => simp [ReceivedData]
  | some state => simp [ReceivedData]

theorem step_received_iff (s : State) (past : List Event) (move : Move) (inv : Inv s past) :
    AtEvents ReceivedData past (step s move).2 ↔ NoPlaceholder s past move := by
  cases move with
  | run move =>
    refine iff_of_true (atEvents_of_all ?_ past) fun looks => absurd looks id
    intro e mem before
    obtain ⟨event, _, rfl⟩ := List.mem_map.mp mem
    trivial
  | leave =>
    refine iff_of_true ?_ fun looks => absurd looks id
    rw [step]
    split <;> trivial
  | close => exact iff_of_true trivial fun looks => absurd looks id
  | closeJoined =>
    refine iff_of_true ?_ fun looks => absurd looks id
    rw [step]
    split <;> simp [AtEvents, ReceivedData]
  | waitForState caller =>
    have found := found_iff inv caller
    simp only [step, NoPlaceholder, Looks]
    by_cases inside : caller ∈ s.waiting
    · simp [inside, AtEvents]
    · rw [← found]
      cases latest : s.server.latest <;> simp [inside, AtEvents, ReceivedData]
  | wake caller =>
    have found := found_iff inv caller
    simp only [step, NoPlaceholder, Looks]
    by_cases inside : caller ∈ s.waiting
    · simp [inside, AtEvents, found]
    · simp [inside, AtEvents]

/-- A call returns what a packet made, in every run and at every return, exactly where it does not
    look between the first bookkeeping and the first applied packet. -/
theorem waits_for_data_iff (moves : List Move) :
    AtEvents ReceivedData [] (run step {} moves).2 ↔ AtSteps step NoPlaceholder {} [] moves := by
  rw [atEvents_run]
  apply atSteps_iff Inv
  · intro s past move inv _
    exact inv_step s past move inv
  · exact step_received_iff
  · exact inv_start

/-- The client has connected, its first packet is on the way, and the call finds a state. -/
theorem placeholder_returned :
    ¬ AtEvents ReceivedData []
      (run step {} [.run .accept, .run .setConnected, .waitForState 0]).2 := by
  decide

end QuestWaitForState
