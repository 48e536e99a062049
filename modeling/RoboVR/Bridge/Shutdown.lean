import RoboVR.Bridge.Descriptors

/- A call of `stop` that waits for the worker: nothing holds the worker up any more but a call of
   `send`, so it ends within a few of its own steps and `stop` returns. -/
namespace HostShutdown
open TracedRun HostTcpServer HostDescriptors

/-- How many steps the worker has before it ends once nothing is open that it could wait for. -/
def stepsLeft : Worker → Nat
  | .absent | .ended => 0
  | .checking => 1
  | .accepting | .leaving _ => 2
  | .serving _ | .reading _ => 3
  | .accepted _ => 4

def freeTurn (s : State) : Move → Nat
  | .worker _ => if s.sending.isNone then 1 else 0
  | _ => 0

def freeTurns : State → List Move → Nat
  | _, [] => 0
  | s, move :: moves => freeTurn s move + freeTurns (step s move).1 moves

theorem stepsLeft_le (worker : Worker) : stepsLeft worker ≤ 4 := by
  cases worker <;> simp [stepsLeft]

theorem unread_closed {s : State} {past : List Event} {client : Client} (inv : Inv s past)
    (here : s.owner = .joining) (reading : s.worker = .reading client) :
    s.sockets client.fd ≠ some (.client client.conn) := by
  intro live
  have listener := inv.control.joining here
  have none_ := inv.serving.unread client reading (.inr here)
  rcases inv.table.known client.fd _ live with known | known | ⟨conn, known⟩
  · rw [listener] at known
    exact absurd known (by simp)
  · rw [none_] at known
    exact absurd known (by simp)
  · rw [reading] at known
    exact absurd known (by simp [fresh])

theorem work_nearer {s : State} {past : List Event} (inv : Inv s past) (here : s.owner = .joining)
    (accepted : Option (Nat × ByteStream.Incoming)) :
    (work s accepted).1.owner = .joining ∧
      stepsLeft (work s accepted).1.worker ≤ stepsLeft s.worker ∧
      (s.sending = none → stepsLeft (work s accepted).1.worker ≤ stepsLeft s.worker - 1) := by
  have off := (inv.control.stopping (by rw [here]; simp)).1
  have listener := inv.control.joining here
  cases at_ : s.worker with
  | absent | ended => simp [work, at_, here, stepsLeft]
  | checking => simp [work, at_, here, off, stepsLeft]
  | accepting => simp [work, at_, here, HostTcpServer.accept, listener, acceptFails, stepsLeft]
  | accepted client =>
    have none_ := (inv.table.fresh _ _ (by rw [at_]; rfl)).2
    cases free : s.sending <;> simp [work, at_, free, closeClient, none_, here, stepsLeft]
  | serving client => simp [work, at_, here, off, stepsLeft]
  | reading client =>
    have closed := unread_closed inv here at_
    simp [work, at_, receive, closed, here, stepsLeft]
  | leaving client =>
    cases free : s.sending with
    | some sending => simp [work, at_, free, here, stepsLeft]
    | none =>
      by_cases own : s.clientFd = some client.fd
      · simp [work, at_, free, own, closeClient, closeFd, here, stepsLeft]
      · simp [work, at_, free, own, here, stepsLeft]

theorem step_nearer {s : State} {past : List Event} (inv : Inv s past) (here : s.owner = .joining)
    (move : Move) :
    .stopped ∈ (step s move).2 ∨ (step s move).1.owner = .joining ∧
      stepsLeft (step s move).1.worker ≤ stepsLeft s.worker - freeTurn s move := by
  cases move with
  | start started => exact .inr (by simp [step, here, freeTurn])
  | stop => exact .inr (by simp [step, here, freeTurn])
  | owner =>
    simp only [step, stopOn, here]
    split
    · exact .inl (by simp)
    · exact .inl (by simp)
    · exact .inr ⟨here, Nat.le_refl _⟩
  | worker accepted =>
    obtain ⟨joining, nearer, free⟩ := work_nearer inv here accepted
    refine .inr ⟨joining, ?_⟩
    cases held : s.sending with
    | none =>
      have turn : freeTurn s (.worker accepted) = 1 := by simp [freeTurn, held]
      rw [turn]
      exact free held
    | some sending =>
      have turn : freeTurn s (.worker accepted) = 0 := by simp [freeTurn, held]
      rw [turn]
      exact nearer
  | send type payload timestampNs =>
    simp only [step, send]
    split <;> exact .inr ⟨here, Nat.le_refl _⟩
  | write results =>
    simp only [step, write]
    split
    · exact .inr ⟨here, Nat.le_refl _⟩
    · split
      · exact .inr ⟨here, Nat.le_refl _⟩
      · split <;> exact .inr ⟨here, Nat.le_refl _⟩

theorem turns_suffice {s : State} {past : List Event} (inv : Inv s past)
    (here : s.owner = .joining) {moves : List Move}
    (turns : stepsLeft s.worker ≤ freeTurns s moves) :
    .stopped ∈ (run step s (moves ++ [.owner])).2 := by
  induction moves generalizing s past with
  | nil =>
    have none_left := Nat.le_zero.mp turns
    cases at_ : s.worker <;> simp [at_, stepsLeft] at none_left <;>
      simp [run, step, stopOn, here, at_]
  | cons move moves ih =>
    rw [List.cons_append, run]
    rcases step_nearer inv here move with stopped | ⟨joining, nearer⟩
    · exact List.mem_append_left _ stopped
    · apply List.mem_append_right
      apply ih (inv_step s past move inv) joining
      rw [freeTurns] at turns
      omega

/-- Once a call of `stop` has closed the two descriptors, four turns of the worker with
    `send_mutex_` free are enough for the call to return at its next one, whatever the other
    threads do between them and whatever `accept` returns; and then nothing is open. -/
theorem stop_returns {before after : List Move}
    (waits : (run step {} before).1.owner = .joining)
    (turns : 4 ≤ freeTurns (run step {} before).1 after) :
    .stopped ∈ (run step (run step {} before).1 (after ++ [.owner])).2 :=
  turns_suffice (run_inv before) waits ((stepsLeft_le _).trans turns)

/-- A call of `stop` while the worker waits for its client's next packet. -/
theorem stop_returns_reading :
    let incoming : ByteStream.Incoming := { segments := [], arrived := by simp, broken := false }
    let before : List Move := [.start (.listens 3), .worker none, .worker (some (4, incoming)),
      .worker none, .worker none, .stop, .owner, .owner]
    let after : List Move := [.worker none, .worker none, .worker none, .worker none]
    .stopped ∈ (run step (run step {} before).1 (after ++ [.owner])).2 := by
  intro incoming before after
  have waits : (run step {} before).1.owner = .joining := by decide
  exact stop_returns waits (by decide)

end HostShutdown
