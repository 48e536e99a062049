import RoboVR.Server.Clients

/- The server thread step by step, so that other threads can act in between: what it shares with
   them changes in these steps only. -/
namespace QuestRunThread
open QuestKeyValue QuestPacketReader QuestServer

inductive Phase where
  | accepting
  | accepted (id : Nat)
  | reading (id : Nat)
  | returned (id : Nat)
  | retired (id : Nat)
  | ended
  deriving DecidableEq

structure RunThread where
  phase : Phase := .accepting
  /-- How many connections were accepted: the number of the next one. -/
  accepted : Nat := 0
  deriving DecidableEq

inductive RunMove where
  | accept
  | setConnected
  | handlePacket (packet : Packet)
  | readReturns
  | clearConn
  | disconnect

inductive RunEvent where
  | accepted (id : Nat)
  | online (id : Nat)
  | handled (packet : Packet)
  | offline (id : Nat)
  deriving DecidableEq

def runStep (server : Quest3Server) (thread : RunThread) (move : RunMove) :
    Quest3Server × RunThread × List RunEvent :=
  match move, thread.phase with
  | .accept, .accepting =>
    ({ server with conn := some thread.accepted },
      { phase := .accepted thread.accepted, accepted := thread.accepted + 1 },
      [.accepted thread.accepted])
  | .setConnected, .accepted id =>
    (setConnected server true, { thread with phase := .reading id }, [.online id])
  | .handlePacket packet, .reading _ =>
    match QuestServer.handlePacket server packet with
    | .ok server => (server, thread, [.handled packet])
    -- the handler of `_run`, which also keeps the text of the exception
    | .error (_, server) =>
      (setConnected server false, { thread with phase := .ended }, [.handled packet])
  | .readReturns, .reading id => (server, { thread with phase := .returned id }, [])
  | .clearConn, .returned id =>
    ({ server with conn := none }, { thread with phase := .retired id }, [])
  | .disconnect, .retired id =>
    (setConnected (bump server .disconnects) false, { thread with phase := .accepting },
      [.offline id])
  | _, _ => (server, thread, [])

def Phase.serving : Phase → Option Nat
  | .accepting | .ended => none
  | .accepted id | .reading id | .returned id | .retired id => some id

/-- The connection that `_set_connected(True)` is done for, until its `_set_connected(False)`. -/
def Phase.online : Phase → Option Nat
  | .reading id | .returned id | .retired id => some id
  | .accepting | .accepted _ | .ended => none

inductive Ran (server : Quest3Server) (thread : RunThread) :
    Quest3Server → RunThread → List RunEvent → Prop
  | idle : Ran server thread server thread []
  | accept (phase : thread.phase = .accepting) :
    Ran server thread { server with conn := some thread.accepted }
      { phase := .accepted thread.accepted, accepted := thread.accepted + 1 }
      [.accepted thread.accepted]
  | online {id : Nat} (phase : thread.phase = .accepted id) :
    Ran server thread (setConnected server true) { thread with phase := .reading id } [.online id]
  | handled {id : Nat} {packet : Packet} {next : Quest3Server} (phase : thread.phase = .reading id)
    (ok : handlePacket server packet = .ok next) : Ran server thread next thread [.handled packet]
  | readReturns {id : Nat} (phase : thread.phase = .reading id) :
    Ran server thread server { thread with phase := .returned id } []
  | clearConn {id : Nat} (phase : thread.phase = .returned id) :
    Ran server thread { server with conn := none } { thread with phase := .retired id } []
  | offline {id : Nat} (phase : thread.phase = .retired id) :
    Ran server thread (setConnected (bump server .disconnects) false)
      { thread with phase := .accepting } [.offline id]

theorem runStep_ran (server : Quest3Server) (thread : RunThread) (move : RunMove) :
    Ran server thread (runStep server thread move).1 (runStep server thread move).2.1
      (runStep server thread move).2.2 := by
  unfold runStep
  split
  · rename_i phase
    exact .accept phase
  · rename_i phase
    exact .online phase
  · rename_i packet _ phase
    obtain ⟨next, ok, _⟩ := QuestServerClients.handlePacket_counts server packet
    rw [ok]
    exact .handled phase ok
  · rename_i phase
    exact .readReturns phase
  · rename_i phase
    exact .clearConn phase
  · rename_i phase
    exact .offline phase
  · exact .idle

theorem online_serving {phase : Phase} {id : Nat} (online : phase.online = some id) :
    phase.serving = some id := by
  cases phase with
  | reading _ => exact online
  | returned _ => exact online
  | retired _ => exact online
  | accepting => exact absurd online (by simp [Phase.online])
  | accepted _ => exact absurd online (by simp [Phase.online])
  | ended => exact absurd online (by simp [Phase.online])

/- What the methods leave as it is. -/

theorem setConnected_conn (server : Quest3Server) (connected : Bool) :
    (setConnected server connected).conn = server.conn ∧
      (setConnected server connected).sendSeq = server.sendSeq := by
  unfold setConnected
  split
  · exact ⟨rfl, rfl⟩
  · split <;> exact ⟨rfl, rfl⟩

theorem setConnected_latest (server : Quest3Server) (connected : Bool) :
    (setConnected server connected).latest ≠ none := by
  unfold setConnected
  split
  · simp
  · rename_i state found
    split <;> simp [found]

theorem setPose_keeps {server next : Quest3Server} {timestampNs : Int} {raw : Dict}
    (ok : setPose server timestampNs raw = .ok next) :
    next.conn = server.conn ∧ next.sendSeq = server.sendSeq ∧ next.latest ≠ none := by
  obtain ⟨state, made⟩ := setPose_ok server timestampNs raw
  rw [made] at ok
  cases ok
  exact ⟨rfl, rfl, by simp⟩

theorem handlePacket_keeps {server next : Quest3Server} {packet : Packet}
    (ok : handlePacket server packet = .ok next) :
    next.conn = server.conn ∧ next.sendSeq = server.sendSeq ∧
      (server.latest ≠ none → next.latest ≠ none) := by
  unfold handlePacket at ok
  simp only at ok
  split at ok
  · cases ok
    exact ⟨rfl, rfl, fun _ => by simp [updateRaw]⟩
  split at ok
  · cases ok
    exact ⟨rfl, rfl, fun _ => by simp [setHeartbeat]⟩
  split at ok
  · obtain ⟨conn, seq, latest⟩ := setPose_keeps ok
    exact ⟨conn, seq, fun _ => latest⟩
  split at ok
  · split at ok
    · cases ok
      exact ⟨rfl, rfl, fun _ => by simp [setVideoAck]⟩
    · cases ok
      exact ⟨rfl, rfl, fun _ => by simp [updateRaw]⟩
  split at ok
  · cases ok
    have kept := setConnected_conn (bump (bump server .packets) .goodbye) false
    exact ⟨kept.1, kept.2, fun _ => setConnected_latest _ _⟩
  split at ok
  · cases ok
    exact ⟨rfl, rfl, fun _ => by simp [updateRaw]⟩
  · cases ok
    exact ⟨rfl, rfl, fun there => there⟩

end QuestRunThread
