import RoboVR.Lib.TracedRun
import RoboVR.Server.RunThread

/- Threads that send beside the server thread. A call of `send_payload` holds the send lock from
   its first step to its last one, but the server thread replaces the connection without it. -/
namespace QuestSendThreads
open QuestTeleop (Bytes)
open QuestProtocol
open QuestServer QuestRunThread
open TracedRun

structure HostPacket where
  packetType : Int
  seq : Nat
  monotonicNs : Int
  payload : Bytes
  header : Bytes
  packed : packPacketHeader (makePacketHeader packetType seq payload.length monotonicNs) =
    some header

def HostPacket.bytes (packet : HostPacket) : Bytes := packet.header ++ packet.payload

/-- None where `pack` raises struct.error. -/
def makePacket (packetType : Int) (seq : Nat) (monotonicNs : Int) (payload : Bytes) :
    Option HostPacket :=
  match packed :
      packPacketHeader (makePacketHeader packetType seq payload.length monotonicNs) with
  | some header => some { packetType, seq, monotonicNs, payload, header, packed }
  | none => none

inductive SendPhase where
  | entered
  | captured (conn : Nat)
  | header (conn : Nat) (packet : HostPacket)
  | payload (conn : Nat) (packet : HostPacket)
  | failed (conn : Nat) (packet : HostPacket) (written : Bytes)
  | clearing (conn : Nat) (packet : HostPacket) (written : Bytes)
  | marking (conn : Nat) (packet : HostPacket) (written : Bytes)

structure Sender where
  thread : Nat
  packetType : Int
  payload : Bytes
  monotonicNs : Int
  phase : SendPhase

inductive Wrote where
  | nothing
  | part (conn : Nat) (packet : HostPacket) (written : Bytes)
  | all (conn : Nat) (packet : HostPacket)

structure State where
  server : Quest3Server := {}
  thread : RunThread := {}
  lock : Option Sender := none
  wire : Nat → Bytes := fun _ => []

inductive Move where
  | run (move : RunMove)
  | sendPayload (thread : Nat) (packetType : Int) (payload : Bytes) (monotonicNs : Int)
  /-- The next step of the call that holds the lock. A socket takes `took` bytes of a write; it
      raises OSError when these are not all. -/
  | advance (thread : Nat) (took : Nat)

inductive Event where
  | run (event : RunEvent)
  | cut (conn : Nat) (packet : HostPacket) (written : Bytes)
  | shut (failed : Nat) (conn : Nat)
  | marked (failed : Nat)
  | returned (thread : Nat) (wrote : Wrote) (value : Bool)
  | raised (thread : Nat)

def putOn (wire : Nat → Bytes) (conn : Nat) (bytes : Bytes) : Nat → Bytes :=
  Function.update wire conn (wire conn ++ bytes)

def writeHeader (s : State) (sender : Sender) (conn : Nat) (packet : HostPacket) (took : Nat) :
    State × List Event :=
  let wire := putOn s.wire conn (packet.header.take took)
  if packet.header.length ≤ took then
    ({ s with wire := wire, lock := some { sender with phase := .payload conn packet } }, [])
  else
    let written := packet.header.take took
    ({ s with wire := wire, lock := some { sender with phase := .failed conn packet written } },
      [.cut conn packet written])

def writePayload (s : State) (sender : Sender) (conn : Nat) (packet : HostPacket) (took : Nat) :
    State × List Event :=
  let wire := putOn s.wire conn (packet.payload.take took)
  if packet.payload.length ≤ took then
    let server := if sender.packetType = PT_VIDEO then bump s.server .videoPacketsSent else s.server
    ({ s with server := server, wire := wire, lock := none },
      [.returned sender.thread (.all conn packet) true])
  else
    let written := packet.header ++ packet.payload.take took
    ({ s with wire := wire, lock := some { sender with phase := .failed conn packet written } },
      [.cut conn packet written])

/-- The first two steps: `self._conn`, then `is_connected` and the sequence number. -/
def capture (s : State) (sender : Sender) : State × List Event :=
  match s.server.conn with
  | none => ({ s with lock := none }, [.returned sender.thread .nothing false])
  | some conn => ({ s with lock := some { sender with phase := .captured conn } }, [])

def number (s : State) (sender : Sender) (conn : Nat) : State × List Event :=
  if isConnected s.server then
    let seq := s.server.sendSeq
    let server := { s.server with sendSeq := seq + 1 }
    match makePacket sender.packetType seq sender.monotonicNs sender.payload with
    | none => ({ s with server := server, lock := none }, [.raised sender.thread])
    | some packet =>
      ({ s with server := server, lock := some { sender with phase := .header conn packet } }, [])
  else ({ s with lock := none }, [.returned sender.thread .nothing false])

def closeSocket (s : State) (sender : Sender) (conn : Nat) (packet : HostPacket)
    (written : Bytes) : State × List Event :=
  let server := bump s.server .videoSendErrors
  match s.server.conn with
  | none =>
    ({ s with
      server := server
      lock := some { sender with phase := .marking conn packet written } }, [])
  | some sock =>
    ({ s with
      server := server
      lock := some { sender with phase := .clearing conn packet written } }, [.shut conn sock])

def clearConn (s : State) (sender : Sender) (conn : Nat) (packet : HostPacket)
    (written : Bytes) : State × List Event :=
  ({ s with
    server := { s.server with conn := none }
    lock := some { sender with phase := .marking conn packet written } }, [])

def markDisconnected (s : State) (sender : Sender) (conn : Nat) (packet : HostPacket)
    (written : Bytes) : State × List Event :=
  ({ s with server := setConnected s.server false, lock := none },
    (if isConnected s.server then [.marked conn] else []) ++
      [.returned sender.thread (.part conn packet written) false])

def advance (s : State) (sender : Sender) (took : Nat) : State × List Event :=
  match sender.phase with
  | .entered => capture s sender
  | .captured conn => number s sender conn
  | .header conn packet => writeHeader s sender conn packet took
  | .payload conn packet => writePayload s sender conn packet took
  | .failed conn packet written => closeSocket s sender conn packet written
  | .clearing conn packet written => clearConn s sender conn packet written
  | .marking conn packet written => markDisconnected s sender conn packet written

def step (s : State) : Move → State × List Event
  | .run move =>
    let ran := runStep s.server s.thread move
    ({ s with server := ran.1, thread := ran.2.1 }, ran.2.2.map .run)
  | .sendPayload thread packetType payload monotonicNs =>
    match s.lock with
    | some _ => (s, [])
    | none =>
      ({ s with lock := some { thread, packetType, payload, monotonicNs, phase := .entered } }, [])
  | .advance thread took =>
    match s.lock with
    | none => (s, [])
    | some sender => if sender.thread = thread then advance s sender took else (s, [])

/- What a step can be. -/

def State.goesOn (s : State) (sender : Sender) (phase : SendPhase) : State :=
  { s with lock := some { sender with phase := phase } }

inductive Acts (s : State) : State → List Event → Prop
  | idle : Acts s s []
  | run {server : Quest3Server} {thread : RunThread} {events : List RunEvent}
    (ran : Ran s.server s.thread server thread events) :
    Acts s { s with server := server, thread := thread } (events.map .run)
  | enter {sender : Sender} (free : s.lock = none) (entered : sender.phase = .entered) :
    Acts s { s with lock := some sender } []
  | refused {sender : Sender} (held : s.lock = some sender)
    (phase : sender.phase = .entered ∨ ∃ conn, sender.phase = .captured conn) :
    Acts s { s with lock := none } [.returned sender.thread .nothing false]
  | captured {sender : Sender} {conn : Nat} (held : s.lock = some sender)
    (phase : sender.phase = .entered) (there : s.server.conn = some conn) :
    Acts s (s.goesOn sender (.captured conn)) []
  | raised {sender : Sender} {conn : Nat} (held : s.lock = some sender)
    (phase : sender.phase = .captured conn) :
    Acts s
      { s with server := { s.server with sendSeq := s.server.sendSeq + 1 }, lock := none }
      [.raised sender.thread]
  | numbered {sender : Sender} {conn : Nat} {packet : HostPacket} (held : s.lock = some sender)
    (phase : sender.phase = .captured conn) (seq : packet.seq = s.server.sendSeq) :
    Acts s
      (State.goesOn { s with server := { s.server with sendSeq := s.server.sendSeq + 1 } } sender
        (.header conn packet)) []
  | headerWritten {sender : Sender} {conn : Nat} {packet : HostPacket}
    (held : s.lock = some sender) (phase : sender.phase = .header conn packet) :
    Acts s
      (State.goesOn { s with wire := putOn s.wire conn packet.header } sender
        (.payload conn packet)) []
  | headerCut {sender : Sender} {conn : Nat} {packet : HostPacket} {written : Bytes}
    (held : s.lock = some sender) (phase : sender.phase = .header conn packet)
    (part : written <+: packet.bytes) (short : written ≠ packet.bytes) :
    Acts s
      (State.goesOn { s with wire := putOn s.wire conn written } sender
        (.failed conn packet written)) [.cut conn packet written]
  | whole {sender : Sender} {conn : Nat} {packet : HostPacket} {server : Quest3Server}
    (held : s.lock = some sender) (phase : sender.phase = .payload conn packet)
    (same : server.conn = s.server.conn ∧ server.sendSeq = s.server.sendSeq ∧
      server.latest = s.server.latest) :
    Acts s { s with server := server, wire := putOn s.wire conn packet.payload, lock := none }
      [.returned sender.thread (.all conn packet) true]
  | payloadCut {sender : Sender} {conn : Nat} {packet : HostPacket} {more : Bytes}
    (held : s.lock = some sender) (phase : sender.phase = .payload conn packet)
    (part : more <+: packet.payload) (short : more ≠ packet.payload) :
    Acts s
      (State.goesOn { s with wire := putOn s.wire conn more } sender
        (.failed conn packet (packet.header ++ more))) [.cut conn packet (packet.header ++ more)]
  | nothingToClose {sender : Sender} {conn : Nat} {packet : HostPacket} {written : Bytes}
    (held : s.lock = some sender) (phase : sender.phase = .failed conn packet written)
    (gone : s.server.conn = none) :
    Acts s
      (State.goesOn { s with server := bump s.server .videoSendErrors } sender
        (.marking conn packet written)) []
  | shut {sender : Sender} {conn sock : Nat} {packet : HostPacket} {written : Bytes}
    (held : s.lock = some sender) (phase : sender.phase = .failed conn packet written)
    (there : s.server.conn = some sock) :
    Acts s
      (State.goesOn { s with server := bump s.server .videoSendErrors } sender
        (.clearing conn packet written)) [.shut conn sock]
  | cleared {sender : Sender} {conn : Nat} {packet : HostPacket} {written : Bytes}
    (held : s.lock = some sender) (phase : sender.phase = .clearing conn packet written) :
    Acts s
      (State.goesOn { s with server := { s.server with conn := none } } sender
        (.marking conn packet written)) []
  | marked {sender : Sender} {conn : Nat} {packet : HostPacket} {written : Bytes}
    (held : s.lock = some sender) (phase : sender.phase = .marking conn packet written) :
    Acts s { s with server := setConnected s.server false, lock := none }
      ((if isConnected s.server then [.marked conn] else []) ++
        [.returned sender.thread (.part conn packet written) false])

theorem makePacket_seq {packetType : Int} {seq : Nat} {monotonicNs : Int} {payload : Bytes}
    {packet : HostPacket} (made : makePacket packetType seq monotonicNs payload = some packet) :
    packet.seq = seq := by
  unfold makePacket at made
  split at made
  · cases made
    rfl
  · exact absurd made (by simp)

theorem take_short {bytes : Bytes} {took : Nat} (short : ¬ bytes.length ≤ took) :
    bytes.take took ≠ bytes := by
  intro same
  rw [List.take_eq_self_iff] at same
  exact short same

theorem writeHeader_acts {s : State} {sender : Sender} {conn : Nat} {packet : HostPacket}
    (held : s.lock = some sender) (phase : sender.phase = .header conn packet) (took : Nat) :
    Acts s (writeHeader s sender conn packet took).1 (writeHeader s sender conn packet took).2 := by
  unfold writeHeader
  by_cases whole : packet.header.length ≤ took
  · rw [if_pos whole, List.take_of_length_le whole]
    exact .headerWritten held phase
  · rw [if_neg whole]
    have part : packet.header.take took <+: packet.bytes :=
      (List.take_prefix took _).trans (List.prefix_append _ _)
    have short : packet.header.take took ≠ packet.bytes := by
      intro same
      have lengths := congrArg List.length same
      rw [HostPacket.bytes, List.length_take, List.length_append] at lengths
      omega
    exact .headerCut held phase part short

theorem writePayload_acts {s : State} {sender : Sender} {conn : Nat} {packet : HostPacket}
    (held : s.lock = some sender) (phase : sender.phase = .payload conn packet) (took : Nat) :
    Acts s (writePayload s sender conn packet took).1
      (writePayload s sender conn packet took).2 := by
  unfold writePayload
  by_cases whole : packet.payload.length ≤ took
  · rw [if_pos whole, List.take_of_length_le whole]
    apply Acts.whole held phase
    split <;> exact ⟨rfl, rfl, rfl⟩
  · rw [if_neg whole]
    exact .payloadCut held phase (List.take_prefix took _) (take_short whole)

theorem number_acts {s : State} {sender : Sender} {conn : Nat} (held : s.lock = some sender)
    (phase : sender.phase = .captured conn) :
    Acts s (number s sender conn).1 (number s sender conn).2 := by
  unfold number
  by_cases connected : isConnected s.server
  · rw [if_pos connected]
    simp only
    cases made : makePacket sender.packetType s.server.sendSeq sender.monotonicNs sender.payload with
    | none => exact .raised held phase
    | some packet => exact .numbered held phase (makePacket_seq made)
  · rw [if_neg connected]
    exact .refused held (.inr ⟨conn, phase⟩)

theorem advance_acts {s : State} {sender : Sender} (held : s.lock = some sender) (took : Nat) :
    Acts s (advance s sender took).1 (advance s sender took).2 := by
  unfold advance
  split
  · rename_i phase
    unfold capture
    split
    · exact .refused held (.inl phase)
    · rename_i there
      exact .captured held phase there
  · rename_i phase
    exact number_acts held phase
  · rename_i phase
    exact writeHeader_acts held phase took
  · rename_i phase
    exact writePayload_acts held phase took
  · rename_i phase
    unfold closeSocket
    split
    · rename_i gone
      exact .nothingToClose held phase gone
    · rename_i there
      exact .shut held phase there
  · rename_i phase
    exact .cleared held phase
  · rename_i phase
    exact .marked held phase

theorem step_acts (s : State) (move : Move) : Acts s (step s move).1 (step s move).2 := by
  unfold step
  split
  · exact .run (runStep_ran s.server s.thread _)
  · split
    · exact .idle
    · rename_i free
      exact .enter free rfl
  · split
    · exact .idle
    · rename_i sender held
      split
      · exact advance_acts held _
      · exact .idle

end QuestSendThreads
