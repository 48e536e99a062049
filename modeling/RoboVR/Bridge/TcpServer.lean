import RoboVR.Lib.FrameReader
import RoboVR.Lib.TracedRun
import RoboVR.Wire.PacketReader

/- The bridge's server: the thread that starts and stops it, its worker, and the calls of `send`
   by any thread, one step at a time. Descriptors are numbers that the kernel uses again once they
   are closed. -/
namespace HostTcpServer
open ByteStream FrameReader
open QuestTeleop (Bytes PacketType PacketHeader kPacketHeaderSize kProtocolMagic kProtocolVersion
  isKnownPacketType unpackHeader packHeader)
open QuestPacketReader (Message)

def kMaxPayloadSize : UInt32 := 16 * 1024 * 1024

structure ReceivedPacket where
  header : PacketHeader
  payload : Bytes

inductive Status where
  | socketFailed
  | bindFailed
  | listenFailed
  | listening
  | acceptFailed
  | clientConnected
  | clientDisconnected
  | invalidHeader
  deriving DecidableEq

def Status.message : Status → String
  | .socketFailed => "socket() failed"
  | .bindFailed => "bind() failed"
  | .listenFailed => "listen() failed"
  | .listening => "listening"
  | .acceptFailed => "accept() failed"
  | .clientConnected => "client connected"
  | .clientDisconnected => "client disconnected"
  | .invalidHeader => "invalid packet header"

/-- What a descriptor stands for; accepted connections are numbered. -/
inductive Socket where
  | listener
  | client (conn : Nat)
  deriving DecidableEq

structure Client where
  fd : Nat
  conn : Nat
  incoming : Incoming

inductive Worker where
  /-- `worker_` is not joinable. -/
  | absent
  | checking
  | accepting
  /-- Behind `accept`, before `send_mutex_`. -/
  | accepted (client : Client)
  | serving (client : Client)
  | reading (client : Client)
  /-- Behind `clientLoop`, before `send_mutex_`. -/
  | leaving (client : Client)
  | ended

inductive Owner where
  | free
  | closingClient
  | closingListener
  | joining
  deriving DecidableEq

/-- The call of `send` that holds `send_mutex_` and has found a client. -/
structure Sending where
  message : Message
  written : Bytes
  headerOut : Bool

def Sending.part (sending : Sending) : Bytes :=
  if sending.headerOut then sending.message.payload else packHeader sending.message.header

structure Call where
  message : Message
  written : Bytes
  ok : Bool

structure State where
  running : Bool := false
  sendSeq : UInt64 := 1
  listenFd : Option Nat := none
  clientFd : Option Nat := none
  worker : Worker := .absent
  owner : Owner := .free
  sending : Option Sending := none
  sockets : Nat → Option Socket := fun _ => none
  connections : Nat := 0

inductive Started where
  | noSocket
  | bindFails (fd : Nat)
  | listenFails (fd : Nat)
  | listens (fd : Nat)

inductive Move where
  | start (started : Started)
  | stop
  | owner
  | worker (accepted : Option (Nat × Incoming))
  | send (type : PacketType) (payload : Bytes) (timestampNs : Int64)
  | write (results : List SendResult)

inductive Event where
  | opened (fd : Nat)
  | accepted (fd conn : Nat) (incoming : Incoming)
  | closed (fd : Nat)
  | status (status : Status)
  | packet (conn : Nat) (packet : ReceivedPacket)
  | wrote (socket : Option Socket) (bytes : Bytes)
  | sent (socket : Option Socket) (call : Call)
  /-- `worker_` is assigned to while it is joinable, which ends the program. -/
  | terminated
  | stopping
  | stopped

def acceptsHeader (header : PacketHeader) : Bool :=
  ¬ (header.magic ≠ kProtocolMagic ∨ header.version ≠ kProtocolVersion ∨
    ¬ isKnownPacketType header.type ∨ header.payloadSize > kMaxPayloadSize)

def readPacket (conn : Incoming) : Outcome PacketHeader × Incoming :=
  match conn.readExact kPacketHeaderSize with
  | (.data headerBytes, conn) =>
    let header := unpackHeader headerBytes
    if acceptsHeader header then
      match (if header.payloadSize ≠ 0 then conn.readExact header.payloadSize.toNat
        else (.data [], conn)) with
      | (.data payload, conn) => (.frame header payload, conn)
      | (_, conn) => (.ended, conn)
    else (.refused, conn)
  | (_, conn) => (.ended, conn)

def openSocket (s : State) (fd : Nat) (socket : Socket) : State :=
  { s with sockets := Function.update s.sockets fd (some socket) }

def closeFd (s : State) (fd : Nat) : State × List Event :=
  ({ s with sockets := Function.update s.sockets fd none }, [.closed fd])

def closeClient (s : State) : State × List Event :=
  match s.clientFd with
  | some fd =>
    let closed := closeFd s fd
    ({ closed.1 with clientFd := none }, closed.2)
  | none => (s, [])

def closeListener (s : State) : State × List Event :=
  match s.listenFd with
  | some fd =>
    let closed := closeFd s fd
    ({ closed.1 with listenFd := none }, closed.2)
  | none => (s, [])

/-- Nobody but the caller sees `listen_fd_` and `running_` in it, so it is one step. The kernel
    hands out no number that is in use. -/
def start (s : State) (started : Started) : State × List Event :=
  if s.running then (s, [])
  else
    match started with
    | .noSocket => (s, [.status .socketFailed])
    | .bindFails fd =>
      if s.sockets fd = none then (s, [.opened fd, .status .bindFailed, .closed fd]) else (s, [])
    | .listenFails fd =>
      if s.sockets fd = none then (s, [.opened fd, .status .listenFailed, .closed fd]) else (s, [])
    | .listens fd =>
      if s.sockets fd = none then
        let opened := openSocket s fd .listener
        match s.worker with
        | .absent =>
          ({ opened with running := true, listenFd := some fd, worker := .checking },
            [.opened fd, .status .listening])
        | _ =>
          ({ opened with running := true, listenFd := some fd, worker := .checking },
            [.opened fd, .terminated])
      else (s, [])

def stop (s : State) : State × List Event :=
  if s.running then ({ s with running := false, owner := .closingClient }, [.stopping])
  else (s, [.stopped])

/-- What is behind the first line of `stop`. -/
def stopOn (s : State) : State × List Event :=
  match s.owner with
  | .free => (s, [])
  | .closingClient =>
    if s.sending.isNone then
      let closed := closeClient s
      ({ closed.1 with owner := .closingListener }, closed.2)
    else (s, [])
  | .closingListener =>
    let closed := closeListener s
    ({ closed.1 with owner := .joining }, closed.2)
  | .joining =>
    match s.worker with
    | .ended | .absent => ({ s with worker := .absent, owner := .free }, [.stopped])
    | _ => (s, [])

def acceptFails (s : State) : State × List Event :=
  ({ s with worker := .checking }, if s.running then [.status .acceptFailed] else [])

def accept (s : State) (accepted : Option (Nat × Incoming)) : State × List Event :=
  match s.listenFd, accepted with
  | some _, some (fd, incoming) =>
    if s.sockets fd = none then
      ({ openSocket s fd (.client s.connections) with
        worker := .accepted { fd := fd, conn := s.connections, incoming := incoming }
        connections := s.connections + 1 }, [.accepted fd s.connections incoming])
    else (s, [])
  | _, _ => acceptFails s

/-- A read on a descriptor that has been closed fails. -/
def receive (s : State) (client : Client) : State × List Event :=
  if s.sockets client.fd = some (.client client.conn) then
    match readPacket client.incoming with
    | (.frame header payload, rest) =>
      ({ s with worker := .serving { client with incoming := rest } },
        [.packet client.conn { header := header, payload := payload }])
    | (.refused, rest) =>
      ({ s with worker := .leaving { client with incoming := rest } }, [.status .invalidHeader])
    | (.ended, rest) => ({ s with worker := .leaving { client with incoming := rest } }, [])
  else ({ s with worker := .leaving client }, [])

def work (s : State) (accepted : Option (Nat × Incoming)) : State × List Event :=
  match s.worker with
  | .absent | .ended => (s, [])
  | .checking => ({ s with worker := if s.running then .accepting else .ended }, [])
  | .accepting => accept s accepted
  | .accepted client =>
    if s.sending.isNone then
      let closed := closeClient s
      ({ closed.1 with clientFd := some client.fd, worker := .serving client },
        closed.2 ++ [.status .clientConnected])
    else (s, [])
  | .serving client =>
    ({ s with worker := if s.running then .reading client else .leaving client }, [])
  | .reading client => receive s client
  | .leaving client =>
    if s.sending.isNone then
      let closed := if s.clientFd = some client.fd then closeClient s else (s, [])
      ({ closed.1 with worker := .checking }, closed.2 ++ [.status .clientDisconnected])
    else (s, [])

/-- `send` up to the header's write. -/
def send (s : State) (type : PacketType) (payload : Bytes) (timestampNs : Int64) :
    State × List Event :=
  if s.sending.isNone ∧ s.clientFd.isSome then
    let message : Message :=
      { type := type, seq := s.sendSeq, timestampNs := timestampNs, payload := payload }
    ({ s with
      sendSeq := s.sendSeq + 1
      sending := some { message := message, written := [], headerOut := false } }, [])
  else (s, [])

def write (s : State) (results : List SendResult) : State × List Event :=
  match s.sending with
  | none => (s, [])
  | some sending =>
    match s.clientFd with
    | none =>
      ({ s with sending := none },
        [.sent none { message := sending.message, written := sending.written, ok := false }])
    | some fd =>
      let out := writeExact results sending.part
      let written := sending.written ++ out.bytes
      if ¬ sending.headerOut ∧ out.ok then
        ({ s with sending := some { sending with written := written, headerOut := true } },
          [.wrote (s.sockets fd) out.bytes])
      else
        ({ s with sending := none }, [.wrote (s.sockets fd) out.bytes,
          .sent (s.sockets fd) { message := sending.message, written := written, ok := out.ok }])

def step (s : State) : Move → State × List Event
  | .start started => if s.owner = .free then start s started else (s, [])
  | .stop => if s.owner = .free then stop s else (s, [])
  | .owner => stopOn s
  | .worker accepted => work s accepted
  | .send type payload timestampNs => send s type payload timestampNs
  | .write results => write s results

theorem closeClient_some {s : State} {fd : Nat} (client : s.clientFd = some fd) :
    closeClient s = ({ s with sockets := Function.update s.sockets fd none, clientFd := none },
      [.closed fd]) := by
  simp only [closeClient, client, closeFd]

theorem closeClient_none {s : State} (none_ : s.clientFd = none) : closeClient s = (s, []) := by
  simp only [closeClient, none_]

theorem closeListener_some {s : State} {fd : Nat} (listener : s.listenFd = some fd) :
    closeListener s = ({ s with sockets := Function.update s.sockets fd none, listenFd := none },
      [.closed fd]) := by
  simp only [closeListener, listener, closeFd]

theorem closeListener_none {s : State} (none_ : s.listenFd = none) :
    closeListener s = (s, []) := by
  simp only [closeListener, none_]

/- What a step can be. -/

inductive Acts (s : State) : State → List Event → Prop
  | idle : Acts s s []
  | returned (free : s.owner = .free) (off : s.running = false) : Acts s s [.stopped]
  | unopened : Acts s s [.status .socketFailed]
  | unbound {fd : Nat} {status : Status} (unused : s.sockets fd = none) :
    Acts s s [.opened fd, .status status, .closed fd]
  | started {fd : Nat} {event : Event} (free : s.owner = .free) (off : s.running = false)
    (unused : s.sockets fd = none)
    (event_ : s.worker = .absent → event = .status .listening)
    (kind : event = .status .listening ∨ event = .terminated) :
    Acts s { openSocket s fd .listener with
      running := true, listenFd := some fd, worker := .checking } [.opened fd, event]
  | stopping (free : s.owner = .free) (on : s.running = true) :
    Acts s { s with running := false, owner := .closingClient } [.stopping]
  | closedClient (here : s.owner = .closingClient) (quiet : s.sending = none) :
    Acts s { (closeClient s).1 with owner := .closingListener } (closeClient s).2
  | closedListener (here : s.owner = .closingListener) :
    Acts s { (closeListener s).1 with owner := .joining } (closeListener s).2
  | joined (here : s.owner = .joining) (done : s.worker = .ended ∨ s.worker = .absent) :
    Acts s { s with worker := .absent, owner := .free } [.stopped]
  | checked (here : s.worker = .checking) :
    Acts s { s with worker := if s.running then .accepting else .ended } []
  | unaccepted (here : s.worker = .accepting) : Acts s (acceptFails s).1 (acceptFails s).2
  | accepted {fd : Nat} {incoming : Incoming} (here : s.worker = .accepting)
    (listens : s.listenFd ≠ none) (unused : s.sockets fd = none) :
    Acts s { openSocket s fd (.client s.connections) with
        worker := .accepted { fd := fd, conn := s.connections, incoming := incoming }
        connections := s.connections + 1 } [.accepted fd s.connections incoming]
  | stored {client : Client} (here : s.worker = .accepted client) (quiet : s.sending = none) :
    Acts s { (closeClient s).1 with clientFd := some client.fd, worker := .serving client }
      ((closeClient s).2 ++ [.status .clientConnected])
  | served {client : Client} (here : s.worker = .serving client) :
    Acts s { s with worker := if s.running then .reading client else .leaving client } []
  | received {client : Client} {header : PacketHeader} {payload : Bytes} {rest : Incoming}
    (here : s.worker = .reading client)
    (live : s.sockets client.fd = some (.client client.conn))
    (read : readPacket client.incoming = (.frame header payload, rest)) :
    Acts s { s with worker := .serving { client with incoming := rest } }
      [.packet client.conn { header := header, payload := payload }]
  | refused {client : Client} {rest : Incoming} {es : List Event}
    (here : s.worker = .reading client)
    (reason : s.sockets client.fd = some (.client client.conn) →
      ∀ header payload, (readPacket client.incoming).1 ≠ .frame header payload)
    (events : es = [] ∨ es = [.status .invalidHeader]) :
    Acts s { s with worker := .leaving { client with incoming := rest } } es
  | left {client : Client} (here : s.worker = .leaving client) (quiet : s.sending = none)
    (own : s.clientFd = some client.fd) :
    Acts s { (closeClient s).1 with worker := .checking }
      ((closeClient s).2 ++ [.status .clientDisconnected])
  | leftClosed {client : Client} (here : s.worker = .leaving client) (quiet : s.sending = none)
    (gone : s.clientFd ≠ some client.fd) :
    Acts s { s with worker := .checking } [.status .clientDisconnected]
  | numbered {message : Message} (quiet : s.sending = none) (client : s.clientFd ≠ none)
    (seq : message.seq = s.sendSeq) :
    Acts s { s with
      sendSeq := s.sendSeq + 1
      sending := some { message := message, written := [], headerOut := false } } []
  | unsent {sending : Sending} (busy : s.sending = some sending) (gone : s.clientFd = none) :
    Acts s { s with sending := none }
      [.sent none { message := sending.message, written := sending.written, ok := false }]
  | headed {sending : Sending} {fd : Nat} {out : Written} {results : List SendResult}
    (busy : s.sending = some sending) (client : s.clientFd = some fd)
    (next : sending.headerOut = false)
    (wrote : out = writeExact results sending.part)
    (whole : out.ok = true) :
    Acts s { s with sending := some { sending with
      written := sending.written ++ out.bytes, headerOut := true } }
      [.wrote (s.sockets fd) out.bytes]
  | finished {sending : Sending} {fd : Nat} {out : Written} {results : List SendResult}
    (busy : s.sending = some sending) (client : s.clientFd = some fd)
    (wrote : out = writeExact results sending.part)
    (last : sending.headerOut = true ∨ out.ok = false) :
    Acts s { s with sending := none } [.wrote (s.sockets fd) out.bytes,
      .sent (s.sockets fd)
        { message := sending.message, written := sending.written ++ out.bytes, ok := out.ok }]

theorem start_acts {s : State} (free : s.owner = .free) (started : Started) :
    Acts s (start s started).1 (start s started).2 := by
  unfold start
  split
  · exact .idle
  · next off =>
    have stopped : s.running = false := by simpa using off
    cases started with
    | noSocket => exact .unopened
    | bindFails fd =>
      simp only
      split
      · next unused => exact .unbound unused
      · exact .idle
    | listenFails fd =>
      simp only
      split
      · next unused => exact .unbound unused
      · exact .idle
    | listens fd =>
      simp only
      split
      · next unused =>
        split
        · exact .started free stopped unused (fun _ => rfl) (.inl rfl)
        · next present =>
          exact .started free stopped unused (fun absent => absurd absent present) (.inr rfl)
      · exact .idle

theorem stopOn_acts (s : State) : Acts s (stopOn s).1 (stopOn s).2 := by
  unfold stopOn
  split
  · exact .idle
  · next here =>
    split
    · next quiet => exact .closedClient here (Option.isNone_iff_eq_none.mp quiet)
    · exact .idle
  · next here => exact .closedListener here
  · next here =>
    split
    · next done => exact .joined here (.inl done)
    · next done => exact .joined here (.inr done)
    · exact .idle

theorem receive_acts {s : State} {client : Client} (here : s.worker = .reading client) :
    Acts s (receive s client).1 (receive s client).2 := by
  unfold receive
  split
  · next live =>
    split
    · next read => exact .received here live read
    · next read =>
      refine .refused here (fun _ header payload => ?_) (.inr rfl)
      rw [read]
      simp
    · next read =>
      refine .refused here (fun _ header payload => ?_) (.inl rfl)
      rw [read]
      simp
  · next closed => exact .refused here (fun live => absurd live closed) (.inl rfl)

theorem work_acts (s : State) (accepted : Option (Nat × Incoming)) :
    Acts s (work s accepted).1 (work s accepted).2 := by
  unfold work
  split
  · exact .idle
  · exact .idle
  · next here => exact .checked here
  · next here =>
    unfold accept
    split
    · next listens =>
      split
      · next unused => exact .accepted here (by rw [listens]; simp) unused
      · exact .idle
    · exact .unaccepted here
  · next here =>
    split
    · next quiet => exact .stored here (Option.isNone_iff_eq_none.mp quiet)
    · exact .idle
  · next here => exact .served here
  · next here => exact receive_acts here
  · next here =>
    split
    · next quiet =>
      split
      · next own => exact .left here (Option.isNone_iff_eq_none.mp quiet) own
      · next gone => exact .leftClosed here (Option.isNone_iff_eq_none.mp quiet) gone
    · exact .idle

theorem write_acts (s : State) (results : List SendResult) :
    Acts s (write s results).1 (write s results).2 := by
  unfold write
  split
  · exact .idle
  · next busy =>
    split
    · next gone => exact .unsent busy gone
    · next client =>
      simp only
      split
      · next more => exact .headed busy client (Bool.eq_false_iff.mpr more.1) rfl more.2
      · next done =>
        refine .finished busy client rfl ?_
        by_contra other
        rw [not_or, Bool.not_eq_true, Bool.not_eq_false] at other
        exact done ⟨by simp [other.1], other.2⟩

theorem step_acts (s : State) (move : Move) : Acts s (step s move).1 (step s move).2 := by
  cases move with
  | start started =>
    simp only [step]
    split
    · next free => exact start_acts free started
    · exact .idle
  | stop =>
    simp only [step]
    split
    · next free =>
      unfold stop
      split
      · next on => exact .stopping free on
      · next off => exact .returned free (by simpa using off)
    · exact .idle
  | owner => exact stopOn_acts s
  | worker accepted => exact work_acts s accepted
  | send type payload timestampNs =>
    simp only [step, send]
    split
    · next open_ =>
      refine .numbered (Option.isNone_iff_eq_none.mp open_.1) ?_ rfl
      rw [← Option.isSome_iff_ne_none]
      exact open_.2
    · exact .idle
  | write results => exact write_acts s results

end HostTcpServer
