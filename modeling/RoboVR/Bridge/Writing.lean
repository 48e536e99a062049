import RoboVR.Bridge.Descriptors
import RoboVR.Client.Transport
import RoboVR.Lib.Framing

/- What any threads that call `send` put on the connections of the bridge: whole calls one after
   another, numbered without a gap, each on the one connection that it has found. -/
namespace HostWriting
open ByteStream Framing TracedRun HostTcpServer HostDescriptors
open QuestTeleop (Bytes packHeader)
open QuestTransport (numbers numbers_append)

def callOf : Event → Option Call
  | .sent _ call => some call
  | _ => none

def callOn (conn : Nat) : Event → Option Call
  | .sent socket call => if socket = some (.client conn) then some call else none
  | _ => none

def bytesOn (conn : Nat) : Event → Bytes
  | .wrote socket bytes => if socket = some (.client conn) then bytes else []
  | _ => []

def sentCalls (past : List Event) : List Call := past.filterMap callOf

def calls (conn : Nat) (past : List Event) : List Call := past.filterMap (callOn conn)

def written (conn : Nat) (past : List Event) : Bytes := past.flatMap (bytesOn conn)

def attempt (call : Call) : Attempt := { packet := call.message.bytes, written := call.written }

def attempts (conn : Nat) (past : List Event) : List Attempt := (calls conn past).map attempt

def socketOf (s : State) : Option Socket := s.clientFd.bind s.sockets

/-- What the call in progress has put on a connection. -/
def underway (s : State) (conn : Nat) : Bytes :=
  match s.sending with
  | some sending => if socketOf s = some (.client conn) then sending.written else []
  | none => []

/-- A call has the number it was given, has written a part of its packet, and succeeds iff that
    is all of it. -/
structure Good (call : Call) : Prop where
  part : call.written <+: call.message.bytes
  whole : call.ok = true ↔ call.written = call.message.bytes

structure Writing (s : State) (past : List Event) : Prop where
  bytes : ∀ conn, written conn past = stream (attempts conn past) ++ underway s conn
  numbered : (sentCalls past).map (·.message.seq) ++ s.sending.toList.map (·.message.seq) =
    numbers 1 ((sentCalls past).length + s.sending.toList.length)
  next : s.sendSeq = 1 + UInt64.ofNat ((sentCalls past).length + s.sending.toList.length)
  good : ∀ call ∈ sentCalls past, Good call
  head : ∀ sending, s.sending = some sending →
    sending.written = if sending.headerOut then packHeader sending.message.header else []

theorem written_append (conn : Nat) (past es : List Event) :
    written conn (past ++ es) = written conn past ++ written conn es := List.flatMap_append

theorem attempts_append (conn : Nat) (past es : List Event) :
    attempts conn (past ++ es) = attempts conn past ++ attempts conn es := by
  rw [attempts, calls, List.filterMap_append, List.map_append]
  rfl

theorem stream_append (first second : List Attempt) :
    stream (first ++ second) = stream first ++ stream second := List.flatMap_append

def isWrite : Event → Bool
  | .wrote _ _ | .sent _ _ => true
  | _ => false

def Silent (es : List Event) : Prop := ∀ e ∈ es, isWrite e = false

theorem silent_nil : Silent [] := by simp [Silent]

theorem silent_keeps {es : List Event} (silent : Silent es) (past : List Event) :
    sentCalls (past ++ es) = sentCalls past ∧ (∀ conn, calls conn (past ++ es) = calls conn past) ∧
      ∀ conn, written conn (past ++ es) = written conn past := by
  have plain : ∀ e ∈ es, callOf e = none ∧ (∀ conn, callOn conn e = none) ∧
      ∀ conn, bytesOn conn e = [] := by
    intro e mem
    have quiet := silent e mem
    cases e with
    | wrote | sent => exact absurd quiet (by simp [isWrite])
    | _ => exact ⟨rfl, fun _ => rfl, fun _ => rfl⟩
  refine ⟨?_, fun conn => ?_, fun conn => ?_⟩
  · have none_ : es.filterMap callOf = [] :=
      List.filterMap_eq_nil_iff.mpr fun e mem => (plain e mem).1
    rw [sentCalls, List.filterMap_append, none_, List.append_nil]
    rfl
  · have none_ : es.filterMap (callOn conn) = [] :=
      List.filterMap_eq_nil_iff.mpr fun e mem => (plain e mem).2.1 conn
    rw [calls, List.filterMap_append, none_, List.append_nil]
    rfl
  · have none_ : es.flatMap (bytesOn conn) = [] :=
      List.flatMap_eq_nil_iff.mpr fun e mem => (plain e mem).2.2 conn
    rw [written, List.flatMap_append, none_, List.append_nil]
    rfl

theorem writing_same {s after : State} {past es : List Event} (writing : Writing s past)
    (silent : Silent es) (sendSeq : after.sendSeq = s.sendSeq) (sending : after.sending = s.sending)
    (socket : s.sending ≠ none → socketOf after = socketOf s) : Writing after (past ++ es) := by
  obtain ⟨all, own, bytes⟩ := silent_keeps silent past
  constructor
  · intro conn
    have same : underway after conn = underway s conn := by
      unfold underway
      rw [sending]
      split
      · next there => rw [socket (by rw [there]; simp)]
      · rfl
    rw [bytes, attempts, own, same]
    exact writing.bytes conn
  · rw [all, sending]
    exact writing.numbered
  · rw [sendSeq, all, sending]
    exact writing.next
  · rw [all]
    exact writing.good
  · rw [sending]
    exact writing.head

theorem socket_kept {s after : State} {past : List Event} (inv : Inv s past)
    (clientFd : after.clientFd = s.clientFd)
    (sockets : ∀ fd conn, s.sockets fd = some (.client conn) → after.sockets fd = s.sockets fd)
    (busy : s.sending ≠ none) : socketOf after = socketOf s := by
  unfold socketOf
  rw [clientFd]
  cases client : s.clientFd with
  | none => exact absurd client (inv.serving.sending busy)
  | some fd =>
    obtain ⟨conn, _, socket⟩ := inv.table.client fd client
    exact sockets fd conn socket

theorem writing_start : Writing {} [] := by
  constructor
  · exact fun _ => rfl
  · rfl
  · rfl
  · simp [sentCalls]
  · simp

theorem silent_closeClient (s : State) : Silent (closeClient s).2 := by
  unfold closeClient
  split <;> simp [Silent, isWrite, closeFd]

theorem writing_numbered {s : State} {past : List Event} {message : QuestPacketReader.Message}
    (writing : Writing s past) (quiet : s.sending = none) (seq : message.seq = s.sendSeq) :
    Writing { s with
      sendSeq := s.sendSeq + 1
      sending := some { message := message, written := [], headerOut := false } } (past ++ []) := by
  have numbered := writing.numbered
  have next := writing.next
  rw [quiet, Option.toList_none, List.map_nil, List.append_nil, List.length_nil, Nat.add_zero]
    at numbered
  rw [quiet, Option.toList_none, List.length_nil, Nat.add_zero] at next
  rw [List.append_nil]
  constructor
  · intro conn
    have bytes := writing.bytes conn
    simp only [underway, quiet] at bytes ⊢
    rw [bytes]
    split <;> rfl
  · simp only [Option.toList_some, List.map_cons, List.map_nil, List.length_singleton]
    rw [numbers_append, ← numbered, seq, next]
    simp [numbers]
  · simp only [Option.toList_some, List.length_singleton]
    rw [next, UInt64.ofNat_add, ← UInt64.add_assoc]
    rfl
  · exact writing.good
  · intro sending there
    rw [← Option.some.inj there]
    rfl

theorem underway_sending {s : State} {sending : Sending} {fd : Nat}
    (busy : s.sending = some sending) (client : s.clientFd = some fd) (conn : Nat) :
    underway s conn = if s.sockets fd = some (.client conn) then sending.written else [] := by
  simp [underway, busy, socketOf, client]

theorem writing_headed {s : State} {past : List Event} {sending : Sending} {fd : Nat}
    {out : Written} {results : List SendResult} (writing : Writing s past)
    (busy : s.sending = some sending) (client : s.clientFd = some fd)
    (next : sending.headerOut = false) (wrote : out = writeExact results sending.part)
    (whole : out.ok = true) :
    Writing { s with sending := some { sending with
      written := sending.written ++ out.bytes, headerOut := true } }
      (past ++ [.wrote (s.sockets fd) out.bytes]) := by
  have all : sentCalls (past ++ [.wrote (s.sockets fd) out.bytes]) = sentCalls past := by
    rw [sentCalls, List.filterMap_append]
    exact List.append_nil _
  have own : ∀ conn, calls conn (past ++ [.wrote (s.sockets fd) out.bytes]) = calls conn past := by
    intro conn
    rw [calls, List.filterMap_append]
    exact List.append_nil _
  constructor
  · intro conn
    have bytes := writing.bytes conn
    rw [underway_sending busy client] at bytes
    rw [attempts, own, written_append, bytes, attempts]
    simp only [underway, socketOf, client, Option.bind_some]
    by_cases same : s.sockets fd = some (.client conn)
    · simp [written, bytesOn, same]
    · simp [written, bytesOn, same]
  · rw [all]
    have numbered := writing.numbered
    rw [busy] at numbered
    exact numbered
  · rw [all]
    have number := writing.next
    rw [busy] at number
    exact number
  · rw [all]
    exact writing.good
  · intro after there
    rw [← Option.some.inj there]
    have before : sending.written = [] := by
      rw [writing.head sending busy, next]
      rfl
    have part : sending.part = packHeader sending.message.header := by
      rw [Sending.part, next]
      rfl
    have bytes : out.bytes = sending.part := by
      rw [wrote] at whole ⊢
      exact (writeExact_spec results sending.part).2.mp whole
    rw [if_pos rfl, before, bytes, part, List.nil_append]

theorem good_finished {sending : Sending} {out : Written} {results : List SendResult}
    (head : sending.written =
      if sending.headerOut then packHeader sending.message.header else [])
    (wrote : out = writeExact results sending.part)
    (last : sending.headerOut = true ∨ out.ok = false) :
    Good { message := sending.message, written := sending.written ++ out.bytes, ok := out.ok } := by
  obtain ⟨part, whole⟩ := writeExact_spec results sending.part
  rw [← wrote] at part whole
  cases headerOut : sending.headerOut with
  | true =>
    rw [headerOut, if_pos rfl] at head
    simp only [Sending.part, headerOut, if_true] at part whole
    constructor
    · rw [head]
      exact (List.prefix_append_right_inj _).mpr part
    · simp only [head, QuestPacketReader.Message.bytes, List.append_cancel_left_eq]
      exact whole
  | false =>
    rw [headerOut] at head last
    simp only [Bool.false_eq_true, if_false] at head
    simp only [Sending.part, headerOut, Bool.false_eq_true, if_false] at part whole
    have failed : out.ok = false := last.resolve_left (by simp)
    constructor
    · rw [head, List.nil_append]
      exact part.trans (List.prefix_append _ _)
    · simp only [head, List.nil_append]
      constructor
      · intro ok
        rw [failed] at ok
        exact absurd ok (by simp)
      · intro all
        apply whole.mpr
        have longer := congrArg List.length all
        rw [QuestPacketReader.Message.bytes, List.length_append] at longer
        have shorter := part.length_le
        exact part.eq_of_length (by omega)

theorem writing_finished {s : State} {past : List Event} {sending : Sending} {fd : Nat}
    {out : Written} {results : List SendResult} (writing : Writing s past)
    (busy : s.sending = some sending) (client : s.clientFd = some fd)
    (wrote : out = writeExact results sending.part)
    (last : sending.headerOut = true ∨ out.ok = false) :
    Writing { s with sending := none } (past ++ [.wrote (s.sockets fd) out.bytes,
      .sent (s.sockets fd)
        { message := sending.message, written := sending.written ++ out.bytes, ok := out.ok }]) := by
  generalize callIs : Call.mk sending.message (sending.written ++ out.bytes) out.ok = call
  have message : call.message = sending.message := by rw [← callIs]
  have all : sentCalls (past ++ [.wrote (s.sockets fd) out.bytes, .sent (s.sockets fd) call]) =
      sentCalls past ++ [call] := by
    rw [sentCalls, List.filterMap_append]
    rfl
  have numbered := writing.numbered
  have next := writing.next
  rw [busy, Option.toList_some] at numbered next
  constructor
  · intro conn
    have bytes := writing.bytes conn
    rw [underway_sending busy client] at bytes
    rw [written_append, attempts_append, stream_append, bytes]
    by_cases same : s.sockets fd = some (.client conn)
    · have own : attempts conn [.wrote (s.sockets fd) out.bytes, .sent (s.sockets fd) call] =
          [attempt call] := by simp [attempts, calls, List.filterMap_cons, callOn, same]
      have put : call.written = sending.written ++ out.bytes := by rw [← callIs]
      rw [own]
      simp [written, bytesOn, same, underway, attempt, stream, put]
    · have own : attempts conn [.wrote (s.sockets fd) out.bytes, .sent (s.sockets fd) call] =
          [] := by simp [attempts, calls, List.filterMap_cons, callOn, same]
      rw [own]
      simp [written, bytesOn, same, underway, stream]
  · rw [all, List.map_append, List.length_append]
    simpa [message] using numbered
  · rw [all, List.length_append]
    simpa using next
  · rw [all]
    intro other mem
    rcases List.mem_append.mp mem with old | new
    · exact writing.good other old
    · rw [List.mem_singleton.mp new, ← callIs]
      exact good_finished (writing.head sending busy) wrote last
  · simp

theorem writing_step {s after : State} {past es : List Event} (inv : Inv s past)
    (writing : Writing s past) (acts : Acts s after es) : Writing after (past ++ es) := by
  cases acts with
  | idle => exact writing_same writing silent_nil rfl rfl fun _ => rfl
  | returned | unopened | unbound =>
    exact writing_same writing (by simp [Silent, isWrite]) rfl rfl fun _ => rfl
  | @started fd event free off unused event_ kind =>
    have silent : Silent [.opened fd, event] := by
      rcases kind with rfl | rfl <;> simp [Silent, isWrite]
    refine writing_same writing silent rfl rfl (socket_kept inv rfl fun other conn used => ?_)
    exact Function.update_of_ne (ne_of_unused unused used) _ _
  | stopping => exact writing_same writing (by simp [Silent, isWrite]) rfl rfl fun _ => rfl
  | closedClient here quiet =>
    refine writing_same writing (silent_closeClient s) ?_ ?_ (by simp [quiet]) <;>
      unfold closeClient <;> split <;> rfl
  | closedListener here =>
    cases listener : s.listenFd with
    | none =>
      rw [closeListener_none listener]
      exact writing_same writing silent_nil rfl rfl fun _ => rfl
    | some fd =>
      rw [closeListener_some listener]
      refine writing_same writing (by simp [Silent, isWrite]) rfl rfl
        (socket_kept inv rfl fun other conn used => ?_)
      refine Function.update_of_ne ?_ _ _
      rintro rfl
      rw [inv.table.listener other listener] at used
      exact absurd used (by simp)
  | joined => exact writing_same writing (by simp [Silent, isWrite]) rfl rfl fun _ => rfl
  | checked => exact writing_same writing silent_nil rfl rfl fun _ => rfl
  | unaccepted =>
    refine writing_same writing ?_ rfl rfl fun _ => rfl
    unfold acceptFails
    split <;> simp [Silent, isWrite]
  | accepted here listens unused =>
    refine writing_same writing (by simp [Silent, isWrite]) rfl rfl
      (socket_kept inv rfl fun other conn used => ?_)
    exact Function.update_of_ne (ne_of_unused unused used) _ _
  | stored here quiet =>
    rw [closeClient_none (inv.table.unstored (by rw [here]; rfl))]
    exact writing_same writing (by simp [Silent, isWrite]) rfl rfl (by simp [quiet])
  | served => exact writing_same writing silent_nil rfl rfl fun _ => rfl
  | received => exact writing_same writing (by simp [Silent, isWrite]) rfl rfl fun _ => rfl
  | refused _ _ events =>
    refine writing_same writing ?_ rfl rfl fun _ => rfl
    rcases events with rfl | rfl <;> simp [Silent, isWrite]
  | left here quiet own =>
    rw [closeClient_some own]
    exact writing_same writing (by simp [Silent, isWrite]) rfl rfl (by simp [quiet])
  | leftClosed => exact writing_same writing (by simp [Silent, isWrite]) rfl rfl fun _ => rfl
  | numbered quiet client seq => exact writing_numbered writing quiet seq
  | unsent busy gone => exact absurd gone (inv.serving.sending (by simp [busy]))
  | headed busy client next wrote whole => exact writing_headed writing busy client next wrote whole
  | finished busy client wrote last => exact writing_finished writing busy client wrote last

theorem run_writing (moves : List Move) :
    Writing (run step {} moves).1 (run step {} moves).2 := by
  have kept : ∀ s past move, Inv s past ∧ Writing s past →
      Inv (step s move).1 (past ++ (step s move).2) ∧
        Writing (step s move).1 (past ++ (step s move).2) :=
    fun s past move both =>
      ⟨inv_step s past move both.1, writing_step both.1 both.2 (step_acts s move)⟩
  exact (run_invariant kept ⟨inv_start, writing_start⟩ moves).2

/-- Whoever calls `send` when: the packets are numbered from 1 on without a gap over all
    connections, each connection holds its calls one after another with at most the one in
    progress behind them, and a call returns true iff its packet is there whole. -/
theorem calls_written (moves : List Move) :
    let s := (run step {} moves).1
    let past := (run step {} moves).2
    (sentCalls past).map (·.message.seq) = numbers 1 (sentCalls past).length ∧
      (∀ conn, written conn past = stream (attempts conn past) ++ underway s conn) ∧
      ∀ call ∈ sentCalls past, call.written <+: call.message.bytes ∧
        (call.ok = true ↔ call.written = call.message.bytes) := by
  intro s past
  have writing : Writing s past := run_writing moves
  refine ⟨?_, writing.bytes, fun call mem => ⟨(writing.good call mem).part,
    (writing.good call mem).whole⟩⟩
  have numbered := writing.numbered
  rw [numbers_append] at numbered
  exact (List.append_inj numbered (by simp [numbers])).1

end HostWriting
