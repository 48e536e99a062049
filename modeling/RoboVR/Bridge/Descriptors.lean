import RoboVR.Bridge.TcpServer
import RoboVR.Lib.Ledger

/- The descriptors of the bridge over any interleaving of its threads: what is open, who closes it,
   and what a call of `stop` leaves. -/
namespace HostDescriptors
open ByteStream TracedRun Ledger HostTcpServer

/-- The connection behind `accept` that `client_fd_` does not know yet. -/
def fresh : Worker → Option (Nat × Nat)
  | .accepted client => some (client.fd, client.conn)
  | _ => none

def stored : Worker → Option (Nat × Nat)
  | .serving client | .reading client | .leaving client => some (client.fd, client.conn)
  | _ => none

/-- What the kernel has open is what the server knows. -/
structure Table (s : State) : Prop where
  listener : ∀ fd, s.listenFd = some fd → s.sockets fd = some .listener
  fresh : ∀ fd conn, fresh s.worker = some (fd, conn) →
    s.sockets fd = some (.client conn) ∧ s.clientFd = none
  client : ∀ fd, s.clientFd = some fd →
    ∃ conn, stored s.worker = some (fd, conn) ∧ s.sockets fd = some (.client conn)
  known : ∀ fd socket, s.sockets fd = some socket →
    s.listenFd = some fd ∨ s.clientFd = some fd ∨ ∃ conn, HostDescriptors.fresh s.worker = some (fd, conn)

structure Control (s : State) : Prop where
  on : s.running = true → s.owner = .free ∧ s.listenFd ≠ none ∧ s.worker ≠ .absent ∧
    s.worker ≠ .ended
  off : s.owner = .free → s.running = false → s.worker = .absent ∧ s.listenFd = none
  stopping : s.owner ≠ .free → s.running = false ∧ s.worker ≠ .absent
  joining : s.owner = .joining → s.listenFd = none

structure Serving (s : State) : Prop where
  unread : ∀ client, s.worker = .reading client →
    s.owner = .closingListener ∨ s.owner = .joining → s.clientFd = none
  /-- Only `stop` closes the client of a worker that still serves it. -/
  dropped : stored s.worker ≠ none → s.clientFd = none →
    s.owner = .closingListener ∨ s.owner = .joining
  sending : s.sending ≠ none → s.clientFd ≠ none

theorem table_same {s after : State} (table : Table s) (listenFd : after.listenFd = s.listenFd)
    (clientFd : after.clientFd = s.clientFd) (sockets : after.sockets = s.sockets)
    (fresh_ : fresh after.worker = fresh s.worker)
    (stored_ : stored after.worker = stored s.worker) : Table after := by
  constructor
  · rw [listenFd, sockets]
    exact table.listener
  · rw [fresh_, sockets, clientFd]
    exact table.fresh
  · rw [clientFd, stored_, sockets]
    exact table.client
  · rw [sockets, listenFd, clientFd, fresh_]
    exact table.known

theorem ne_of_unused {s : State} {fd other : Nat} {socket : Socket} (unused : s.sockets fd = none)
    (used : s.sockets other = some socket) : other ≠ fd := by
  rintro rfl
  rw [unused] at used
  exact absurd used (by simp)

theorem Table.unstored {s : State} (table : Table s) (none_ : stored s.worker = none) :
    s.clientFd = none := by
  cases client : s.clientFd with
  | none => rfl
  | some fd =>
    obtain ⟨conn, there, _⟩ := table.client fd client
    rw [none_] at there
    exact absurd there (by simp)

theorem table_step {s after : State} {es : List Event} (table : Table s) (control : Control s)
    (acts : Acts s after es) : Table after := by
  cases acts with
  | idle | returned | unopened | unbound => exact table
  | started free off unused =>
    have absent := control.off free off
    constructor <;> simp only [openSocket, Function.update_apply, fresh, stored] <;>
      grind [Table, fresh, stored]
  | stopping => exact table_same table rfl rfl rfl rfl rfl
  | closedClient here quiet =>
    cases client : s.clientFd with
    | none =>
      rw [closeClient_none client]
      exact table_same table rfl rfl rfl rfl rfl
    | some fd =>
      rw [closeClient_some client]
      constructor <;> simp only [Function.update_apply] <;> grind [Table]
  | closedListener here =>
    cases listener : s.listenFd with
    | none =>
      rw [closeListener_none listener]
      exact table_same table rfl rfl rfl rfl rfl
    | some fd =>
      rw [closeListener_some listener]
      constructor <;> simp only [Function.update_apply] <;> grind [Table]
  | joined here done =>
    refine table_same table rfl rfl rfl ?_ ?_ <;> rcases done with done | done <;> rw [done] <;> rfl
  | checked here =>
    refine table_same table rfl rfl rfl ?_ ?_ <;> rw [here] <;> simp only <;> split <;> rfl
  | unaccepted here => refine table_same table rfl rfl rfl ?_ ?_ <;> rw [here] <;> rfl
  | accepted here listens unused =>
    have none_ := table.unstored (by rw [here]; rfl)
    constructor <;> simp only [openSocket, Function.update_apply, fresh, stored] <;>
      grind [Table, fresh, stored]
  | stored here quiet =>
    have new := table.fresh _ _ (by rw [here]; rfl)
    rw [closeClient_none new.2]
    constructor <;> simp only [fresh, stored] <;> grind [Table, fresh]
  | served here =>
    refine table_same table rfl rfl rfl ?_ ?_ <;> rw [here] <;> simp only <;> split <;> rfl
  | received here | refused here => refine table_same table rfl rfl rfl ?_ ?_ <;> rw [here] <;> rfl
  | left here quiet own =>
    rw [closeClient_some own]
    constructor <;> simp only [Function.update_apply, fresh, stored] <;>
      grind [Table, fresh, stored]
  | leftClosed here quiet gone =>
    constructor <;> simp only [fresh, stored] <;> grind [Table, fresh, stored]
  | numbered | unsent | headed | finished => exact table_same table rfl rfl rfl rfl rfl

theorem control_same {s after : State} (control : Control s) (running : after.running = s.running)
    (owner : after.owner = s.owner) (listenFd : after.listenFd = s.listenFd)
    (absent : after.worker = .absent ↔ s.worker = .absent)
    (ended : after.worker = .ended ↔ s.worker = .ended) : Control after := by
  constructor
  · simp only [running, owner, listenFd, ne_eq, absent, ended]
    exact control.on
  · rw [owner, running, absent, listenFd]
    exact control.off
  · rw [owner, running, ne_eq, ne_eq, absent]
    exact control.stopping
  · rw [owner, listenFd]
    exact control.joining

theorem control_step {s after : State} {es : List Event} (table : Table s) (control : Control s)
    (acts : Acts s after es) : Control after := by
  have on := control.on
  have off := control.off
  have stopping := control.stopping
  cases acts with
  | idle | returned | unopened | unbound => exact control
  | started free => constructor <;> simp [openSocket, free]
  | stopping free on_ =>
    constructor <;> simp only
    · simp
    · simp
    · exact fun _ => ⟨trivial, (on on_).2.2.1⟩
    · simp
  | closedClient here quiet =>
    have before := stopping (by rw [here]; simp)
    cases there : s.clientFd with
    | none =>
      rw [closeClient_none there]
      constructor <;> simp [before]
    | some fd =>
      rw [closeClient_some there]
      constructor <;> simp [before]
  | closedListener here =>
    have before := stopping (by rw [here]; simp)
    cases there : s.listenFd with
    | none =>
      rw [closeListener_none there]
      constructor <;> simp [before, there]
    | some fd =>
      rw [closeListener_some there]
      constructor <;> simp [before]
  | joined here =>
    have before := stopping (by rw [here]; simp)
    have closed := control.joining here
    constructor <;> simp [before, closed]
  | checked here => constructor <;> grind [Control]
  | unaccepted here | received here | refused here | leftClosed here =>
    exact control_same control rfl rfl rfl (by simp [here, acceptFails]) (by simp [here, acceptFails])
  | accepted here =>
    exact control_same control rfl rfl rfl (by simp [here]) (by simp [here])
  | stored here quiet =>
    rw [closeClient_none (table.unstored (by rw [here]; rfl))]
    exact control_same control rfl rfl rfl (by simp [here]) (by simp [here])
  | served here =>
    refine control_same control rfl rfl rfl ?_ ?_ <;> rw [here] <;> simp only <;> split <;> simp
  | left here quiet own =>
    rw [closeClient_some own]
    exact control_same control rfl rfl rfl (by simp [here]) (by simp [here])
  | numbered | unsent | headed | finished => exact control_same control rfl rfl rfl Iff.rfl Iff.rfl

theorem serving_idle {s : State} (idle : stored s.worker = none)
    (sending : s.sending ≠ none → s.clientFd ≠ none) : Serving s := by
  constructor
  · intro client reading
    rw [reading] at idle
    exact absurd idle (by simp [stored])
  · exact fun some_ => absurd idle some_
  · exact sending

theorem serving_step {s after : State} {es : List Event} (control : Control s)
    (serving : Serving s) (acts : Acts s after es) : Serving after := by
  have on := control.on
  have stopping := control.stopping
  obtain ⟨unread, dropped, sending⟩ := serving
  cases acts with
  | idle | returned | unopened | unbound => exact ⟨unread, dropped, sending⟩
  | started => exact serving_idle rfl sending
  | stopping free on_ =>
    constructor
    · simp
    · intro some_ none_
      have before := dropped some_ none_
      rw [free] at before
      simp at before
    · exact sending
  | closedClient here quiet =>
    cases there : s.clientFd with
    | none =>
      rw [closeClient_none there]
      exact ⟨fun _ _ _ => there, fun _ _ => .inl rfl, by simp [quiet]⟩
    | some fd =>
      rw [closeClient_some there]
      exact ⟨fun _ _ _ => rfl, fun _ _ => .inl rfl, by simp [quiet]⟩
  | closedListener here =>
    cases there : s.listenFd with
    | none =>
      rw [closeListener_none there]
      exact ⟨fun client reading _ => unread client reading (.inl here), fun _ _ => .inr rfl, sending⟩
    | some fd =>
      rw [closeListener_some there]
      exact ⟨fun client reading _ => unread client reading (.inl here), fun _ _ => .inr rfl, sending⟩
  | joined => exact serving_idle rfl sending
  | checked =>
    refine serving_idle ?_ sending
    simp only
    split <;> rfl
  | unaccepted => exact serving_idle rfl sending
  | accepted => exact serving_idle rfl sending
  | stored here quiet => exact ⟨by simp, by simp, by simp [closeClient]⟩
  | @served client here =>
    rw [here] at dropped
    constructor
    · intro other reading
      simp only at reading
      split at reading
      · next running =>
        rw [(on running).1]
        simp
      · exact absurd reading (by simp)
    · intro _ none_
      exact dropped (by simp [HostDescriptors.stored]) none_
    · exact sending
  | received here | refused here =>
    rw [here] at dropped
    exact ⟨by simp, fun _ => dropped (by simp [HostDescriptors.stored]), sending⟩
  | left here quiet own =>
    rw [closeClient_some own]
    exact serving_idle rfl (by simp [quiet])
  | leftClosed here quiet gone => exact serving_idle rfl (by simp [quiet])
  | numbered quiet client => exact ⟨unread, dropped, fun _ => client⟩
  | unsent => exact ⟨unread, dropped, by simp⟩
  | headed busy client => exact ⟨unread, dropped, by simp [client]⟩
  | finished => exact ⟨unread, dropped, by simp⟩

/- What is opened and closed. -/

def opens : Event → Option Nat
  | .opened fd | .accepted fd _ _ => some fd
  | _ => none

def closes : Event → Option Nat
  | .closed fd => some fd
  | _ => none

def openFds (s : State) : Multiset Nat :=
  ↑(s.listenFd.toList ++ (s.clientFd.toList ++ ((fresh s.worker).map Prod.fst).toList))

theorem openFds_same {s after : State} (listenFd : after.listenFd = s.listenFd)
    (clientFd : after.clientFd = s.clientFd) (fresh_ : fresh after.worker = fresh s.worker) :
    openFds after = openFds s := by
  rw [openFds, openFds, listenFd, clientFd, fresh_]

theorem openFds_client {s : State} {fd : Nat} (client : s.clientFd = some fd) :
    openFds s = fd ::ₘ openFds { s with clientFd := none } := by
  simp only [openFds, client, Option.toList_some, Option.toList_none, List.nil_append,
    Multiset.cons_coe, Multiset.coe_eq_coe]
  exact List.perm_middle

theorem openFds_listener {s : State} {fd : Nat} (listener : s.listenFd = some fd) :
    openFds s = fd ::ₘ openFds { s with listenFd := none } := by
  simp only [openFds, listener, Option.toList_some, Option.toList_none, List.nil_append,
    Multiset.cons_coe, List.singleton_append]

theorem moves_closed (fd : Nat) (held : Multiset Nat) :
    Moves opens closes (fd ::ₘ held) [.closed fd] held := by
  have keep : opens (.closed fd) = none := rfl
  have give : closes (.closed fd) = some fd := rfl
  exact moves_give keep give held

theorem moves_opened {e : Event} {fd : Nat} (opened : e = .opened fd ∨ ∃ conn incoming,
    e = .accepted fd conn incoming) (held : Multiset Nat) :
    Moves opens closes held [e] (fd ::ₘ held) := by
  have take : opens e = some fd := by rcases opened with rfl | ⟨conn, incoming, rfl⟩ <;> rfl
  have keep : closes e = none := by rcases opened with rfl | ⟨conn, incoming, rfl⟩ <;> rfl
  exact moves_take take keep held

theorem moves_closeClient {s : State} :
    Moves opens closes (openFds s) (closeClient s).2 (openFds (closeClient s).1) := by
  cases client : s.clientFd with
  | none =>
    rw [closeClient_none client]
    exact moves_nil _
  | some fd =>
    rw [closeClient_some client, openFds_client client]
    exact moves_closed fd _

theorem moves_closeListener {s : State} :
    Moves opens closes (openFds s) (closeListener s).2 (openFds (closeListener s).1) := by
  cases listener : s.listenFd with
  | none =>
    rw [closeListener_none listener]
    exact moves_nil _
  | some fd =>
    rw [closeListener_some listener, openFds_listener listener]
    exact moves_closed fd _

theorem moves_same {s after : State} {es : List Event} (same : openFds after = openFds s)
    (silent : ∀ e ∈ es, opens e = none ∧ closes e = none) :
    Moves opens closes (openFds s) es (openFds after) := by
  rw [same]
  exact moves_silent silent _

theorem moves_step {s after : State} {es : List Event} (table : Table s) (control : Control s)
    (acts : Acts s after es) : Moves opens closes (openFds s) es (openFds after) := by
  cases acts with
  | idle => exact moves_nil _
  | returned => exact moves_same rfl (by simp [opens, closes])
  | unopened => exact moves_same rfl (by simp [opens, closes])
  | @unbound fd status =>
    have between : Moves opens closes (fd ::ₘ openFds s) [.status status] (fd ::ₘ openFds s) :=
      moves_silent (by simp [opens, closes]) _
    exact moves_append (moves_append (moves_opened (.inl rfl) _) between) (moves_closed fd _)
  | @started fd event free off unused event_ kind =>
    obtain ⟨absent, listener⟩ := control.off free off
    have client := table.unstored (by rw [absent]; rfl)
    have before : openFds s = 0 := by simp [openFds, listener, client, absent, fresh]
    have later : openFds { openSocket s fd .listener with
        running := true, listenFd := some fd, worker := .checking } = fd ::ₘ 0 := by
      simp [openFds, openSocket, client, fresh]
    rw [before, later]
    refine moves_append (moves_opened (.inl rfl) 0) (moves_silent ?_ _)
    rcases kind with rfl | rfl <;> simp [opens, closes]
  | stopping => exact moves_same rfl (by simp [opens, closes])
  | closedClient => exact moves_closeClient
  | closedListener => exact moves_closeListener
  | joined here done =>
    refine moves_same (openFds_same rfl rfl ?_) (by simp [opens, closes])
    simp only
    rcases done with done | done
    · rw [done]
      rfl
    · rw [done]
  | checked here =>
    refine moves_same (openFds_same rfl rfl ?_) (by simp)
    rw [here]
    simp only
    split <;> rfl
  | unaccepted here =>
    refine moves_same (openFds_same rfl rfl ?_) ?_
    · rw [here]
      rfl
    · unfold acceptFails
      split <;> simp [opens, closes]
  | @accepted fd incoming here =>
    have client := table.unstored (by rw [here]; rfl)
    have more : openFds { openSocket s fd (.client s.connections) with
        worker := .accepted { fd := fd, conn := s.connections, incoming := incoming }
        connections := s.connections + 1 } = fd ::ₘ openFds s := by
      simp only [openFds, openSocket, client, here, fresh, Option.map_some, Option.map_none,
        Option.toList_some, Option.toList_none, List.append_nil, List.nil_append,
        Multiset.cons_coe, Multiset.coe_eq_coe]
      exact List.perm_append_singleton _ _
    rw [more]
    exact moves_opened (.inr ⟨_, _, rfl⟩) _
  | @stored client here quiet =>
    have none_ := (table.fresh _ _ (by rw [here]; rfl)).2
    rw [closeClient_none none_]
    refine moves_same ?_ (by simp [opens, closes])
    simp [openFds, here, none_, fresh]
  | served here =>
    refine moves_same (openFds_same rfl rfl ?_) (by simp)
    rw [here]
    simp only
    split <;> rfl
  | received here =>
    refine moves_same (openFds_same rfl rfl ?_) (by simp [opens, closes])
    rw [here]
    rfl
  | refused here _ events =>
    refine moves_same (openFds_same rfl rfl ?_) ?_
    · rw [here]
      rfl
    · rcases events with rfl | rfl <;> simp [opens, closes]
  | left here quiet own =>
    have after : openFds { (closeClient s).1 with worker := .checking } =
        openFds (closeClient s).1 := by
      refine openFds_same rfl rfl ?_
      rw [closeClient_some own]
      simp [here, fresh]
    rw [after]
    exact moves_append moves_closeClient (moves_silent (by simp [opens, closes]) _)
  | leftClosed here =>
    refine moves_same (openFds_same rfl rfl ?_) (by simp [opens, closes])
    rw [here]
    rfl
  | numbered => exact moves_same rfl (by simp)
  | unsent | headed | finished => exact moves_same rfl (by simp [opens, closes])

structure Inv (s : State) (past : List Event) : Prop where
  table : Table s
  control : Control s
  serving : Serving s
  balanced : Balanced opens closes past (openFds s)

theorem inv_start : Inv {} [] := by
  constructor
  · constructor <;> simp [fresh]
  · constructor <;> simp
  · exact serving_idle rfl (by simp)
  · exact balanced_nil

theorem inv_step (s : State) (past : List Event) (move : Move) (inv : Inv s past) :
    Inv (step s move).1 (past ++ (step s move).2) := by
  have acts := step_acts s move
  constructor
  · exact table_step inv.table inv.control acts
  · exact control_step inv.table inv.control acts
  · exact serving_step inv.control inv.serving acts
  · exact (moves_step inv.table inv.control acts past inv.balanced).2

theorem run_inv (moves : List Move) : Inv (run step {} moves).1 (run step {} moves).2 :=
  run_invariant inv_step inv_start moves

theorem Inv.listener_or_client {s : State} {past : List Event} (inv : Inv s past) :
    (openFds s).card ≤ 2 := by
  have listener : s.listenFd.toList.length ≤ 1 := Option.length_toList_le
  have client : s.clientFd.toList.length ≤ 1 := Option.length_toList_le
  cases new : fresh s.worker with
  | none =>
    simp only [openFds, new, Multiset.coe_card, List.length_append, Option.map_none,
      Option.toList_none, List.length_nil]
    omega
  | some found =>
    have none_ := (inv.table.fresh found.1 found.2 new).2
    simp only [openFds, new, none_, Multiset.coe_card, List.length_append, Option.map_some,
      Option.toList_none, Option.toList_some, List.length_nil, List.length_singleton]
    omega

/-- Everything is closed when a call of `stop` returns. -/
def Settled (past : List Event) (event : Event) : Prop :=
  event = .stopped → taken opens past = returned closes past

theorem settled_step {s : State} {past : List Event} (inv : Inv s past) {after : State}
    {es : List Event} (acts : Acts s after es) : AtEvents Settled past es := by
  have closed (absent : s.worker = .absent ∨ s.worker = .ended) (listener : s.listenFd = none) :
      taken opens past = returned closes past := by
    have client := inv.table.unstored (by rcases absent with done | done <;> rw [done] <;> rfl)
    have new : fresh s.worker = none := by rcases absent with done | done <;> rw [done] <;> rfl
    have balanced := inv.balanced
    rw [Ledger.Balanced, openFds, listener, client, new] at balanced
    simpa using balanced
  cases acts with
  | returned free off =>
    obtain ⟨absent, listener⟩ := inv.control.off free off
    exact ⟨fun _ => closed (.inl absent) listener, trivial⟩
  | joined here done => exact ⟨fun _ => closed done.symm (inv.control.joining here), trivial⟩
  | closedClient =>
    refine atEvents_of_all (fun e mem _ stopped => ?_) past
    unfold closeClient at mem
    split at mem <;> simp [closeFd, stopped] at mem
  | closedListener =>
    refine atEvents_of_all (fun e mem _ stopped => ?_) past
    unfold closeListener at mem
    split at mem <;> simp [closeFd, stopped] at mem
  | stored | left =>
    refine atEvents_of_all (fun e mem _ stopped => ?_) past
    unfold closeClient at mem
    split at mem <;> simp [closeFd, stopped] at mem
  | unaccepted =>
    refine atEvents_of_all (fun e mem _ stopped => ?_) past
    unfold acceptFails at mem
    split at mem <;> simp [stopped] at mem
  | started _ _ _ _ kind =>
    refine atEvents_of_all (fun e mem _ stopped => ?_) past
    rcases kind with rfl | rfl <;> simp [stopped] at mem
  | refused _ _ events =>
    refine atEvents_of_all (fun e mem _ stopped => ?_) past
    rcases events with rfl | rfl <;> simp [stopped] at mem
  | _ =>
    refine atEvents_of_all (fun e mem _ stopped => ?_) past
    simp [stopped] at mem

/-- An event that does not end the program, and writes to no descriptor but that of a client. -/
def Sound (event : Event) : Prop :=
  event ≠ .terminated ∧
    (∀ socket bytes, event = .wrote socket bytes → ∃ conn, socket = some (.client conn)) ∧
    ∀ socket call, event = .sent socket call → ∃ conn, socket = some (.client conn)

theorem sound_step {s : State} {past : List Event} (inv : Inv s past) {after : State}
    {es : List Event} (acts : Acts s after es) : ∀ e ∈ es, Sound e := by
  have client (fd : Nat) (there : s.clientFd = some fd) :
      ∃ conn, s.sockets fd = some (.client conn) := by
    obtain ⟨conn, _, socket⟩ := inv.table.client fd there
    exact ⟨conn, socket⟩
  intro e mem
  cases acts with
  | started free off unused event_ kind =>
    have listening := event_ (inv.control.off free off).1
    subst listening
    simp only [List.mem_cons, List.not_mem_nil, or_false] at mem
    rcases mem with rfl | rfl <;> simp [Sound]
  | closedClient =>
    unfold closeClient at mem
    split at mem <;> simp [closeFd] at mem
    simp [mem, Sound]
  | closedListener =>
    unfold closeListener at mem
    split at mem <;> simp [closeFd] at mem
    simp [mem, Sound]
  | stored | left =>
    unfold closeClient at mem
    split at mem <;> simp [closeFd] at mem
    · rcases mem with rfl | rfl <;> simp [Sound]
    · simp [mem, Sound]
  | unaccepted =>
    unfold acceptFails at mem
    split at mem <;> simp at mem
    simp [mem, Sound]
  | refused _ _ events =>
    rcases events with rfl | rfl <;> simp at mem
    simp [mem, Sound]
  | unsent busy gone => exact absurd gone (inv.serving.sending (by simp [busy]))
  | headed busy there =>
    obtain ⟨conn, socket⟩ := client _ there
    simp only [List.mem_singleton] at mem
    simp [mem, Sound, socket]
  | finished busy there =>
    obtain ⟨conn, socket⟩ := client _ there
    simp only [List.mem_cons, List.not_mem_nil, or_false] at mem
    rcases mem with rfl | rfl <;> simp [Sound, socket]
  | unbound =>
    simp only [List.mem_cons, List.not_mem_nil, or_false] at mem
    rcases mem with rfl | rfl | rfl <;> simp [Sound]
  | idle | checked | served | numbered => exact absurd mem (by simp)
  | returned | unopened | stopping | joined | accepted | received | leftClosed =>
    rw [List.mem_singleton.mp mem]
    simp [Sound]

/-- In any interleaving of the threads, whatever the kernel answers: a descriptor is closed only
    while it is open, at most two are open at a time, packets go to clients whose descriptor is
    open, no worker is overwritten, and a call of `stop` leaves nothing open. -/
theorem descriptors_kept (moves : List Move) :
    let s := (run step {} moves).1
    let past := (run step {} moves).2
    AtEvents (ReturnsHeld opens closes) [] past ∧ AtEvents Settled [] past ∧
      (∀ e ∈ past, Sound e) ∧ Ledger.Balanced opens closes past (openFds s) ∧ (openFds s).card ≤ 2 := by
  have kept := inv_step
  have inv := run_inv moves
  refine ⟨?_, ?_, ?_, inv.balanced, inv.listener_or_client⟩
  · rw [atEvents_run]
    refine atSteps_of_invariant kept (fun s past move inv => ?_) inv_start moves
    exact (moves_step inv.table inv.control (step_acts s move) past inv.balanced).1
  · rw [atEvents_run]
    refine atSteps_of_invariant kept (fun s past move inv => ?_) inv_start moves
    exact settled_step inv (step_acts s move)
  · have all : AtEvents (fun _ e => Sound e) [] (run step {} moves).2 := by
      rw [atEvents_run]
      refine atSteps_of_invariant kept (fun s past move inv => ?_) inv_start moves
      exact atEvents_of_all (fun e mem _ => sound_step inv (step_acts s move) e mem) past
    intro e mem
    obtain ⟨pre, post, split⟩ := List.append_of_mem mem
    exact (atEvents_iff _ _ _).mp all pre e post split

end HostDescriptors
