import RoboVR.Server.SendThreads

/- What the threads put on each connection: whole packets in the order of their numbers, and
   nothing behind one that was cut. -/
namespace QuestWholePackets
open QuestTeleop (Bytes)
open QuestServer QuestRunThread QuestSendThreads
open TracedRun

def wholeOn (conn : Nat) : Event → Option HostPacket
  | .returned _ (.all other packet) _ => if other = conn then some packet else none
  | _ => none

def wholes (conn : Nat) (past : List Event) : List HostPacket := past.filterMap (wholeOn conn)

def cutOn (conn : Nat) : Event → Option (HostPacket × Bytes)
  | .cut other packet written => if other = conn then some (packet, written) else none
  | _ => none

def cuts (conn : Nat) (past : List Event) : List (HostPacket × Bytes) :=
  past.filterMap (cutOn conn)

def writesTo : SendPhase → Option Nat
  | .captured conn | .header conn _ | .payload conn _ => some conn
  | _ => none

def cleans : SendPhase → Bool
  | .failed _ _ _ | .clearing _ _ _ => true
  | _ => false

/-- Connections are only taken over in their order, and one with a cut packet is out of reach. -/
structure Reach (s : State) (past : List Event) : Prop where
  conn_known : ∀ c, s.server.conn = some c → c < s.thread.accepted
  writing_known : ∀ c, s.lock.bind (fun sender => writesTo sender.phase) = some c →
    c < s.thread.accepted
  cut_known : ∀ c, cuts c past ≠ [] → c < s.thread.accepted
  cut_replaced : ∀ c, cuts c past ≠ [] → s.server.conn = some c →
    (s.lock.map fun sender => cleans sender.phase) = some true
  cut_unwritten : ∀ c, cuts c past ≠ [] →
    s.lock.bind (fun sender => writesTo sender.phase) ≠ some c

theorem cuts_append (conn : Nat) (past es : List Event) :
    cuts conn (past ++ es) = cuts conn past ++ cuts conn es :=
  List.filterMap_append

theorem wholes_append (conn : Nat) (past es : List Event) :
    wholes conn (past ++ es) = wholes conn past ++ wholes conn es :=
  List.filterMap_append

theorem reach_start : Reach {} [] := by
  constructor <;> intro c <;> simp [cuts]

theorem run_events (conn : Nat) (events : List RunEvent) :
    cuts conn (events.map .run) = [] ∧ wholes conn (events.map .run) = [] := by
  constructor
  · rw [cuts, List.filterMap_map, List.filterMap_eq_nil_iff]
    intro e _
    rfl
  · rw [wholes, List.filterMap_map, List.filterMap_eq_nil_iff]
    intro e _
    rfl

theorem ran_conn {server next : Quest3Server} {thread after : RunThread} {events : List RunEvent}
    (ran : Ran server thread next after events) :
    thread.accepted ≤ after.accepted ∧ next.sendSeq = server.sendSeq ∧
      ∀ c, next.conn = some c →
        server.conn = some c ∨ (c = thread.accepted ∧ thread.accepted < after.accepted) := by
  cases ran with
  | idle => exact ⟨Nat.le_refl _, rfl, fun c there => .inl there⟩
  | accept phase =>
    refine ⟨Nat.le_succ _, rfl, fun c there => .inr ⟨?_, Nat.lt_succ_self _⟩⟩
    exact (Option.some.inj there).symm
  | online phase =>
    obtain ⟨conn, seq⟩ := setConnected_conn server true
    exact ⟨Nat.le_refl _, seq, fun c there => .inl (conn ▸ there)⟩
  | handled phase ok =>
    obtain ⟨conn, seq, _⟩ := handlePacket_keeps ok
    exact ⟨Nat.le_refl _, seq, fun c there => .inl (conn ▸ there)⟩
  | readReturns phase => exact ⟨Nat.le_refl _, rfl, fun c there => .inl there⟩
  | clearConn phase => exact ⟨Nat.le_refl _, rfl, fun c there => absurd there (by simp)⟩
  | offline phase =>
    obtain ⟨conn, seq⟩ := setConnected_conn (bump server .disconnects) false
    exact ⟨Nat.le_refl _, seq, fun c there => .inl (conn ▸ there)⟩

theorem conn_uncut {s : State} {past : List Event} (reach : Reach s past)
    (busy : (s.lock.map fun sender => cleans sender.phase) ≠ some true) {c : Nat}
    (there : s.server.conn = some c) : cuts c past = [] := by
  by_contra cut
  exact busy (reach.cut_replaced c cut there)

theorem reach_quiet {s after : State} {past es : List Event} (reach : Reach s past)
    (uncut : ∀ c, cuts c es = []) (thread : after.thread = s.thread)
    (conn : ∀ c, after.server.conn = some c → s.server.conn = some c)
    (writing : ∀ c, after.lock.bind (fun sender => writesTo sender.phase) = some c →
      s.lock.bind (fun sender => writesTo sender.phase) = some c ∨
        (s.server.conn = some c ∧ cuts c past = []))
    (replaced : ∀ c, after.server.conn = some c → cuts c past ≠ [] →
      (after.lock.map fun sender => cleans sender.phase) = some true) :
    Reach after (past ++ es) := by
  have same : ∀ c, cuts c (past ++ es) = cuts c past := by
    intro c
    rw [cuts_append, uncut, List.append_nil]
  constructor
  · intro c there
    rw [thread]
    exact reach.conn_known c (conn c there)
  · intro c there
    rw [thread]
    rcases writing c there with before | ⟨taken, _⟩
    · exact reach.writing_known c before
    · exact reach.conn_known c taken
  · intro c cut
    rw [thread]
    exact reach.cut_known c (same c ▸ cut)
  · intro c cut there
    exact replaced c there (same c ▸ cut)
  · intro c cut there
    rw [same] at cut
    rcases writing c there with before | ⟨_, uncut⟩
    · exact reach.cut_unwritten c cut before
    · exact cut uncut

theorem reach_uncleaned {s after : State} {past es : List Event} (reach : Reach s past)
    (busy : (s.lock.map fun sender => cleans sender.phase) ≠ some true)
    (uncut : ∀ c, cuts c es = []) (thread : after.thread = s.thread)
    (conn : ∀ c, after.server.conn = some c → s.server.conn = some c)
    (writing : ∀ c, after.lock.bind (fun sender => writesTo sender.phase) = some c →
      s.lock.bind (fun sender => writesTo sender.phase) = some c ∨ s.server.conn = some c) :
    Reach after (past ++ es) := by
  apply reach_quiet reach uncut thread conn
  · intro c there
    rcases writing c there with before | taken
    · exact .inl before
    · exact .inr ⟨taken, conn_uncut reach busy taken⟩
  · intro c there cut
    exact absurd (conn_uncut reach busy (conn c there)) cut

theorem reach_cut {s after : State} {past : List Event} {sender : Sender} {conn : Nat}
    {packet : HostPacket} {written : Bytes} (reach : Reach s past)
    (held : s.lock = some sender) (writing : writesTo sender.phase = some conn)
    (server : after.server = s.server) (thread : after.thread = s.thread)
    (failed : after.lock = some { sender with phase := .failed conn packet written }) :
    Reach after (past ++ [Event.cut conn packet written]) := by
  have known : conn < s.thread.accepted := by
    apply reach.writing_known
    rw [held]
    exact writing
  constructor
  · rw [server, thread]
    exact reach.conn_known
  · intro c there
    rw [failed] at there
    exact absurd there (by simp [writesTo])
  · intro c cut
    rw [thread]
    by_cases same : conn = c
    · rw [← same]
      exact known
    · rw [cuts_append] at cut
      simp only [cuts, cutOn, List.filterMap_cons, same, if_false, List.filterMap_nil,
        List.append_nil] at cut
      exact reach.cut_known c cut
  · intro c _ _
    rw [failed]
    rfl
  · intro c _ there
    rw [failed] at there
    exact absurd there (by simp [writesTo])

theorem reach_step {s after : State} {past es : List Event} (reach : Reach s past)
    (acts : Acts s after es) : Reach after (past ++ es) := by
  cases acts with
  | idle => rwa [List.append_nil]
  | @run server thread events ran =>
    obtain ⟨grows, _, conn⟩ := ran_conn ran
    have same : ∀ c, cuts c (past ++ events.map .run) = cuts c past := by
      intro c
      rw [cuts_append, (run_events c events).1, List.append_nil]
    constructor
    · intro c there
      rcases conn c there with before | ⟨rfl, more⟩
      · exact Nat.lt_of_lt_of_le (reach.conn_known c before) grows
      · exact more
    · exact fun c there => Nat.lt_of_lt_of_le (reach.writing_known c there) grows
    · exact fun c cut => Nat.lt_of_lt_of_le (reach.cut_known c (same c ▸ cut)) grows
    · intro c cut there
      rw [same] at cut
      rcases conn c there with before | ⟨rfl, _⟩
      · exact reach.cut_replaced c cut before
      · exact absurd (reach.cut_known _ cut) (Nat.lt_irrefl _)
    · exact fun c cut => reach.cut_unwritten c (same c ▸ cut)
  | enter free entered =>
    have busy : (s.lock.map fun sender => cleans sender.phase) ≠ some true := by simp [free]
    refine reach_uncleaned reach busy (fun _ => rfl) rfl (fun _ there => there) ?_
    intro c there
    simp [entered, writesTo] at there
  | refused held phase =>
    have busy : (s.lock.map fun sender => cleans sender.phase) ≠ some true := by
      rcases phase with entered | ⟨conn, captured⟩
      · simp [held, entered, cleans]
      · simp [held, captured, cleans]
    refine reach_uncleaned reach busy (fun _ => rfl) rfl (fun _ there => there) ?_
    exact fun c there => absurd there (by simp)
  | captured held phase taken =>
    have busy : (s.lock.map fun sender => cleans sender.phase) ≠ some true := by
      simp [held, phase, cleans]
    refine reach_uncleaned reach busy (fun _ => rfl) rfl (fun _ there => there) ?_
    intro c there
    have own := Option.some.inj there
    rw [own] at taken
    exact .inr taken
  | raised held phase =>
    have busy : (s.lock.map fun sender => cleans sender.phase) ≠ some true := by
      simp [held, phase, cleans]
    refine reach_uncleaned reach busy (fun _ => rfl) rfl (fun _ there => there) ?_
    exact fun c there => absurd there (by simp)
  | numbered held phase _ =>
    have busy : (s.lock.map fun sender => cleans sender.phase) ≠ some true := by
      simp [held, phase, cleans]
    refine reach_uncleaned reach busy (fun _ => rfl) rfl (fun _ there => there) ?_
    exact fun c there => .inl (by simpa [held, phase, State.goesOn, writesTo] using there)
  | headerWritten held phase =>
    have busy : (s.lock.map fun sender => cleans sender.phase) ≠ some true := by
      simp [held, phase, cleans]
    refine reach_uncleaned reach busy (fun _ => rfl) rfl (fun _ there => there) ?_
    exact fun c there => .inl (by simpa [held, phase, State.goesOn, writesTo] using there)
  | headerCut held phase _ _ => exact reach_cut reach held (by rw [phase]; rfl) rfl rfl rfl
  | whole held phase same =>
    have busy : (s.lock.map fun sender => cleans sender.phase) ≠ some true := by
      simp [held, phase, cleans]
    refine reach_uncleaned reach busy (fun _ => rfl) rfl ?_ ?_
    · exact fun c there => same.1 ▸ there
    · exact fun c there => absurd there (by simp)
  | payloadCut held phase _ _ => exact reach_cut reach held (by rw [phase]; rfl) rfl rfl rfl
  | nothingToClose held phase gone =>
    refine reach_quiet reach (fun _ => rfl) rfl (fun _ there => there) ?_ ?_
    · exact fun c there => absurd there (by simp [State.goesOn, writesTo])
    · intro c there
      change s.server.conn = some c at there
      exact absurd there (by simp [gone])
  | shut held phase taken =>
    refine reach_quiet reach (fun _ => rfl) rfl (fun _ there => there) ?_ ?_
    · exact fun c there => absurd there (by simp [State.goesOn, writesTo])
    · exact fun c _ _ => rfl
  | cleared held phase =>
    refine reach_quiet reach (fun _ => rfl) rfl ?_ ?_ ?_
    · exact fun c there => absurd there (by simp [State.goesOn])
    · exact fun c there => absurd there (by simp [State.goesOn, writesTo])
    · exact fun c there => absurd there (by simp [State.goesOn])
  | marked held phase =>
    have busy : (s.lock.map fun sender => cleans sender.phase) ≠ some true := by
      simp [held, phase, cleans]
    have conn := (setConnected_conn s.server false).1
    refine reach_uncleaned reach busy ?_ rfl ?_ ?_
    · intro c
      split <;> rfl
    · exact fun c there => conn ▸ there
    · exact fun c there => absurd there (by simp)

/- What is on a connection. -/

def packetOf : SendPhase → Option (Nat × HostPacket)
  | .header conn packet | .payload conn packet => some (conn, packet)
  | _ => none

def halfOf (c : Nat) : SendPhase → Bytes
  | .payload conn packet => if conn = c then packet.header else []
  | _ => []

def half (lock : Option Sender) (c : Nat) : Bytes :=
  (lock.map fun sender => halfOf c sender.phase).getD []

def failureOf : SendPhase → Option (HostPacket × Bytes)
  | .failed _ packet written | .clearing _ packet written | .marking _ packet written =>
    some (packet, written)
  | _ => none

def Short (packet : HostPacket) (written : Bytes) : Prop :=
  written <+: packet.bytes ∧ written ≠ packet.bytes

/-- A call returns True when it has written a whole packet, and False when it has not. -/
def Honest : Event → Prop
  | .returned _ .nothing value => value = false
  | .returned _ (.part _ packet written) value => value = false ∧ Short packet written
  | .returned _ (.all _ _) value => value = true
  | _ => True

structure Content (s : State) (past : List Event) : Prop where
  wire : ∀ c, s.wire c = ((wholes c past).map HostPacket.bytes).flatten ++
    ((cuts c past).map Prod.snd).flatten ++ half s.lock c
  cut : ∀ c, cuts c past = [] ∨ ∃ packet written, cuts c past = [(packet, written)] ∧
    Short packet written ∧ ∀ q ∈ wholes c past, q.seq < packet.seq
  ordered : ∀ c, (wholes c past).Pairwise fun p q => p.seq < q.seq
  numbered : ∀ c, ∀ q ∈ wholes c past, q.seq < s.server.sendSeq
  current : ∀ c packet, s.lock.bind (fun sender => packetOf sender.phase) = some (c, packet) →
    packet.seq < s.server.sendSeq ∧ ∀ q ∈ wholes c past, q.seq < packet.seq
  failure : ∀ packet written,
    s.lock.bind (fun sender => failureOf sender.phase) = some (packet, written) →
      Short packet written
  honest : ∀ e ∈ past, Honest e

theorem content_start : Content {} [] := by
  constructor
  · exact fun c => rfl
  · exact fun c => .inl rfl
  · exact fun c => List.Pairwise.nil
  · exact fun c q mem => absurd mem (by simp [wholes])
  · exact fun c packet there => absurd there (by simp)
  · exact fun packet written there => absurd there (by simp)
  · exact fun e mem => absurd mem (by simp)

theorem content_quiet {s after : State} {past es : List Event} (content : Content s past)
    (none_ : ∀ c, cuts c es = [] ∧ wholes c es = []) (wire : after.wire = s.wire)
    (same : ∀ c, half after.lock c = half s.lock c)
    (seq : s.server.sendSeq ≤ after.server.sendSeq)
    (current : ∀ c packet,
      after.lock.bind (fun sender => packetOf sender.phase) = some (c, packet) →
        s.lock.bind (fun sender => packetOf sender.phase) = some (c, packet) ∨
          (s.server.sendSeq ≤ packet.seq ∧ packet.seq < after.server.sendSeq))
    (failure : ∀ packet written,
      after.lock.bind (fun sender => failureOf sender.phase) = some (packet, written) →
        s.lock.bind (fun sender => failureOf sender.phase) = some (packet, written))
    (honest : ∀ e ∈ es, Honest e) : Content after (past ++ es) := by
  have cutsSame : ∀ c, cuts c (past ++ es) = cuts c past := by
    intro c
    rw [cuts_append, (none_ c).1, List.append_nil]
  have wholesSame : ∀ c, wholes c (past ++ es) = wholes c past := by
    intro c
    rw [wholes_append, (none_ c).2, List.append_nil]
  constructor
  · intro c
    rw [wire, same, cutsSame, wholesSame]
    exact content.wire c
  · intro c
    rw [cutsSame, wholesSame]
    exact content.cut c
  · intro c
    rw [wholesSame]
    exact content.ordered c
  · intro c q mem
    rw [wholesSame] at mem
    exact Nat.lt_of_lt_of_le (content.numbered c q mem) seq
  · intro c packet there
    rw [wholesSame]
    rcases current c packet there with before | ⟨low, high⟩
    · obtain ⟨below, above⟩ := content.current c packet before
      exact ⟨Nat.lt_of_lt_of_le below seq, above⟩
    · exact ⟨high, fun q mem => Nat.lt_of_lt_of_le (content.numbered c q mem) low⟩
  · exact fun packet written there => content.failure packet written (failure packet written there)
  · exact fun e mem => (List.mem_append.mp mem).elim (content.honest e) (honest e)

theorem putOn_same (wire : Nat → Bytes) (conn : Nat) (bytes : Bytes) :
    putOn wire conn bytes conn = wire conn ++ bytes := Function.update_self ..

theorem putOn_other {conn c : Nat} (other : c ≠ conn) (wire : Nat → Bytes) (bytes : Bytes) :
    putOn wire conn bytes c = wire c := Function.update_of_ne other ..

theorem half_other {lock : Option Sender} {sender : Sender} {conn c : Nat}
    (held : lock = some sender) (writing : writesTo sender.phase = some conn)
    (other : c ≠ conn) : half lock c = [] := by
  rw [held, half, Option.map_some, Option.getD_some]
  cases phase : sender.phase with
  | payload own packet =>
    rw [phase] at writing
    rw [halfOf, if_neg]
    rintro rfl
    exact other (Option.some.inj writing)
  | _ => rfl

theorem uncut {s : State} {past : List Event} (reach : Reach s past) {sender : Sender} {conn : Nat}
    (held : s.lock = some sender) (writing : writesTo sender.phase = some conn) :
    cuts conn past = [] := by
  by_contra cut
  apply reach.cut_unwritten conn cut
  rw [held]
  exact writing

theorem content_cut {s after : State} {past : List Event} {sender : Sender} {conn : Nat}
    {packet : HostPacket} {written more : Bytes} (reach : Reach s past) (content : Content s past)
    (held : s.lock = some sender) (writing : writesTo sender.phase = some conn)
    (own : packetOf sender.phase = some (conn, packet))
    (parts : half s.lock conn ++ more = written) (short : Short packet written)
    (server : after.server = s.server) (wire : after.wire = putOn s.wire conn more)
    (lock : after.lock = some { sender with phase := .failed conn packet written }) :
    Content after (past ++ [Event.cut conn packet written]) := by
  have none_ := uncut reach held writing
  have cutsOwn : cuts conn (past ++ [Event.cut conn packet written]) = [(packet, written)] := by
    rw [cuts_append, none_]
    simp [cuts, cutOn]
  have cutsOther : ∀ c, c ≠ conn → cuts c (past ++ [Event.cut conn packet written]) = cuts c past := by
    intro c other
    rw [cuts_append]
    simp [cuts, cutOn, other.symm]
  have wholesSame : ∀ c, wholes c (past ++ [Event.cut conn packet written]) = wholes c past := by
    intro c
    rw [wholes_append]
    simp [wholes, wholeOn]
  have above := (content.current conn packet (by rw [held]; exact own)).2
  have quiet : ∀ c, half after.lock c = [] := by
    intro c
    rw [lock]
    rfl
  constructor
  · intro c
    rw [wire, wholesSame, quiet, List.append_nil]
    by_cases same : c = conn
    · rw [same, putOn_same, content.wire, none_, cutsOwn, ← parts]
      simp
    · rw [putOn_other same, cutsOther c same, content.wire, half_other held writing same,
        List.append_nil]
  · intro c
    rw [wholesSame]
    by_cases same : c = conn
    · rw [same]
      exact .inr ⟨packet, written, cutsOwn, short, above⟩
    · rw [cutsOther c same]
      exact content.cut c
  · intro c
    rw [wholesSame]
    exact content.ordered c
  · intro c q mem
    rw [wholesSame] at mem
    rw [server]
    exact content.numbered c q mem
  · intro c other there
    rw [lock] at there
    exact absurd there (by simp [packetOf])
  · intro other part there
    rw [lock] at there
    simp only [Option.bind_some, failureOf, Option.some.injEq, Prod.mk.injEq] at there
    rw [← there.1, ← there.2]
    exact short
  · intro e mem
    rcases List.mem_append.mp mem with before | new
    · exact content.honest e before
    · rw [List.mem_singleton.mp new]
      trivial

theorem content_headerWritten {s : State} {past : List Event} {sender : Sender} {conn : Nat}
    {packet : HostPacket} (content : Content s past) (held : s.lock = some sender)
    (phase : sender.phase = .header conn packet) :
    Content
      (State.goesOn { s with wire := putOn s.wire conn packet.header } sender
        (.payload conn packet)) past := by
  have silent : ∀ c, half s.lock c = [] := by
    intro c
    rw [held, half, Option.map_some, phase]
    rfl
  constructor
  case wire =>
    intro c
    have before := content.wire c
    rw [silent, List.append_nil] at before
    by_cases same : c = conn
    · rw [same] at before ⊢
      simp [State.goesOn, putOn_same, half, halfOf, before]
    · simp [State.goesOn, putOn_other same, half, halfOf, before, Ne.symm same]
  case current =>
    intro c other there
    apply content.current c other
    rw [held, Option.bind_some, phase]
    exact there
  case failure => exact fun other part there => absurd there (by simp [State.goesOn, failureOf])
  case cut => exact content.cut
  case ordered => exact content.ordered
  case numbered => exact content.numbered
  case honest => exact content.honest

theorem content_whole {s : State} {past : List Event} {sender : Sender} {conn : Nat}
    {packet : HostPacket} {server : Quest3Server} (reach : Reach s past)
    (content : Content s past) (held : s.lock = some sender)
    (phase : sender.phase = .payload conn packet)
    (seq : server.sendSeq = s.server.sendSeq) :
    Content { s with server := server, wire := putOn s.wire conn packet.payload, lock := none }
      (past ++ [Event.returned sender.thread (.all conn packet) true]) := by
  have writing : writesTo sender.phase = some conn := by rw [phase]; rfl
  have none_ := uncut reach held writing
  obtain ⟨below, above⟩ := content.current conn packet (by rw [held, Option.bind_some, phase]; rfl)
  have cutsSame : ∀ c, cuts c (past ++ [Event.returned sender.thread (.all conn packet) true]) =
      cuts c past := by
    intro c
    rw [cuts_append]
    simp [cuts, cutOn]
  have wholesOwn : wholes conn (past ++ [Event.returned sender.thread (.all conn packet) true]) =
      wholes conn past ++ [packet] := by
    rw [wholes_append]
    simp [wholes, wholeOn]
  have wholesOther : ∀ c, c ≠ conn →
      wholes c (past ++ [Event.returned sender.thread (.all conn packet) true]) = wholes c past := by
    intro c other
    rw [wholes_append]
    simp [wholes, wholeOn, other.symm]
  have header : half s.lock conn = packet.header := by
    rw [held, half, Option.map_some, phase]
    simp [halfOf]
  constructor
  · intro c
    rw [cutsSame]
    change putOn s.wire conn packet.payload c = _ ++ []
    by_cases same : c = conn
    · rw [same, wholesOwn, none_, putOn_same, content.wire, none_, header]
      simp [HostPacket.bytes]
    · rw [wholesOther c same, putOn_other same, content.wire, half_other held writing same]
  · intro c
    rw [cutsSame]
    by_cases same : c = conn
    · rw [same]
      exact .inl none_
    · rw [wholesOther c same]
      exact content.cut c
  · intro c
    by_cases same : c = conn
    · rw [same, wholesOwn, List.pairwise_append]
      refine ⟨content.ordered conn, List.pairwise_singleton _ _, fun q mem p last => ?_⟩
      rw [List.mem_singleton.mp last]
      exact above q mem
    · rw [wholesOther c same]
      exact content.ordered c
  · intro c q mem
    rw [seq]
    by_cases same : c = conn
    · rw [same, wholesOwn] at mem
      rcases List.mem_append.mp mem with before | new
      · exact content.numbered conn q before
      · rw [List.mem_singleton.mp new]
        exact below
    · rw [wholesOther c same] at mem
      exact content.numbered c q mem
  · exact fun c other there => absurd there (by simp)
  · exact fun other part there => absurd there (by simp)
  · intro e mem
    rcases List.mem_append.mp mem with before | new
    · exact content.honest e before
    · rw [List.mem_singleton.mp new]
      exact rfl

theorem content_step {s after : State} {past es : List Event} (reach : Reach s past)
    (content : Content s past) (acts : Acts s after es) : Content after (past ++ es) := by
  have none_ : ∀ c : Nat, cuts c [] = [] ∧ wholes c [] = [] := fun c => ⟨rfl, rfl⟩
  cases acts with
  | idle => rwa [List.append_nil]
  | @run server thread events ran =>
    have seq := (ran_conn ran).2.1
    refine content_quiet content (fun c => run_events c events) rfl (fun c => rfl) (le_of_eq seq.symm)
      (fun c packet there => .inl there) (fun packet written there => there) ?_
    intro e mem
    obtain ⟨event, _, rfl⟩ := List.mem_map.mp mem
    trivial
  | enter free entered =>
    refine content_quiet content none_ rfl (fun c => ?_) (Nat.le_refl _) (fun c packet there => ?_)
      (fun packet written there => ?_) (by simp)
    · simp [half, free, entered, halfOf]
    · exact absurd there (by simp [entered, packetOf])
    · exact absurd there (by simp [entered, failureOf])
  | refused held phase =>
    refine content_quiet content (fun c => ⟨rfl, rfl⟩) rfl (fun c => ?_) (Nat.le_refl _)
      (fun c packet there => absurd there (by simp))
      (fun packet written there => absurd there (by simp)) (by simp [Honest])
    rcases phase with entered | ⟨conn, captured⟩
    · simp [half, held, entered, halfOf]
    · simp [half, held, captured, halfOf]
  | captured held phase taken =>
    refine content_quiet content none_ rfl (fun c => ?_) (Nat.le_refl _)
      (fun c packet there => absurd there (by simp [State.goesOn, packetOf]))
      (fun packet written there => absurd there (by simp [State.goesOn, failureOf])) (by simp)
    simp [half, held, phase, State.goesOn, halfOf]
  | raised held phase =>
    refine content_quiet content (fun c => ⟨rfl, rfl⟩) rfl (fun c => ?_) (Nat.le_succ _)
      (fun c packet there => absurd there (by simp))
      (fun packet written there => absurd there (by simp)) (by simp [Honest])
    simp [half, held, phase, halfOf]
  | @numbered sender conn packet held phase seq =>
    refine content_quiet content none_ rfl (fun c => ?_) (Nat.le_succ _) (fun c other there => ?_)
      (fun packet written there => absurd there (by simp [State.goesOn, failureOf])) (by simp)
    · simp [half, held, phase, State.goesOn, halfOf]
    · simp only [State.goesOn, Option.bind_some, packetOf, Option.some.injEq, Prod.mk.injEq] at there
      rw [← there.2]
      exact .inr ⟨le_of_eq seq.symm, seq ▸ Nat.lt_succ_self _⟩
  | headerWritten held phase =>
    rw [List.append_nil]
    exact content_headerWritten content held phase
  | headerCut held phase part short =>
    refine content_cut reach content held (by rw [phase]; rfl) (by rw [phase]; rfl) ?_
      ⟨part, short⟩ rfl rfl rfl
    simp [half, held, phase, halfOf]
  | whole held phase same => exact content_whole reach content held phase same.2.1
  | @payloadCut sender conn packet more held phase part short =>
    have longer : Short packet (packet.header ++ more) := by
      constructor
      · exact (List.prefix_append_right_inj _).mpr part
      · exact fun whole => short (List.append_cancel_left whole)
    refine content_cut reach content held (by rw [phase]; rfl) (by rw [phase]; rfl) ?_ longer
      rfl rfl rfl
    simp [half, held, phase, halfOf]
  | nothingToClose held phase gone =>
    refine content_quiet content none_ rfl (fun c => ?_) (Nat.le_refl _)
      (fun c packet there => absurd there (by simp [State.goesOn, packetOf]))
      (fun packet written there => ?_) (by simp)
    · simp [half, held, phase, State.goesOn, halfOf]
    · rw [held, Option.bind_some, phase]
      exact there
  | shut held phase taken =>
    refine content_quiet content (fun c => ⟨rfl, rfl⟩) rfl (fun c => ?_) (Nat.le_refl _)
      (fun c packet there => absurd there (by simp [State.goesOn, packetOf]))
      (fun packet written there => ?_) (by simp [Honest])
    · simp [half, held, phase, State.goesOn, halfOf]
    · rw [held, Option.bind_some, phase]
      exact there
  | cleared held phase =>
    refine content_quiet content none_ rfl (fun c => ?_) (Nat.le_refl _)
      (fun c packet there => absurd there (by simp [State.goesOn, packetOf]))
      (fun packet written there => ?_) (by simp)
    · simp [half, held, phase, State.goesOn, halfOf]
    · rw [held, Option.bind_some, phase]
      exact there
  | @marked sender conn packet written held phase =>
    have short := content.failure packet written (by rw [held, Option.bind_some, phase]; rfl)
    have seq := (setConnected_conn s.server false).2
    refine content_quiet content (fun c => ?_) rfl (fun c => ?_) (le_of_eq seq.symm)
      (fun c packet there => absurd there (by simp))
      (fun packet written there => absurd there (by simp)) ?_
    · split <;> exact ⟨rfl, rfl⟩
    · simp [half, held, phase, halfOf]
    · intro e mem
      rcases List.mem_append.mp mem with mark | last
      · split at mark
        · rw [List.mem_singleton.mp mark]
          trivial
        · exact absurd mark (by simp)
      · rw [List.mem_singleton.mp last]
        exact ⟨rfl, short⟩

def Inv (s : State) (past : List Event) : Prop := Reach s past ∧ Content s past

theorem inv_start : Inv {} [] := ⟨reach_start, content_start⟩

theorem inv_step (s : State) (past : List Event) (move : Move) (inv : Inv s past) :
    Inv (step s move).1 (past ++ (step s move).2) := by
  have acts := step_acts s move
  exact ⟨reach_step inv.1 acts, content_step inv.1 inv.2 acts⟩

/-- What is on a connection behind its whole packets. -/
inductive Behind (s : State) (past : List Event) (conn : Nat) : Bytes → Prop
  | nothing : Behind s past conn []
  | cut {packet : HostPacket} {written : Bytes} (event : .cut conn packet written ∈ past)
    (short : Short packet written) (later : ∀ q ∈ wholes conn past, q.seq < packet.seq) :
    Behind s past conn written
  | half {sender : Sender} {packet : HostPacket} (held : s.lock = some sender)
    (phase : sender.phase = .payload conn packet)
    (later : ∀ q ∈ wholes conn past, q.seq < packet.seq) : Behind s past conn packet.header

theorem mem_cuts {conn : Nat} {past : List Event} {packet : HostPacket} {written : Bytes} :
    (packet, written) ∈ cuts conn past ↔ Event.cut conn packet written ∈ past := by
  constructor
  · intro mem
    obtain ⟨e, inside, found⟩ := List.mem_filterMap.mp mem
    cases e with
    | cut other p w =>
      simp only [cutOn] at found
      split at found
      · rename_i same
        cases found
        exact same ▸ inside
      · exact absurd found (by simp)
    | _ => exact absurd found (by simp [cutOn])
  · intro inside
    exact List.mem_filterMap.mpr ⟨_, inside, by simp [cutOn]⟩

theorem behind_wholes {s : State} {past : List Event} (inv : Inv s past) (conn : Nat) :
    ∃ rest, s.wire conn = ((wholes conn past).map HostPacket.bytes).flatten ++ rest ∧
      Behind s past conn rest := by
  obtain ⟨reach, content⟩ := inv
  rw [content.wire conn]
  rcases content.cut conn with none_ | ⟨packet, written, one, short, later⟩
  · rw [none_, List.map_nil, List.flatten_nil, List.append_nil]
    refine ⟨_, rfl, ?_⟩
    cases held : s.lock with
    | none => exact .nothing
    | some sender =>
      rw [half, Option.map_some, Option.getD_some]
      cases phase : sender.phase with
      | payload other packet =>
        by_cases same : other = conn
        · subst same
          rw [halfOf, if_pos rfl]
          exact .half held phase
            (content.current other packet (by rw [held, Option.bind_some, phase]; rfl)).2
        · rw [halfOf, if_neg same]
          exact .nothing
      | _ => exact .nothing
  · have quiet : half s.lock conn = [] := by
      cases held : s.lock with
      | none => rfl
      | some sender =>
        rw [half, Option.map_some, Option.getD_some]
        cases phase : sender.phase with
        | payload other packet =>
          rw [halfOf, if_neg]
          rintro rfl
          have none_ := uncut reach held (by rw [phase]; rfl)
          rw [one] at none_
          exact absurd none_ (by simp)
        | _ => rfl
    refine ⟨written, ?_, .cut (mem_cuts.mp (one ▸ List.mem_singleton.mpr rfl)) short later⟩
    rw [one, quiet]
    simp

theorem step_cut {s : State} {past : List Event} (inv : Inv s past) {conn : Nat}
    (cut : cuts conn past ≠ []) (move : Move) : (step s move).1.wire conn = s.wire conn := by
  have other : ∀ {sender : Sender} {c : Nat}, s.lock = some sender →
      writesTo sender.phase = some c → conn ≠ c := by
    rintro sender c held writing rfl
    exact cut (uncut inv.1 held writing)
  have acts := step_acts s move
  revert acts
  generalize step s move = result
  obtain ⟨after, es⟩ := result
  intro acts
  cases acts with
  | headerWritten held phase => exact putOn_other (other held (by rw [phase]; rfl)) _ _
  | headerCut held phase _ _ => exact putOn_other (other held (by rw [phase]; rfl)) _ _
  | whole held phase _ => exact putOn_other (other held (by rw [phase]; rfl)) _ _
  | payloadCut held phase _ _ => exact putOn_other (other held (by rw [phase]; rfl)) _ _
  | _ => rfl

theorem run_cut {s : State} {past : List Event} (inv : Inv s past) {conn : Nat}
    (cut : cuts conn past ≠ []) (moves : List Move) :
    (run step s moves).1.wire conn = s.wire conn := by
  induction moves generalizing s past with
  | nil => rfl
  | cons move moves ih =>
    have still : cuts conn (past ++ (step s move).2) ≠ [] := by
      rw [cuts_append]
      exact List.append_ne_nil_of_left_ne_nil cut _
    rw [run, ih (inv_step s past move inv) still]
    exact step_cut inv cut move

/-- On each connection, in every run: whole packets in the order of their numbers, then at most
    one that is cut, then nothing. A call returns True exactly for a whole packet. -/
theorem whole_packets (moves : List Move) (conn : Nat) :
    (∃ rest,
      (run step {} moves).1.wire conn =
        ((wholes conn (run step {} moves).2).map HostPacket.bytes).flatten ++ rest ∧
      Behind (run step {} moves).1 (run step {} moves).2 conn rest) ∧
    (wholes conn (run step {} moves).2).Pairwise (fun p q => p.seq < q.seq) ∧
    (∀ e ∈ (run step {} moves).2, Honest e) ∧
    ∀ packet written, .cut conn packet written ∈ (run step {} moves).2 → ∀ more,
      (run step {} (moves ++ more)).1.wire conn = (run step {} moves).1.wire conn := by
  have inv := run_invariant inv_step inv_start moves
  rw [List.nil_append] at inv
  refine ⟨behind_wholes inv conn, inv.2.ordered conn, inv.2.honest, ?_⟩
  intro packet written event more
  rw [run_append]
  exact run_cut inv (List.ne_nil_of_mem (mem_cuts.mpr event)) more

end QuestWholePackets
