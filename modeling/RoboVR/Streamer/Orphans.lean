import RoboVR.Streamer.Pairing

/- Which encoder objects the streamer has lost. Each `_H264Encoder` that is constructed gets a
   serial number, and the two fields say which objects the streamer still reaches. -/
namespace QuestStreamerOrphans
open QuestVideoStreamer QuestStreamerPairing TracedRun

structure Owner where
  streamer : Quest3VideoStreamer
  left : Option Nat := none
  right : Option Nat := none
  constructed : Nat := 0

inductive Op where
  | send (call : Call)
  | close

inductive ObjectEvent where
  | constructed (eye : Eye) (serial : Nat)
  | closed (serial : Nat)
  deriving DecidableEq

def construct (s : Owner) : Event → Owner × List ObjectEvent
  | .created .left =>
    ({ s with left := some s.constructed, constructed := s.constructed + 1 },
      [.constructed .left s.constructed])
  | .created .right =>
    ({ s with right := some s.constructed, constructed := s.constructed + 1 },
      [.constructed .right s.constructed])
  | _ => (s, [])

def closeStreamer (s : Quest3VideoStreamer) : Quest3VideoStreamer :=
  { s with leftEncoder := none, rightEncoder := none, pendingLeft := none, pendingRight := none }

def step (s : Owner) : Op → Owner × List ObjectEvent
  | .send call =>
    run construct { s with streamer := (send s.streamer call).1 } (send s.streamer call).2.1
  | .close =>
    ({ s with streamer := closeStreamer s.streamer, left := none, right := none },
      (s.left.toList ++ s.right.toList).map .closed)

def start (width height : Int) (swapEyes : Bool) : Owner :=
  { streamer := { width := width, height := height, swapEyes := swapEyes } }

/-- Behind a close, every object constructed so far has been closed. -/
def NoneOrphaned (s : Owner) (past : List ObjectEvent) : Op → Prop
  | .send _ => True
  | .close => ∀ eye n, ObjectEvent.constructed eye n ∈ past →
      ObjectEvent.closed n ∈ past ++ (step s .close).2

/-- No left encoder is constructed while one without a right one is there. -/
def HalfPairKept (s : Owner) (_ : List ObjectEvent) : Op → Prop
  | .send call => call.isConnected = true → call.createLeft = none →
      s.streamer.leftEncoder ≠ none → s.streamer.rightEncoder ≠ none
  | .close => True

/- Behind `_ensure_encoders` a call constructs nothing and keeps both fields filled or empty. -/

structure Keeps (s after : Quest3VideoStreamer) (es : List Event) : Prop where
  left : after.leftEncoder.isSome = s.leftEncoder.isSome
  right : after.rightEncoder.isSome = s.rightEncoder.isSome
  quiet : ∀ e ∈ es, ∀ eye, isCreated eye e = false

theorem keeps_nil (s : Quest3VideoStreamer) : Keeps s s [] where
  left := rfl
  right := rfl
  quiet := by simp

theorem keeps_append {a b c : Quest3VideoStreamer} {es fs : List Event} (first : Keeps a b es)
    (second : Keeps b c fs) : Keeps a c (es ++ fs) where
  left := second.left.trans first.left
  right := second.right.trans first.right
  quiet := by
    intro e mem
    cases List.mem_append.mp mem with
    | inl early => exact first.quiet e early
    | inr late => exact second.quiet e late

theorem handOver_keeps (s : Quest3VideoStreamer) (call : Call) (packed : Option QuestTeleop.Bytes) :
    Keeps s (handOver s call packed).1 (handOver s call packed).2.1 := by
  cases packed with
  | none => exact keeps_nil s
  | some payload =>
    obtain ⟨events, left, right, _⟩ := handOver_packed s call payload
    constructor
    · rw [left]
    · rw [right]
    · simp [events, isCreated]

theorem pairUp_keeps (s : Quest3VideoStreamer) (call : Call) :
    Keeps s (pairUp s call).1 (pairUp s call).2.1 := by
  unfold pairUp
  generalize packPair s.width s.height call.monotonicNs = pack
  split
  · exact handOver_keeps s call _
  · exact ⟨rfl, rfl, by simp⟩

theorem collect_quiet (eye : Eye) (encoder : AnnexBReaderLoop.H264Encoder)
    (pending : Option (Nat × QuestTeleop.Bytes)) (works : List ReaderWork) :
    ∀ e ∈ (collect eye encoder pending works).2.2, ∀ other, isCreated other e = false := by
  intro e mem
  unfold collect at mem
  cases pending <;> exact (queued_quiet eye _ e mem).2

theorem encodeAndPair_keeps (s : Quest3VideoStreamer) (call : Call)
    (images : QuestTeleop.Bytes × QuestTeleop.Bytes) :
    Keeps s (encodeAndPair s call images).1 (encodeAndPair s call images).2.1 := by
  unfold encodeAndPair
  cases leftThere : s.leftEncoder with
  | none => exact keeps_nil s
  | some left =>
    cases rightThere : s.rightEncoder with
    | none => exact keeps_nil s
    | some right =>
      have silent : ∀ e ∈ (encodeBoth call images.1 images.2).1, ∀ eye,
          isCreated eye e = false := by
        intro e mem eye
        exact ((encodeBoth_silent call images.1 images.2 e mem).2 eye).1
      simp only
      cases encoded : encodeBoth call images.1 images.2 with
      | mk events ended =>
        rw [encoded] at silent
        cases ended with
        | error message => exact ⟨rfl, rfl, silent⟩
        | ok _ =>
          have gathered : Keeps s (gather s call left right).1 (gather s call left right).2 := by
            constructor
            · rw [leftThere]
              rfl
            · rw [rightThere]
              rfl
            · intro e mem
              cases List.mem_append.mp mem with
              | inl fromLeft => exact collect_quiet .left _ _ _ e fromLeft
              | inr fromRight => exact collect_quiet .right _ _ _ e fromRight
          have encodes : Keeps s s events := ⟨rfl, rfl, silent⟩
          exact keeps_append encodes (keeps_append gathered (pairUp_keeps _ call))

theorem attempt_ensures (s : Quest3VideoStreamer) (call : Call) :
    ∃ later, (attempt s call).2.1 = (ensureEncoders s call).2.1 ++ later ∧
      Keeps (ensureEncoders s call).1 (attempt s call).1 later := by
  unfold attempt
  simp only
  cases (ensureEncoders s call).2.2 with
  | error message => exact ⟨[], (List.append_nil _).symm, keeps_nil _⟩
  | ok _ =>
    simp only
    cases prepared (ensureEncoders s call).1 call with
    | error message => exact ⟨[], (List.append_nil _).symm, keeps_nil _⟩
    | ok images => exact ⟨_, rfl, encodeAndPair_keeps _ call images⟩

theorem send_ensures (s : Quest3VideoStreamer) {call : Call} (connected : call.isConnected = true) :
    ∃ later, (send s call).2.1 =
        (ensureEncoders { s with framesSubmitted := s.framesSubmitted + 1 } call).2.1 ++ later ∧
      Keeps (ensureEncoders { s with framesSubmitted := s.framesSubmitted + 1 } call).1
        (send s call).1 later := by
  obtain ⟨later, events, kept⟩ :=
    attempt_ensures { s with framesSubmitted := s.framesSubmitted + 1 } call
  unfold send
  simp only
  rw [if_neg (by simp [connected])]
  cases (attempt { s with framesSubmitted := s.framesSubmitted + 1 } call).2.2 with
  | ok value => exact ⟨later, events, kept⟩
  | error message => exact ⟨later, events, kept.left, kept.right, kept.quiet⟩

/- What a call constructs. -/

theorem construct_quiet {e : Event} (quiet : ∀ eye, isCreated eye e = false) (s : Owner) :
    construct s e = (s, []) := by
  cases e with
  | created eye =>
    have loud := quiet eye
    simp [isCreated] at loud
  | encoded eye rgb => rfl
  | queued eye unit => rfl
  | handed payload => rfl

theorem run_construct_quiet {es : List Event} (quiet : ∀ e ∈ es, ∀ eye, isCreated eye e = false)
    (s : Owner) : run construct s es = (s, []) := by
  induction es with
  | nil => rfl
  | cons e es ih =>
    have here := construct_quiet (quiet e List.mem_cons_self) s
    have later := ih fun f mem => quiet f (List.mem_cons_of_mem e mem)
    simp [run, here, later]

structure Agree (s : Owner) : Prop where
  left : s.left.isSome = s.streamer.leftEncoder.isSome
  right : s.right.isSome = s.streamer.rightEncoder.isSome

structure Builds (s : Owner) (call : Call) : Prop where
  connected : call.isConnected = true
  createLeft : call.createLeft = none
  missing : ¬ (s.streamer.leftEncoder ≠ none ∧ s.streamer.rightEncoder ≠ none)

inductive Sent (s : Owner) (call : Call) (after : Owner) : List ObjectEvent → Prop where
  | nothing (idle : ¬ Builds s call) (left : after.left = s.left) (right : after.right = s.right)
      (constructed : after.constructed = s.constructed) : Sent s call after []
  | half (builds : Builds s call) (left : after.left = some s.constructed)
      (right : after.right = s.right) (constructed : after.constructed = s.constructed + 1) :
      Sent s call after [.constructed .left s.constructed]
  | pair (builds : Builds s call) (left : after.left = some s.constructed)
      (right : after.right = some (s.constructed + 1))
      (constructed : after.constructed = s.constructed + 2) :
      Sent s call after
        [.constructed .left s.constructed, .constructed .right (s.constructed + 1)]

theorem ensure_sent (s : Owner) (agree : Agree s) (final : Quest3VideoStreamer) {call : Call}
    (connected : call.isConnected = true) (submitted : Nat)
    (kept : ∃ later, Keeps
      (ensureEncoders { s.streamer with framesSubmitted := submitted } call).1 final later) :
    Sent s call
        (run construct { s with streamer := final }
          (ensureEncoders { s.streamer with framesSubmitted := submitted } call).2.1).1
        (run construct { s with streamer := final }
          (ensureEncoders { s.streamer with framesSubmitted := submitted } call).2.1).2 ∧
      Agree (run construct { s with streamer := final }
        (ensureEncoders { s.streamer with framesSubmitted := submitted } call).2.1).1 := by
  obtain ⟨later, kept⟩ := kept
  unfold ensureEncoders at kept ⊢
  by_cases both : s.streamer.leftEncoder ≠ none ∧ s.streamer.rightEncoder ≠ none
  · simp only [if_pos both] at kept ⊢
    refine ⟨.nothing (fun builds => builds.missing both) rfl rfl rfl, ?_, ?_⟩
    · exact agree.left.trans kept.left.symm
    · exact agree.right.trans kept.right.symm
  · simp only [if_neg both] at kept ⊢
    cases createLeft : call.createLeft with
    | some message =>
      have idle : ¬ Builds s call := by
        intro builds
        have made := builds.createLeft
        rw [createLeft] at made
        exact absurd made (by simp)
      rw [createLeft] at kept
      refine ⟨.nothing idle rfl rfl rfl, ?_, ?_⟩
      · exact agree.left.trans kept.left.symm
      · exact agree.right.trans kept.right.symm
    | none =>
      have builds : Builds s call := ⟨connected, createLeft, both⟩
      rw [createLeft] at kept
      cases createRight : call.createRight with
      | some message =>
        rw [createRight] at kept
        refine ⟨.half builds rfl rfl rfl, ?_, ?_⟩
        · exact kept.left.symm
        · exact agree.right.trans kept.right.symm
      | none =>
        rw [createRight] at kept
        refine ⟨.pair builds rfl rfl rfl, ?_, ?_⟩
        · exact kept.left.symm
        · exact kept.right.symm

theorem step_send (s : Owner) (agree : Agree s) (call : Call) :
    Sent s call (step s (.send call)).1 (step s (.send call)).2 ∧
      Agree (step s (.send call)).1 := by
  cases connected : call.isConnected with
  | false =>
    have idle : step s (.send call) =
        ({ s with streamer := (send s.streamer call).1 }, []) := by
      simp [step, send, connected, run]
    have unbuilt : ¬ Builds s call := by
      intro builds
      have there := builds.connected
      rw [connected] at there
      exact absurd there (by decide)
    rw [idle]
    refine ⟨.nothing unbuilt rfl rfl rfl, ?_, ?_⟩
    · simpa [send, connected] using agree.left
    · simpa [send, connected] using agree.right
  | true =>
    obtain ⟨later, events, kept⟩ := send_ensures s.streamer connected
    have steps : step s (.send call) =
        run construct { s with streamer := (send s.streamer call).1 }
          (ensureEncoders
            { s.streamer with framesSubmitted := s.streamer.framesSubmitted + 1 } call).2.1 := by
      rw [step, events, run_append, run_construct_quiet kept.quiet, List.append_nil]
    rw [steps]
    exact ensure_sent s agree _ connected _ ⟨later, kept⟩

/- The invariants. -/

def Held (s : Owner) (n : Nat) : Prop := s.left = some n ∨ s.right = some n

/-- Serial numbers are below the count, and what is held is not closed yet. A right encoder never
    stands alone. -/
structure Tracked (s : Owner) (past : List ObjectEvent) : Prop where
  agree : Agree s
  paired : s.right.isSome = true → s.left.isSome = true
  numbered : ∀ eye n, ObjectEvent.constructed eye n ∈ past → n < s.constructed
  closedNumbered : ∀ n, ObjectEvent.closed n ∈ past → n < s.constructed
  heldMade : ∀ n, Held s n → ∃ eye, ObjectEvent.constructed eye n ∈ past
  heldOpen : ∀ n, Held s n → ObjectEvent.closed n ∉ past

theorem tracked_start (width height : Int) (swapEyes : Bool) :
    Tracked (start width height swapEyes) [] where
  agree := ⟨rfl, rfl⟩
  paired := by simp [start]
  numbered := by simp
  closedNumbered := by simp
  heldMade := by simp [start, Held]
  heldOpen := by simp

/-- What a send does to the objects: the new ones are numbered on from the count, none is closed,
    and only old and new ones are held. -/
structure Adds (s after : Owner) (es : List ObjectEvent) : Prop where
  grows : s.constructed ≤ after.constructed
  fresh : ∀ eye n, ObjectEvent.constructed eye n ∈ es →
    s.constructed ≤ n ∧ n < after.constructed
  noneClosed : ∀ n, ObjectEvent.closed n ∉ es
  held : ∀ n, Held after n → Held s n ∨ ∃ eye, ObjectEvent.constructed eye n ∈ es

theorem sent_adds {s after : Owner} {call : Call} {es : List ObjectEvent}
    (sent : Sent s call after es) : Adds s after es := by
  cases sent with
  | nothing idle left right constructed =>
    constructor
    · omega
    · simp
    · simp
    · simp [Held, left, right]
  | half builds left right constructed =>
    constructor
    · omega
    · simp [constructed]
    · simp
    · intro n mine
      cases mine with
      | inl isLeft =>
        right
        use .left
        simp [Option.some.inj (left.symm.trans isLeft)]
      | inr isRight =>
        left
        exact .inr (right.symm.trans isRight)
  | pair builds left right constructed =>
    constructor
    · omega
    · intro eye n mem
      simp only [List.mem_cons, ObjectEvent.constructed.injEq, List.not_mem_nil, or_false] at mem
      obtain ⟨_, number⟩ | ⟨_, number⟩ := mem <;> omega
    · simp
    · intro n mine
      right
      cases mine with
      | inl isLeft =>
        use .left
        simp [Option.some.inj (left.symm.trans isLeft)]
      | inr isRight =>
        use .right
        simp [Option.some.inj (right.symm.trans isRight)]

theorem tracked_send {s after : Owner} {past es : List ObjectEvent} (kept : Tracked s past)
    {call : Call} (sent : Sent s call after es) (agree : Agree after) :
    Tracked after (past ++ es) := by
  obtain ⟨grows, fresh, noneClosed, held⟩ := sent_adds sent
  constructor
  · exact agree
  · cases sent with
    | nothing idle left right constructed =>
      rw [left, right]
      exact kept.paired
    | half builds left right constructed => simp [left]
    | pair builds left right constructed => simp [left]
  · intro eye n mem
    cases List.mem_append.mp mem with
    | inl old =>
      have below := kept.numbered eye n old
      omega
    | inr new => exact (fresh eye n new).2
  · intro n mem
    cases List.mem_append.mp mem with
    | inl old =>
      have below := kept.closedNumbered n old
      omega
    | inr new => exact absurd new (noneClosed n)
  · intro n mine
    cases held n mine with
    | inl before =>
      obtain ⟨eye, made⟩ := kept.heldMade n before
      exact ⟨eye, List.mem_append_left es made⟩
    | inr new =>
      obtain ⟨eye, made⟩ := new
      exact ⟨eye, List.mem_append_right past made⟩
  · intro n mine mem
    cases List.mem_append.mp mem with
    | inl closed =>
      cases held n mine with
      | inl before => exact kept.heldOpen n before closed
      | inr new =>
        obtain ⟨eye, made⟩ := new
        have below := kept.closedNumbered n closed
        have above := (fresh eye n made).1
        omega
    | inr new => exact noneClosed n new

theorem mem_closes (s : Owner) (n : Nat) :
    ObjectEvent.closed n ∈ (step s .close).2 ↔ Held s n := by
  simp [step, Held, eq_comm]

theorem constructs_close (s : Owner) (eye : Eye) (n : Nat) :
    ObjectEvent.constructed eye n ∉ (step s .close).2 := by
  simp [step]

theorem tracked_close {s : Owner} {past : List ObjectEvent} (kept : Tracked s past) :
    Tracked (step s .close).1 (past ++ (step s .close).2) where
  agree := ⟨rfl, rfl⟩
  paired := by simp [step]
  numbered := by
    intro eye n mem
    cases List.mem_append.mp mem with
    | inl old => exact kept.numbered eye n old
    | inr new => exact absurd new (constructs_close s eye n)
  closedNumbered := by
    intro n mem
    cases List.mem_append.mp mem with
    | inl old => exact kept.closedNumbered n old
    | inr new =>
      obtain ⟨eye, made⟩ := kept.heldMade n ((mem_closes s n).mp new)
      exact kept.numbered eye n made
  heldMade := by simp [step, Held]
  heldOpen := by simp [step, Held]

theorem tracked_step (s : Owner) (past : List ObjectEvent) (op : Op) (kept : Tracked s past) :
    Tracked (step s op).1 (past ++ (step s op).2) := by
  cases op with
  | send call =>
    obtain ⟨sent, agree⟩ := step_send s kept.agree call
    exact tracked_send kept sent agree
  | close => exact tracked_close kept

def Covered (s : Owner) (past : List ObjectEvent) : Prop :=
  ∀ eye n, ObjectEvent.constructed eye n ∈ past → ObjectEvent.closed n ∈ past ∨ Held s n

theorem builds_empty {s : Owner} {past : List ObjectEvent} (kept : Tracked s past) {call : Call}
    (builds : Builds s call) (condition : HalfPairKept s past (.send call)) :
    s.left = none ∧ s.right = none := by
  have noLeft : s.streamer.leftEncoder = none := by
    by_contra there
    exact builds.missing ⟨there, condition builds.connected builds.createLeft there⟩
  have leftEmpty : s.left = none := by
    have same := kept.agree.left
    rw [noLeft] at same
    simpa using same
  constructor
  · exact leftEmpty
  · cases right : s.right with
    | none => rfl
    | some n =>
      have both := kept.paired (by rw [right]; rfl)
      rw [leftEmpty] at both
      exact absurd both (by decide)

theorem covered_step (s : Owner) (past : List ObjectEvent) (op : Op) (kept : Tracked s past)
    (covered : Covered s past) (condition : HalfPairKept s past op) :
    Covered (step s op).1 (past ++ (step s op).2) := by
  intro eye n mem
  have old := covered eye n
  cases op with
  | send call =>
    obtain ⟨sent, _⟩ := step_send s kept.agree call
    generalize (step s (.send call)).1 = after at sent ⊢
    generalize (step s (.send call)).2 = es at sent mem ⊢
    cases sent with
    | nothing idle left right constructed => grind [Held]
    | half builds left right constructed =>
      obtain ⟨noLeft, noRight⟩ := builds_empty kept builds condition
      grind [Held]
    | pair builds left right constructed =>
      obtain ⟨noLeft, noRight⟩ := builds_empty kept builds condition
      grind [Held]
  | close =>
    left
    rw [List.mem_append, mem_closes]
    cases List.mem_append.mp mem with
    | inl before => exact old before
    | inr new => exact absurd new (constructs_close s eye n)

/-- An object that was constructed, is not closed and not reached. -/
structure Orphaned (s : Owner) (past : List ObjectEvent) (n : Nat) : Prop where
  made : ∃ eye, ObjectEvent.constructed eye n ∈ past
  running : ObjectEvent.closed n ∉ past
  lost : ¬ Held s n

theorem orphaned_step {s : Owner} {past : List ObjectEvent} {n : Nat} (kept : Tracked s past)
    (orphaned : Orphaned s past n) (op : Op) :
    Orphaned (step s op).1 (past ++ (step s op).2) n := by
  obtain ⟨⟨eye, made⟩, running, lost⟩ := orphaned
  have number := kept.numbered eye n made
  constructor
  · exact ⟨eye, List.mem_append_left _ made⟩
  · intro closes
    cases List.mem_append.mp closes with
    | inl before => exact running before
    | inr new =>
      cases op with
      | send call => exact (sent_adds (step_send s kept.agree call).1).noneClosed n new
      | close => exact lost ((mem_closes s n).mp new)
  · cases op with
    | send call =>
      have adds := sent_adds (step_send s kept.agree call).1
      intro mine
      cases adds.held n mine with
      | inl before => exact lost before
      | inr new =>
        obtain ⟨other, again⟩ := new
        have above := (adds.fresh other n again).1
        omega
    | close => simp [step, Held]

theorem half_pair_orphaned {s : Owner} {past : List ObjectEvent} (kept : Tracked s past) {op : Op}
    (against : ¬ HalfPairKept s past op) :
    ∃ n, Orphaned (step s op).1 (past ++ (step s op).2) n := by
  cases op with
  | close => exact absurd trivial against
  | send call =>
    simp only [HalfPairKept, not_forall, not_not] at against
    obtain ⟨connected, createLeft, leftThere, rightMissing⟩ := against
    have builds : Builds s call := ⟨connected, createLeft, fun both => both.2 rightMissing⟩
    have holds : s.left.isSome = true := by
      rw [kept.agree.left]
      exact Option.isSome_iff_ne_none.mpr leftThere
    have empty : s.right = none := by
      have same := kept.agree.right
      rw [rightMissing] at same
      simpa using same
    obtain ⟨n, left⟩ := Option.isSome_iff_exists.mp holds
    obtain ⟨eye, made⟩ := kept.heldMade n (.inl left)
    have number := kept.numbered eye n made
    have running := kept.heldOpen n (.inl left)
    refine ⟨n, ⟨eye, List.mem_append_left _ made⟩, ?_, ?_⟩
    · intro closes
      cases List.mem_append.mp closes with
      | inl before => exact running before
      | inr new => exact (sent_adds (step_send s kept.agree call).1).noneClosed n new
    · obtain ⟨sent, _⟩ := step_send s kept.agree call
      generalize (step s (.send call)).1 = after at sent ⊢
      generalize (step s (.send call)).2 = es at sent
      cases sent with
      | nothing idle leftSame rightSame constructed => exact absurd builds idle
      | half _ newLeft rightSame constructed => grind [Held]
      | pair _ newLeft newRight constructed => grind [Held]

theorem orphaned_run {s : Owner} {past : List ObjectEvent} {n : Nat} (kept : Tracked s past)
    (orphaned : Orphaned s past n) (ops : List Op) :
    ¬ NoneOrphaned (run step s ops).1 (past ++ (run step s ops).2) .close := by
  have later : Tracked (run step s ops).1 (past ++ (run step s ops).2) ∧
      Orphaned (run step s ops).1 (past ++ (run step s ops).2) n := by
    apply @run_invariant Owner Op ObjectEvent step
      (fun s past => Tracked s past ∧ Orphaned s past n) _ s past ⟨kept, orphaned⟩
    intro s past op both
    exact ⟨tracked_step s past op both.1, orphaned_step both.1 both.2 op⟩
  obtain ⟨tracked, ⟨eye, made⟩, running, lost⟩ := later
  intro closed
  cases List.mem_append.mp (closed eye n made) with
  | inl before => exact running before
  | inr new => exact lost ((mem_closes _ n).mp new)

theorem noneOrphaned_of_covered {s : Owner} {past : List ObjectEvent} (covered : Covered s past)
    (op : Op) : NoneOrphaned s past op := by
  cases op with
  | send call => trivial
  | close =>
    intro eye n made
    rw [List.mem_append, mem_closes]
    exact covered eye n made

theorem none_orphaned_from {s : Owner} {past : List ObjectEvent} (kept : Tracked s past)
    (covered : Covered s past) (ops : List Op) :
    AtSteps step NoneOrphaned s past (ops ++ [.close]) ↔ AtSteps step HalfPairKept s past ops := by
  induction ops generalizing s past with
  | nil => simpa [AtSteps] using noneOrphaned_of_covered covered .close
  | cons op ops ih =>
    have tracked := tracked_step s past op kept
    rw [List.cons_append, AtSteps, AtSteps]
    by_cases condition : HalfPairKept s past op
    · rw [ih tracked (covered_step s past op kept covered condition)]
      simp [condition, noneOrphaned_of_covered covered op]
    · simp only [condition, false_and, iff_false, not_and]
      intro _ closed
      obtain ⟨n, orphaned⟩ := half_pair_orphaned kept condition
      rw [atSteps_append] at closed
      exact orphaned_run tracked orphaned ops closed.2.1

/-- Behind every close of a run that ends with one, no encoder is orphaned, if and only if no call
    of the run constructs a left encoder over one that stands alone. -/
theorem none_orphaned_iff (width height : Int) (swapEyes : Bool) (ops : List Op) :
    AtSteps step NoneOrphaned (start width height swapEyes) [] (ops ++ [.close]) ↔
      AtSteps step HalfPairKept (start width height swapEyes) [] ops := by
  apply none_orphaned_from (tracked_start width height swapEyes)
  simp [Covered]

def constructingCall (createRight : Option String) : Call :=
  { isConnected := true, createLeft := none, createRight := createRight
    prepareLeft := .error "not an image", prepareRight := .error "not an image"
    encodeLeft := none, encodeRight := none, leftWork := [], rightWork := []
    monotonicNs := 0, packing := "", sendVideoFrame := .ok true }

/-- The right encoder fails to start once, and the call is repeated. -/
theorem left_encoder_orphaned :
    ¬ AtSteps step NoneOrphaned (start 800 450 false) []
      [.send (constructingCall (some "no such device")), .send (constructingCall none), .close] := by
  intro closed
  have first := closed.2.2.1 .left 0 (by decide)
  exact absurd first (by decide)

end QuestStreamerOrphans
