import RoboVR.Host.VideoThread
import RoboVR.Lib.TracedRun

/- Which acks the host bridge counts. The video thread sends a frame and then records when, the
   reader of acks counts an ack that finds such a record. -/
namespace HostAckCount
open HostVideoThread
open QuestH264Decoder (assign)
open TracedRun

/-- `toQuest` are the frames in flight, `toHost` the acks in flight. -/
structure Session where
  host : HostBridge := {}
  videoAckCount : UInt64 := 0
  toQuest : List UInt64 := []
  received : List UInt64 := []
  acked : List UInt64 := []
  toHost : List UInt64 := []

inductive Move where
  | pace (missedFrames : UInt64)
  | send (ok : Bool)
  | record (nowNs : Int)
  | receive
  | ack (frameIndex : UInt64)
  | handleAck

inductive Event where
  | sent (frameIndex : UInt64)
  | recorded (frameIndex : UInt64)
  | handled (frameIndex : UInt64)
  deriving DecidableEq

def countAck (host : HostBridge) (videoAckCount frameIndex : UInt64) : UInt64 :=
  if (host.videoSendTimeNs.lookup frameIndex).isSome then videoAckCount + 1 else videoAckCount

/-- A move of a party that is not at that point changes nothing. The headset acks a frame it has
    received, and each frame once. -/
def step (s : Session) : Move → Session × List Event
  | .pace missedFrames =>
    if s.host.stage = .pacing then ({ s with host := pace s.host missedFrames }, []) else (s, [])
  | .send ok =>
    if s.host.stage = .sending then
      if ok then
        ({ s with host := sent s.host true, toQuest := s.toQuest ++ [s.host.videoFrame] },
          [.sent s.host.videoFrame])
      else ({ s with host := sent s.host false }, [])
    else (s, [])
  | .record nowNs =>
    if s.host.stage = .recording then
      ({ s with host := recordSendTime s.host nowNs }, [.recorded s.host.videoFrame])
    else (s, [])
  | .receive =>
    match s.toQuest with
    | [] => (s, [])
    | frameIndex :: rest =>
      ({ s with toQuest := rest, received := s.received ++ [frameIndex] }, [])
  | .ack frameIndex =>
    if frameIndex ∈ s.received ∧ frameIndex ∉ s.acked then
      ({ s with acked := s.acked ++ [frameIndex], toHost := s.toHost ++ [frameIndex] }, [])
    else (s, [])
  | .handleAck =>
    match s.toHost with
    | [] => (s, [])
    | frameIndex :: rest =>
      ({ s with
        host := handleStatsPayload s.host (.videoAck (some frameIndex))
        videoAckCount := countAck s.host s.videoAckCount frameIndex
        toHost := rest }, [.handled frameIndex])

def handledAcks : List Event → List UInt64 :=
  List.filterMap fun
    | .handled frameIndex => some frameIndex
    | _ => none

def timedFrames (host : HostBridge) : List UInt64 := host.videoSendTimeNs.map Prod.fst

/-- An ack is counted once and becomes the latest. -/
def AckCounted (s : Session) : Move → Prop
  | .handleAck =>
    match s.toHost with
    | [] => True
    | frameIndex :: _ =>
      (step s .handleAck).1.videoAckCount = s.videoAckCount + 1 ∧
        (step s .handleAck).1.host.latestVideoAckFrame = frameIndex ∧
        (step s .handleAck).1.host.hasVideoAck = true
  | move => (step s move).1.videoAckCount = s.videoAckCount

structure AcksKept (s : Session) (past : List Event) (move : Move) : Prop where
  counted : AckCounted s move
  cleared : ∀ n ∈ handledAcks (past ++ (step s move).2), n ∉ timedFrames (step s move).1.host

/-- The send time was recorded, and no ack handled since was more than 300 frames above. -/
def RecordKept (past : List Event) (n : UInt64) : Prop :=
  ∃ before after, past = before ++ .recorded n :: after ∧
    ∀ m, .handled m ∈ after → ¬ n + 300 < m

def InOrder (s : Session) (past : List Event) : Move → Prop
  | .handleAck =>
    match s.toHost with
    | [] => True
    | frameIndex :: _ => RecordKept past frameIndex
  | .record _ => s.host.stage = .recording → s.host.videoFrame ∉ handledAcks past
  | _ => True

/- The send times against the trace. -/

theorem timed_lookup (host : HostBridge) (n : UInt64) :
    (host.videoSendTimeNs.lookup n).isSome = true ↔ n ∈ timedFrames host := by
  rw [List.lookup_isSome_iff, timedFrames, List.mem_map]
  constructor
  · rintro ⟨entry, mem, same⟩
    exact ⟨entry, mem, (beq_iff_eq.mp same).symm⟩
  · rintro ⟨entry, mem, same⟩
    exact ⟨entry, mem, beq_iff_eq.mpr same.symm⟩

theorem timed_recorded (host : HostBridge) (nowNs : Int) (n : UInt64) :
    n ∈ timedFrames (recordSendTime host nowNs) ↔ n = host.videoFrame ∨ n ∈ timedFrames host := by
  simp only [timedFrames, recordSendTime, assign, List.map_cons, List.mem_cons, List.mem_map,
    List.mem_filter, decide_eq_true_eq]
  constructor
  · rintro (new | ⟨entry, ⟨mem, _⟩, same⟩)
    · exact .inl new
    · exact .inr ⟨entry, mem, same⟩
  · rintro (new | ⟨entry, mem, same⟩)
    · exact .inl new
    · by_cases here : entry.1 = host.videoFrame
      · exact .inl (same ▸ here)
      · exact .inr ⟨entry, ⟨mem, here⟩, same⟩

theorem timed_handled (host : HostBridge) (m n : UInt64) :
    n ∈ timedFrames (handleStatsPayload host (.videoAck (some m))) ↔
      n ∈ timedFrames host ∧ n ≠ m ∧ ¬ n + 300 < m := by
  have absent : (host.videoSendTimeNs.lookup m).isSome ≠ true → n ∈ timedFrames host → n ≠ m := by
    rintro notFound mem rfl
    exact notFound ((timed_lookup host n).mpr mem)
  unfold handleStatsPayload
  simp only [timedFrames] at absent ⊢
  split
  · simp only [List.mem_map, List.mem_filter, decide_eq_true_eq]
    constructor
    · rintro ⟨entry, ⟨⟨mem, other⟩, near⟩, rfl⟩
      exact ⟨⟨entry, mem, rfl⟩, other, near⟩
    · rintro ⟨⟨entry, mem, rfl⟩, other, near⟩
      exact ⟨entry, ⟨⟨mem, other⟩, near⟩, rfl⟩
  · next notFound =>
    simp only [List.mem_map, List.mem_filter, decide_eq_true_eq] at absent ⊢
    constructor
    · rintro ⟨entry, ⟨mem, near⟩, rfl⟩
      exact ⟨⟨entry, mem, rfl⟩, absent notFound ⟨entry, mem, rfl⟩, near⟩
    · rintro ⟨⟨entry, mem, rfl⟩, _, near⟩
      exact ⟨entry, ⟨mem, near⟩, rfl⟩

def Spares (n : UInt64) : Event → Prop
  | .handled m => n ≠ m ∧ ¬ n + 300 < m
  | _ => True

def Timed (past : List Event) (n : UInt64) : Prop :=
  ∃ before after, past = before ++ .recorded n :: after ∧ ∀ e ∈ after, Spares n e

theorem timed_append (past : List Event) (e : Event) (n : UInt64) :
    Timed (past ++ [e]) n ↔ e = .recorded n ∨ (Timed past n ∧ Spares n e) := by
  constructor
  · rintro ⟨before, after, split, spared⟩
    cases after using List.reverseRecOn with
    | nil =>
      obtain ⟨_, here⟩ := List.append_inj' split rfl
      exact .inl (List.singleton_inj.mp here)
    | append_singleton after last =>
      rw [← List.cons_append, ← List.append_assoc] at split
      obtain ⟨same, here⟩ := List.append_inj' split rfl
      rw [List.singleton_inj] at here
      subst here
      exact .inr ⟨⟨before, after, same, fun e mem => spared e (by simp [mem])⟩, spared e (by simp)⟩
  · rintro (rfl | ⟨⟨before, after, rfl, spared⟩, spares⟩)
    · exact ⟨past, [], rfl, by simp⟩
    · refine ⟨before, after ++ [e], by simp, ?_⟩
      intro other mem
      rcases List.mem_append.mp mem with old | new
      · exact spared other old
      · rw [List.mem_singleton.mp new]
        exact spares

theorem handledAcks_append (past es : List Event) :
    handledAcks (past ++ es) = handledAcks past ++ handledAcks es := by
  simp [handledAcks]

theorem mem_handledAcks {past : List Event} {n : UInt64} :
    n ∈ handledAcks past ↔ .handled n ∈ past := by
  simp only [handledAcks, List.mem_filterMap]
  constructor
  · rintro ⟨e, mem, same⟩
    cases e <;> simp_all
  · intro mem
    exact ⟨_, mem, rfl⟩

theorem timed_iff_recordKept {past : List Event} {n : UInt64} (fresh : n ∉ handledAcks past) :
    Timed past n ↔ RecordKept past n := by
  constructor
  · rintro ⟨before, after, split, spared⟩
    exact ⟨before, after, split, fun m mem => (spared _ mem).2⟩
  · rintro ⟨before, after, rfl, near⟩
    refine ⟨before, after, rfl, ?_⟩
    intro e mem
    cases e with
    | sent _ => trivial
    | recorded _ => trivial
    | handled m =>
      refine ⟨?_, near m mem⟩
      rintro rfl
      exact fresh (mem_handledAcks.mpr (by simp [mem]))

/-- The send times are those the trace tells of, each frame is acked once and in order, and no ack
    was handled while its frame keeps a send time. -/
structure Accounted (s : Session) (past : List Event) : Prop where
  timed : ∀ n, n ∈ timedFrames s.host ↔ Timed past n
  acked : s.acked = handledAcks past ++ s.toHost
  once : s.acked.Nodup
  cleared : ∀ n ∈ handledAcks past, n ∉ timedFrames s.host

theorem accounted_start : Accounted {} [] where
  timed := by simp [timedFrames, Timed]
  acked := by simp [handledAcks]
  once := by simp
  cleared := by simp [handledAcks]

theorem accounted_same {s after : Session} {past later : List Event} (kept : Accounted s past)
    (times : after.host.videoSendTimeNs = s.host.videoSendTimeNs) (acked : after.acked = s.acked)
    (toHost : after.toHost = s.toHost) (timed : ∀ n, Timed later n ↔ Timed past n)
    (handled : handledAcks later = handledAcks past) : Accounted after later := by
  have frames : timedFrames after.host = timedFrames s.host := by rw [timedFrames, times, timedFrames]
  constructor
  · intro n
    rw [frames, timed, kept.timed]
  · rw [acked, toHost, handled, kept.acked]
  · rw [acked]
    exact kept.once
  · rw [frames, handled]
    exact kept.cleared

theorem accounted_quiet {s after : Session} {past : List Event} (kept : Accounted s past)
    (times : after.host.videoSendTimeNs = s.host.videoSendTimeNs) (acked : after.acked = s.acked)
    (toHost : after.toHost = s.toHost) : Accounted after (past ++ []) :=
  accounted_same kept times acked toHost (by simp) (by simp)

theorem pace_times (host : HostBridge) (missedFrames : UInt64) :
    (pace host missedFrames).videoSendTimeNs = host.videoSendTimeNs := by
  unfold pace
  simp only
  split <;> rfl

theorem accounted_send {s : Session} {past : List Event} (kept : Accounted s past) (ok : Bool) :
    Accounted (step s (.send ok)).1 (past ++ (step s (.send ok)).2) := by
  simp only [step]
  split
  · cases ok with
    | true =>
      have timed : ∀ n, Timed (past ++ [Event.sent s.host.videoFrame]) n ↔ Timed past n := by
        simp [timed_append, Spares]
      exact accounted_same kept rfl rfl rfl timed (by simp [handledAcks])
    | false => exact accounted_quiet kept rfl rfl rfl
  · exact accounted_quiet kept rfl rfl rfl

theorem accounted_record {s : Session} {past : List Event} (kept : Accounted s past) (nowNs : Int)
    (ordered : InOrder s past (.record nowNs)) :
    Accounted (step s (.record nowNs)).1 (past ++ (step s (.record nowNs)).2) := by
  simp only [step]
  split
  · next stage =>
    have handled : handledAcks (past ++ [Event.recorded s.host.videoFrame]) = handledAcks past := by
      simp [handledAcks]
    constructor
    · intro n
      rw [timed_recorded, timed_append, kept.timed]
      simp [Spares, eq_comm]
    · rw [handled]
      exact kept.acked
    · exact kept.once
    · rw [handled]
      intro n mem timed
      rcases (timed_recorded s.host nowNs n).mp timed with rfl | old
      · exact ordered stage mem
      · exact kept.cleared n mem old
  · exact accounted_quiet kept rfl rfl rfl

theorem accounted_ack {s : Session} {past : List Event} (kept : Accounted s past)
    (frameIndex : UInt64) :
    Accounted (step s (.ack frameIndex)).1 (past ++ (step s (.ack frameIndex)).2) := by
  simp only [step]
  split
  · next sends =>
    rw [List.append_nil]
    constructor
    · exact kept.timed
    · rw [kept.acked, List.append_assoc]
    · rw [List.nodup_append]
      refine ⟨kept.once, List.nodup_singleton _, ?_⟩
      rintro a old b new rfl
      rw [List.mem_singleton] at new
      exact sends.2 (new ▸ old)
    · exact kept.cleared
  · exact accounted_quiet kept rfl rfl rfl

theorem accounted_handleAck {s : Session} {past : List Event} (kept : Accounted s past) :
    Accounted (step s .handleAck).1 (past ++ (step s .handleAck).2) := by
  simp only [step]
  split
  · exact accounted_quiet kept rfl rfl rfl
  · next frameIndex rest here =>
    have handled : handledAcks (past ++ [Event.handled frameIndex]) = handledAcks past ++ [frameIndex] := by
      simp [handledAcks]
    constructor
    · intro n
      rw [timed_handled, timed_append, kept.timed]
      simp [Spares]
    · rw [handled, List.append_assoc, List.singleton_append, ← here, kept.acked]
    · exact kept.once
    · rw [handled]
      intro n mem timed
      rw [timed_handled] at timed
      rcases List.mem_append.mp mem with old | new
      · exact kept.cleared n old timed.1
      · exact timed.2.1 (List.mem_singleton.mp new)

theorem accounted_step (s : Session) (past : List Event) (move : Move) (kept : Accounted s past)
    (ordered : InOrder s past move) : Accounted (step s move).1 (past ++ (step s move).2) := by
  cases move with
  | pace missedFrames =>
    simp only [step]
    split
    · exact accounted_quiet kept (pace_times s.host missedFrames) rfl rfl
    · exact accounted_quiet kept rfl rfl rfl
  | send ok => exact accounted_send kept ok
  | record nowNs => exact accounted_record kept nowNs ordered
  | receive =>
    simp only [step]
    split <;> exact accounted_quiet kept rfl rfl rfl
  | ack frameIndex => exact accounted_ack kept frameIndex
  | handleAck => exact accounted_handleAck kept

theorem ackCounted_iff {s : Session} {frameIndex : UInt64} {rest : List UInt64}
    (here : s.toHost = frameIndex :: rest) :
    AckCounted s .handleAck ↔ frameIndex ∈ timedFrames s.host := by
  rw [← timed_lookup]
  simp only [AckCounted, step, here, countAck, handleStatsPayload]
  cases (s.host.videoSendTimeNs.lookup frameIndex).isSome <;> simp

theorem fresh_ack {s : Session} {past : List Event} (kept : Accounted s past) {frameIndex : UInt64}
    {rest : List UInt64} (here : s.toHost = frameIndex :: rest) :
    frameIndex ∉ handledAcks past := by
  have once := kept.once
  rw [kept.acked, here, List.nodup_append] at once
  intro old
  exact once.2.2 frameIndex old frameIndex (by simp) rfl

theorem ackCounted_iff_ordered {s : Session} {past : List Event} (kept : Accounted s past) :
    AckCounted s .handleAck ↔ InOrder s past .handleAck := by
  cases here : s.toHost with
  | nil => simp [AckCounted, InOrder, here]
  | cons frameIndex rest =>
    rw [ackCounted_iff here, kept.timed, timed_iff_recordKept (fresh_ack kept here)]
    simp [InOrder, here]

theorem ackCounted_other (s : Session) {move : Move} (other : move ≠ .handleAck) :
    AckCounted s move := by
  cases move with
  | handleAck => exact absurd rfl other
  | _ =>
    simp only [AckCounted, step]
    split <;> first | rfl | (split <;> rfl)

theorem acksKept_iff {s : Session} {past : List Event} (kept : Accounted s past) (move : Move) :
    AcksKept s past move ↔ InOrder s past move := by
  constructor
  · intro acks
    cases move with
    | record nowNs =>
      intro stage early
      have cleared := acks.cleared
      simp only [step, if_pos stage] at cleared
      apply cleared s.host.videoFrame
      · rw [handledAcks_append]
        exact List.mem_append_left _ early
      · exact (timed_recorded s.host nowNs _).mpr (.inl rfl)
    | handleAck => exact (ackCounted_iff_ordered kept).mp acks.counted
    | pace _ | send _ | receive | ack _ => trivial
  · intro ordered
    refine ⟨?_, (accounted_step s past move kept ordered).cleared⟩
    by_cases handles : move = .handleAck
    · subst handles
      exact (ackCounted_iff_ordered kept).mpr ordered
    · exact ackCounted_other s handles

/-- In every run no ack is lost at any step if and only if at every step acks and records come in
    order. -/
theorem acks_kept_iff (moves : List Move) :
    AtSteps step AcksKept {} [] moves ↔ AtSteps step InOrder {} [] moves := by
  apply atSteps_iff Accounted
  · intro s past move kept acks
    exact accounted_step s past move kept ((acksKept_iff kept move).mp acks)
  · intro s past move kept
    exact acksKept_iff kept move
  · exact accounted_start

/-- The ack of frame 0 is handled before the video thread records when it sent the frame. -/
theorem early_ack_lost :
    ¬ AtSteps step AcksKept {} []
      [.pace 0, .send true, .receive, .ack 0, .handleAck, .record 1000] := by
  intro acks
  have counted := acks.2.2.2.2.1.counted.1
  exact absurd counted (by decide)

end HostAckCount
