import RoboVR.Decoder.H264Decoder
import RoboVR.Decoder.SurfaceDrain
import RoboVR.Lib.TracedRun

/- What one call of `decode` does to the two streams, said once: it may restart the decoder,
   and a started decoder drains both codecs and publishes by the pairing rule. -/
namespace QuestDecodeStep
open QuestTeleop (Bytes VideoFrameHeader)
open QuestMediaCodec QuestSurfaceDrain QuestH264Decoder
open Pairing TracedRun

def pairOf (d : H264AnnexBDecoder) : Pair Nat :=
  { left := d.surfaceLeftReady
    right := d.surfaceRightReady
    last := if d.hasPublishedFrame then some d.lastPublishedFrameIndex else none }

def ackIndices (d : H264AnnexBDecoder) : List Nat := d.pendingAcks.map VideoDecodeAck.frameIndex

def OnSurfaces (d : H264AnnexBDecoder) : Prop :=
  d.leftCodec ≠ none → d.rightCodec ≠ none → d.surfaceOutput = true

structure Continues (d : H264AnnexBDecoder) (es : List Event) (after : H264AnnexBDecoder) :
    Prop where
  quiet : Quiet es
  running : ∀ e ∈ es, isStopped e = false
  pair : pairOf after = pairOf d
  acks : ackIndices after = ackIndices d

structure Restarts (es : List Event) (after : H264AnnexBDecoder) : Prop where
  quiet : Quiet es
  stopped : es.any isStopped = true
  pair : pairOf after = Pair.empty
  acks : ackIndices after = []

def Begins (d : H264AnnexBDecoder) (es : List Event) (after : H264AnnexBDecoder) : Prop :=
  Continues d es after ∨ Restarts es after

theorem quiet_nil : Quiet [] := by simp [Quiet]

theorem quiet_cons {e : Event} {es : List Event}
    (here : published e = none ∧ acked e = none ∧
      ∀ eye, shown eye e = none ∧ rendered eye e = none ∧ delivered eye e = none)
    (later : Quiet es) : Quiet (e :: es) :=
  List.forall_mem_cons.mpr ⟨here, later⟩

theorem quiet_append {as bs : List Event} (first : Quiet as) (second : Quiet bs) :
    Quiet (as ++ bs) := by
  intro e mem
  rcases List.mem_append.mp mem with left | right
  · exact first e left
  · exact second e right

theorem begins_refl (d : H264AnnexBDecoder) : Begins d [] d :=
  Or.inl { quiet := quiet_nil, running := by simp, pair := rfl, acks := rfl }

theorem continues_continues {a b c : H264AnnexBDecoder} {es fs : List Event}
    (first : Continues a es b) (second : Continues b fs c) : Continues a (es ++ fs) c where
  quiet := quiet_append first.quiet second.quiet
  running := by
    intro e mem
    rcases List.mem_append.mp mem with left | right
    · exact first.running e left
    · exact second.running e right
  pair := second.pair.trans first.pair
  acks := second.acks.trans first.acks

theorem begins_quiet {d after : H264AnnexBDecoder} {es : List Event} (begins : Begins d es after) :
    Quiet es := by
  rcases begins with continues | restarts
  · exact continues.quiet
  · exact restarts.quiet

theorem restarts_begins {b c : H264AnnexBDecoder} {es fs : List Event} (first : Restarts es b)
    (second : Begins b fs c) : Restarts (es ++ fs) c where
  quiet := quiet_append first.quiet (begins_quiet second)
  stopped := by rw [List.any_append, first.stopped, Bool.true_or]
  pair := by
    rcases second with continues | restarts
    · exact continues.pair.trans first.pair
    · exact restarts.pair
  acks := by
    rcases second with continues | restarts
    · exact continues.acks.trans first.acks
    · exact restarts.acks

/- The phases of a call. -/

theorem releaseCodec_quiet (eye : Eye) (codec : Option AMediaCodec) :
    Quiet (releaseCodec eye codec) := by
  unfold releaseCodec
  split
  · exact quiet_cons ⟨rfl, rfl, fun _ => ⟨rfl, rfl, rfl⟩⟩ quiet_nil
  · exact quiet_nil

theorem releaseWindow_quiet (eye : Eye) (window : Option Nat) :
    Quiet (releaseWindow eye window) := by
  cases window with
  | none => exact quiet_nil
  | some w => exact quiet_cons ⟨rfl, rfl, fun _ => ⟨rfl, rfl, rfl⟩⟩ quiet_nil

theorem stopped_quiet : Quiet [.stopped] :=
  quiet_cons ⟨rfl, rfl, fun _ => ⟨rfl, rfl, rfl⟩⟩ quiet_nil

theorem acquired_quiet (left right : Nat) :
    Quiet [.windowAcquired .left left, .windowAcquired .right right] :=
  quiet_cons ⟨rfl, rfl, fun _ => ⟨rfl, rfl, rfl⟩⟩
    (quiet_cons ⟨rfl, rfl, fun _ => ⟨rfl, rfl, rfl⟩⟩ quiet_nil)

theorem stop_restarts (d : H264AnnexBDecoder) : Restarts (stop d).2 (stop d).1 where
  quiet := by
    unfold stop
    exact quiet_append (quiet_append (quiet_append (quiet_append (releaseCodec_quiet _ _)
      (releaseCodec_quiet _ _)) (releaseWindow_quiet _ _)) (releaseWindow_quiet _ _)) stopped_quiet
  stopped := by simp [stop, isStopped]
  pair := rfl
  acks := rfl

theorem create_quiet (eye : Eye) (window : Nat) (result : CreateResult) :
    Quiet (createH264Decoder eye window result).2 ∧
      ∀ e ∈ (createH264Decoder eye window result).2, isStopped e = false := by
  have created : Quiet [Event.codecCreated eye] :=
    quiet_cons ⟨rfl, rfl, fun _ => ⟨rfl, rfl, rfl⟩⟩ quiet_nil
  have deleted : Quiet [Event.codecDeleted eye] :=
    quiet_cons ⟨rfl, rfl, fun _ => ⟨rfl, rfl, rfl⟩⟩ quiet_nil
  cases result with
  | noDecoder => exact ⟨quiet_nil, by simp [createH264Decoder]⟩
  | started => exact ⟨created, by simp [createH264Decoder, isStopped]⟩
  | noFormat | notConfigured | notStarted =>
    exact ⟨quiet_append created deleted, by simp [createH264Decoder, isStopped]⟩

theorem create_none (eye : Eye) (window : Nat) (result : CreateResult) :
    (createH264Decoder eye window result).1 = none ↔ result ≠ .started := by
  cases result <;> simp [createH264Decoder]

def Running (d : H264AnnexBDecoder) (header : VideoFrameHeader) : Prop :=
  d.leftCodec ≠ none ∧ d.rightCodec ≠ none ∧ d.width = header.width ∧ d.height = header.height

theorem startCodecs_failed (d : H264AnnexBDecoder) (surfaces : StereoCodecSurfaces) {turn : Turn}
    (failed : turn.left.create ≠ .started ∨ turn.right.create ≠ .started) :
    Restarts (startCodecs d surfaces turn).2.1 (startCodecs d surfaces turn).1 ∧
      OnSurfaces (startCodecs d surfaces turn).1 ∧
      (startCodecs d surfaces turn).2.2 = false := by
  have leftQuiet := (create_quiet .left surfaces.leftWindow turn.left.create).1
  have rightQuiet := (create_quiet .right surfaces.rightWindow turn.right.create).1
  have acquired := acquired_quiet surfaces.leftWindow surfaces.rightWindow
  unfold startCodecs
  simp only [create_none, if_pos failed]
  refine ⟨?_, ?_, trivial⟩
  · exact {
      quiet := quiet_append (quiet_append (quiet_append acquired leftQuiet) rightQuiet)
        (stop_restarts _).quiet
      stopped := by rw [List.any_append, (stop_restarts _).stopped, Bool.or_true]
      pair := rfl
      acks := rfl }
  · intro impossible _
    exact absurd rfl impossible

theorem startCodecs_started (d : H264AnnexBDecoder) (surfaces : StereoCodecSurfaces) {turn : Turn}
    (left : turn.left.create = .started) (right : turn.right.create = .started) :
    Continues d (startCodecs d surfaces turn).2.1 (startCodecs d surfaces turn).1 ∧
      OnSurfaces (startCodecs d surfaces turn).1 ∧
      (startCodecs d surfaces turn).2.2 = true ∧
      (startCodecs d surfaces turn).1.leftCodec ≠ none ∧
      (startCodecs d surfaces turn).1.rightCodec ≠ none ∧
      (startCodecs d surfaces turn).1.width = d.width ∧
      (startCodecs d surfaces turn).1.height = d.height := by
  obtain ⟨leftQuiet, leftRuns⟩ := create_quiet .left surfaces.leftWindow turn.left.create
  obtain ⟨rightQuiet, rightRuns⟩ := create_quiet .right surfaces.rightWindow turn.right.create
  have acquired := acquired_quiet surfaces.leftWindow surfaces.rightWindow
  have live : ¬ (turn.left.create ≠ .started ∨ turn.right.create ≠ .started) := by
    simp [left, right]
  unfold startCodecs
  simp only [create_none, if_neg live]
  refine ⟨?_, fun _ _ => rfl, trivial, ?_, ?_, trivial, trivial⟩
  · exact {
      quiet := quiet_append (quiet_append acquired leftQuiet) rightQuiet
      running := by
        intro e mem
        simp only [List.mem_append] at mem
        rcases mem with (window | left) | right
        · simp only [List.mem_cons, List.not_mem_nil, or_false] at window
          rcases window with rfl | rfl <;> rfl
        · exact leftRuns e left
        · exact rightRuns e right
      pair := rfl
      acks := rfl }
  · exact fun none_ => (create_none .left _ _).mp none_ left
  · exact fun none_ => (create_none .right _ _).mp none_ right

def HasSizes (header : VideoFrameHeader) : Prop :=
  header.width ≠ 0 ∧ header.height ≠ 0 ∧ header.leftPayloadSize ≠ 0 ∧ header.rightPayloadSize ≠ 0

def Starts (header : VideoFrameHeader) (turn : Turn) : Prop :=
  HasSizes header ∧ turn.surfaces ≠ none ∧ turn.left.create = .started ∧
    turn.right.create = .started

theorem hasSizes_iff (header : VideoFrameHeader) :
    HasSizes header ↔ ¬ (header.width = 0 ∨ header.height = 0 ∨ header.leftPayloadSize = 0 ∨
      header.rightPayloadSize = 0) := by
  simp only [HasSizes, not_or, ne_eq]

theorem ensureStarted_refuses {header : VideoFrameHeader} (noSizes : ¬ HasSizes header)
    (d : H264AnnexBDecoder) (turn : Turn) : ensureStarted d header turn = (d, [], false) := by
  rw [hasSizes_iff, not_not] at noSizes
  rw [ensureStarted, if_pos noSizes]

theorem ensureStarted_running {d : H264AnnexBDecoder} {header : VideoFrameHeader}
    (sizes : HasSizes header) (running : Running d header) (turn : Turn) :
    ensureStarted d header turn = (d, [], true) := by
  rw [hasSizes_iff] at sizes
  rw [ensureStarted, if_neg sizes]
  exact if_pos running

structure Begun (header : VideoFrameHeader) (turn : Turn) (after : H264AnnexBDecoder)
    (es : List Event) (ok : Bool) : Prop where
  restarts : Restarts es after
  onSurfaces : OnSurfaces after
  running : ok = true → Running after header
  starts : ok = true ↔ Starts header turn

theorem ensureStarted_idle {d : H264AnnexBDecoder} {header : VideoFrameHeader}
    (sizes : HasSizes header) (idle : ¬ Running d header) (turn : Turn) :
    Begun header turn (ensureStarted d header turn).1 (ensureStarted d header turn).2.1
      (ensureStarted d header turn).2.2 := by
  have restarted : Restarts (stop d).2
      { (stop d).1 with width := header.width, height := header.height } :=
    { stop_restarts d with pair := rfl, acks := rfl }
  have sized := (hasSizes_iff header).mp sizes
  have cold : ¬ (d.leftCodec ≠ none ∧ d.rightCodec ≠ none ∧ d.width = header.width ∧
      d.height = header.height) := idle
  unfold ensureStarted
  rw [if_neg sized, if_neg cold]
  simp only
  cases surfaces : turn.surfaces with
  | none =>
    constructor
    · exact restarted
    · intro impossible _
      exact absurd rfl impossible
    · intro impossible
      exact absurd impossible Bool.false_ne_true
    · simp [Starts, surfaces]
  | some windows =>
    simp only
    by_cases created : turn.left.create = .started ∧ turn.right.create = .started
    · obtain ⟨continues, onSurfaces, ok, left, right, width, height⟩ := startCodecs_started
        { (stop d).1 with width := header.width, height := header.height } windows
        created.1 created.2
      constructor
      · exact restarts_begins restarted (Or.inl continues)
      · exact onSurfaces
      · intro _
        exact ⟨left, right, width, height⟩
      · simp [Starts, surfaces, created, sizes, ok]
    · obtain ⟨restarts, onSurfaces, ok⟩ := startCodecs_failed
        { (stop d).1 with width := header.width, height := header.height } windows
        (not_and_or.mp created)
      constructor
      · exact restarts_begins restarted (Or.inr restarts)
      · exact onSurfaces
      · intro impossible
        rw [ok] at impossible
        exact absurd impossible Bool.false_ne_true
      · simp only [ok, Bool.false_eq_true, false_iff]
        intro starts
        exact created starts.2.2

/-- The tests with which a call finds both codecs running and the stream not rewound. -/
def GoesOn (d : H264AnnexBDecoder) (header : VideoFrameHeader) : Prop :=
  rewound d header.frameIndex.toNat = false ∧ HasSizes header ∧ Running d header

instance (d : H264AnnexBDecoder) (header : VideoFrameHeader) : Decidable (GoesOn d header) := by
  unfold GoesOn HasSizes Running
  exact inferInstance

instance (header : VideoFrameHeader) (turn : Turn) : Decidable (Starts header turn) := by
  unfold Starts HasSizes
  exact inferInstance

def Breaks (d : H264AnnexBDecoder) (header : VideoFrameHeader) : Prop :=
  rewound d header.frameIndex.toNat = true ∨ ¬ Running d header

theorem breaks_other {d : H264AnnexBDecoder} {header : VideoFrameHeader}
    (breaks : Breaks d header) : ¬ GoesOn d header := by
  intro goes
  rcases breaks with back | idle
  · rw [goes.1] at back
    exact absurd back Bool.false_ne_true
  · exact idle goes.2.2

inductive Beginning (d : H264AnnexBDecoder) (header : VideoFrameHeader) (turn : Turn) :
    H264AnnexBDecoder → List Event → Bool → Prop
  | refuses (noSizes : ¬ HasSizes header) : Beginning d header turn d [] false
  | goesOn (goes : GoesOn d header) : Beginning d header turn d [] true
  | anew {after : H264AnnexBDecoder} {es : List Event} {ok : Bool} (breaks : Breaks d header)
    (begun : Begun header turn after es ok) : Beginning d header turn after es ok

theorem decode_beginning (d : H264AnnexBDecoder) (header : VideoFrameHeader) (turn : Turn) :
    Beginning d header turn
      (ensureStarted (restartIfRewound d header.frameIndex.toNat).1 header turn).1
      ((restartIfRewound d header.frameIndex.toNat).2 ++
        (ensureStarted (restartIfRewound d header.frameIndex.toNat).1 header turn).2.1)
      (ensureStarted (restartIfRewound d header.frameIndex.toNat).1 header turn).2.2 := by
  by_cases back : rewound d header.frameIndex.toNat = true
  · have same : restartIfRewound d header.frameIndex.toNat = stop d := if_pos back
    rw [same]
    apply Beginning.anew (Or.inl back)
    by_cases sizes : HasSizes header
    · have begun := ensureStarted_idle (d := (stop d).1) sizes
        (fun running => absurd rfl running.1) turn
      exact { begun with restarts := restarts_begins (stop_restarts d) (Or.inr begun.restarts) }
    · rw [ensureStarted_refuses sizes, List.append_nil]
      constructor
      · exact stop_restarts d
      · intro impossible _
        exact absurd rfl impossible
      · intro impossible
        exact absurd impossible Bool.false_ne_true
      · simp [Starts, sizes]
  · have same : restartIfRewound d header.frameIndex.toNat = (d, []) := if_neg back
    rw [same, List.nil_append]
    by_cases sizes : HasSizes header
    · by_cases running : Running d header
      · rw [ensureStarted_running sizes running]
        exact Beginning.goesOn ⟨by simpa using back, sizes, running⟩
      · exact Beginning.anew (Or.inr running) (ensureStarted_idle sizes running turn)
    · rw [ensureStarted_refuses sizes]
      exact Beginning.refuses sizes

theorem queueAccessUnit_quiet (eye : Eye) (codec : Option AMediaCodec) (payload : Bytes)
    (frameIndex : Nat) (turn : InputTurn) :
    Quiet (queueAccessUnit eye codec payload frameIndex turn).2 ∧
      ∀ e ∈ (queueAccessUnit eye codec payload frameIndex turn).2, isStopped e = false := by
  have taken (index : Nat) : Quiet [Event.inputDequeued eye index] ∧
      ∀ e ∈ [Event.inputDequeued eye index], isStopped e = false :=
    ⟨quiet_cons ⟨rfl, rfl, fun _ => ⟨rfl, rfl, rfl⟩⟩ quiet_nil, by simp [isStopped]⟩
  have given (index : Nat) : Quiet [Event.inputQueued eye index frameIndex payload] :=
    quiet_cons ⟨rfl, rfl, fun _ => ⟨rfl, rfl, rfl⟩⟩ quiet_nil
  unfold queueAccessUnit
  split
  · exact ⟨quiet_nil, by simp⟩
  · split
    · exact ⟨quiet_nil, by simp⟩
    · exact ⟨quiet_nil, by simp⟩
    · next index _ =>
      split
      · exact taken index
      · split
        · exact taken index
        · split
          · exact ⟨quiet_append (taken index).1 (given index), by simp [isStopped]⟩
          · exact taken index

def setupOf (d : H264AnnexBDecoder) :
    Option AMediaCodec × Option AMediaCodec × Bool × UInt32 × UInt32 :=
  (d.leftCodec, d.rightCodec, d.surfaceOutput, d.width, d.height)

theorem running_setup {a b : H264AnnexBDecoder} {header : VideoFrameHeader}
    (same : setupOf a = setupOf b) : Running a header ↔ Running b header := by
  simp only [setupOf, Prod.mk.injEq] at same
  obtain ⟨left, right, _, width, height⟩ := same
  rw [Running, Running, left, right, width, height]

theorem queueStereo_continues (d : H264AnnexBDecoder) (frameIndex : Nat) (left right : Bytes)
    (turn : Turn) :
    Continues d (queueStereo d frameIndex left right turn).2.1
        (queueStereo d frameIndex left right turn).1 ∧
      setupOf (queueStereo d frameIndex left right turn).1 = setupOf d := by
  obtain ⟨leftQuiet, leftRuns⟩ :=
    queueAccessUnit_quiet .left d.leftCodec left frameIndex turn.left.input
  obtain ⟨rightQuiet, rightRuns⟩ :=
    queueAccessUnit_quiet .right d.rightCodec right frameIndex turn.right.input
  unfold queueStereo
  simp only
  constructor
  · exact {
      quiet := quiet_append leftQuiet rightQuiet
      running := by
        intro e mem
        rcases List.mem_append.mp mem with left | right
        · exact leftRuns e left
        · exact rightRuns e right
      pair := by split <;> rfl
      acks := by split <;> rfl }
  · split <;> rfl

/- The pairing. -/

theorem unpublished_iff (d : H264AnnexBDecoder) (n : Nat) :
    unpublished d n = true ↔ (pairOf d).Fresh n := by
  unfold unpublished Pair.Fresh pairOf
  cases d.hasPublishedFrame <;> simp

theorem readyFrameIndex_eq (d : H264AnnexBDecoder) : readyFrameIndex d = (pairOf d).ready := by
  have same : (d.surfaceLeftReady ∩ d.surfaceRightReady).filter (fun n => unpublished d n) =
      ((pairOf d).left ∩ (pairOf d).right).filter (pairOf d).Fresh := by
    apply Finset.filter_congr
    intro n _
    exact unpublished_iff d n
  unfold readyFrameIndex Pair.ready greatest
  simp only [same]

theorem markReady_eq (ready : Finset Nat) (best : Option Nat) :
    markReady ready best.toList = Pairing.mark ready best := by
  cases best <;> rfl

def publication : Option Nat → List Event
  | none => []
  | some frameIndex => [.publishStereoCodecFrame frameIndex]

def newestLeft (turn : Turn) : Option Nat := newest (dequeued turn.left.outputs)
def newestRight (turn : Turn) : Option Nat := newest (dequeued turn.right.outputs)

def drains (turn : Turn) : List Event :=
  released .left turn.left.outputs ++ released .right turn.right.outputs

theorem publishReady_spec (d : H264AnnexBDecoder) (publishTimeNs : Int) :
    (publishReady d publishTimeNs).2 = publication (pairOf d).ready ∧
      pairOf (publishReady d publishTimeNs).1 = (match (pairOf d).ready with
        | none => pairOf d
        | some n => (pairOf d).take n) ∧
      ackIndices (publishReady d publishTimeNs).1 = ackIndices d ++ (pairOf d).ready.toList ∧
      setupOf (publishReady d publishTimeNs).1 = setupOf d := by
  unfold publishReady
  rw [readyFrameIndex_eq]
  cases (pairOf d).ready with
  | none => simp [publication]
  | some n => simp [publication, pairOf, Pair.take, ackIndices, setupOf]

theorem drainSurfaces_spec {d : H264AnnexBDecoder} (turn : Turn) (left : d.leftCodec ≠ none)
    (right : d.rightCodec ≠ none) :
    pairOf (drainSurfaces d turn).1 = (pairOf d).mark (newestLeft turn) (newestRight turn) ∧
      (drainSurfaces d turn).2 = drains turn ∧
      ackIndices (drainSurfaces d turn).1 = ackIndices d ∧
      setupOf (drainSurfaces d turn).1 = setupOf d := by
  obtain ⟨leftFrames, leftEvents⟩ := drain_live .left turn.left.outputs d.format left
  obtain ⟨rightFrames, rightEvents⟩ := drain_live .right turn.right.outputs
    (drainSurfaceOutput .left d.leftCodec turn.left.outputs d.format).format right
  refine ⟨?_, ?_, rfl, rfl⟩
  · simp only [drainSurfaces, pairOf, leftFrames, rightFrames, markReady_eq]
    rfl
  · simp only [drainSurfaces, leftEvents, rightEvents, drains]

theorem output_spec {d : H264AnnexBDecoder} (turn : Turn) (surface : d.surfaceOutput = true)
    (left : d.leftCodec ≠ none) (right : d.rightCodec ≠ none) :
    pairOf (output d turn).1 = ((pairOf d).step (newestLeft turn) (newestRight turn)).1 ∧
      (output d turn).2 = drains turn ++
        publication ((pairOf d).step (newestLeft turn) (newestRight turn)).2 ∧
      ackIndices (output d turn).1 = ackIndices d ++
        ((pairOf d).step (newestLeft turn) (newestRight turn)).2.toList ∧
      setupOf (output d turn).1 = setupOf d := by
  obtain ⟨pair, events, acks, stays⟩ := drainSurfaces_spec turn left right
  obtain ⟨news, after, sent, kept⟩ :=
    publishReady_spec (drainSurfaces d turn).1 turn.publishTimeNs
  rw [pair] at news after sent
  simp only [output, if_pos surface]
  rw [news, after, sent, kept, stays, acks, events]
  unfold Pair.step
  cases ((pairOf d).mark (newestLeft turn) (newestRight turn)).ready <;> simp

/-- What a call of `decode` comes to; it drains the codecs when it finds the streams going on
    (`goes`) or can start them (`starts`), and restarts the decoder only when the streams are
    broken (`breaks`). -/
inductive Outcome (d : H264AnnexBDecoder) (turn : Turn) (goes starts breaks : Prop) :
    H264AnnexBDecoder → List Event → Prop
  | waiting {after : H264AnnexBDecoder} {es : List Event} (idle : ¬ goes) (unable : ¬ starts)
    (begins : Begins d es after)
    (stays : (after = d ∧ ∀ e ∈ es, isStopped e = false) ∨ breaks ∧ Restarts es after) :
    Outcome d turn goes starts breaks after es
  | drained {started after : H264AnnexBDecoder} {es all : List Event}
    (on : goes → Continues d es started) (anew : ¬ goes → starts ∧ breaks ∧ Restarts es started)
    (pair : pairOf after = ((pairOf started).step (newestLeft turn) (newestRight turn)).1)
    (acks : ackIndices after = ackIndices started ++
      ((pairOf started).step (newestLeft turn) (newestRight turn)).2.toList)
    (parts : all = es ++ (drains turn ++
      publication ((pairOf started).step (newestLeft turn) (newestRight turn)).2)) :
    Outcome d turn goes starts breaks after all

theorem begins_of_goes {d started : H264AnnexBDecoder} {goes starts breaks : Prop}
    {es : List Event} (on : goes → Continues d es started)
    (anew : ¬ goes → starts ∧ breaks ∧ Restarts es started) : Begins d es started := by
  by_cases goes_ : goes
  · exact Or.inl (on goes_)
  · exact Or.inr (anew goes_).2.2

theorem beginning_running {d after : H264AnnexBDecoder} {header : VideoFrameHeader} {turn : Turn}
    {es : List Event} (beginning : Beginning d header turn after es true) :
    Running after header ∧ (GoesOn d header → Continues d es after) ∧
      (¬ GoesOn d header → Starts header turn ∧ Breaks d header ∧ Restarts es after) := by
  cases beginning with
  | goesOn goes =>
    refine ⟨goes.2.2, fun _ => ?_, fun other => absurd goes other⟩
    exact { quiet := quiet_nil, running := by simp, pair := rfl, acks := rfl }
  | anew breaks begun =>
    refine ⟨begun.running rfl, fun goes => absurd goes (breaks_other breaks), fun _ => ?_⟩
    exact ⟨begun.starts.mp rfl, breaks, begun.restarts⟩

theorem beginning_waiting {d after : H264AnnexBDecoder} {header : VideoFrameHeader} {turn : Turn}
    {es : List Event} (beginning : Beginning d header turn after es false) :
    ¬ GoesOn d header ∧ ¬ Starts header turn ∧ Begins d es after ∧
      ((after = d ∧ ∀ e ∈ es, isStopped e = false) ∨ Breaks d header ∧ Restarts es after) := by
  cases beginning with
  | refuses noSizes =>
    refine ⟨fun goes => noSizes goes.2.1, fun starts => noSizes starts.1, ?_, Or.inl ⟨rfl, ?_⟩⟩
    · exact begins_refl d
    · simp
  | anew breaks begun =>
    refine ⟨breaks_other breaks, ?_, Or.inr begun.restarts, Or.inr ⟨breaks, begun.restarts⟩⟩
    intro starts
    exact absurd (begun.starts.mpr starts) Bool.false_ne_true

theorem beginning_onSurfaces {d after : H264AnnexBDecoder} {header : VideoFrameHeader}
    {turn : Turn} {es : List Event} {ok : Bool} (inv : OnSurfaces d)
    (beginning : Beginning d header turn after es ok) : OnSurfaces after := by
  cases beginning with
  | refuses _ => exact inv
  | goesOn _ => exact inv
  | anew _ begun => exact begun.onSurfaces

theorem decode_outcome {d : H264AnnexBDecoder} (inv : OnSurfaces d) (header : VideoFrameHeader)
    (left right : Bytes) (turn : Turn) :
    Outcome d turn (GoesOn d header) (Starts header turn) (Breaks d header)
        (decode d header left right turn).1 (decode d header left right turn).2.1 ∧
      OnSurfaces (decode d header left right turn).1 ∧
      (GoesOn d header ∨ Starts header turn →
        Running (decode d header left right turn).1 header) := by
  have beginning := decode_beginning d header turn
  unfold decode
  simp only
  generalize (restartIfRewound d header.frameIndex.toNat).2 ++
    (ensureStarted (restartIfRewound d header.frameIndex.toNat).1 header turn).2.1 = es
    at beginning ⊢
  generalize ensureStarted (restartIfRewound d header.frameIndex.toNat).1 header turn = begun
    at beginning ⊢
  have onSurfaces := beginning_onSurfaces inv beginning
  by_cases ok : begun.2.2 = true
  · rw [ok] at beginning
    obtain ⟨running, on, anew⟩ := beginning_running beginning
    obtain ⟨queued, queuedSetup⟩ :=
      queueStereo_continues begun.1 header.frameIndex.toNat left right turn
    have live := (running_setup queuedSetup).mpr running
    simp only [setupOf, Prod.mk.injEq] at queuedSetup
    obtain ⟨pair, events, acks, setup⟩ := output_spec turn
      (queuedSetup.2.2.1.trans (onSurfaces running.1 running.2.1)) live.1 live.2.1
    rw [if_pos ok]
    refine ⟨?_, ?_, ?_⟩
    · refine Outcome.drained ?_ ?_ pair acks (congrArg (_ ++ ·) events)
      · intro goes
        exact continues_continues (on goes) queued
      · intro other
        obtain ⟨starts, breaks, restarts⟩ := anew other
        exact ⟨starts, breaks, restarts_begins restarts (Or.inl queued)⟩
    · intro _ _
      simp only [setupOf, Prod.mk.injEq] at setup
      exact setup.2.2.1.trans (queuedSetup.2.2.1.trans (onSurfaces running.1 running.2.1))
    · intro _
      exact (running_setup setup).mpr live
  · rw [if_neg ok]
    rw [Bool.not_eq_true] at ok
    rw [ok] at beginning
    obtain ⟨idle, unable, begins, stays⟩ := beginning_waiting beginning
    refine ⟨Outcome.waiting idle unable begins stays, onSurfaces, ?_⟩
    intro able
    rcases able with goes | starts
    · exact absurd goes idle
    · exact absurd starts unable

/- Before the first publication the last published index is zero. -/

def Zeroed (d : H264AnnexBDecoder) : Prop :=
  d.hasPublishedFrame = false → d.lastPublishedFrameIndex = 0

theorem startCodecs_zeroed {d : H264AnnexBDecoder} (zeroed : Zeroed d)
    (surfaces : StereoCodecSurfaces) (turn : Turn) : Zeroed (startCodecs d surfaces turn).1 := by
  unfold startCodecs
  simp only
  split
  · exact fun _ => rfl
  · exact zeroed

theorem ensureStarted_zeroed {d : H264AnnexBDecoder} (zeroed : Zeroed d)
    (header : VideoFrameHeader) (turn : Turn) : Zeroed (ensureStarted d header turn).1 := by
  unfold ensureStarted
  split
  · exact zeroed
  · split
    · exact zeroed
    · simp only
      cases turn.surfaces with
      | none => exact fun _ => rfl
      | some surfaces => exact startCodecs_zeroed (fun _ => rfl) surfaces turn

theorem publishReady_zeroed {d : H264AnnexBDecoder} (zeroed : Zeroed d) (publishTimeNs : Int) :
    Zeroed (publishReady d publishTimeNs).1 := by
  unfold publishReady
  split
  · exact zeroed
  · simp [Zeroed]

theorem publishImages_zeroed {d : H264AnnexBDecoder} (zeroed : Zeroed d) (publishTimeNs : Int) :
    Zeroed (publishImages d publishTimeNs).1 := by
  unfold publishImages
  split
  · exact zeroed
  · simp [Zeroed]

theorem queueStereo_zeroed {d : H264AnnexBDecoder} (zeroed : Zeroed d) (frameIndex : Nat)
    (left right : Bytes) (turn : Turn) :
    Zeroed (queueStereo d frameIndex left right turn).1 := by
  unfold queueStereo
  simp only
  split
  · exact zeroed
  · exact zeroed

theorem output_zeroed {d : H264AnnexBDecoder} (zeroed : Zeroed d) (turn : Turn) :
    Zeroed (output d turn).1 := by
  have surfaces : Zeroed (drainSurfaces d turn).1 := zeroed
  have images : Zeroed (drainImages d turn).1 := zeroed
  unfold output
  split
  · exact publishReady_zeroed surfaces turn.publishTimeNs
  · exact publishImages_zeroed images turn.publishTimeNs

theorem decode_zeroed {d : H264AnnexBDecoder} (zeroed : Zeroed d) (header : VideoFrameHeader)
    (left right : Bytes) (turn : Turn) : Zeroed (decode d header left right turn).1 := by
  have restarted : Zeroed (restartIfRewound d header.frameIndex.toNat).1 := by
    unfold restartIfRewound
    split
    · exact fun _ => rfl
    · exact zeroed
  have started := ensureStarted_zeroed restarted header turn
  have queued := queueStereo_zeroed started header.frameIndex.toNat left right turn
  unfold decode
  simp only
  split
  · exact output_zeroed queued turn
  · exact started

end QuestDecodeStep
