import RoboVR.Decoder.DecodeStep

/- The trace of a decoder: the frames it shows of each kind, and what one call adds to them. -/
namespace QuestDecodeTrace
open QuestTeleop (Bytes VideoFrameHeader)
open QuestMediaCodec QuestSurfaceDrain QuestH264Decoder QuestDecodeStep
open Pairing TracedRun

def framesOf (kind : Event → Option Nat) (trace : List Event) : List Nat := trace.filterMap kind

def sinceStop (trace : List Event) : List Event := since isStopped trace

theorem framesOf_append (kind : Event → Option Nat) (as bs : List Event) :
    framesOf kind (as ++ bs) = framesOf kind as ++ framesOf kind bs :=
  List.filterMap_append

theorem framesOf_nil {kind : Event → Option Nat} {es : List Event}
    (none_ : ∀ e ∈ es, kind e = none) : framesOf kind es = [] := by
  rw [framesOf, List.filterMap_eq_nil_iff]
  exact none_

theorem sinceStop_running {past es : List Event} (running : ∀ e ∈ es, isStopped e = false) :
    sinceStop (past ++ es) = sinceStop past ++ es :=
  since_append_plain isStopped past running

theorem begins_framesOf {d after : H264AnnexBDecoder} {es : List Event} (past : List Event)
    {kind : Event → Option Nat} (quiet : ∀ e ∈ es, kind e = none) (begins : Begins d es after) :
    (pairOf after = pairOf d ∧
      framesOf kind (sinceStop (past ++ es)) = framesOf kind (sinceStop past)) ∨
    (pairOf after = Pair.empty ∧ framesOf kind (sinceStop (past ++ es)) = []) := by
  rcases begins with continues | restarts
  · left
    refine ⟨continues.pair, ?_⟩
    rw [sinceStop_running continues.running, framesOf_append, framesOf_nil quiet, List.append_nil]
  · right
    refine ⟨restarts.pair, ?_⟩
    rw [sinceStop, since_append, if_pos restarts.stopped]
    apply framesOf_nil
    intro e mem
    exact quiet e (mem_since isStopped mem)

theorem drains_only {turn : Turn} {event : Event} (mem : event ∈ drains turn) :
    published event = none ∧ acked event = none ∧ isStopped event = false := by
  rcases List.mem_append.mp mem with left | right
  · exact released_only left
  · exact released_only right

theorem drains_left (turn : Turn) :
    framesOf (rendered .left) (drains turn) = (newestLeft turn).toList := by
  rw [drains, framesOf_append, framesOf, framesOf, released_rendered, released_rendered]
  simp [newestLeft]

theorem drains_right (turn : Turn) :
    framesOf (rendered .right) (drains turn) = (newestRight turn).toList := by
  rw [drains, framesOf_append, framesOf, framesOf, released_rendered, released_rendered]
  simp [newestRight]

theorem publication_frames (n : Option Nat) :
    framesOf published (publication n) = n.toList ∧ framesOf acked (publication n) = [] := by
  cases n with
  | none => exact ⟨rfl, rfl⟩
  | some n => exact ⟨rfl, rfl⟩

theorem shown_running (turn : Turn) (n : Option Nat) :
    ∀ e ∈ drains turn ++ publication n, isStopped e = false := by
  intro e mem
  rcases List.mem_append.mp mem with drained | news
  · exact (drains_only drained).2.2
  · cases n with
    | none => simp [publication] at news
    | some n =>
      rw [List.mem_singleton.mp news]
      simp [isStopped]

theorem outcome_running {d after : H264AnnexBDecoder} {turn : Turn} {es : List Event}
    {goes starts breaks : Prop} (outcome : Outcome d turn goes starts breaks after es)
    (whole : ¬ breaks) : ∀ e ∈ es, isStopped e = false := by
  cases outcome with
  | waiting _ _ _ stays =>
    rcases stays with ⟨_, running⟩ | ⟨breaks_, _⟩
    · exact running
    · exact absurd breaks_ whole
  | drained on anew _ _ parts =>
    intro e mem
    rw [parts] at mem
    rcases List.mem_append.mp mem with begun | shown_
    · by_cases goes_ : goes
      · exact (on goes_).running e begun
      · exact absurd (anew goes_).2.1 whole
    · exact shown_running turn _ e shown_

theorem outcome_noAcks {d after : H264AnnexBDecoder} {turn : Turn} {es : List Event}
    {goes starts breaks : Prop} (outcome : Outcome d turn goes starts breaks after es) :
    framesOf acked es = [] := by
  cases outcome with
  | waiting _ _ begins _ => exact framesOf_nil fun e mem => (begins_quiet begins e mem).2.1
  | drained on anew _ _ parts =>
    have quiet := begins_quiet (begins_of_goes on anew)
    rw [parts, framesOf_append, framesOf_append, framesOf_nil fun e mem => (quiet e mem).2.1,
      framesOf_nil fun e mem => (drains_only mem).2.1, (publication_frames _).2]
    rfl

/- A run of calls of `decode`. -/

structure Call where
  header : VideoFrameHeader
  left : Bytes
  right : Bytes
  turn : Turn

def decodeCall (d : H264AnnexBDecoder) (call : Call) : H264AnnexBDecoder × List Event :=
  let decoded := decode d call.header call.left call.right call.turn
  (decoded.1, decoded.2.1)

theorem decodeCall_outcome {d : H264AnnexBDecoder} (inv : OnSurfaces d) (call : Call) :
    Outcome d call.turn (GoesOn d call.header) (Starts call.header call.turn)
        (Breaks d call.header) (decodeCall d call).1 (decodeCall d call).2 ∧
      OnSurfaces (decodeCall d call).1 := by
  obtain ⟨outcome, onSurfaces, _⟩ :=
    decode_outcome inv call.header call.left call.right call.turn
  exact ⟨outcome, onSurfaces⟩

def decodeTrace (calls : List Call) : List Event := (run decodeCall {} calls).2

def Increasing (calls : List Call) : Prop :=
  calls.Pairwise fun a b => a.header.frameIndex < b.header.frameIndex

instance (calls : List Call) : Decidable (Increasing calls) := by
  unfold Increasing
  exact inferInstance

def queued (eye : Eye) : Event → Option Nat
  | .inputQueued e _ frameIndex _ => if e = eye then some frameIndex else none
  | _ => none

/-- A codec gives the frames queued to it back in their order. -/
def InOrder (eye : Eye) (past : List Event) (event : Event) : Prop :=
  ∀ n ∈ delivered eye event, framesOf (delivered eye) past ++ [n] <+: framesOf (queued eye) past

instance (eye : Eye) (past : List Event) (event : Event) : Decidable (InOrder eye past event) := by
  unfold InOrder
  exact inferInstance

/- Surroundings in which everything succeeds. -/

def promptCodec (first count : Nat) : CodecTurn where
  create := .started
  input := { dequeued := .buffer 0, inputSize := some 4096, queued := true }
  outputs :=
    { results := (List.range' first count).map fun n =>
        .buffer n { offset := 0, size := 1, presentationTimeUs := n } none
      held := by
        rw [List.filterMap_map]
        simpa [Function.comp_def, OutputResult.index] using List.nodup_range' }

def promptTurn (left right : CodecTurn) : Turn where
  left := left
  right := right
  surfaces := some { leftWindow := 1, rightWindow := 2, generation := 1 }
  receiveTimeNs := 0
  publishTimeNs := 0

def smallHeader (frameIndex : UInt64) : VideoFrameHeader :=
  { codec := 2, frameIndex := frameIndex, width := 16, height := 8, leftPayloadSize := 1,
    rightPayloadSize := 1 }

def promptCall (frameIndex : UInt64) (turn : Turn) : Call :=
  { header := smallHeader frameIndex, left := [7], right := [9], turn := turn }

end QuestDecodeTrace
