import RoboVR.Decoder.DecodeTrace
import RoboVR.Lib.Ledger

/- The windows and codecs of the decoder: which it holds between calls, and that what it took
   it gives back once. -/
namespace QuestResources
open QuestTeleop (Bytes VideoFrameHeader)
open QuestMediaCodec QuestH264Decoder QuestDecodeStep QuestDecodeTrace
open TracedRun Ledger

inductive Resource where
  | codec (eye : Eye)
  | window (eye : Eye) (window : Nat)
  deriving DecidableEq

def takes : Event → Option Resource
  | .windowAcquired eye w => some (.window eye w)
  | .codecCreated eye => some (.codec eye)
  | _ => none

def gives : Event → Option Resource
  | .windowReleased eye w => some (.window eye w)
  | .codecDeleted eye => some (.codec eye)
  | _ => none

def isCodec : Resource → Bool
  | .codec _ => true
  | .window _ _ => false

def isWindow (r : Resource) : Bool := !isCodec r

def codecHeld (eye : Eye) (codec : Option AMediaCodec) : Multiset Resource :=
  if codec.isSome then {.codec eye} else 0

def windowHeld (eye : Eye) (window : Option Nat) : Multiset Resource :=
  match window with
  | some w => {.window eye w}
  | none => 0

def holdings (d : H264AnnexBDecoder) : Multiset Resource :=
  codecHeld .left d.leftCodec + (codecHeld .right d.rightCodec +
    (windowHeld .left d.leftWindow + windowHeld .right d.rightWindow))

structure Setup where
  leftCodec : Option AMediaCodec
  rightCodec : Option AMediaCodec
  leftWindow : Option Nat
  rightWindow : Option Nat
  surfaceGeneration : Nat
  surfaceOutput : Bool
  width : UInt32
  height : UInt32

def setup (d : H264AnnexBDecoder) : Setup where
  leftCodec := d.leftCodec
  rightCodec := d.rightCodec
  leftWindow := d.leftWindow
  rightWindow := d.rightWindow
  surfaceGeneration := d.surfaceGeneration
  surfaceOutput := d.surfaceOutput
  width := d.width
  height := d.height

def BothHeld (d : H264AnnexBDecoder) : Prop :=
  d.leftCodec ≠ none ∧ d.rightCodec ≠ none ∧ d.leftWindow ≠ none ∧ d.rightWindow ≠ none ∧
    d.surfaceOutput = true

def NoneHeld (d : H264AnnexBDecoder) : Prop :=
  d.leftCodec = none ∧ d.rightCodec = none ∧ d.leftWindow = none ∧ d.rightWindow = none ∧
    d.surfaceOutput = false

/- The events of a call by the part of `decode` that makes them. -/

inductive Part where
  | start
  | input
  | output
  | acknowledge
  deriving DecidableEq

def partOf : Event → Part
  | .windowAcquired _ _ | .windowReleased _ _ | .codecCreated _ | .codecDeleted _ | .stopped =>
    .start
  | .inputDequeued _ _ | .inputQueued _ _ _ _ => .input
  | .outputReleased _ _ _ _ _ | .publishStereoCodecFrame _ | .publishStereoVideoFrame _
  | .publishRawFrame _ => .output
  | .ackSent _ _ => .acknowledge

def AllOf (part : Part) (es : List Event) : Prop := ∀ e ∈ es, partOf e = part

theorem allOf_nil (part : Part) : AllOf part [] := by simp [AllOf]

theorem allOf_append {part : Part} {as bs : List Event} (first : AllOf part as)
    (second : AllOf part bs) : AllOf part (as ++ bs) := by
  intro e mem
  rcases List.mem_append.mp mem with left | right
  · exact first e left
  · exact second e right

theorem releaseCodec_start (eye : Eye) (codec : Option AMediaCodec) :
    AllOf .start (releaseCodec eye codec) := by
  unfold releaseCodec
  split <;> simp [AllOf, partOf]

theorem releaseWindow_start (eye : Eye) (window : Option Nat) :
    AllOf .start (releaseWindow eye window) := by
  cases window <;> simp [releaseWindow, AllOf, partOf]

theorem stop_start (d : H264AnnexBDecoder) : AllOf .start (stop d).2 := by
  have marker : AllOf .start [Event.stopped] := by simp [AllOf, partOf]
  exact allOf_append (allOf_append (allOf_append (allOf_append (releaseCodec_start _ _)
    (releaseCodec_start _ _)) (releaseWindow_start _ _)) (releaseWindow_start _ _)) marker

theorem create_start (eye : Eye) (window : Nat) (result : CreateResult) :
    AllOf .start (createH264Decoder eye window result).2 := by
  cases result <;> simp [createH264Decoder, AllOf, partOf]

theorem startCodecs_start (d : H264AnnexBDecoder) (surfaces : StereoCodecSurfaces) (turn : Turn) :
    AllOf .start (startCodecs d surfaces turn).2.1 := by
  have acquired : AllOf .start [Event.windowAcquired .left surfaces.leftWindow,
      Event.windowAcquired .right surfaces.rightWindow] := by simp [AllOf, partOf]
  have both := allOf_append (allOf_append acquired
    (create_start .left surfaces.leftWindow turn.left.create))
    (create_start .right surfaces.rightWindow turn.right.create)
  unfold startCodecs
  simp only
  split
  · exact allOf_append both (stop_start _)
  · exact both

theorem ensureStarted_start (d : H264AnnexBDecoder) (header : VideoFrameHeader) (turn : Turn) :
    AllOf .start (ensureStarted d header turn).2.1 := by
  unfold ensureStarted
  split
  · exact allOf_nil _
  · split
    · exact allOf_nil _
    · simp only
      cases turn.surfaces with
      | none => exact stop_start d
      | some surfaces => exact allOf_append (stop_start d) (startCodecs_start _ surfaces turn)

theorem restartIfRewound_start (d : H264AnnexBDecoder) (frameIndex : Nat) :
    AllOf .start (restartIfRewound d frameIndex).2 := by
  unfold restartIfRewound
  split
  · exact stop_start d
  · exact allOf_nil _

theorem queueAccessUnit_input (eye : Eye) (codec : Option AMediaCodec) (payload : Bytes)
    (frameIndex : Nat) (turn : InputTurn) :
    AllOf .input (queueAccessUnit eye codec payload frameIndex turn).2 := by
  unfold queueAccessUnit
  split
  · exact allOf_nil _
  · split
    · exact allOf_nil _
    · exact allOf_nil _
    · split
      · simp [AllOf, partOf]
      · split
        · simp [AllOf, partOf]
        · split <;> simp [AllOf, partOf]

def isReleased : Event → Bool
  | .outputReleased _ _ _ _ _ => true
  | _ => false

theorem drainSurfaceOutput_released (eye : Eye) (codec : Option AMediaCodec) (results : Outputs)
    (format : QuestCpuFrame.OutputFormat) :
    ∀ e ∈ (drainSurfaceOutput eye codec results format).events, isReleased e = true := by
  unfold drainSurfaceOutput
  split
  · simp
  · simp [releaseOutputs, isReleased]

theorem drainOutputFrom_released (eye : Eye) (width height : Nat) (n : Nat)
    (results : List OutputResult) (format : QuestCpuFrame.OutputFormat) :
    ∀ e ∈ (drainOutputFrom eye width height n results format).events, isReleased e = true := by
  fun_induction drainOutputFrom eye width height n results format with
  | case4 n format keys results ih => exact ih
  | case6 n format index info memory results frame more ih =>
    intro e mem
    rcases List.mem_cons.mp mem with rfl | later
    · rfl
    · exact ih e later
  | _ => simp

theorem drainOutput_released (eye : Eye) (codec : Option AMediaCodec) (width height : Nat)
    (results : List OutputResult) (format : QuestCpuFrame.OutputFormat) :
    ∀ e ∈ (drainOutput eye codec width height results format).events, isReleased e = true := by
  unfold drainOutput
  split
  · simp
  · exact drainOutputFrom_released eye width height 4 results format

/-- The drains move no handles and publish nothing. -/
theorem drainSurfaces_released (d : H264AnnexBDecoder) (turn : Turn) :
    setup (drainSurfaces d turn).1 = setup d ∧
      ∀ e ∈ (drainSurfaces d turn).2, isReleased e = true := by
  refine ⟨rfl, fun e mem => ?_⟩
  rcases List.mem_append.mp mem with left | right
  · exact drainSurfaceOutput_released _ _ _ _ e left
  · exact drainSurfaceOutput_released _ _ _ _ e right

theorem drainImages_released (d : H264AnnexBDecoder) (turn : Turn) :
    setup (drainImages d turn).1 = setup d ∧
      ∀ e ∈ (drainImages d turn).2, isReleased e = true := by
  refine ⟨rfl, fun e mem => ?_⟩
  rcases List.mem_append.mp mem with left | right
  · exact drainOutput_released _ _ _ _ _ _ e left
  · exact drainOutput_released _ _ _ _ _ _ e right

theorem released_output {es : List Event} (all : ∀ e ∈ es, isReleased e = true) :
    AllOf .output es := by
  intro e mem
  have kind := all e mem
  cases e <;> first | rfl | exact absurd kind Bool.false_ne_true

theorem publishReady_output (d : H264AnnexBDecoder) (publishTimeNs : Int) :
    setup (publishReady d publishTimeNs).1 = setup d ∧
      AllOf .output (publishReady d publishTimeNs).2 := by
  unfold publishReady
  split
  · exact ⟨rfl, allOf_nil _⟩
  · simp [setup, AllOf, partOf]

theorem publishImages_output (d : H264AnnexBDecoder) (publishTimeNs : Int) :
    setup (publishImages d publishTimeNs).1 = setup d ∧
      AllOf .output (publishImages d publishTimeNs).2 := by
  unfold publishImages
  split
  · exact ⟨rfl, allOf_nil _⟩
  · simp [setup, AllOf, partOf]

theorem output_output (d : H264AnnexBDecoder) (turn : Turn) :
    setup (output d turn).1 = setup d ∧ AllOf .output (output d turn).2 := by
  unfold output
  split
  · obtain ⟨same, released⟩ := drainSurfaces_released d turn
    obtain ⟨kept, published⟩ := publishReady_output (drainSurfaces d turn).1 turn.publishTimeNs
    exact ⟨kept.trans same, allOf_append (released_output released) published⟩
  · obtain ⟨same, released⟩ := drainImages_released d turn
    obtain ⟨kept, published⟩ := publishImages_output (drainImages d turn).1 turn.publishTimeNs
    exact ⟨kept.trans same, allOf_append (released_output released) published⟩

/- What each phase of a call moves. -/

abbrev MovesTo (held : Multiset Resource) (es : List Event) (after : Multiset Resource) : Prop :=
  Moves takes gives held es after

def Silent (es : List Event) : Prop := ∀ e ∈ es, takes e = none ∧ gives e = none

theorem silent_append {as bs : List Event} (first : Silent as) (second : Silent bs) :
    Silent (as ++ bs) := by
  intro e mem
  rcases List.mem_append.mp mem with left | right
  · exact first e left
  · exact second e right

theorem created_moves (eye : Eye) (held : Multiset Resource) :
    MovesTo held [.codecCreated eye] (.codec eye ::ₘ held) := by
  apply moves_take <;> rfl

theorem deleted_moves (eye : Eye) (held : Multiset Resource) :
    MovesTo (.codec eye ::ₘ held) [.codecDeleted eye] held := by
  apply moves_give <;> rfl

theorem acquired_moves (eye : Eye) (w : Nat) (held : Multiset Resource) :
    MovesTo held [.windowAcquired eye w] (.window eye w ::ₘ held) := by
  apply moves_take <;> rfl

theorem released_moves (eye : Eye) (w : Nat) (held : Multiset Resource) :
    MovesTo (.window eye w ::ₘ held) [.windowReleased eye w] held := by
  apply moves_give <;> rfl

theorem releaseCodec_moves (eye : Eye) (codec : Option AMediaCodec) (held : Multiset Resource) :
    MovesTo (codecHeld eye codec + held) (releaseCodec eye codec) held := by
  cases codec with
  | none =>
    simp only [codecHeld, releaseCodec, Option.isSome_none, Bool.false_eq_true, if_false, zero_add]
    exact moves_nil held
  | some codec =>
    simp only [codecHeld, releaseCodec, Option.isSome_some, if_true, Multiset.singleton_add]
    exact deleted_moves eye held

theorem releaseWindow_moves (eye : Eye) (window : Option Nat) (held : Multiset Resource) :
    MovesTo (windowHeld eye window + held) (releaseWindow eye window) held := by
  cases window with
  | none =>
    simp only [windowHeld, releaseWindow, Option.map_none, Option.toList_none, zero_add]
    exact moves_nil held
  | some w =>
    simp only [windowHeld, releaseWindow, Option.map_some, Option.toList_some,
      Multiset.singleton_add]
    exact released_moves eye w held

theorem stop_moves {d : H264AnnexBDecoder} {held : Multiset Resource} (same : holdings d = held) :
    MovesTo held (stop d).2 0 := by
  rw [← same]
  have last : MovesTo (windowHeld .right d.rightWindow)
      (releaseWindow .right d.rightWindow) 0 := by
    simpa using releaseWindow_moves .right d.rightWindow 0
  have marker : MovesTo 0 [Event.stopped] 0 := moves_silent (by simp [takes, gives]) 0
  unfold stop holdings
  apply moves_append _ marker
  apply moves_append _ last
  apply moves_append _ (releaseWindow_moves .left d.leftWindow _)
  apply moves_append _ (releaseCodec_moves .right d.rightCodec _)
  exact releaseCodec_moves .left d.leftCodec _

theorem stop_none (d : H264AnnexBDecoder) : NoneHeld (stop d).1 := ⟨rfl, rfl, rfl, rfl, rfl⟩

theorem none_holdings {d : H264AnnexBDecoder} (idle : NoneHeld d) : holdings d = 0 := by
  obtain ⟨left, right, leftWindow, rightWindow, _⟩ := idle
  simp [holdings, left, right, leftWindow, rightWindow, codecHeld, windowHeld]

theorem noneHeld_of_setup {d after : H264AnnexBDecoder} (nothing : NoneHeld d)
    (same : setup after = setup d) : NoneHeld after := by
  simp only [setup, Setup.mk.injEq] at same
  obtain ⟨left, right, leftWindow, rightWindow, _, output, _⟩ := same
  unfold NoneHeld at nothing ⊢
  rw [left, right, leftWindow, rightWindow, output]
  exact nothing

theorem create_moves (eye : Eye) (window : Nat) (result : CreateResult)
    (held : Multiset Resource) :
    MovesTo held (createH264Decoder eye window result).2
      (codecHeld eye (createH264Decoder eye window result).1 + held) := by
  have back : MovesTo held [Event.codecCreated eye, Event.codecDeleted eye] held :=
    moves_append (created_moves eye held) (deleted_moves eye held)
  cases result with
  | noDecoder => simpa [createH264Decoder, codecHeld] using moves_nil held
  | noFormat => simpa [createH264Decoder, codecHeld] using back
  | notConfigured => simpa [createH264Decoder, codecHeld] using back
  | notStarted => simpa [createH264Decoder, codecHeld] using back
  | started =>
    simpa [createH264Decoder, codecHeld] using created_moves eye held

theorem acquire_moves (surfaces : StereoCodecSurfaces) :
    MovesTo 0 [Event.windowAcquired .left surfaces.leftWindow,
        Event.windowAcquired .right surfaces.rightWindow]
      (windowHeld .left (some surfaces.leftWindow) +
        windowHeld .right (some surfaces.rightWindow)) := by
  have both := moves_append (acquired_moves .left surfaces.leftWindow 0)
    (acquired_moves .right surfaces.rightWindow _)
  rw [← Multiset.singleton_add, add_comm] at both
  exact both

theorem setup_holdings {a b : H264AnnexBDecoder} (same : setup a = setup b) :
    holdings a = holdings b := by
  simp only [setup, Setup.mk.injEq] at same
  obtain ⟨left, right, leftWindow, rightWindow, _⟩ := same
  rw [holdings, holdings, left, right, leftWindow, rightWindow]

def startedOn (surfaces : StereoCodecSurfaces) (width height : UInt32) : Setup where
  leftCodec := some { window := surfaces.leftWindow }
  rightCodec := some { window := surfaces.rightWindow }
  leftWindow := some surfaces.leftWindow
  rightWindow := some surfaces.rightWindow
  surfaceGeneration := surfaces.generation
  surfaceOutput := true
  width := width
  height := height

/-- How the start of a call may leave windows and codecs; the last index says whether it goes
    on to queue. -/
inductive Settles (d : H264AnnexBDecoder) (header : VideoFrameHeader)
    (surfaces : Option StereoCodecSurfaces) : H264AnnexBDecoder → List Event → Bool → Prop
  | kept {after : H264AnnexBDecoder} {es : List Event} {ok : Bool} (same : setup after = setup d)
    (silent : Silent es) (live : ok = true → d.leftCodec ≠ none) :
    Settles d header surfaces after es ok
  | released {after : H264AnnexBDecoder} {es : List Event} (idle : NoneHeld after)
    (moves : MovesTo (holdings d) es 0) : Settles d header surfaces after es false
  | started {after : H264AnnexBDecoder} {es : List Event} (acquired : StereoCodecSurfaces)
    (provided : surfaces = some acquired)
    (running : setup after = startedOn acquired header.width header.height)
    (created : Event.codecCreated .left ∈ es) (moves : MovesTo (holdings d) es (holdings after)) :
    Settles d header surfaces after es true

theorem settles_released {d between after : H264AnnexBDecoder} {header : VideoFrameHeader}
    {surfaces : Option StereoCodecSurfaces} {es fs : List Event} {ok : Bool}
    (idle : NoneHeld between) (moves : MovesTo (holdings d) es 0)
    (next : Settles between header surfaces after fs ok) :
    Settles d header surfaces after (es ++ fs) ok := by
  have empty := none_holdings idle
  cases next with
  | kept same silent live =>
    have waits : ok = false := by
      rw [← Bool.not_eq_true]
      exact fun goes => live goes idle.1
    rw [waits]
    apply Settles.released
    · exact noneHeld_of_setup idle same
    · exact moves_append moves (moves_silent silent 0)
  | released still back =>
    rw [empty] at back
    exact Settles.released still (moves_append moves back)
  | started acquired provided running created taken =>
    rw [empty] at taken
    exact Settles.started acquired provided running (List.mem_append_right _ created)
      (moves_append moves taken)

theorem startCodecs_settles {d : H264AnnexBDecoder} (idle : NoneHeld d) (header : VideoFrameHeader)
    (width : d.width = header.width) (height : d.height = header.height)
    (surfaces : StereoCodecSurfaces) (turn : Turn) :
    Settles d header (some surfaces) (startCodecs d surfaces turn).1
      (startCodecs d surfaces turn).2.1 (startCodecs d surfaces turn).2.2 := by
  have left := create_moves .left surfaces.leftWindow turn.left.create
    (windowHeld .left (some surfaces.leftWindow) + windowHeld .right (some surfaces.rightWindow))
  have right := create_moves .right surfaces.rightWindow turn.right.create
    (codecHeld .left (createH264Decoder .left surfaces.leftWindow turn.left.create).1 +
      (windowHeld .left (some surfaces.leftWindow) +
        windowHeld .right (some surfaces.rightWindow)))
  have both := moves_append (moves_append (acquire_moves surfaces) left) right
  rw [add_left_comm (codecHeld .right _) (codecHeld .left _)] at both
  unfold startCodecs
  simp only
  split
  case isTrue failed =>
    apply Settles.released (stop_none _)
    rw [none_holdings idle]
    apply moves_append both
    exact stop_moves rfl
  case isFalse live =>
    simp only [create_none, not_or, not_not] at live
    refine Settles.started surfaces rfl ?_ ?_ ?_
    · simp [setup, startedOn, live, createH264Decoder, width, height]
    · simp [live, createH264Decoder]
    · rw [none_holdings idle]
      exact both

theorem ensureStarted_settles (d : H264AnnexBDecoder) (header : VideoFrameHeader) (turn : Turn) :
    Settles d header turn.surfaces (ensureStarted d header turn).1
      (ensureStarted d header turn).2.1 (ensureStarted d header turn).2.2 := by
  have nothing : Silent [] := by simp [Silent]
  unfold ensureStarted
  split
  · exact Settles.kept rfl nothing (by simp)
  · split
    case isTrue running => exact Settles.kept rfl nothing (fun _ => running.1)
    case isFalse =>
      simp only
      cases turn.surfaces with
      | none => exact Settles.released (stop_none d) (stop_moves rfl)
      | some surfaces =>
        have resized : NoneHeld
            { (stop d).1 with width := header.width, height := header.height } := stop_none d
        exact settles_released resized (stop_moves rfl)
          (startCodecs_settles resized header rfl rfl surfaces turn)

theorem silent_of_part {part : Part} {es : List Event} (all : AllOf part es)
    (other : part ≠ .start) : Silent es := by
  intro e mem
  have kind := all e mem
  cases e <;> first | exact ⟨rfl, rfl⟩ | exact absurd kind.symm other

theorem queueStereo_silent (d : H264AnnexBDecoder) (frameIndex : Nat) (left right : Bytes)
    (turn : Turn) :
    setup (queueStereo d frameIndex left right turn).1 = setup d ∧
      Silent (queueStereo d frameIndex left right turn).2.1 := by
  unfold queueStereo
  simp only
  constructor
  · split <;> rfl
  · exact silent_of_part (allOf_append (queueAccessUnit_input _ _ _ _ _)
      (queueAccessUnit_input _ _ _ _ _)) (by decide)

theorem settles_silent {d between after : H264AnnexBDecoder} {header : VideoFrameHeader}
    {surfaces : Option StereoCodecSurfaces} {es fs : List Event} {ok : Bool}
    (settles : Settles d header surfaces between es ok) (goes : ok = true)
    (same : setup after = setup between) (silent : Silent fs) :
    Settles d header surfaces after (es ++ fs) true := by
  rw [goes] at settles
  cases settles with
  | kept kept quiet live => exact Settles.kept (same.trans kept) (silent_append quiet silent) live
  | started acquired provided running created moves =>
    apply Settles.started acquired provided (same.trans running) (List.mem_append_left _ created)
    rw [setup_holdings same]
    exact moves_append moves (moves_silent silent _)

theorem start_settles (d : H264AnnexBDecoder) (header : VideoFrameHeader) (turn : Turn) :
    Settles d header turn.surfaces
      (ensureStarted (restartIfRewound d header.frameIndex.toNat).1 header turn).1
      ((restartIfRewound d header.frameIndex.toNat).2 ++
        (ensureStarted (restartIfRewound d header.frameIndex.toNat).1 header turn).2.1)
      (ensureStarted (restartIfRewound d header.frameIndex.toNat).1 header turn).2.2 := by
  have next := ensureStarted_settles (restartIfRewound d header.frameIndex.toNat).1 header turn
  by_cases back : rewound d header.frameIndex.toNat = true
  · have same : restartIfRewound d header.frameIndex.toNat = stop d := if_pos back
    rw [same] at next ⊢
    exact settles_released (stop_none d) (stop_moves rfl) next
  · have same : restartIfRewound d header.frameIndex.toNat = (d, []) := if_neg back
    rw [same] at next ⊢
    exact next

theorem decode_settles (d : H264AnnexBDecoder) (header : VideoFrameHeader) (left right : Bytes)
    (turn : Turn) :
    ∃ ok, Settles d header turn.surfaces (decode d header left right turn).1
      (decode d header left right turn).2.1 ok := by
  have begins := start_settles d header turn
  unfold decode
  simp only
  generalize (restartIfRewound d header.frameIndex.toNat).2 ++
    (ensureStarted (restartIfRewound d header.frameIndex.toNat).1 header turn).2.1 = es
    at begins ⊢
  generalize ensureStarted (restartIfRewound d header.frameIndex.toNat).1 header turn = begun
    at begins ⊢
  obtain ⟨queued, queuedSilent⟩ :=
    queueStereo_silent begun.1 header.frameIndex.toNat left right turn
  obtain ⟨shown_, allOutput⟩ :=
    output_output (queueStereo begun.1 header.frameIndex.toNat left right turn).1 turn
  split
  case isTrue ok =>
    have both := settles_silent begins ok queued queuedSilent
    exact ⟨true, settles_silent both rfl shown_ (silent_of_part allOutput (by decide))⟩
  case isFalse => exact ⟨_, begins⟩

/- A run of calls. -/

def startsCodecs (d : H264AnnexBDecoder) (call : Call) : Bool :=
  (decodeCall d call).2.contains (.codecCreated .left) &&
    (decodeCall d call).1.leftCodec.isSome && (decodeCall d call).1.rightCodec.isSome

def lastStartedSize : H264AnnexBDecoder → Option (UInt32 × UInt32) → List Call →
    Option (UInt32 × UInt32)
  | _, size, [] => size
  | d, size, call :: calls =>
    lastStartedSize (decodeCall d call).1
      (if startsCodecs d call then some (call.header.width, call.header.height) else size) calls

def Outstanding (trace : List Event) (n : Nat) : Prop :=
  (trace.filterMap takes).countP isWindow = (trace.filterMap gives).countP isWindow + n ∧
    (trace.filterMap takes).countP isCodec = (trace.filterMap gives).countP isCodec + n

theorem startedOn_both {d : H264AnnexBDecoder} {surfaces : StereoCodecSurfaces}
    {width height : UInt32} (running : setup d = startedOn surfaces width height) :
    BothHeld d ∧ d.width = width ∧ d.height = height := by
  simp only [setup, startedOn, Setup.mk.injEq] at running
  obtain ⟨left, right, leftWindow, rightWindow, _, output, w, h⟩ := running
  simp [BothHeld, left, right, leftWindow, rightWindow, output, w, h]

theorem both_holdings {d : H264AnnexBDecoder} (both : BothHeld d) :
    (holdings d).countP (fun r => isWindow r = true) = 2 ∧
      (holdings d).countP (fun r => isCodec r = true) = 2 := by
  obtain ⟨left, right, leftWindow, rightWindow, _⟩ := both
  obtain ⟨l, leftCodec⟩ := Option.ne_none_iff_exists'.mp left
  obtain ⟨r, rightCodec⟩ := Option.ne_none_iff_exists'.mp right
  obtain ⟨lw, leftWindow⟩ := Option.ne_none_iff_exists'.mp leftWindow
  obtain ⟨rw_, rightWindow⟩ := Option.ne_none_iff_exists'.mp rightWindow
  simp [holdings, leftCodec, rightCodec, leftWindow, rightWindow, codecHeld, windowHeld, isWindow,
    isCodec, ← Multiset.cons_zero]

theorem settles_moves {d after : H264AnnexBDecoder} {header : VideoFrameHeader}
    {surfaces : Option StereoCodecSurfaces} {es : List Event} {ok : Bool}
    (settles : Settles d header surfaces after es ok) :
    MovesTo (holdings d) es (holdings after) := by
  cases settles with
  | kept same silent _ =>
    rw [setup_holdings same]
    exact moves_silent silent _
  | released idle moves =>
    rw [none_holdings idle]
    exact moves
  | started _ _ _ _ moves => exact moves

/-- Both of everything for the last started frame size, or nothing. -/
def BothOrNone (d : H264AnnexBDecoder) (size : Option (UInt32 × UInt32)) : Prop :=
  (BothHeld d ∧ size = some (d.width, d.height)) ∨ NoneHeld d

theorem call_bothOrNone {d : H264AnnexBDecoder} {size : Option (UInt32 × UInt32)}
    (held : BothOrNone d size) (call : Call) :
    BothOrNone (decodeCall d call).1
      (if startsCodecs d call then some (call.header.width, call.header.height) else size) := by
  obtain ⟨ok, settles⟩ := decode_settles d call.header call.left call.right call.turn
  unfold startsCodecs
  change Settles d call.header call.turn.surfaces (decodeCall d call).1 (decodeCall d call).2 ok
    at settles
  generalize decodeCall d call = after at settles
  cases settles with
  | kept same silent _ =>
    have absent : after.2.contains (Event.codecCreated .left) = false := by
      rw [← Bool.not_eq_true, List.contains_iff_mem]
      intro mem
      simpa [takes] using (silent _ mem).1
    rw [absent, Bool.false_and, Bool.false_and, if_neg Bool.false_ne_true]
    simp only [setup, Setup.mk.injEq] at same
    obtain ⟨left, right, leftWindow, rightWindow, _, output, width, height⟩ := same
    unfold BothOrNone BothHeld NoneHeld at held ⊢
    rw [left, right, leftWindow, rightWindow, output, width, height]
    exact held
  | released idle _ => exact Or.inr idle
  | started _ _ running created _ =>
    obtain ⟨both, width, height⟩ := startedOn_both running
    have begins : (after.2.contains (Event.codecCreated .left) && after.1.leftCodec.isSome &&
        after.1.rightCodec.isSome) = true := by
      simp [created, Option.isSome_iff_ne_none, both.1, both.2.1]
    rw [if_pos begins, ← width, ← height]
    exact Or.inl ⟨both, rfl⟩

theorem run_bothOrNone (calls : List Call) {d : H264AnnexBDecoder}
    {size : Option (UInt32 × UInt32)} (held : BothOrNone d size) :
    BothOrNone (run decodeCall d calls).1 (lastStartedSize d size calls) := by
  induction calls generalizing d size with
  | nil => exact held
  | cons call calls ih => exact ih (call_bothOrNone held call)

theorem run_moves (calls : List Call) (d : H264AnnexBDecoder) :
    MovesTo (holdings d) (run decodeCall d calls).2 (holdings (run decodeCall d calls).1) := by
  induction calls generalizing d with
  | nil => exact moves_nil _
  | cons call calls ih =>
    obtain ⟨_, settles⟩ := decode_settles d call.header call.left call.right call.turn
    exact moves_append (settles_moves settles) (ih (decodeCall d call).1)

theorem outstanding_of_balanced {trace : List Event} {held : Multiset Resource} {n : Nat}
    (balanced : Balanced takes gives trace held)
    (windows : held.countP (fun r => isWindow r = true) = n)
    (codecs : held.countP (fun r => isCodec r = true) = n) : Outstanding trace n := by
  have windowCount := balanced_count balanced fun r => isWindow r = true
  have codecCount := balanced_count balanced fun r => isCodec r = true
  simp only [Bool.decide_eq_true, windows, codecs] at windowCount codecCount
  exact ⟨windowCount, codecCount⟩

/-- Between calls the decoder holds both of everything or nothing, what is taken and not given
    back is what it holds, and nothing is given back twice, the final `stop` included. -/
theorem resources_both_or_none (calls : List Call) :
    ((BothHeld (run decodeCall {} calls).1 ∧
          lastStartedSize {} none calls = some ((run decodeCall {} calls).1.width,
            (run decodeCall {} calls).1.height) ∧
          Outstanding (decodeTrace calls) 2) ∨
        (NoneHeld (run decodeCall {} calls).1 ∧ Outstanding (decodeTrace calls) 0)) ∧
      NoneHeld (stop (run decodeCall {} calls).1).1 ∧
      Outstanding (decodeTrace calls ++ (stop (run decodeCall {} calls).1).2) 0 ∧
      AtEvents (ReturnsHeld takes gives) []
        (decodeTrace calls ++ (stop (run decodeCall {} calls).1).2) := by
  have start : Balanced takes gives [] (holdings {}) := balanced_nil
  have whole := run_moves calls {}
  have final := moves_append whole (stop_moves rfl)
  obtain ⟨inOrder, back⟩ := final [] start
  have between := (whole [] start).2
  rw [List.nil_append] at back between
  refine ⟨?_, stop_none _, outstanding_of_balanced back rfl rfl, inOrder⟩
  have nothing : BothOrNone {} none := Or.inr ⟨rfl, rfl, rfl, rfl, rfl⟩
  rcases run_bothOrNone calls nothing with ⟨both, size⟩ | idle
  · obtain ⟨windows, codecs⟩ := both_holdings both
    exact Or.inl ⟨both, size, outstanding_of_balanced between windows codecs⟩
  · rw [none_holdings idle] at between
    exact Or.inr ⟨idle, outstanding_of_balanced between rfl rfl⟩

end QuestResources
