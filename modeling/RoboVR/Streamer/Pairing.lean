import RoboVR.Streamer.VideoStreamer

/- The pairs that the streamer hands over. Each eye's units leave its queue in their order, a
   unit that is taken waits in the pending slot until its pair goes out, and both slots are
   emptied together. -/
namespace QuestStreamerPairing
open QuestTeleop (Bytes)
open AnnexBReaderLoop (H264Encoder)
open QuestVideoPayload (makeH264StereoPayload)
open QuestVideoStreamer TracedRun

def isCreated (eye : Eye) : Event → Bool
  | .created e => decide (e = eye)
  | _ => false

def queuedOf (eye : Eye) : Event → Option (Nat × Bytes)
  | .queued e unit => if e = eye then some unit else none
  | _ => none

def isHanded : Event → Bool
  | .handed _ => true
  | _ => false

/-- The units that came into the queue of the eye's present encoder. -/
def units (eye : Eye) (trace : List Event) : List (Nat × Bytes) :=
  (since (isCreated eye) trace).filterMap (queuedOf eye)

def handedCount (trace : List Event) : Nat := trace.countP isHanded

structure Lane (n : Nat) (units : List (Nat × Bytes)) (encoder : H264Encoder)
    (pending : Option (Nat × Bytes)) : Prop where
  numbered : units.map Prod.fst = List.range units.length
  next : encoder.frameIndex = units.length
  handed : n ≤ units.length
  waiting : units.drop n = pending.toList ++ encoder.queue

/-- A payload is made of the next unit of either eye, under their common index. -/
def HandsPair (width height : Int) (past : List Event) (e : Event) : Prop :=
  ∀ payload, e = .handed payload → ∃ left right monotonicNs,
    (units .left past)[handedCount past]? = some (handedCount past, left) ∧
      (units .right past)[handedCount past]? = some (handedCount past, right) ∧
      makeH264StereoPayload (handedCount past) width height left right monotonicNs = some payload

inductive Paired (s : Quest3VideoStreamer) (past : List Event) : Prop
  | cold (noEncoder : s.rightEncoder = none) (noLeft : s.pendingLeft = none)
    (noRight : s.pendingRight = none) (nothing : handedCount past = 0)
  | running (left right : H264Encoder) (leftEncoder : s.leftEncoder = some left)
    (rightEncoder : s.rightEncoder = some right)
    (leftLane : Lane (handedCount past) (units .left past) left s.pendingLeft)
    (rightLane : Lane (handedCount past) (units .right past) right s.pendingRight)

/- The queue of one encoder. -/

theorem emitCurrent_queue (encoder : H264Encoder) :
    ∃ new, encoder.emitCurrent.queue = encoder.queue ++ new ∧
      new.map Prod.fst = List.range' encoder.frameIndex new.length ∧
      encoder.emitCurrent.frameIndex = encoder.frameIndex + new.length := by
  unfold H264Encoder.emitCurrent
  split
  · exact ⟨[(encoder.frameIndex, encoder.currentNals.flatten)], rfl, rfl, rfl⟩
  · exact ⟨[], by simp, rfl, rfl⟩

theorem readerWork_queue (encoder : H264Encoder) (work : ReaderWork) :
    ∃ new, (readerWork encoder work).queue = encoder.queue ++ new ∧
      new.map Prod.fst = List.range' encoder.frameIndex new.length ∧
      (readerWork encoder work).frameIndex = encoder.frameIndex + new.length := by
  cases work with
  | finish => exact emitCurrent_queue encoder
  | nal bytes =>
    have unchanged : ∃ new : List (Nat × Bytes), encoder.queue = encoder.queue ++ new ∧
        new.map Prod.fst = List.range' encoder.frameIndex new.length ∧
        encoder.frameIndex = encoder.frameIndex + new.length := ⟨[], by simp, rfl, rfl⟩
    simp only [readerWork, H264Encoder.processNal]
    by_cases code : AnnexBSliceHeader.codeOnly bytes = true
    · rw [if_pos code]
      exact unchanged
    · rw [if_neg code]
      split
      · exact emitCurrent_queue encoder
      · exact unchanged

theorem readerWorks_queue (encoder : H264Encoder) (works : List ReaderWork) :
    ∃ new, (readerWorks encoder works).queue = encoder.queue ++ new ∧
      new.map Prod.fst = List.range' encoder.frameIndex new.length ∧
      (readerWorks encoder works).frameIndex = encoder.frameIndex + new.length := by
  induction works generalizing encoder with
  | nil => exact ⟨[], by simp [readerWorks], rfl, rfl⟩
  | cons work works ih =>
    obtain ⟨first, queue, indices, next⟩ := readerWork_queue encoder work
    obtain ⟨later, queue', indices', next'⟩ := ih (readerWork encoder work)
    refine ⟨first ++ later, ?_, ?_, ?_⟩
    · rw [← List.append_assoc, ← queue]
      exact queue'
    · rw [List.map_append, indices, indices', next, List.length_append, List.range'_append_1]
    · rw [List.length_append, ← Nat.add_assoc, ← next]
      exact next'

theorem lane_works {n : Nat} {us : List (Nat × Bytes)} {encoder : H264Encoder}
    {pending : Option (Nat × Bytes)} (lane : Lane n us encoder pending)
    (works : List ReaderWork) :
    ∃ new, (readerWorks encoder works).queue.drop encoder.queue.length = new ∧
      Lane n (us ++ new) (readerWorks encoder works) pending := by
  obtain ⟨new, queue, indices, next⟩ := readerWorks_queue encoder works
  refine ⟨new, by rw [queue, List.drop_left], ?_⟩
  constructor
  · have ranges : List.range' 0 us.length ++ List.range' (0 + us.length) new.length =
        List.range' 0 (us.length + new.length) := List.range'_append_1
    rw [Nat.zero_add] at ranges
    rw [List.map_append, lane.numbered, indices, lane.next, List.length_append,
      List.range_eq_range', List.range_eq_range', ranges]
  · rw [next, lane.next, List.length_append]
  · rw [List.length_append]
    exact Nat.le_add_right_of_le lane.handed
  · rw [List.drop_append_of_le_length lane.handed, lane.waiting, queue, List.append_assoc]

theorem lane_take {n : Nat} {us : List (Nat × Bytes)} {encoder : H264Encoder}
    (lane : Lane n us encoder none) : Lane n us (take encoder).2 (take encoder).1 := by
  have waiting := lane.waiting
  unfold take
  split
  case h_1 empty => exact lane
  case h_2 unit queue full =>
    rw [full] at waiting
    exact { lane with waiting := waiting }

theorem collect_lane {n : Nat} {us : List (Nat × Bytes)} {encoder : H264Encoder}
    {pending : Option (Nat × Bytes)} (lane : Lane n us encoder pending) (eye : Eye)
    (works : List ReaderWork) :
    ∃ new, (collect eye encoder pending works).2.2 = new.map (Event.queued eye) ∧
      Lane n (us ++ new) (collect eye encoder pending works).1
        (collect eye encoder pending works).2.1 := by
  obtain ⟨new, arrived, worked⟩ := lane_works lane works
  refine ⟨new, ?_, ?_⟩
  · unfold collect
    cases pending <;> simp [arrived]
  · unfold collect
    cases pending with
    | some unit => exact worked
    | none => exact lane_take worked

theorem lane_pending {n : Nat} {us : List (Nat × Bytes)} {encoder : H264Encoder}
    {unit : Nat × Bytes} (lane : Lane n us encoder (some unit)) :
    us[n]? = some unit ∧ unit.1 = n ∧ Lane (n + 1) us encoder none := by
  have waiting := lane.waiting
  rw [Option.toList_some, List.singleton_append] at waiting
  have here : us[n]? = some unit := by
    rw [← List.head?_drop, waiting]
    rfl
  obtain ⟨inside, _⟩ := List.getElem?_eq_some_iff.mp here
  have index : (us.map Prod.fst)[n]? = some unit.1 := by rw [List.getElem?_map, here]; rfl
  rw [lane.numbered, List.getElem?_range inside, Option.some.injEq] at index
  refine ⟨here, index.symm, { lane with handed := inside, waiting := ?_ }⟩
  rw [← List.tail_drop, waiting]
  rfl

/- The parts of a call. -/

theorem handedCount_append (past es : List Event) :
    handedCount (past ++ es) = handedCount past + handedCount es := List.countP_append

theorem handedCount_quiet {es : List Event} (quiet : ∀ e ∈ es, isHanded e = false)
    (past : List Event) : handedCount (past ++ es) = handedCount past := by
  have none_ : handedCount es = 0 := by
    rw [handedCount, List.countP_eq_zero]
    intro e mem
    rw [quiet e mem]
    exact Bool.false_ne_true
  rw [handedCount_append, none_, Nat.add_zero]

theorem units_append {eye : Eye} {es : List Event} (kept : ∀ e ∈ es, isCreated eye e = false)
    (past : List Event) : units eye (past ++ es) = units eye past ++ es.filterMap (queuedOf eye) := by
  rw [units, since_append_plain (isCreated eye) past kept, List.filterMap_append]
  rfl

theorem units_created {eye : Eye} {e : Event} {es : List Event} (created : isCreated eye e = true)
    (kept : ∀ e ∈ es, isCreated eye e = false) (past : List Event) :
    units eye (past ++ e :: es) = es.filterMap (queuedOf eye) := by
  have begins : since (isCreated eye) es = es := by
    have whole := since_append_plain (isCreated eye) [] kept
    rwa [List.nil_append] at whole
  rw [units, since_append_mark (isCreated eye) past created, begins]

theorem quiet_hands {width height : Int} {es : List Event} (quiet : ∀ e ∈ es, isHanded e = false)
    (past : List Event) : AtEvents (HandsPair width height) past es := by
  apply atEvents_of_all
  rintro e mem _ payload rfl
  exact absurd (quiet _ mem) (by simp [isHanded])

theorem lane_init : Lane 0 [] H264Encoder.init none :=
  { numbered := rfl, next := rfl, handed := Nat.le_refl 0, waiting := rfl }

theorem ensureEncoders_paired {s : Quest3VideoStreamer} {past : List Event}
    (paired : Paired s past) (call : Call) :
    Paired (ensureEncoders s call).1 (past ++ (ensureEncoders s call).2.1) ∧
      (∀ e ∈ (ensureEncoders s call).2.1, isHanded e = false) ∧
      ((ensureEncoders s call).2.2 = .ok () → (ensureEncoders s call).1.rightEncoder ≠ none) := by
  unfold ensureEncoders
  split
  case isTrue both => exact ⟨by simpa using paired, by simp, fun _ => both.2⟩
  case isFalse missing =>
    cases paired with
    | running left right leftEncoder rightEncoder _ _ =>
      exact absurd ⟨by simp [leftEncoder], by simp [rightEncoder]⟩ missing
    | cold noEncoder noLeft noRight nothing =>
      cases call.createLeft with
      | some message =>
        refine ⟨?_, by simp, by simp⟩
        simpa using Paired.cold noEncoder noLeft noRight nothing
      | none =>
        cases call.createRight with
        | some message =>
          refine ⟨Paired.cold noEncoder noLeft noRight ?_, by simp [isHanded], by simp⟩
          rw [handedCount_quiet (by simp [isHanded]), nothing]
        | none =>
          refine ⟨?_, by simp [isHanded], by simp⟩
          have leftUnits : units .left (past ++ [Event.created .left, .created .right]) = [] :=
            units_created rfl (by simp [isCreated]) past
          have rightUnits : units .right (past ++ [Event.created .left, .created .right]) = [] := by
            have created : isCreated .right (.created .right) = true := rfl
            have nothing_ : ∀ e ∈ ([] : List Event), isCreated .right e = false := by simp
            rw [List.append_cons]
            exact units_created created nothing_ (past ++ [Event.created .left])
          have count : handedCount (past ++ [Event.created .left, .created .right]) = 0 := by
            rw [handedCount_quiet (by simp [isHanded]), nothing]
          apply Paired.running H264Encoder.init H264Encoder.init rfl rfl
          · simp only [count, leftUnits, noLeft]
            exact lane_init
          · simp only [count, rightUnits, noRight]
            exact lane_init

theorem encodeBoth_silent (call : Call) (left right : Bytes) :
    ∀ e ∈ (encodeBoth call left right).1, isHanded e = false ∧
      ∀ eye, isCreated eye e = false ∧ queuedOf eye e = none := by
  unfold encodeBoth
  cases call.encodeLeft with
  | some message => simp
  | none => cases call.encodeRight <;> simp [isHanded, isCreated, queuedOf]

theorem handOver_packed (s : Quest3VideoStreamer) (call : Call) (payload : Bytes) :
    (handOver s call (some payload)).2.1 = [.handed payload] ∧
      (handOver s call (some payload)).1.leftEncoder = s.leftEncoder ∧
      (handOver s call (some payload)).1.rightEncoder = s.rightEncoder ∧
      (handOver s call (some payload)).1.pendingLeft = none ∧
      (handOver s call (some payload)).1.pendingRight = none := by
  unfold handOver
  cases call.sendVideoFrame with
  | error message => simp
  | ok value => cases value <;> simp

theorem packPair_hands {s : Quest3VideoStreamer} {past : List Event}
    {leftUnit rightUnit : Nat × Bytes} {left right : H264Encoder} {monotonicNs : Int}
    {payload : Bytes}
    (leftLane : Lane (handedCount past) (units .left past) left (some leftUnit))
    (rightLane : Lane (handedCount past) (units .right past) right (some rightUnit))
    (packs : packPair s.width s.height monotonicNs leftUnit rightUnit = some payload) :
    HandsPair s.width s.height past (.handed payload) := by
  obtain ⟨leftHere, leftIndex, _⟩ := lane_pending leftLane
  obtain ⟨rightHere, rightIndex, _⟩ := lane_pending rightLane
  have leftPair : leftUnit = (handedCount past, leftUnit.2) := Prod.ext leftIndex rfl
  have rightPair : rightUnit = (handedCount past, rightUnit.2) := Prod.ext rightIndex rfl
  rw [leftPair] at leftHere
  rw [rightPair] at rightHere
  rw [packPair, leftIndex, rightIndex, Nat.min_self] at packs
  intro other same
  rw [← Event.handed.inj same]
  exact ⟨leftUnit.2, rightUnit.2, monotonicNs, leftHere, rightHere, packs⟩

theorem handOver_paired {s : Quest3VideoStreamer} {past : List Event}
    {leftUnit rightUnit : Nat × Bytes} {left right : H264Encoder} {call : Call}
    {packed : Option Bytes}
    (leftEncoder : s.leftEncoder = some left) (rightEncoder : s.rightEncoder = some right)
    (leftPending : s.pendingLeft = some leftUnit) (rightPending : s.pendingRight = some rightUnit)
    (leftLane : Lane (handedCount past) (units .left past) left (some leftUnit))
    (rightLane : Lane (handedCount past) (units .right past) right (some rightUnit))
    (packs : packPair s.width s.height call.monotonicNs leftUnit rightUnit = packed) :
    AtEvents (HandsPair s.width s.height) past (handOver s call packed).2.1 ∧
      Paired (handOver s call packed).1 (past ++ (handOver s call packed).2.1) := by
  cases packed with
  | none =>
    refine ⟨trivial, ?_⟩
    rw [handOver, List.append_nil]
    apply Paired.running left right leftEncoder rightEncoder
    · rw [leftPending]
      exact leftLane
    · rw [rightPending]
      exact rightLane
  | some payload =>
    have count : handedCount (past ++ [Event.handed payload]) = handedCount past + 1 :=
      handedCount_append past _
    have kept (eye : Eye) : units eye (past ++ [Event.handed payload]) = units eye past := by
      rw [units_append (by simp [isCreated])]
      simp [queuedOf]
    obtain ⟨events, sameLeft, sameRight, noLeft, noRight⟩ := handOver_packed s call payload
    rw [events]
    constructor
    · exact ⟨packPair_hands leftLane rightLane packs, trivial⟩
    · apply Paired.running left right (sameLeft.trans leftEncoder) (sameRight.trans rightEncoder)
      · rw [noLeft, count, kept]
        exact (lane_pending leftLane).2.2
      · rw [noRight, count, kept]
        exact (lane_pending rightLane).2.2

theorem queued_filterMap (eye other : Eye) (new : List (Nat × Bytes)) :
    (new.map (Event.queued other)).filterMap (queuedOf eye) = if other = eye then new else [] := by
  rw [List.filterMap_map]
  split
  case isTrue same =>
    subst same
    simp [Function.comp_def, queuedOf]
  case isFalse different => simp [Function.comp_def, queuedOf, different]

theorem queued_quiet (eye : Eye) (new : List (Nat × Bytes)) :
    ∀ e ∈ new.map (Event.queued eye), isHanded e = false ∧ ∀ other, isCreated other e = false := by
  intro e mem
  obtain ⟨unit, _, rfl⟩ := List.mem_map.mp mem
  exact ⟨rfl, fun _ => rfl⟩

theorem gather_lanes {s : Quest3VideoStreamer} {past : List Event} {left right : H264Encoder}
    (leftLane : Lane (handedCount past) (units .left past) left s.pendingLeft)
    (rightLane : Lane (handedCount past) (units .right past) right s.pendingRight)
    (call : Call) :
    Paired (gather s call left right).1 (past ++ (gather s call left right).2) ∧
      (gather s call left right).1.rightEncoder ≠ none ∧
      ∀ e ∈ (gather s call left right).2, isHanded e = false := by
  obtain ⟨newLeft, leftArrived, leftTaken⟩ := collect_lane leftLane .left call.leftWork
  obtain ⟨newRight, rightArrived, rightTaken⟩ := collect_lane rightLane .right call.rightWork
  unfold gather
  simp only
  rw [leftArrived, rightArrived]
  generalize arrived_ : newLeft.map (Event.queued .left) ++ newRight.map (Event.queued .right) =
    arrived
  have quiet : ∀ e ∈ arrived, isHanded e = false ∧ ∀ other, isCreated other e = false := by
    rw [← arrived_]
    intro e mem
    rcases List.mem_append.mp mem with fromLeft | fromRight
    · exact queued_quiet .left newLeft e fromLeft
    · exact queued_quiet .right newRight e fromRight
  have count : handedCount (past ++ arrived) = handedCount past :=
    handedCount_quiet (fun e mem => (quiet e mem).1) past
  have leftUnits : units .left (past ++ arrived) = units .left past ++ newLeft := by
    rw [units_append (fun e mem => (quiet e mem).2 .left), ← arrived_, List.filterMap_append,
      queued_filterMap, queued_filterMap]
    simp
  have rightUnits : units .right (past ++ arrived) = units .right past ++ newRight := by
    rw [units_append (fun e mem => (quiet e mem).2 .right), ← arrived_, List.filterMap_append,
      queued_filterMap, queued_filterMap]
    simp
  rw [← count, ← leftUnits] at leftTaken
  rw [← count, ← rightUnits] at rightTaken
  exact ⟨Paired.running _ _ rfl rfl leftTaken rightTaken, by simp, fun e mem => (quiet e mem).1⟩

theorem paired_fields {s after : Quest3VideoStreamer} {past : List Event} (paired : Paired s past)
    (leftEncoder : after.leftEncoder = s.leftEncoder)
    (rightEncoder : after.rightEncoder = s.rightEncoder)
    (leftSlot : after.pendingLeft = s.pendingLeft)
    (rightSlot : after.pendingRight = s.pendingRight) : Paired after past := by
  cases paired with
  | cold noEncoder noLeft noRight nothing =>
    exact Paired.cold (rightEncoder.trans noEncoder) (leftSlot.trans noLeft)
      (rightSlot.trans noRight) nothing
  | running left right isLeft isRight leftLane rightLane =>
    rw [← leftSlot] at leftLane
    rw [← rightSlot] at rightLane
    exact Paired.running left right (leftEncoder.trans isLeft) (rightEncoder.trans isRight)
      leftLane rightLane

theorem pairUp_paired {s : Quest3VideoStreamer} {past : List Event} (paired : Paired s past)
    (encoders : s.rightEncoder ≠ none) (call : Call) :
    AtEvents (HandsPair s.width s.height) past (pairUp s call).2.1 ∧
      Paired (pairUp s call).1 (past ++ (pairUp s call).2.1) := by
  have waits (after : Quest3VideoStreamer) (leftEncoder : after.leftEncoder = s.leftEncoder)
      (rightEncoder : after.rightEncoder = s.rightEncoder)
      (leftSlot : after.pendingLeft = s.pendingLeft)
      (rightSlot : after.pendingRight = s.pendingRight) : Paired after (past ++ []) := by
    rw [List.append_nil]
    exact paired_fields paired leftEncoder rightEncoder leftSlot rightSlot
  unfold pairUp
  generalize packs : packPair s.width s.height call.monotonicNs = pack
  cases leftSlot : s.pendingLeft with
  | none => exact ⟨trivial, waits _ rfl rfl leftSlot.symm rfl⟩
  | some leftUnit =>
    cases rightSlot : s.pendingRight with
    | none => exact ⟨trivial, waits _ rfl rfl leftSlot.symm rightSlot.symm⟩
    | some rightUnit =>
      cases paired with
      | cold noEncoder _ _ _ => exact absurd noEncoder encoders
      | running left right leftEncoder rightEncoder leftLane rightLane =>
        rw [leftSlot] at leftLane
        rw [rightSlot] at rightLane
        have packed := congrFun (congrFun packs leftUnit) rightUnit
        exact handOver_paired leftEncoder rightEncoder leftSlot rightSlot leftLane rightLane packed

/- The fields a call leaves alone, and the counters. -/

def total (s : Quest3VideoStreamer) : Nat := s.framesSent + s.framesDropped + s.encodePending

structure Counts (s after : Quest3VideoStreamer) (n : Nat) : Prop where
  width : after.width = s.width
  height : after.height = s.height
  submitted : after.framesSubmitted = s.framesSubmitted
  outcomes : total after = total s + n

theorem counts_trans {a b c : Quest3VideoStreamer} {n : Nat} (first : Counts a b 0)
    (second : Counts b c n) : Counts a c n where
  width := second.width.trans first.width
  height := second.height.trans first.height
  submitted := second.submitted.trans first.submitted
  outcomes := by rw [second.outcomes, first.outcomes, Nat.add_zero]

def counted : Except String Bool → Nat
  | .ok _ => 1
  | .error _ => 0

theorem ensureEncoders_counts (s : Quest3VideoStreamer) (call : Call) :
    Counts s (ensureEncoders s call).1 0 := by
  unfold ensureEncoders
  split
  · exact ⟨rfl, rfl, rfl, rfl⟩
  · cases call.createLeft with
    | some message => exact ⟨rfl, rfl, rfl, rfl⟩
    | none => cases call.createRight <;> exact ⟨rfl, rfl, rfl, rfl⟩

theorem handOver_counts (s : Quest3VideoStreamer) (call : Call) (packed : Option Bytes) :
    Counts s (handOver s call packed).1 (counted (handOver s call packed).2.2) := by
  cases packed with
  | none => exact ⟨rfl, rfl, rfl, rfl⟩
  | some payload =>
    unfold handOver
    cases call.sendVideoFrame with
    | error message => exact ⟨rfl, rfl, rfl, rfl⟩
    | ok value =>
      cases value with
      | false => exact ⟨rfl, rfl, rfl, by simp only [total, counted]; omega⟩
      | true => exact ⟨rfl, rfl, rfl, by simp only [total, counted]; omega⟩

theorem pairUp_counts (s : Quest3VideoStreamer) (call : Call) :
    Counts s (pairUp s call).1 (counted (pairUp s call).2.2) := by
  unfold pairUp
  generalize packPair s.width s.height call.monotonicNs = pack
  split
  · exact handOver_counts s call _
  · exact ⟨rfl, rfl, rfl, rfl⟩

/-- A step of a call from `s` after `past`: pairs are handed over as they should be, the lanes
    go on, and the call is counted once it has a value. -/
structure Goes (s : Quest3VideoStreamer) (past : List Event) (outcome : Outcome Bool) : Prop where
  hands : AtEvents (HandsPair s.width s.height) past outcome.2.1
  paired : Paired outcome.1 (past ++ outcome.2.1)
  counts : Counts s outcome.1 (counted outcome.2.2)

theorem goes_raised {s : Quest3VideoStreamer} {past : List Event} (paired : Paired s past)
    (message : String) : Goes s past (s, [], .error message) where
  hands := trivial
  paired := by simpa using paired
  counts := ⟨rfl, rfl, rfl, rfl⟩

theorem goes_after {s between : Quest3VideoStreamer} {past es : List Event}
    {outcome : Outcome Bool} (quiet : ∀ e ∈ es, isHanded e = false) (counts : Counts s between 0)
    (goes : Goes between (past ++ es) outcome) :
    Goes s past (outcome.1, es ++ outcome.2.1, outcome.2.2) where
  hands := by
    rw [atEvents_append, ← counts.width, ← counts.height]
    exact ⟨quiet_hands quiet past, goes.hands⟩
  paired := by
    rw [← List.append_assoc]
    exact goes.paired
  counts := counts_trans counts goes.counts

theorem pairUp_goes {s : Quest3VideoStreamer} {past : List Event} (paired : Paired s past)
    (encoders : s.rightEncoder ≠ none) (call : Call) : Goes s past (pairUp s call) := by
  obtain ⟨hands, after⟩ := pairUp_paired paired encoders call
  exact { hands := hands, paired := after, counts := pairUp_counts s call }

theorem encodeAndPair_goes {s : Quest3VideoStreamer} {past : List Event} (paired : Paired s past)
    (encoders : s.rightEncoder ≠ none) (call : Call) (images : Bytes × Bytes) :
    Goes s past (encodeAndPair s call images) := by
  cases paired with
  | cold noEncoder _ _ _ => exact absurd noEncoder encoders
  | running left right leftEncoder rightEncoder leftLane rightLane =>
    have silent := encodeBoth_silent call images.1 images.2
    unfold encodeAndPair
    rw [leftEncoder, rightEncoder]
    simp only
    generalize encodeBoth call images.1 images.2 = encodedBoth at silent ⊢
    obtain ⟨encoded, result⟩ := encodedBoth
    have quiet : ∀ e ∈ encoded, isHanded e = false := fun e mem => (silent e mem).1
    have count := handedCount_quiet quiet past
    have kept (eye : Eye) : units eye (past ++ encoded) = units eye past := by
      rw [units_append (fun e mem => ((silent e mem).2 eye).1),
        List.filterMap_eq_nil_iff.mpr (fun e mem => ((silent e mem).2 eye).2), List.append_nil]
    rw [← count, ← kept .left] at leftLane
    rw [← count, ← kept .right] at rightLane
    cases result with
    | error message =>
      have still := Paired.running left right leftEncoder rightEncoder leftLane rightLane
      simpa using goes_after quiet ⟨rfl, rfl, rfl, rfl⟩ (goes_raised still message)
    | ok _ =>
      obtain ⟨gathered, live, noHanded⟩ := gather_lanes leftLane rightLane call
      have counts : Counts s (gather s call left right).1 0 := ⟨rfl, rfl, rfl, rfl⟩
      have finish := goes_after noHanded counts (pairUp_goes gathered live call)
      exact goes_after quiet ⟨rfl, rfl, rfl, rfl⟩ finish

theorem attempt_goes {s : Quest3VideoStreamer} {past : List Event} (paired : Paired s past)
    (call : Call) : Goes s past (attempt s call) := by
  obtain ⟨ensured, noHanded, both⟩ := ensureEncoders_paired paired call
  have counts := ensureEncoders_counts s call
  have raised (message : String) := goes_after noHanded counts (goes_raised ensured message)
  unfold attempt
  simp only
  cases result : (ensureEncoders s call).2.2 with
  | error message => simpa using raised message
  | ok _ =>
    cases prepared (ensureEncoders s call).1 call with
    | error message => simpa using raised message
    | ok images =>
      exact goes_after noHanded counts (encodeAndPair_goes ensured (both result) call images)

theorem send_goes {s : Quest3VideoStreamer} {past : List Event} (paired : Paired s past)
    (call : Call) :
    AtEvents (HandsPair s.width s.height) past (send s call).2.1 ∧
      Paired (send s call).1 (past ++ (send s call).2.1) ∧
      (send s call).1.width = s.width ∧ (send s call).1.height = s.height ∧
      (send s call).1.framesSubmitted = s.framesSubmitted + 1 ∧
      total (send s call).1 = total s + 1 := by
  have submitted : Paired { s with framesSubmitted := s.framesSubmitted + 1 } past :=
    paired_fields paired rfl rfl rfl rfl
  unfold send
  simp only
  by_cases connected : call.isConnected = true
  · rw [if_neg (by simp [connected])]
    have goes := attempt_goes submitted call
    obtain ⟨hands, after, counts⟩ := goes
    cases result : (attempt { s with framesSubmitted := s.framesSubmitted + 1 } call).2.2 with
    | ok value =>
      rw [result] at counts
      exact ⟨hands, after, counts.width, counts.height, counts.submitted, counts.outcomes⟩
    | error message =>
      rw [result] at counts
      have outcomes : total (attempt { s with framesSubmitted := s.framesSubmitted + 1 } call).1 =
        total s := counts.outcomes
      refine ⟨hands, paired_fields after rfl rfl rfl rfl, counts.width, counts.height,
        counts.submitted, ?_⟩
      rw [← outcomes]
      simp only [total]
      omega
  · rw [if_pos connected]
    refine ⟨trivial, ?_, rfl, rfl, rfl, ?_⟩
    · rw [List.append_nil]
      exact paired_fields paired rfl rfl rfl rfl
    · simp only [total]
      omega

theorem start_paired (width height : Int) (swapEyes : Bool) :
    Paired { width := width, height := height, swapEyes := swapEyes } [] :=
  Paired.cold rfl rfl rfl rfl

theorem run_goes {s : Quest3VideoStreamer} {past : List Event} (paired : Paired s past)
    (counts : s.framesSubmitted = total s) (calls : List Call) :
    AtEvents (HandsPair s.width s.height) past (run sendCall s calls).2 ∧
      (run sendCall s calls).1.framesSubmitted = total (run sendCall s calls).1 := by
  induction calls generalizing s past with
  | nil => exact ⟨trivial, counts⟩
  | cons call calls ih =>
    obtain ⟨hands, after, width, height, submitted, outcomes⟩ := send_goes paired call
    obtain ⟨later, final⟩ := ih after (by rw [submitted, outcomes, counts])
    rw [width, height] at later
    refine ⟨?_, final⟩
    rw [run, atEvents_append]
    exact ⟨hands, later⟩

/-- Every payload is made of the two units with the next index, under that index, and the
    outcomes of the calls add up. -/
theorem pairs_in_step (width height : Int) (swapEyes : Bool) (calls : List Call) :
    let ran := run sendCall { width := width, height := height, swapEyes := swapEyes } calls
    AtEvents (HandsPair width height) [] ran.2 ∧
      ran.1.framesSubmitted = ran.1.framesSent + ran.1.framesDropped + ran.1.encodePending :=
  run_goes (start_paired width height swapEyes) rfl calls

end QuestStreamerPairing
