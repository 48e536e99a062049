import RoboVR.Streamer.Pairing

/- The pairs that wait in the streamer. A call that sends hands over the oldest complete pair
   and no other, so what the encoders have finished beyond that pair stays behind. -/
namespace QuestStreamerBacklog
open QuestTeleop (Bytes)
open AnnexBReaderLoop (H264Encoder)
open QuestVideoPayload (makeH264StereoPayload)
open QuestVideoStreamer QuestStreamerPairing TracedRun

def completePairs (trace : List Event) : Nat :=
  min (units .left trace).length (units .right trace).length

/-- Every pair that was complete when a call took its units has been handed over when it
    returns True. -/
def CaughtUp (s : Quest3VideoStreamer) (past : List Event) (call : Call) : Prop :=
  (send s call).2.2 = true →
    completePairs (past ++ (send s call).2.1) ≤ handedCount (past ++ (send s call).2.1)

/-- A call that returns True hands over one pair, the oldest of those that wait, and one fewer
    waits behind it. -/
def HandsOldest (s : Quest3VideoStreamer) (past : List Event) (call : Call) : Prop :=
  (send s call).2.2 = true → ∃ payload left right monotonicNs,
    (send s call).2.1.filter isHanded = [.handed payload] ∧
      (units .left (past ++ (send s call).2.1))[handedCount past]? =
        some (handedCount past, left) ∧
      (units .right (past ++ (send s call).2.1))[handedCount past]? =
        some (handedCount past, right) ∧
      makeH264StereoPayload (handedCount past) s.width s.height left right monotonicNs =
        some payload ∧
      handedCount past < completePairs (past ++ (send s call).2.1) ∧
      completePairs (past ++ (send s call).2.1) - handedCount (past ++ (send s call).2.1) + 1 =
        completePairs (past ++ (send s call).2.1) - handedCount past

instance (s : Quest3VideoStreamer) (past : List Event) (call : Call) :
    Decidable (CaughtUp s past call) := by
  unfold CaughtUp
  exact inferInstance

/- A call that returns True ends with the hand-over. -/

theorem handOver_true {s : Quest3VideoStreamer} {call : Call} {packed : Option Bytes}
    (sent : (handOver s call packed).2.2 = .ok true) :
    ∃ payload, (handOver s call packed).2.1 = [.handed payload] := by
  cases packed with
  | none => simp [handOver] at sent
  | some payload =>
    refine ⟨payload, ?_⟩
    unfold handOver
    cases call.sendVideoFrame with
    | error message => rfl
    | ok value => cases value <;> rfl

theorem pairUp_true {s : Quest3VideoStreamer} {call : Call}
    (sent : (pairUp s call).2.2 = .ok true) :
    ∃ payload, (pairUp s call).2.1 = [.handed payload] := by
  unfold pairUp at sent ⊢
  generalize packPair s.width s.height call.monotonicNs = pack at sent ⊢
  cases leftSlot : s.pendingLeft with
  | none => simp [leftSlot] at sent
  | some left =>
    cases rightSlot : s.pendingRight with
    | none => simp [leftSlot, rightSlot] at sent
    | some right =>
      simp only [leftSlot, rightSlot] at sent
      exact handOver_true sent

theorem gather_quiet (s : Quest3VideoStreamer) (call : Call) (left right : H264Encoder) :
    ∀ e ∈ (gather s call left right).2, isHanded e = false := by
  intro e mem
  have arrived (eye : Eye) (encoder : H264Encoder) (pending : Option (Nat × Bytes))
      (works : List ReaderWork) (here : e ∈ (collect eye encoder pending works).2.2) :
      isHanded e = false := by
    have same : (collect eye encoder pending works).2.2 =
        ((readerWorks encoder works).queue.drop encoder.queue.length).map (Event.queued eye) := by
      unfold collect
      cases pending <;> rfl
    rw [same] at here
    exact (queued_quiet eye _ e here).1
  rcases List.mem_append.mp mem with fromLeft | fromRight
  · exact arrived _ _ _ _ fromLeft
  · exact arrived _ _ _ _ fromRight

theorem encodeAndPair_true {s : Quest3VideoStreamer} {call : Call} {images : Bytes × Bytes}
    (sent : (encodeAndPair s call images).2.2 = .ok true) :
    ∃ pre payload, (encodeAndPair s call images).2.1 = pre ++ [Event.handed payload] ∧
      ∀ e ∈ pre, isHanded e = false := by
  have silent := encodeBoth_silent call images.1 images.2
  unfold encodeAndPair at sent ⊢
  cases leftEncoder : s.leftEncoder with
  | none => simp [leftEncoder] at sent
  | some left =>
    cases rightEncoder : s.rightEncoder with
    | none => simp [leftEncoder, rightEncoder] at sent
    | some right =>
      simp only [leftEncoder, rightEncoder] at sent ⊢
      generalize encodeBoth call images.1 images.2 = encodedBoth at sent silent ⊢
      obtain ⟨encoded, result⟩ := encodedBoth
      cases result with
      | error message => simp at sent
      | ok _ =>
        simp only at sent ⊢
        obtain ⟨payload, handed⟩ := pairUp_true sent
        refine ⟨encoded ++ (gather s call left right).2, payload, ?_, ?_⟩
        · rw [handed, List.append_assoc]
        · intro e mem
          rcases List.mem_append.mp mem with early | late
          · exact (silent e early).1
          · exact gather_quiet s call left right e late

theorem attempt_true {s : Quest3VideoStreamer} {past : List Event} (paired : Paired s past)
    {call : Call} (sent : (attempt s call).2.2 = .ok true) :
    ∃ pre payload, (attempt s call).2.1 = pre ++ [Event.handed payload] ∧
      ∀ e ∈ pre, isHanded e = false := by
  obtain ⟨_, noHanded, _⟩ := ensureEncoders_paired paired call
  unfold attempt at sent ⊢
  simp only at sent ⊢
  cases result : (ensureEncoders s call).2.2 with
  | error message => simp [result] at sent
  | ok _ =>
    simp only [result] at sent ⊢
    cases images : prepared (ensureEncoders s call).1 call with
    | error message => simp [images] at sent
    | ok images_ =>
      simp only [images] at sent ⊢
      obtain ⟨pre, payload, parts, quiet⟩ := encodeAndPair_true sent
      refine ⟨(ensureEncoders s call).2.1 ++ pre, payload, ?_, ?_⟩
      · rw [parts, List.append_assoc]
      · intro e mem
        rcases List.mem_append.mp mem with early | late
        · exact noHanded e early
        · exact quiet e late

theorem send_true {s : Quest3VideoStreamer} {past : List Event} (paired : Paired s past)
    {call : Call} (sent : (send s call).2.2 = true) :
    ∃ pre payload, (send s call).2.1 = pre ++ [Event.handed payload] ∧
      ∀ e ∈ pre, isHanded e = false := by
  have submitted : Paired { s with framesSubmitted := s.framesSubmitted + 1 } past :=
    paired_fields paired rfl rfl rfl rfl
  unfold send at sent ⊢
  simp only at sent ⊢
  by_cases connected : call.isConnected = true
  · rw [if_neg (by simp [connected])] at sent ⊢
    cases result : (attempt { s with framesSubmitted := s.framesSubmitted + 1 } call).2.2 with
    | error message => simp [result] at sent
    | ok value =>
      simp only [result] at sent ⊢
      rw [sent] at result
      exact attempt_true submitted result
  · simp [connected] at sent

theorem send_oldest {s : Quest3VideoStreamer} {past : List Event} (paired : Paired s past)
    (call : Call) : HandsOldest s past call := by
  intro sent
  obtain ⟨pre, payload, parts, quiet⟩ := send_true paired sent
  obtain ⟨hands, _⟩ := send_goes paired call
  rw [parts, atEvents_append] at hands
  obtain ⟨left, right, monotonicNs, leftUnit, rightUnit, packed⟩ := hands.2.1 payload rfl
  have count := handedCount_quiet quiet past
  have kept (eye : Eye) :
      units eye (past ++ pre ++ [Event.handed payload]) = units eye (past ++ pre) := by
    rw [units_append (by simp [isCreated])]
    simp [queuedOf]
  have after : handedCount (past ++ pre ++ [Event.handed payload]) = handedCount past + 1 := by
    rw [handedCount_append, count]
    rfl
  rw [count] at leftUnit rightUnit packed
  obtain ⟨leftInside, _⟩ := List.getElem?_eq_some_iff.mp leftUnit
  obtain ⟨rightInside, _⟩ := List.getElem?_eq_some_iff.mp rightUnit
  have oldest : handedCount past < completePairs (past ++ pre ++ [Event.handed payload]) := by
    rw [completePairs, kept, kept]
    exact lt_min leftInside rightInside
  refine ⟨payload, left, right, monotonicNs, ?_, ?_, ?_, packed, ?_, ?_⟩
  · rw [parts, List.filter_append, List.filter_eq_nil_iff.mpr]
    · rfl
    · intro e mem
      rw [quiet e mem]
      exact Bool.false_ne_true
  · rw [parts, ← List.append_assoc, kept]
    exact leftUnit
  · rw [parts, ← List.append_assoc, kept]
    exact rightUnit
  · rw [parts, ← List.append_assoc]
    exact oldest
  · rw [parts, ← List.append_assoc, after]
    omega

/-- In every run a call that returns True hands over the oldest complete pair and leaves the
    others waiting. -/
theorem one_pair_a_call (width height : Int) (swapEyes : Bool) (calls : List Call) :
    AtSteps sendCall HandsOldest { width := width, height := height, swapEyes := swapEyes } []
      calls := by
  have kept (s : Quest3VideoStreamer) (past : List Event) (call : Call) (paired : Paired s past) :
      Paired (sendCall s call).1 (past ++ (sendCall s call).2) := (send_goes paired call).2.1
  apply atSteps_of_invariant kept
  · exact fun _ _ call paired => send_oldest paired call
  · exact start_paired width height swapEyes

def sliceNal : Bytes := [0, 0, 1, 0x65, 0x88]

def promptCall (nals : Nat) : Call where
  isConnected := true
  createLeft := none
  createRight := none
  prepareLeft := .ok []
  prepareRight := .ok []
  encodeLeft := none
  encodeRight := none
  leftWork := List.replicate nals (.nal sliceNal)
  rightWork := List.replicate nals (.nal sliceNal)
  monotonicNs := 0
  packing := ""
  sendVideoFrame := .ok true

/-- Both encoders finish two units while the first call waits for none: the second call sends
    one pair and leaves the other. -/
theorem pair_left_behind :
    ¬ AtSteps sendCall CaughtUp { width := 16, height := 8, swapEyes := false } []
      [promptCall 1, promptCall 2] := by
  decide +kernel

end QuestStreamerBacklog
