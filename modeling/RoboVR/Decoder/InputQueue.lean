import RoboVR.Decoder.Resources

/- The input side of the two codecs: which access units they are fed, and which input buffers
   stay with the decoder. -/
namespace QuestInputQueue
open QuestTeleop (Bytes VideoFrameHeader)
open QuestMediaCodec QuestSurfaceDrain QuestH264Decoder QuestDecodeStep QuestDecodeTrace
open QuestResources
open TracedRun

def inputOf (eye : Eye) (call : Call) : InputTurn :=
  match eye with
  | .left => call.turn.left.input
  | .right => call.turn.right.input

def payloadOf (eye : Eye) (call : Call) : Bytes :=
  match eye with
  | .left => call.left
  | .right => call.right

def dequeuedIndex (eye : Eye) (call : Call) : Option Nat :=
  if (payloadOf eye call).length = 0 then none
  else
    match (inputOf eye call).dequeued with
    | .buffer index => some index
    | _ => none

def takesUnit (eye : Eye) (call : Call) : Bool :=
  (dequeuedIndex eye call).isSome &&
    (inputOf eye call).inputSize.any (fun size => (payloadOf eye call).length ≤ size) &&
    (inputOf eye call).queued

def inputEvents (eye : Eye) (call : Call) : List Event :=
  match dequeuedIndex eye call with
  | none => []
  | some index =>
    .inputDequeued eye index ::
      if takesUnit eye call then
        [.inputQueued eye index call.header.frameIndex.toNat (payloadOf eye call)]
      else []

theorem queueAccessUnit_live (eye : Eye) {codec : Option AMediaCodec} (live : codec ≠ none)
    (call : Call) :
    queueAccessUnit eye codec (payloadOf eye call) call.header.frameIndex.toNat (inputOf eye call) =
      (takesUnit eye call, inputEvents eye call) := by
  by_cases empty : (payloadOf eye call).length = 0
  · simp [queueAccessUnit, takesUnit, inputEvents, dequeuedIndex, empty]
  · have goes : ¬ (codec = none ∨ (payloadOf eye call).length = 0) := not_or.mpr ⟨live, empty⟩
    rw [queueAccessUnit, if_neg goes]
    cases dequeued : (inputOf eye call).dequeued with
    | tryAgainLater => simp [takesUnit, inputEvents, dequeuedIndex, empty, dequeued]
    | failed => simp [takesUnit, inputEvents, dequeuedIndex, empty, dequeued]
    | buffer index =>
      have handed : dequeuedIndex eye call = some index := by
        simp [dequeuedIndex, empty, dequeued]
      simp only [takesUnit, inputEvents, handed, Option.isSome_some, Bool.true_and]
      cases room : (inputOf eye call).inputSize with
      | none => simp
      | some size =>
        by_cases short : size < (payloadOf eye call).length
        · simp [short]
        · cases (inputOf eye call).queued <;> simp [short, Nat.le_of_not_lt short]

/-- The call finds both codecs running, or starts them: `ensureStarted` lets it go on. -/
def Passes (d : H264AnnexBDecoder) (call : Call) : Prop :=
  GoesOn d call.header ∨ Starts call.header call.turn

instance (d : H264AnnexBDecoder) (call : Call) : Decidable (Passes d call) := by
  unfold Passes
  exact inferInstance

theorem passes_iff (d : H264AnnexBDecoder) (call : Call) :
    (ensureStarted (restartIfRewound d call.header.frameIndex.toNat).1 call.header
      call.turn).2.2 = true ↔ Passes d call := by
  have beginning := decode_beginning d call.header call.turn
  constructor
  · intro ok
    rw [ok] at beginning
    obtain ⟨_, _, anew⟩ := beginning_running beginning
    by_cases goes : GoesOn d call.header
    · exact Or.inl goes
    · exact Or.inr (anew goes).1
  · intro passes
    by_contra refused
    rw [Bool.not_eq_true] at refused
    rw [refused] at beginning
    obtain ⟨idle, unable, _, _⟩ := beginning_waiting beginning
    exact passes.elim idle unable

def inputs (d : H264AnnexBDecoder) (call : Call) : List Event :=
  if Passes d call then inputEvents .left call ++ inputEvents .right call else []

theorem decodeCall_parts (d : H264AnnexBDecoder) (call : Call) :
    ∃ starts outputs after, (decodeCall d call).2 = starts ++ (inputs d call ++ outputs) ∧
      Begins d starts after ∧ AllOf .start starts ∧ AllOf .output outputs := by
  have beginning := decode_beginning d call.header call.turn
  have passes := passes_iff d call
  have starting := allOf_append (restartIfRewound_start d call.header.frameIndex.toNat)
    (ensureStarted_start (restartIfRewound d call.header.frameIndex.toNat).1 call.header call.turn)
  unfold decodeCall decode inputs
  simp only
  generalize (restartIfRewound d call.header.frameIndex.toNat).2 ++
    (ensureStarted (restartIfRewound d call.header.frameIndex.toNat).1 call.header
      call.turn).2.1 = starts at beginning starting ⊢
  generalize ensureStarted (restartIfRewound d call.header.frameIndex.toNat).1 call.header
    call.turn = begun at beginning passes ⊢
  cases ok : begun.2.2 with
  | true =>
    rw [ok] at beginning
    obtain ⟨running, on, anew⟩ := beginning_running beginning
    obtain ⟨_, allOutput⟩ := output_output
      (queueStereo begun.1 call.header.frameIndex.toNat call.left call.right call.turn).1 call.turn
    have left := queueAccessUnit_live .left running.1 call
    have right := queueAccessUnit_live .right running.2.1 call
    refine ⟨starts, _, begun.1, ?_, begins_of_goes on anew, starting, allOutput⟩
    simp only [payloadOf, inputOf] at left right
    have fed : (queueStereo begun.1 call.header.frameIndex.toNat call.left call.right
        call.turn).2.1 = inputEvents .left call ++ inputEvents .right call := by
      simp only [queueStereo, left, right]
    rw [if_pos (passes.mp ok), if_pos rfl]
    simp only [fed, List.append_assoc]
  | false =>
    rw [ok] at beginning passes
    obtain ⟨_, _, begins, _⟩ := beginning_waiting beginning
    refine ⟨starts, [], begun.1, ?_, begins, starting, allOf_nil _⟩
    rw [if_neg fun ready => Bool.false_ne_true (passes.mpr ready)]
    simp

/- What the codecs are fed. -/

theorem queued_of_part {part : Part} {es : List Event} (all : AllOf part es)
    (other : part ≠ .input) (eye : Eye) : ∀ e ∈ es, queued eye e = none := by
  intro e mem
  have kind := all e mem
  cases e <;> first | rfl | exact absurd kind.symm other

theorem running_of_part {part : Part} {es : List Event} (all : AllOf part es)
    (other : part ≠ .start) : ∀ e ∈ es, isStopped e = false := by
  intro e mem
  have kind := all e mem
  cases e <;> first | rfl | exact absurd kind.symm other

theorem inputEvents_input (eye : Eye) (call : Call) : AllOf .input (inputEvents eye call) := by
  unfold inputEvents
  cases dequeuedIndex eye call with
  | none => exact allOf_nil _
  | some index => cases takesUnit eye call <;> simp [AllOf, partOf]

theorem inputs_input (d : H264AnnexBDecoder) (call : Call) : AllOf .input (inputs d call) := by
  unfold inputs
  split
  · exact allOf_append (inputEvents_input .left call) (inputEvents_input .right call)
  · exact allOf_nil _

theorem queued_inputEvents (eye other : Eye) (call : Call) :
    framesOf (queued eye) (inputEvents other call) =
      if other = eye ∧ takesUnit eye call = true then [call.header.frameIndex.toNat] else [] := by
  unfold inputEvents
  by_cases same : other = eye
  · subst same
    cases handed : dequeuedIndex other call with
    | none => simp [framesOf, takesUnit, handed]
    | some index =>
      cases takesUnit other call <;> simp [framesOf, List.filterMap_cons, queued]
  · cases dequeuedIndex other call with
    | none => simp [framesOf, same]
    | some index => cases takesUnit other call <;> simp [framesOf, queued, same]

theorem queued_inputs (eye : Eye) (d : H264AnnexBDecoder) (call : Call) :
    framesOf (queued eye) (inputs d call) =
      if Passes d call ∧ takesUnit eye call = true then [call.header.frameIndex.toNat] else [] := by
  unfold inputs
  by_cases passes : Passes d call
  · rw [if_pos passes, framesOf_append, queued_inputEvents, queued_inputEvents]
    cases eye <;> simp [passes]
  · simp [passes, framesOf]

/-- What each eye was fed since the codecs were started. -/
def fed (eye : Eye) (past : List Event) : List Nat := framesOf (queued eye) (sinceStop past)

theorem fed_call (d : H264AnnexBDecoder) (past : List Event) (call : Call) :
    (∀ eye, fed eye (past ++ (decodeCall d call).2) =
      fed eye past ++ framesOf (queued eye) (inputs d call)) ∨
    ∀ eye, fed eye (past ++ (decodeCall d call).2) = framesOf (queued eye) (inputs d call) := by
  obtain ⟨starts, outputs, after, parts, begins, starting, finishing⟩ := decodeCall_parts d call
  have running : ∀ e ∈ inputs d call ++ outputs, isStopped e = false := by
    intro e mem
    rcases List.mem_append.mp mem with input | output
    · exact running_of_part (inputs_input d call) (by decide) e input
    · exact running_of_part finishing (by decide) e output
  have quietStart (eye : Eye) := framesOf_nil (queued_of_part starting (by decide) eye)
  have quietEnd (eye : Eye) := framesOf_nil (queued_of_part finishing (by decide) eye)
  rcases begins with continues | restarts
  · left
    intro eye
    rw [fed, parts, ← List.append_assoc, sinceStop_running running,
      sinceStop_running continues.running]
    simp only [framesOf_append, quietStart, quietEnd, List.append_nil, fed]
  · right
    intro eye
    have begun : framesOf (queued eye) (sinceStop starts) = [] := by
      apply framesOf_nil
      intro e mem
      exact queued_of_part starting (by decide) eye e (mem_since isStopped mem)
    rw [fed, parts, ← List.append_assoc, sinceStop_running running, sinceStop, since_append,
      if_pos restarts.stopped]
    simp only [framesOf_append, quietEnd, List.append_nil]
    rw [← sinceStop, begun, List.nil_append]

def FedAlike (d : H264AnnexBDecoder) (past : List Event) (call : Call) : Prop :=
  framesOf (queued .left) (decodeCall d call).2 = framesOf (queued .right) (decodeCall d call).2 ∧
    fed .left (past ++ (decodeCall d call).2) = fed .right (past ++ (decodeCall d call).2)

/-- Where a call goes on to queue, both codecs take its units or neither does. -/
def AnswersAlike (d : H264AnnexBDecoder) (_ : List Event) (call : Call) : Prop :=
  Passes d call → takesUnit .left call = takesUnit .right call

theorem queued_call (eye : Eye) (d : H264AnnexBDecoder) (call : Call) :
    framesOf (queued eye) (decodeCall d call).2 = framesOf (queued eye) (inputs d call) := by
  obtain ⟨starts, outputs, _, parts, _, starting, finishing⟩ := decodeCall_parts d call
  rw [parts, framesOf_append, framesOf_append,
    framesOf_nil (queued_of_part starting (by decide) eye),
    framesOf_nil (queued_of_part finishing (by decide) eye), List.nil_append, List.append_nil]

theorem inputs_alike_iff (d : H264AnnexBDecoder) (past : List Event) (call : Call) :
    framesOf (queued .left) (inputs d call) = framesOf (queued .right) (inputs d call) ↔
      AnswersAlike d past call := by
  rw [queued_inputs, queued_inputs, AnswersAlike]
  by_cases passes : Passes d call
  · cases takesUnit .left call <;> cases takesUnit .right call <;> simp [passes]
  · simp [passes]

/-- In every run the two decoders are fed the same frames at every call if and only if at every
    call that queues both codecs take the unit or neither does. -/
theorem fed_alike_iff (calls : List Call) :
    AtSteps decodeCall FedAlike {} [] calls ↔ AtSteps decodeCall AnswersAlike {} [] calls := by
  apply atSteps_iff fun _ past => fed .left past = fed .right past
  · intro d past call _ alike
    exact alike.2
  · intro d past call same
    rw [← inputs_alike_iff d past call, FedAlike, queued_call, queued_call]
    constructor
    · exact fun alike => alike.1
    · intro alike
      refine ⟨alike, ?_⟩
      rcases fed_call d past call with more | anew
      · rw [more .left, more .right, same, alike]
      · rw [anew .left, anew .right, alike]
  · rfl

def rightBusy : Call :=
  promptCall 0 (promptTurn (promptCodec 0 0)
    { promptCodec 0 0 with
      input := { dequeued := .tryAgainLater, inputSize := none, queued := false } })

theorem left_fed_alone : ¬ AtSteps decodeCall FedAlike {} [] [rightBusy] := by
  intro alike
  exact absurd alike.1.1 (by decide)

end QuestInputQueue
