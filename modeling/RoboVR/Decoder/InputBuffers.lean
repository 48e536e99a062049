import RoboVR.Decoder.InputQueue

/- The input buffers that the decoder has dequeued and not given back. A codec that is stopped
   takes all of its buffers back. -/
namespace QuestInputBuffers
open QuestTeleop (Bytes)
open QuestMediaCodec QuestH264Decoder QuestDecodeStep QuestDecodeTrace QuestResources
open QuestInputQueue
open TracedRun

def holdStep (eye : Eye) (held : List Nat) : Event → List Nat
  | .inputDequeued e index => if e = eye then index :: held else held
  | .inputQueued e index _ _ => if e = eye then held.erase index else held
  | .stopped => []
  | _ => held

def heldInputs (eye : Eye) (past : List Event) : List Nat := past.foldl (holdStep eye) []

def ReturnedBefore (past : List Event) (event : Event) : Prop :=
  ∀ eye index, event = .inputDequeued eye index → heldInputs eye past = []

def NothingHeld (past : List Event) : Prop := ∀ eye, heldInputs eye past = []

def InputsReturned (d : H264AnnexBDecoder) (past : List Event) (call : Call) : Prop :=
  AtEvents ReturnedBefore past (decodeCall d call).2 ∧
    NothingHeld (past ++ (decodeCall d call).2)

/-- Where a call goes on to queue, a codec that hands out a buffer takes the unit in it. -/
def BuffersFit (d : H264AnnexBDecoder) (_ : List Event) (call : Call) : Prop :=
  Passes d call → ∀ eye, (dequeuedIndex eye call).isSome = true → takesUnit eye call = true

theorem heldInputs_append (eye : Eye) (past es : List Event) :
    heldInputs eye (past ++ es) = es.foldl (holdStep eye) (heldInputs eye past) :=
  List.foldl_append ..

theorem hold_stays {eye : Eye} {held : List Nat} {es : List Event}
    (stays : ∀ e ∈ es, holdStep eye held e = held) : es.foldl (holdStep eye) held = held := by
  induction es with
  | nil => rfl
  | cons e es ih =>
    rw [List.foldl_cons, stays e List.mem_cons_self]
    exact ih fun f mem => stays f (List.mem_cons_of_mem e mem)

theorem hold_output {es : List Event} (all : AllOf .output es) (eye : Eye) (held : List Nat) :
    es.foldl (holdStep eye) held = held := by
  apply hold_stays
  intro e mem
  have kind := all e mem
  cases e <;> first | rfl | exact absurd kind (by simp [partOf])

theorem hold_start {es : List Event} (all : AllOf .start es) (eye : Eye) :
    es.foldl (holdStep eye) [] = [] := by
  apply hold_stays
  intro e mem
  have kind := all e mem
  cases e <;> first | rfl | exact absurd kind (by simp [partOf])

/-- What a call leaves held of an eye's buffers. -/
def leak (eye : Eye) (call : Call) : List Nat :=
  if takesUnit eye call then [] else (dequeuedIndex eye call).toList

theorem hold_inputEvents (eye other : Eye) (call : Call) (held : List Nat) :
    (inputEvents other call).foldl (holdStep eye) held =
      if other = eye then leak eye call ++ held else held := by
  unfold inputEvents
  by_cases same : other = eye
  · subst same
    cases handed : dequeuedIndex other call with
    | none => simp [leak, handed]
    | some index => cases takes : takesUnit other call <;> simp [holdStep, leak, handed, takes]
  · cases dequeuedIndex other call with
    | none => simp [same]
    | some index => cases takesUnit other call <;> simp [holdStep, same]

theorem hold_inputs (eye : Eye) (d : H264AnnexBDecoder) (call : Call) :
    (inputs d call).foldl (holdStep eye) [] = if Passes d call then leak eye call else [] := by
  unfold inputs
  split
  · rw [List.foldl_append, hold_inputEvents, hold_inputEvents]
    cases eye <;> simp
  · rfl

theorem held_call {past : List Event} (nothing : NothingHeld past) (d : H264AnnexBDecoder)
    (call : Call) (eye : Eye) :
    heldInputs eye (past ++ (decodeCall d call).2) =
      if Passes d call then leak eye call else [] := by
  obtain ⟨starts, outputs, _, parts, _, starting, finishing⟩ := decodeCall_parts d call
  rw [heldInputs_append, nothing eye, parts, List.foldl_append, List.foldl_append,
    hold_start starting, hold_output finishing, hold_inputs]

theorem leak_nil_iff (eye : Eye) (call : Call) :
    leak eye call = [] ↔ ((dequeuedIndex eye call).isSome = true → takesUnit eye call = true) := by
  unfold leak
  cases takesUnit eye call <;> cases dequeuedIndex eye call <;> simp

theorem nothingHeld_iff {past : List Event} (nothing : NothingHeld past) (d : H264AnnexBDecoder)
    (call : Call) : NothingHeld (past ++ (decodeCall d call).2) ↔ BuffersFit d past call := by
  unfold BuffersFit NothingHeld
  simp only [held_call nothing, ← leak_nil_iff]
  by_cases passes : Passes d call
  · simp [passes]
  · simp [passes]

theorem returnedBefore_of_part {part : Part} {es : List Event} (all : AllOf part es)
    (other : part ≠ .input) (past : List Event) : AtEvents ReturnedBefore past es := by
  apply atEvents_of_all
  rintro e mem _ eye index rfl
  exact absurd (all _ mem).symm other

theorem returnedBefore_inputEvents {eye : Eye} {past : List Event}
    (nothing : heldInputs eye past = []) (call : Call) :
    AtEvents ReturnedBefore past (inputEvents eye call) := by
  have first (index : Nat) : ReturnedBefore past (.inputDequeued eye index) := by
    rintro other handed same
    obtain ⟨rfl, rfl⟩ := Event.inputDequeued.inj same
    exact nothing
  unfold inputEvents
  cases dequeuedIndex eye call with
  | none => trivial
  | some index =>
    cases takesUnit eye call with
    | false => exact ⟨first index, trivial⟩
    | true =>
      refine ⟨first index, ?_, trivial⟩
      intro other handed same
      exact absurd same (by simp)

theorem returnedBefore_call {past : List Event} (nothing : NothingHeld past)
    (d : H264AnnexBDecoder) (call : Call) :
    AtEvents ReturnedBefore past (decodeCall d call).2 := by
  obtain ⟨starts, outputs, _, parts, _, starting, finishing⟩ := decodeCall_parts d call
  have begun (eye : Eye) : heldInputs eye (past ++ starts) = [] := by
    rw [heldInputs_append, nothing eye, hold_start starting]
  have between : heldInputs .right ((past ++ starts) ++ inputEvents .left call) = [] := by
    rw [heldInputs_append, begun, hold_inputEvents, if_neg (by decide)]
  rw [parts, atEvents_append, atEvents_append]
  refine ⟨returnedBefore_of_part starting (by decide) past, ?_,
    returnedBefore_of_part finishing (by decide) _⟩
  unfold inputs
  split
  · rw [atEvents_append]
    exact ⟨returnedBefore_inputEvents (begun .left) call,
      returnedBefore_inputEvents between call⟩
  · trivial

/-- In every run no input buffer stays with the decoder if and only if every call that queues
    finds each buffer it is handed large enough and sees it taken back. -/
theorem inputs_returned_iff (calls : List Call) :
    AtSteps decodeCall InputsReturned {} [] calls ↔ AtSteps decodeCall BuffersFit {} [] calls := by
  apply atSteps_iff fun _ past => NothingHeld past
  · intro d past call _ returned
    exact returned.2
  · intro d past call nothing
    rw [← nothingHeld_iff nothing d call, InputsReturned]
    exact and_iff_right (returnedBefore_call nothing d call)
  · intro eye
    rfl

def shortBuffer : Call :=
  promptCall 0 (promptTurn
    { promptCodec 0 0 with
      input := { dequeued := .buffer 3, inputSize := some 0, queued := true } }
    (promptCodec 0 0))

theorem short_buffer_kept : ¬ AtSteps decodeCall InputsReturned {} [] [shortBuffer] := by
  intro returned
  exact absurd (returned.1.2 .left) (by decide)

end QuestInputBuffers
