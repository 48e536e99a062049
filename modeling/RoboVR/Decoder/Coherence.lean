import RoboVR.Decoder.DecodeTrace

/- Whether both windows show the frame that is published. The drains render before the pairing
   is made, so an eye that runs ahead may already show a later frame. -/
namespace QuestCoherence
open QuestTeleop (Bytes VideoFrameHeader)
open QuestMediaCodec QuestSurfaceDrain QuestH264Decoder QuestDecodeStep QuestDecodeTrace
open Pairing TracedRun

def lastShown (eye : Eye) (past : List Event) : Option Nat :=
  (framesOf (shown eye) past).getLast?

def publishedOnSurfaces : Event → Option Nat
  | .publishStereoCodecFrame frameIndex => some frameIndex
  | _ => none

def Coherent (past : List Event) (event : Event) : Prop :=
  ∀ n ∈ publishedOnSurfaces event, lastShown .left past = some n ∧ lastShown .right past = some n

instance (past : List Event) (event : Event) : Decidable (Coherent past event) := by
  unfold Coherent
  exact inferInstance

/-- No eye is behind when a call pairs: a frame that one eye brings and the other has rendered
    in an earlier call is still the frame the other shows. -/
def NoEyeAhead (d : H264AnnexBDecoder) (past : List Event) (call : Call) : Prop :=
  GoesOn d call.header →
    Level (pairOf d) (newestLeft call.turn) (newestRight call.turn)
      (lastShown .left past) (lastShown .right past)

theorem silent_coherent {es : List Event} (silent : ∀ e ∈ es, published e = none)
    (past : List Event) : AtEvents Coherent past es := by
  apply atEvents_of_all
  intro e mem _ n publishes
  have none_ := silent e mem
  cases e <;> simp_all [published, publishedOnSurfaces]

theorem lastShown_quiet {es : List Event} (quiet : Quiet es) (eye : Eye) (past : List Event) :
    lastShown eye (past ++ es) = lastShown eye past := by
  rw [lastShown, framesOf_append, framesOf_nil fun e mem => ((quiet e mem).2.2 eye).1,
    List.append_nil, lastShown]

theorem getLast?_append_option {α : Type} (as : List α) (new : Option α) :
    (as ++ new.toList).getLast? = new.or as.getLast? := by
  cases new <;> simp

theorem lastShown_drains (turn : Turn) (past : List Event) :
    lastShown .left (past ++ drains turn) = (newestLeft turn).or (lastShown .left past) ∧
      lastShown .right (past ++ drains turn) = (newestRight turn).or (lastShown .right past) := by
  constructor
  · rw [lastShown, framesOf_append, drains, framesOf_append]
    simp only [framesOf, released_shown, if_true, reduceCtorEq, if_false, List.append_nil]
    exact getLast?_append_option _ _
  · rw [lastShown, framesOf_append, drains, framesOf_append]
    simp only [framesOf, released_shown, if_true, reduceCtorEq, if_false, List.nil_append]
    exact getLast?_append_option _ _

theorem publication_coherent {p : Pair Nat} (settled : p.Settled) (turn : Turn)
    (past : List Event) :
    AtEvents Coherent (past ++ drains turn)
        (publication (p.step (newestLeft turn) (newestRight turn)).2) ↔
      Level p (newestLeft turn) (newestRight turn) (lastShown .left past)
        (lastShown .right past) := by
  obtain ⟨lefts, rights⟩ := lastShown_drains turn past
  rw [← shown_iff_level settled, ← lefts, ← rights]
  cases (p.step (newestLeft turn) (newestRight turn)).2 with
  | none => simp [publication, AtEvents]
  | some n => simp [publication, AtEvents, Coherent, publishedOnSurfaces]

theorem level_empty (l r shownL shownR : Option Nat) : Level Pair.empty l r shownL shownR := by
  intro n _
  simp [Pair.empty]

theorem empty_settled : (Pair.empty : Pair Nat).Settled := by
  intro n left
  simp [Pair.empty] at left

def Resting (d : H264AnnexBDecoder) : Prop := OnSurfaces d ∧ (pairOf d).Settled

theorem begins_settled {d after : H264AnnexBDecoder} {es : List Event}
    (begins : Begins d es after) (settled : (pairOf d).Settled) : (pairOf after).Settled := by
  rcases begins with continues | restarts
  · rw [continues.pair]
    exact settled
  · rw [restarts.pair]
    exact empty_settled

theorem decodeCall_resting {d : H264AnnexBDecoder} (resting : Resting d) (call : Call) :
    Resting (decodeCall d call).1 := by
  obtain ⟨outcome, onSurfaces⟩ := decodeCall_outcome resting.1 call
  refine ⟨onSurfaces, ?_⟩
  cases outcome with
  | waiting _ _ begins _ => exact begins_settled begins resting.2
  | drained _ _ pair _ _ =>
    rw [pair]
    exact step_settled _ _ _

theorem call_coherent_iff {d : H264AnnexBDecoder} (resting : Resting d) (past : List Event)
    (call : Call) :
    AtEvents Coherent past (decodeCall d call).2 ↔ NoEyeAhead d past call := by
  obtain ⟨outcome, _⟩ := decodeCall_outcome resting.1 call
  cases outcome with
  | waiting idle _ begins _ =>
    have silent := silent_coherent (fun e mem => (begins_quiet begins e mem).1) past
    exact iff_of_true silent fun goes => absurd goes idle
  | @drained started _ es _ on anew _ _ parts =>
    have begins := begins_of_goes on anew
    have quiet := begins_quiet begins
    have before : AtEvents Coherent past es := silent_coherent (fun e mem => (quiet e mem).1) past
    have drained : AtEvents Coherent (past ++ es) (drains call.turn) :=
      silent_coherent (fun e mem => (drains_only mem).1) _
    have settled := begins_settled begins resting.2
    have here := publication_coherent settled call.turn (past ++ es)
    rw [lastShown_quiet quiet, lastShown_quiet quiet] at here
    rw [parts]
    simp only [atEvents_append, before, drained, true_and, here]
    by_cases goes : GoesOn d call.header
    · rw [(on goes).pair]
      simp [NoEyeAhead, goes]
    · rw [(anew goes).2.2.pair]
      exact iff_of_true (level_empty _ _ _ _) fun goes' => absurd goes' goes

theorem fresh_resting : Resting {} :=
  ⟨fun impossible _ => absurd rfl impossible, empty_settled⟩

/-- The publications of a run are coherent exactly when no call pairs with an eye ahead. -/
theorem coherent_iff_no_eye_ahead (calls : List Call) :
    AtEvents Coherent [] (decodeTrace calls) ↔
      AtSteps decodeCall NoEyeAhead {} [] calls := by
  rw [decodeTrace, atEvents_run]
  apply atSteps_iff fun d _ => Resting d
  · intro d past call resting _
    exact decodeCall_resting resting call
  · intro d past call resting
    exact call_coherent_iff resting past call
  · exact fresh_resting

def leftAhead : List Call :=
  [promptCall 1 (promptTurn (promptCodec 1 1) (promptCodec 0 0)),
    promptCall 2 (promptTurn (promptCodec 2 1) (promptCodec 1 1))]

theorem left_ahead_incoherent :
    Increasing leftAhead ∧ (∀ eye, AtEvents (InOrder eye) [] (decodeTrace leftAhead)) ∧
      framesOf published (decodeTrace leftAhead) = [1] ∧
      framesOf (shown .left) (decodeTrace leftAhead) = [1, 2] ∧
      ¬ AtEvents Coherent [] (decodeTrace leftAhead) := by
  refine ⟨by decide, ?_, by decide, by decide, by decide⟩
  intro eye
  cases eye
  · decide
  · decide

end QuestCoherence
