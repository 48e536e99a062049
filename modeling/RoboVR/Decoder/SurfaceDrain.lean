import RoboVR.Decoder.MediaCodec
import RoboVR.Lib.Pairing

/- What one drain of a codec with a surface does: of the buffers it dequeues it renders the
   newest nonempty one and releases the others unseen. -/
namespace QuestSurfaceDrain
open QuestCpuFrame (OutputFormat)
open QuestMediaCodec
open Pairing (greatest greatest_none greatest_some)

def published : Event → Option Nat
  | .publishStereoCodecFrame frameIndex => some frameIndex
  | .publishStereoVideoFrame frame => some frame.frameIndex
  | _ => none

def acked : Event → Option Nat
  | .ackSent frameIndex _ => some frameIndex
  | _ => none

def shown (eye : Eye) : Event → Option Nat
  | .outputReleased e _ frameIndex _ render => if e = eye ∧ render then some frameIndex else none
  | _ => none

def rendered (eye : Eye) : Event → Option Nat
  | .outputReleased e _ frameIndex nonempty render =>
    if e = eye ∧ render ∧ nonempty then some frameIndex else none
  | _ => none

def delivered (eye : Eye) : Event → Option Nat
  | .outputReleased e _ frameIndex nonempty _ =>
    if e = eye ∧ nonempty then some frameIndex else none
  | _ => none

def isStopped (event : Event) : Bool := event = .stopped

def Quiet (events : List Event) : Prop :=
  ∀ e ∈ events, published e = none ∧ acked e = none ∧
    ∀ eye, shown eye e = none ∧ rendered eye e = none ∧ delivered eye e = none

def frames (outputs : List PendingOutput) : List Nat :=
  (outputs.filter PendingOutput.render).map PendingOutput.frameIndex

def newest (outputs : List PendingOutput) : Option Nat := greatest (frames outputs).toFinset

def dequeued (outputs : Outputs) : List PendingOutput := (dequeueOutputs 32 outputs.results {}).1

theorem dequeueOutputs_format (n : Nat) (results : List OutputResult) (f g : OutputFormat) :
    (dequeueOutputs n results f).1 = (dequeueOutputs n results g).1 := by
  induction n generalizing results f g with
  | zero => rfl
  | succ n ih =>
    match results with
    | [] => rfl
    | .tryAgainLater :: _ => rfl
    | .formatChanged keys :: results => exact ih results _ _
    | .failed :: _ => rfl
    | .buffer index info memory :: results =>
      simp only [dequeueOutputs]
      rw [ih results f g]

theorem dequeueOutputs_indices (n : Nat) (results : List OutputResult) (format : OutputFormat) :
    ((dequeueOutputs n results format).1.map PendingOutput.index).Sublist
      (results.filterMap OutputResult.index) := by
  induction n generalizing results format with
  | zero => exact List.nil_sublist _
  | succ n ih =>
    match results with
    | [] => exact List.nil_sublist _
    | .tryAgainLater :: _ => exact List.nil_sublist _
    | .formatChanged keys :: results => exact ih results _
    | .failed :: _ => exact List.nil_sublist _
    | .buffer index info memory :: results => exact (ih results format).cons_cons index

theorem dequeued_nodup (outputs : Outputs) : ((dequeued outputs).map PendingOutput.index).Nodup :=
  (dequeueOutputs_indices 32 outputs.results {}).nodup outputs.held

/-- What the search for the newest buffer has found among the buffers it has seen. -/
def Latest (seen : List PendingOutput) (latest : Option Nat × Int) : Prop :=
  (latest = (none, -1) ∧ ∀ o ∈ seen, o.render = false) ∨
    ∃ o ∈ seen, o.render = true ∧ latest = (some o.frameIndex, (o.index : Int)) ∧
      ∀ other ∈ seen, other.render = true → other.frameIndex ≤ o.frameIndex

theorem above_append {seen : List PendingOutput} {o : PendingOutput} {bound : Nat}
    (above : ∀ other ∈ seen, other.render = true → other.frameIndex ≤ bound)
    (last : o.render = true → o.frameIndex ≤ bound) :
    ∀ other ∈ seen ++ [o], other.render = true → other.frameIndex ≤ bound := by
  intro other inside renders
  rcases List.mem_append.mp inside with old | new
  · exact above other old renders
  · rw [List.mem_singleton.mp new] at renders ⊢
    exact last renders

theorem empty_above {seen : List PendingOutput} (empty : ∀ o ∈ seen, o.render = false)
    (bound : Nat) : ∀ other ∈ seen, other.render = true → other.frameIndex ≤ bound := by
  intro other inside renders
  rw [empty other inside] at renders
  exact absurd renders (by decide)

theorem latest_next {seen : List PendingOutput} {latest : Option Nat × Int}
    (found : Latest seen latest) (o : PendingOutput) :
    Latest (seen ++ [o])
      (if o.render ∧ latest.1.all (fun frame => o.frameIndex > frame) then
        (some o.frameIndex, (o.index : Int))
      else latest) := by
  by_cases render : o.render = true
  · rcases found with ⟨none_, empty⟩ | ⟨best, mem, nonempty, best_eq, above⟩
    · rw [none_, if_pos ⟨render, rfl⟩]
      have bound := above_append (empty_above empty o.frameIndex) fun _ => Nat.le_refl o.frameIndex
      exact Or.inr ⟨o, by simp, render, rfl, bound⟩
    · rw [best_eq]
      by_cases newer : o.frameIndex > best.frameIndex
      · rw [if_pos ⟨render, by simpa using newer⟩]
        have bound : ∀ other ∈ seen ++ [o], other.render = true →
            other.frameIndex ≤ o.frameIndex := by
          apply above_append
          · intro other inside renders
            have := above other inside renders
            omega
          · omega
        exact Or.inr ⟨o, by simp, render, rfl, bound⟩
      · rw [if_neg (by simpa [render] using newer)]
        have bound := above_append (o := o) above fun _ => Nat.not_lt.mp newer
        exact Or.inr ⟨best, List.mem_append_left _ mem, nonempty, rfl, bound⟩
  · rw [if_neg (by simp [render])]
    rcases found with ⟨none_, empty⟩ | ⟨best, mem, nonempty, best_eq, above⟩
    · left
      constructor
      · exact none_
      · intro other inside
        rcases List.mem_append.mp inside with old | new
        · exact empty other old
        · rw [List.mem_singleton.mp new]
          simpa using render
    · have bound := above_append above fun renders => absurd renders render
      exact Or.inr ⟨best, List.mem_append_left _ mem, nonempty, best_eq, bound⟩

theorem latestRender_spec (outputs : List PendingOutput) : Latest outputs (latestRender outputs) := by
  induction outputs using List.reverseRecOn with
  | nil => exact Or.inl ⟨rfl, by simp⟩
  | append_singleton seen o ih =>
    rw [latestRender, List.foldl_append, ← latestRender, List.foldl_cons, List.foldl_nil]
    exact latest_next ih o

theorem mem_frames {outputs : List PendingOutput} {n : Nat} :
    n ∈ frames outputs ↔ ∃ o ∈ outputs, o.render = true ∧ o.frameIndex = n := by
  simp [frames, and_assoc]

/-- With distinct buffer indices a drain renders exactly the newest nonempty buffer. -/
theorem release_one {outputs : List PendingOutput}
    (distinct : (outputs.map PendingOutput.index).Nodup) :
    (newest outputs = none ∧ ∀ o ∈ outputs, ((o.index : Int) = (latestRender outputs).2) = False) ∨
    ∃ o ∈ outputs, o.render = true ∧ newest outputs = some o.frameIndex ∧
      ∀ other ∈ outputs, ((other.index : Int) = (latestRender outputs).2) = (other = o) := by
  rcases latestRender_spec outputs with ⟨none_, empty⟩ | ⟨best, mem, nonempty, best_eq, above⟩
  · left
    constructor
    · rw [newest, greatest_none, List.toFinset_eq_empty_iff, List.eq_nil_iff_forall_not_mem]
      intro n inside
      obtain ⟨o, there, renders, _⟩ := mem_frames.mp inside
      rw [empty o there] at renders
      exact absurd renders (by decide)
    · intro o _
      rw [none_]
      exact eq_false (by omega)
  · right
    refine ⟨best, mem, nonempty, ?_, ?_⟩
    · rw [newest, greatest_some]
      constructor
      · exact List.mem_toFinset.mpr (mem_frames.mpr ⟨best, mem, nonempty, rfl⟩)
      · intro n inside
        obtain ⟨o, there, renders, rfl⟩ := mem_frames.mp (List.mem_toFinset.mp inside)
        exact above o there renders
    · intro other there
      rw [best_eq, eq_iff_iff]
      constructor
      · intro same
        exact List.inj_on_of_nodup_map distinct there mem (by simpa using same)
      · rintro rfl
        rfl

theorem filter_latest {outputs : List PendingOutput}
    (distinct : (outputs.map PendingOutput.index).Nodup) :
    (newest outputs = none ∧
      outputs.filter (fun o => decide ((o.index : Int) = (latestRender outputs).2)) = []) ∨
    ∃ o ∈ outputs, o.render = true ∧ newest outputs = some o.frameIndex ∧
      outputs.filter (fun o => decide ((o.index : Int) = (latestRender outputs).2)) = [o] := by
  rcases release_one distinct with ⟨none_, empty⟩ | ⟨best, mem, nonempty, some_, only⟩
  · left
    constructor
    · exact none_
    · rw [List.filter_eq_nil_iff]
      intro o there
      simp [empty o there]
  · right
    have same : outputs.filter (fun o => decide ((o.index : Int) = (latestRender outputs).2)) =
        outputs.filter (fun o => decide (o = best)) := by
      apply List.filter_congr
      intro o there
      simp only [only o there]
    have once := List.count_eq_one_of_mem distinct.of_map mem
    refine ⟨best, mem, nonempty, some_, ?_⟩
    rw [same, List.filter_eq, once]
    rfl

theorem renderedIndices_newest {outputs : List PendingOutput}
    (distinct : (outputs.map PendingOutput.index).Nodup) :
    renderedIndices (latestRender outputs).2 outputs = (newest outputs).toList := by
  unfold renderedIndices
  rcases filter_latest distinct with ⟨none_, nothing⟩ | ⟨best, _, _, some_, one⟩
  · rw [nothing, none_]
    rfl
  · rw [one, some_]
    rfl

/- The events of the release loop, seen from either eye. -/

theorem release_shown (e eye : Eye) (latestIndex : Int) (outputs : List PendingOutput) :
    (releaseOutputs eye latestIndex outputs).filterMap (shown e) =
      if eye = e then renderedIndices latestIndex outputs else [] := by
  unfold releaseOutputs renderedIndices
  induction outputs with
  | nil => simp
  | cons o outputs ih =>
    by_cases same : eye = e <;> by_cases latest : (o.index : Int) = latestIndex <;>
      simp_all [shown]

theorem release_rendered {e eye : Eye} {latestIndex : Int} {outputs : List PendingOutput}
    (nonempty : ∀ o ∈ outputs, (o.index : Int) = latestIndex → o.render = true) :
    (releaseOutputs eye latestIndex outputs).filterMap (rendered e) =
      (releaseOutputs eye latestIndex outputs).filterMap (shown e) := by
  apply List.filterMap_congr
  intro event mem
  obtain ⟨o, there, rfl⟩ := List.mem_map.mp mem
  by_cases latest : (o.index : Int) = latestIndex
  · simp [rendered, shown, latest, nonempty o there latest]
  · simp [rendered, shown, latest]

theorem release_delivered (e eye : Eye) (latestIndex : Int) (outputs : List PendingOutput) :
    (releaseOutputs eye latestIndex outputs).filterMap (delivered e) =
      if eye = e then frames outputs else [] := by
  unfold releaseOutputs frames
  induction outputs with
  | nil => simp
  | cons o outputs ih =>
    by_cases same : eye = e <;> cases render : o.render <;> simp_all [delivered]

def released (eye : Eye) (outputs : Outputs) : List Event :=
  releaseOutputs eye (latestRender (dequeued outputs)).2 (dequeued outputs)

theorem released_shown (eye e : Eye) (outputs : Outputs) :
    (released eye outputs).filterMap (shown e) =
      if eye = e then (newest (dequeued outputs)).toList else [] := by
  rw [released, release_shown, renderedIndices_newest (dequeued_nodup outputs)]

theorem released_rendered (eye e : Eye) (outputs : Outputs) :
    (released eye outputs).filterMap (rendered e) =
      if eye = e then (newest (dequeued outputs)).toList else [] := by
  rw [← released_shown, released, release_rendered]
  intro o there latest
  rcases release_one (dequeued_nodup outputs) with ⟨_, empty⟩ | ⟨best, _, nonempty, _, only⟩
  · rw [empty o there] at latest
    exact latest.elim
  · rw [only o there] at latest
    rw [latest]
    exact nonempty

theorem released_delivered (eye e : Eye) (outputs : Outputs) :
    (released eye outputs).filterMap (delivered e) =
      if eye = e then frames (dequeued outputs) else [] :=
  release_delivered e eye _ _

theorem released_only {eye : Eye} {outputs : Outputs} {event : Event}
    (mem : event ∈ released eye outputs) :
    published event = none ∧ acked event = none ∧ isStopped event = false := by
  obtain ⟨o, _, rfl⟩ := List.mem_map.mp mem
  exact ⟨rfl, rfl, by simp [isStopped]⟩

theorem drain_live {codec : Option AMediaCodec} (eye : Eye) (outputs : Outputs)
    (format : OutputFormat) (live : codec ≠ none) :
    (drainSurfaceOutput eye codec outputs format).frameIndices =
        (newest (dequeued outputs)).toList ∧
      (drainSurfaceOutput eye codec outputs format).events = released eye outputs := by
  rw [drainSurfaceOutput, if_neg live]
  simp only
  rw [dequeueOutputs_format 32 outputs.results format {}]
  exact ⟨renderedIndices_newest (dequeued_nodup outputs), rfl⟩

theorem newest_mem_frames {outputs : List PendingOutput} {n : Nat}
    (best : newest outputs = some n) : n ∈ frames outputs :=
  List.mem_toFinset.mp (greatest_some.mp best).1

end QuestSurfaceDrain
