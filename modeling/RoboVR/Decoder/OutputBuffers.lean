import RoboVR.Decoder.SurfaceDrain
import RoboVR.Lib.Ledger

/- The output buffers of one drain of a codec with a surface. They are dequeued in one pass and
   released in another, and the buffer to render is remembered by its index alone. -/
namespace QuestOutputBuffers
open QuestCpuFrame (OutputFormat)
open QuestMediaCodec QuestSurfaceDrain
open Pairing (greatest_none greatest_some)
open TracedRun Ledger

structure OutputBuffer where
  index : Nat
  info : BufferInfo

def OutputBuffer.frameIndex (buffer : OutputBuffer) : Nat := frameIndexOf buffer.info

def OutputBuffer.nonempty (buffer : OutputBuffer) : Bool := decide (buffer.info.size > 0)

def bufferOf : OutputResult → Option OutputBuffer
  | .buffer index info _ => some { index := index, info := info }
  | _ => none

def goesOn : OutputResult → Bool
  | .tryAgainLater => false
  | .formatChanged _ => true
  | .failed => false
  | .buffer _ _ _ => true

/-- The buffers dequeued in one drain: those among the first 32 results, up to a result that ends
    the loop. Without a codec nothing is dequeued. -/
def dequeuedBuffers (codec : Option AMediaCodec) (outputs : Outputs) : List OutputBuffer :=
  if codec = none then []
  else ((outputs.results.take 32).takeWhile goesOn).filterMap bufferOf

def pendingOf (buffer : OutputBuffer) : PendingOutput :=
  { index := buffer.index, frameIndex := buffer.frameIndex, render := buffer.nonempty }

theorem dequeueOutputs_buffers (n : Nat) (results : List OutputResult) (format : OutputFormat) :
    (dequeueOutputs n results format).1 =
      (((results.take n).takeWhile goesOn).filterMap bufferOf).map pendingOf := by
  induction n generalizing results format with
  | zero => simp [dequeueOutputs]
  | succ n ih =>
    cases results with
    | nil => simp [dequeueOutputs]
    | cons result results =>
      cases result with
      | tryAgainLater => simp [dequeueOutputs, goesOn]
      | formatChanged keys =>
        simp [dequeueOutputs, List.takeWhile_cons, List.filterMap_cons, goesOn, bufferOf, ih]
      | failed => simp [dequeueOutputs, goesOn]
      | buffer index info memory =>
        simp [dequeueOutputs, List.takeWhile_cons, goesOn, bufferOf, ih, pendingOf,
          OutputBuffer.frameIndex, OutputBuffer.nonempty]

theorem dequeued_buffers {codec : Option AMediaCodec} (live : codec ≠ none) (outputs : Outputs) :
    dequeued outputs = (dequeuedBuffers codec outputs).map pendingOf := by
  rw [dequeued, dequeueOutputs_buffers, dequeuedBuffers, if_neg live]

inductive BufferEvent where
  | dequeued (index : Nat)
  | released (index : Nat)

def takes : BufferEvent → Option Nat
  | .dequeued index => some index
  | .released _ => none

def gives : BufferEvent → Option Nat
  | .dequeued _ => none
  | .released index => some index

def releasedIndex (eye : Eye) : Event → Option Nat
  | .outputReleased e index _ _ _ => if e = eye then some index else none
  | _ => none

def isRendered (eye : Eye) : Event → Bool
  | .outputReleased e _ _ _ render => decide (e = eye) && render
  | _ => false

def bufferTrace (eye : Eye) (buffers : List OutputBuffer) (events : List Event) :
    List BufferEvent :=
  buffers.map (fun buffer => .dequeued buffer.index) ++
    (events.filterMap (releasedIndex eye)).map .released

/-- What becomes of the buffers of one drain. -/
structure Conserves (eye : Eye) (buffers : List OutputBuffer) (drain : SurfaceDrain) : Prop where
  returned : Moves takes gives 0 (bufferTrace eye buffers drain.events) 0
  releasedOnce : ∀ buffer ∈ buffers,
    (drain.events.filterMap (releasedIndex eye)).count buffer.index = 1
  onlyReleases : ∀ e ∈ drain.events, ∃ buffer ∈ buffers, ∃ render,
    e = .outputReleased eye buffer.index buffer.frameIndex buffer.nonempty render
  renderedAtMostOnce : (drain.events.filter (isRendered eye)).length ≤ 1
  newestRendered : (∃ buffer ∈ buffers, buffer.nonempty = true) →
    ∃ buffer ∈ buffers, buffer.nonempty = true ∧
      (∀ other ∈ buffers, other.nonempty = true → other.frameIndex ≤ buffer.frameIndex) ∧
      drain.events.filter (isRendered eye) =
        [.outputReleased eye buffer.index buffer.frameIndex true true] ∧
      drain.frameIndices = [buffer.frameIndex]
  nothingRendered : (∀ buffer ∈ buffers, buffer.nonempty = false) →
    drain.events.filter (isRendered eye) = [] ∧ drain.frameIndices = []

theorem dequeues_moves (indices : List Nat) (held : Multiset Nat) :
    Moves takes gives held (indices.map .dequeued) (held + ↑indices) := by
  induction indices generalizing held with
  | nil => simpa using moves_nil held
  | cons index indices ih =>
    have first : Moves takes gives held [.dequeued index] (index ::ₘ held) := by
      apply moves_take <;> rfl
    have both := moves_append first (ih (index ::ₘ held))
    have sum : index ::ₘ held + ↑indices = held + ↑(index :: indices) := by
      rw [← Multiset.cons_coe, Multiset.add_cons, Multiset.cons_add]
    rwa [sum] at both

theorem releases_moves (indices : List Nat) (held : Multiset Nat) :
    Moves takes gives (held + ↑indices) (indices.map .released) held := by
  induction indices generalizing held with
  | nil => simpa using moves_nil held
  | cons index indices ih =>
    have first : Moves takes gives (index ::ₘ (held + ↑indices)) [.released index]
        (held + ↑indices) := by
      apply moves_give <;> rfl
    have both := moves_append first (ih held)
    rwa [← Multiset.add_cons, Multiset.cons_coe] at both

theorem release_indices (eye : Eye) (latestIndex : Int) (outputs : List PendingOutput) :
    (releaseOutputs eye latestIndex outputs).filterMap (releasedIndex eye) =
      outputs.map PendingOutput.index := by
  unfold releaseOutputs
  induction outputs with
  | nil => rfl
  | cons o outputs ih => simp [releasedIndex, ih]

theorem release_isRendered (eye : Eye) (latestIndex : Int) (outputs : List PendingOutput) :
    (releaseOutputs eye latestIndex outputs).filter (isRendered eye) =
      (outputs.filter fun o => decide ((o.index : Int) = latestIndex)).map fun o =>
        .outputReleased eye o.index o.frameIndex o.render true := by
  unfold releaseOutputs
  induction outputs with
  | nil => rfl
  | cons o outputs ih =>
    by_cases latest : (o.index : Int) = latestIndex
    · simp [isRendered, latest, ih]
    · simp [isRendered, latest, ih]

theorem released_indices {codec : Option AMediaCodec} (live : codec ≠ none) (eye : Eye)
    (outputs : Outputs) :
    (released eye outputs).filterMap (releasedIndex eye) =
      (dequeuedBuffers codec outputs).map OutputBuffer.index := by
  rw [released, release_indices, dequeued_buffers live, List.map_map]
  rfl

theorem buffers_nodup {codec : Option AMediaCodec} (live : codec ≠ none) (outputs : Outputs) :
    ((dequeuedBuffers codec outputs).map OutputBuffer.index).Nodup := by
  have distinct := dequeued_nodup outputs
  rw [dequeued_buffers live, List.map_map] at distinct
  exact distinct

theorem bufferTrace_moves {codec : Option AMediaCodec} (live : codec ≠ none) (eye : Eye)
    (outputs : Outputs) :
    Moves takes gives 0 (bufferTrace eye (dequeuedBuffers codec outputs) (released eye outputs))
      0 := by
  have dequeues : (dequeuedBuffers codec outputs).map (fun b => BufferEvent.dequeued b.index) =
      ((dequeuedBuffers codec outputs).map OutputBuffer.index).map .dequeued := by
    rw [List.map_map]
    rfl
  rw [bufferTrace, released_indices live, dequeues]
  exact moves_append (dequeues_moves _ 0) (releases_moves _ 0)

/-- The pass that looks for the newest buffer finds a nonempty one of greatest frame index, if there
    is any, and the pass that releases renders this one. -/
theorem released_newest {codec : Option AMediaCodec} (live : codec ≠ none) (eye : Eye)
    (outputs : Outputs) :
    ((∀ buffer ∈ dequeuedBuffers codec outputs, buffer.nonempty = false) ∧
      (released eye outputs).filter (isRendered eye) = [] ∧
      newest (dequeued outputs) = none) ∨
    ∃ buffer ∈ dequeuedBuffers codec outputs, buffer.nonempty = true ∧
      (∀ other ∈ dequeuedBuffers codec outputs, other.nonempty = true →
        other.frameIndex ≤ buffer.frameIndex) ∧
      (released eye outputs).filter (isRendered eye) =
        [.outputReleased eye buffer.index buffer.frameIndex true true] ∧
      newest (dequeued outputs) = some buffer.frameIndex := by
  have pending : ∀ buffer ∈ dequeuedBuffers codec outputs, pendingOf buffer ∈ dequeued outputs := by
    intro buffer there
    rw [dequeued_buffers live]
    exact List.mem_map_of_mem there
  rw [released, release_isRendered]
  rcases filter_latest (dequeued_nodup outputs) with ⟨none_, nothing⟩ | ⟨best, mem, render, some_, one⟩
  · left
    constructor
    · intro buffer there
      by_contra full
      have inside : buffer.frameIndex ∈ frames (dequeued outputs) := by
        apply mem_frames.mpr
        exact ⟨pendingOf buffer, pending buffer there, by simpa [pendingOf] using full, rfl⟩
      rw [newest, greatest_none] at none_
      have listed := List.mem_toFinset.mpr inside
      rw [none_] at listed
      simp at listed
    · rw [nothing]
      exact ⟨rfl, none_⟩
  · right
    rw [dequeued_buffers live] at mem
    obtain ⟨buffer, there, rfl⟩ := List.mem_map.mp mem
    refine ⟨buffer, there, render, ?_, ?_, some_⟩
    · intro other inside full
      rw [newest, greatest_some] at some_
      apply some_.2
      apply List.mem_toFinset.mpr
      apply mem_frames.mpr
      exact ⟨pendingOf other, pending other inside, full, rfl⟩
    · rw [one, List.map_singleton, render]
      rfl

theorem live_conserves {codec : Option AMediaCodec} (live : codec ≠ none) (eye : Eye)
    (outputs : Outputs) (format : OutputFormat) :
    Conserves eye (dequeuedBuffers codec outputs) (drainSurfaceOutput eye codec outputs format) := by
  obtain ⟨indices, events⟩ := drain_live eye outputs format live
  constructor
  · rw [events]
    exact bufferTrace_moves live eye outputs
  · intro buffer there
    rw [events, released_indices live]
    exact List.count_eq_one_of_mem (buffers_nodup live outputs) (List.mem_map_of_mem there)
  · intro e mem
    rw [events, released, releaseOutputs, dequeued_buffers live] at mem
    obtain ⟨_, there, rfl⟩ := List.mem_map.mp mem
    obtain ⟨buffer, inside, rfl⟩ := List.mem_map.mp there
    exact ⟨buffer, inside, _, rfl⟩
  · rw [events]
    rcases released_newest live eye outputs with ⟨_, nothing, _⟩ | ⟨_, _, _, _, one, _⟩
    · rw [nothing]
      exact Nat.zero_le 1
    · rw [one]
      exact Nat.le_refl 1
  · rintro ⟨some_, inside, full⟩
    rcases released_newest live eye outputs with ⟨empty, _⟩ | ⟨best, there, nonempty, above, one, newest_⟩
    · rw [empty some_ inside] at full
      exact absurd full (by decide)
    · rw [events, indices, newest_]
      exact ⟨best, there, nonempty, above, one, rfl⟩
  · intro empty
    rcases released_newest live eye outputs with ⟨_, nothing, none_⟩ | ⟨best, there, full, _⟩
    · rw [events, indices, none_]
      exact ⟨nothing, rfl⟩
    · rw [empty best there] at full
      exact absurd full (by decide)

/-- Every drain gives each buffer it dequeued back once, and shows the newest nonempty one alone. -/
theorem drainSurfaceOutput_conserves (eye : Eye) (codec : Option AMediaCodec) (outputs : Outputs)
    (format : OutputFormat) :
    Conserves eye (dequeuedBuffers codec outputs) (drainSurfaceOutput eye codec outputs format) := by
  by_cases live : codec = none
  · have nothing : drainSurfaceOutput eye codec outputs format =
        { frameIndices := [], format := format, events := [] } := if_pos live
    have unasked : dequeuedBuffers codec outputs = [] := if_pos live
    rw [nothing, unasked]
    constructor
    · exact moves_nil 0
    · simp
    · simp
    · simp
    · simp
    · simp
  · exact live_conserves live eye outputs format

/-- A later buffer with an older frame, and an empty one with a newer frame, are not shown. -/
example : (drainSurfaceOutput .left (some { window := 1 })
    { results := [.buffer 2 ⟨0, 5, 40⟩ none, .formatChanged none, .buffer 0 ⟨0, 0, 90⟩ none,
        .buffer 1 ⟨0, 3, 20⟩ none, .tryAgainLater]
      held := by decide } {}).frameIndices = [40] := by decide

end QuestOutputBuffers
