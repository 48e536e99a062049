import RoboVR.Decoder.DecodeTrace

/- Whether a frame that both codecs have output can stay unpublished. A drain marks only its
   newest frame ready, so two eyes that batch differently can pass each other by. -/
namespace QuestSkipping
open QuestTeleop (Bytes VideoFrameHeader)
open QuestMediaCodec QuestSurfaceDrain QuestH264Decoder QuestDecodeStep QuestDecodeTrace
open Pairing TracedRun

def framesSince (kind : Event → Option Nat) (trace : List Event) : Finset Nat :=
  (framesOf kind (sinceStop trace)).toFinset

/-- A frame that both codecs have output since the start is published, or a later one is. -/
def NoPairLost (trace : List Event) : Prop :=
  ∀ n, n ∈ framesSince (delivered .left) trace → n ∈ framesSince (delivered .right) trace →
    ∃ k ∈ framesSince published trace, n ≤ k

def outputLeft (turn : Turn) : Finset Nat := (frames (dequeued turn.left.outputs)).toFinset
def outputRight (turn : Turn) : Finset Nat := (frames (dequeued turn.right.outputs)).toFinset

/-- The newest frame that both codecs have output, this call included, is published already
    or was the newest of a drain in both eyes. -/
def NewestPairKept (d : H264AnnexBDecoder) (past : List Event) (call : Call) : Prop :=
  if GoesOn d call.header then
    Kept (pairOf d)
      (framesSince (delivered .left) past ∪ outputLeft call.turn)
      (framesSince (delivered .right) past ∪ outputRight call.turn)
      (mark (framesSince (rendered .left) past) (newestLeft call.turn))
      (mark (framesSince (rendered .right) past) (newestRight call.turn))
  else
    Starts call.header call.turn →
      Kept Pair.empty (outputLeft call.turn) (outputRight call.turn)
        (mark ∅ (newestLeft call.turn)) (mark ∅ (newestRight call.turn))

structure Follows (p : Pair Nat) (past : List Event) : Prop where
  tracks : Tracks p (framesSince (rendered .left) past) (framesSince (rendered .right) past)
  lefts : framesSince (rendered .left) past ⊆ framesSince (delivered .left) past
  rights : framesSince (rendered .right) past ⊆ framesSince (delivered .right) past
  last : ∀ n, (∃ k ∈ framesSince published past, n ≤ k) ↔ ∃ k ∈ p.last, n ≤ k

theorem framesSince_running {kind : Event → Option Nat} {past es : List Event}
    (running : ∀ e ∈ es, isStopped e = false) :
    framesSince kind (past ++ es) = framesSince kind past ∪ (framesOf kind es).toFinset := by
  rw [framesSince, sinceStop_running running, framesOf_append, List.toFinset_append, framesSince]

theorem framesSince_stopped {kind : Event → Option Nat} {past es : List Event}
    (quiet : ∀ e ∈ es, kind e = none) (stopped : es.any isStopped = true) :
    framesSince kind (past ++ es) = ∅ := by
  rw [framesSince, sinceStop, since_append, if_pos stopped, framesOf_nil]
  · rfl
  · intro e mem
    exact quiet e (mem_since isStopped mem)

theorem framesSince_quiet {kind : Event → Option Nat} {past es : List Event}
    (quiet : ∀ e ∈ es, kind e = none) (running : ∀ e ∈ es, isStopped e = false) :
    framesSince kind (past ++ es) = framesSince kind past := by
  rw [framesSince_running running, framesOf_nil quiet]
  simp

theorem follows_continues {d after : H264AnnexBDecoder} {es past : List Event}
    (continues : Continues d es after) (follows : Follows (pairOf d) past) :
    Follows (pairOf after) (past ++ es) := by
  have same {kind : Event → Option Nat} (quiet : ∀ e ∈ es, kind e = none) :
      framesSince kind (past ++ es) = framesSince kind past :=
    framesSince_quiet quiet continues.running
  have eye (eye : Eye) := fun e mem => (continues.quiet e mem).2.2 eye
  constructor
  · rw [same fun e mem => (eye .left e mem).2.1, same fun e mem => (eye .right e mem).2.1,
      continues.pair]
    exact follows.tracks
  · rw [same fun e mem => (eye .left e mem).2.1, same fun e mem => (eye .left e mem).2.2]
    exact follows.lefts
  · rw [same fun e mem => (eye .right e mem).2.1, same fun e mem => (eye .right e mem).2.2]
    exact follows.rights
  · rw [same fun e mem => (continues.quiet e mem).1, continues.pair]
    exact follows.last

theorem restarts_framesSince {after : H264AnnexBDecoder} {es : List Event}
    (restarts : Restarts es after) (past : List Event) :
    framesSince published (past ++ es) = ∅ ∧
      (∀ eye, framesSince (rendered eye) (past ++ es) = ∅ ∧
        framesSince (delivered eye) (past ++ es) = ∅) := by
  constructor
  · exact framesSince_stopped (fun e mem => (restarts.quiet e mem).1) restarts.stopped
  · intro eye
    constructor
    · exact framesSince_stopped (fun e mem => ((restarts.quiet e mem).2.2 eye).2.1)
        restarts.stopped
    · exact framesSince_stopped (fun e mem => ((restarts.quiet e mem).2.2 eye).2.2)
        restarts.stopped

theorem follows_restarts {after : H264AnnexBDecoder} {es : List Event}
    (restarts : Restarts es after) (past : List Event) :
    Follows (pairOf after) (past ++ es) := by
  obtain ⟨publications, eyes⟩ := restarts_framesSince restarts past
  rw [restarts.pair]
  constructor
  · rw [(eyes .left).1, (eyes .right).1]
    exact tracks_empty
  · simp [(eyes .left).1]
  · simp [(eyes .right).1]
  · simp [publications, Pair.empty]

theorem follows_begins {d after : H264AnnexBDecoder} {es past : List Event}
    (begins : Begins d es after) (follows : Follows (pairOf d) past) :
    Follows (pairOf after) (past ++ es) := by
  rcases begins with continues | restarts
  · exact follows_continues continues follows
  · exact follows_restarts restarts past

/- The drains of a call and the publication behind them. -/

theorem drains_delivered (turn : Turn) :
    framesOf (delivered .left) (drains turn) = frames (dequeued turn.left.outputs) ∧
      framesOf (delivered .right) (drains turn) = frames (dequeued turn.right.outputs) := by
  constructor
  · rw [drains, framesOf_append, framesOf, framesOf, released_delivered, released_delivered]
    simp
  · rw [drains, framesOf_append, framesOf, framesOf, released_delivered, released_delivered]
    simp

theorem publication_eye (n : Option Nat) (eye : Eye) :
    framesOf (rendered eye) (publication n) = [] ∧
      framesOf (delivered eye) (publication n) = [] := by
  cases n with
  | none => exact ⟨rfl, rfl⟩
  | some n => exact ⟨rfl, rfl⟩

theorem union_toList (keys : Finset Nat) (new : Option Nat) :
    keys ∪ new.toList.toFinset = mark keys new := by
  cases new with
  | none => simp [mark]
  | some n => simp [mark]

theorem shown_framesSince (turn : Turn) (n : Option Nat) (past : List Event) :
    framesSince (rendered .left) (past ++ (drains turn ++ publication n)) =
        mark (framesSince (rendered .left) past) (newestLeft turn) ∧
      framesSince (rendered .right) (past ++ (drains turn ++ publication n)) =
        mark (framesSince (rendered .right) past) (newestRight turn) ∧
      framesSince (delivered .left) (past ++ (drains turn ++ publication n)) =
        framesSince (delivered .left) past ∪ outputLeft turn ∧
      framesSince (delivered .right) (past ++ (drains turn ++ publication n)) =
        framesSince (delivered .right) past ∪ outputRight turn ∧
      framesSince published (past ++ (drains turn ++ publication n)) =
        mark (framesSince published past) n := by
  have running := shown_running turn n
  refine ⟨?_, ?_, ?_, ?_, ?_⟩
  · rw [framesSince_running running, framesOf_append, drains_left, (publication_eye n .left).1,
      List.append_nil, union_toList]
  · rw [framesSince_running running, framesOf_append, drains_right, (publication_eye n .right).1,
      List.append_nil, union_toList]
  · rw [framesSince_running running, framesOf_append, (drains_delivered turn).1,
      (publication_eye n .left).2, List.append_nil, outputLeft]
  · rw [framesSince_running running, framesOf_append, (drains_delivered turn).2,
      (publication_eye n .right).2, List.append_nil, outputRight]
  · rw [framesSince_running running, framesOf_append,
      framesOf_nil fun e mem => (drains_only mem).1, (publication_frames n).1, List.nil_append,
      union_toList]

theorem newest_delivered (turn : Turn) :
    (∀ n ∈ newestLeft turn, n ∈ outputLeft turn) ∧
      (∀ n ∈ newestRight turn, n ∈ outputRight turn) := by
  constructor
  · intro n best
    exact List.mem_toFinset.mpr (newest_mem_frames best)
  · intro n best
    exact List.mem_toFinset.mpr (newest_mem_frames best)

theorem mark_subset {done seen new : Finset Nat} {best : Option Nat} (before : done ⊆ seen)
    (found : ∀ n ∈ best, n ∈ new) : mark done best ⊆ seen ∪ new := by
  intro n mem
  rcases mem_mark.mp mem with here | old
  · exact Finset.mem_union_right _ (found n here)
  · exact Finset.mem_union_left _ (before old)

theorem follows_shown {p : Pair Nat} {past : List Event} (turn : Turn) (follows : Follows p past) :
    Follows (p.step (newestLeft turn) (newestRight turn)).1
      (past ++ (drains turn ++ publication (p.step (newestLeft turn) (newestRight turn)).2)) := by
  obtain ⟨lefts, rights, outLefts, outRights, news⟩ := shown_framesSince turn
    (p.step (newestLeft turn) (newestRight turn)).2 past
  constructor
  · rw [lefts, rights]
    exact tracks_step _ _ follows.tracks
  · rw [lefts, outLefts]
    exact mark_subset follows.lefts (newest_delivered turn).1
  · rw [rights, outRights]
    exact mark_subset follows.rights (newest_delivered turn).2
  · intro n
    rw [news]
    cases outcome : (p.step (newestLeft turn) (newestRight turn)).2 with
    | none =>
      rw [(step_none outcome).2]
      exact follows.last n
    | some m =>
      obtain ⟨ready, same⟩ := step_some outcome
      rw [same]
      constructor
      · rintro ⟨k, mem, bound⟩
        refine ⟨m, rfl, ?_⟩
        rcases mem_mark.mp mem with here | old
        · rw [Option.some.inj here]
          exact bound
        · obtain ⟨j, last, below⟩ := (follows.last n).mp ⟨k, old, bound⟩
          exact le_trans below (le_of_lt ((ready_some.mp ready).1.2.2 j last))
      · rintro ⟨k, last, bound⟩
        exact ⟨k, mem_mark.mpr (Or.inl last), bound⟩

theorem noPairLost_iff {p : Pair Nat} {trace : List Event} (follows : Follows p trace) :
    NoPairLost trace ↔
      Covered p (framesSince (delivered .left) trace) (framesSince (delivered .right) trace) := by
  unfold NoPairLost Covered
  simp only [follows.last]

theorem shown_noPairLost_iff {p : Pair Nat} {past : List Event} (turn : Turn)
    (follows : Follows p past) :
    NoPairLost (past ++ (drains turn ++
        publication (p.step (newestLeft turn) (newestRight turn)).2)) ↔
      Kept p (framesSince (delivered .left) past ∪ outputLeft turn)
        (framesSince (delivered .right) past ∪ outputRight turn)
        (mark (framesSince (rendered .left) past) (newestLeft turn))
        (mark (framesSince (rendered .right) past) (newestRight turn)) := by
  obtain ⟨_, _, outLefts, outRights, _⟩ := shown_framesSince turn
    (p.step (newestLeft turn) (newestRight turn)).2 past
  rw [noPairLost_iff (follows_shown turn follows), outLefts, outRights]
  exact covered_iff_kept follows.tracks (mark_subset follows.lefts (newest_delivered turn).1)
    (mark_subset follows.rights (newest_delivered turn).2)

structure Intact (d : H264AnnexBDecoder) (past : List Event) : Prop where
  onSurfaces : OnSurfaces d
  follows : Follows (pairOf d) past
  noneLost : NoPairLost past

theorem call_follows {d : H264AnnexBDecoder} {past : List Event} (intact : Intact d past)
    (call : Call) :
    OnSurfaces (decodeCall d call).1 ∧
      Follows (pairOf (decodeCall d call).1) (past ++ (decodeCall d call).2) := by
  obtain ⟨outcome, onSurfaces⟩ := decodeCall_outcome intact.onSurfaces call
  refine ⟨onSurfaces, ?_⟩
  cases outcome with
  | waiting _ _ begins _ => exact follows_begins begins intact.follows
  | drained on anew pair _ parts =>
    rw [pair, parts, ← List.append_assoc]
    exact follows_shown call.turn (follows_begins (begins_of_goes on anew) intact.follows)

theorem begins_noPairLost {d after : H264AnnexBDecoder} {es past : List Event}
    (begins : Begins d es after) (noneLost : NoPairLost past) : NoPairLost (past ++ es) := by
  rcases begins with continues | restarts
  · have quiet := continues.quiet
    have running := continues.running
    unfold NoPairLost
    rw [framesSince_quiet (fun e mem => ((quiet e mem).2.2 .left).2.2) running,
      framesSince_quiet (fun e mem => ((quiet e mem).2.2 .right).2.2) running,
      framesSince_quiet (fun e mem => (quiet e mem).1) running]
    exact noneLost
  · intro n left
    rw [((restarts_framesSince restarts past).2 .left).2] at left
    simp at left

theorem call_noPairLost_iff {d : H264AnnexBDecoder} {past : List Event} (intact : Intact d past)
    (call : Call) :
    NoPairLost (past ++ (decodeCall d call).2) ↔ NewestPairKept d past call := by
  obtain ⟨outcome, _⟩ := decodeCall_outcome intact.onSurfaces call
  unfold NewestPairKept
  cases outcome with
  | waiting idle unable begins _ =>
    rw [if_neg idle]
    refine iff_of_true (begins_noPairLost begins intact.noneLost) ?_
    intro starts
    exact absurd starts unable
  | @drained started _ es _ on anew _ _ parts =>
    have follows := follows_begins (begins_of_goes on anew) intact.follows
    have shown_ := shown_noPairLost_iff call.turn follows
    rw [parts, ← List.append_assoc past, shown_]
    by_cases goes : GoesOn d call.header
    · have quiet := (on goes).quiet
      have running := (on goes).running
      rw [if_pos goes, (on goes).pair,
        framesSince_quiet (fun e mem => ((quiet e mem).2.2 .left).2.2) running,
        framesSince_quiet (fun e mem => ((quiet e mem).2.2 .right).2.2) running,
        framesSince_quiet (fun e mem => ((quiet e mem).2.2 .left).2.1) running,
        framesSince_quiet (fun e mem => ((quiet e mem).2.2 .right).2.1) running]
    · obtain ⟨starts, _, restarts⟩ := anew goes
      obtain ⟨_, eyes⟩ := restarts_framesSince restarts past
      rw [if_neg goes, restarts.pair, (eyes .left).1, (eyes .left).2, (eyes .right).1,
        (eyes .right).2, Finset.empty_union, Finset.empty_union]
      simp [starts]

theorem fresh_intact : Intact {} [] where
  onSurfaces := fun impossible _ => absurd rfl impossible
  follows := by
    constructor
    · exact tracks_empty
    · exact Finset.Subset.refl _
    · exact Finset.Subset.refl _
    · intro n
      simp [framesSince, sinceStop, since, framesOf, pairOf]
  noneLost := by
    intro n left
    simp [framesSince, sinceStop, since, framesOf] at left

/-- In every state of a run no pair is lost, exactly when every call keeps the newest pair. -/
theorem no_pair_lost_iff_kept (calls : List Call) :
    AtSteps decodeCall (fun d past call => NoPairLost (past ++ (decodeCall d call).2)) {} []
        calls ↔
      AtSteps decodeCall NewestPairKept {} [] calls := by
  apply atSteps_iff Intact
  · intro d past call intact noneLost
    obtain ⟨onSurfaces, follows⟩ := call_follows intact call
    exact { onSurfaces, follows, noneLost }
  · intro d past call intact
    exact call_noPairLost_iff intact call
  · exact fresh_intact

def crossedBatches : List Call :=
  [promptCall 1 (promptTurn (promptCodec 0 0) (promptCodec 0 0)),
    promptCall 2 (promptTurn (promptCodec 1 2) (promptCodec 1 1)),
    promptCall 3 (promptTurn (promptCodec 0 0) (promptCodec 2 2)),
    promptCall 4 (promptTurn (promptCodec 3 2) (promptCodec 0 0))]

theorem crossed_batches_lose_pairs :
    Increasing crossedBatches ∧ (∀ eye, AtEvents (InOrder eye) [] (decodeTrace crossedBatches)) ∧
      (decodeTrace crossedBatches).count .stopped = 1 ∧
      framesOf (delivered .left) (decodeTrace crossedBatches) = [1, 2, 3, 4] ∧
      framesOf (delivered .right) (decodeTrace crossedBatches) = [1, 2, 3] ∧
      framesOf published (decodeTrace crossedBatches) = [] ∧
      ¬ AtSteps decodeCall (fun d past call => NoPairLost (past ++ (decodeCall d call).2)) {} []
        crossedBatches := by
  refine ⟨by decide, ?_, by decide, by decide, by decide, by decide, ?_⟩
  · intro eye
    cases eye
    · decide
    · decide
  · intro kept
    have second := kept.2.1 1 (by decide) (by decide)
    revert second
    decide

end QuestSkipping
