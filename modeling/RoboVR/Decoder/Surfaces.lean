import RoboVR.Decoder.Resources

/- The decoder and the OpenXR sessions that publish its surfaces. A call of `decode` is its head,
   the acquire, the two codecs, the two inputs, the drains and the publication; sessions come and
   go between any of these. -/
namespace QuestSurfaces
open QuestTeleop (Bytes VideoFrameHeader)
open QuestMediaCodec QuestH264Decoder QuestDecodeStep QuestDecodeTrace QuestResources
open TracedRun

/-- How far the call of `decode` is that runs. -/
inductive Phase where
  | idle
  | acquire (call : Call)
  | createLeft (call : Call) (surfaces : StereoCodecSurfaces)
  | createRight (call : Call) (surfaces : StereoCodecSurfaces)
  | queueLeft (call : Call)
  | queueRight (call : Call) (leftQueued : Bool)
  | draining (call : Call)
  | publishing (call : Call)

/-- `g_codec_surfaces` (none when its windows are null), its counter and the decoder. -/
structure SurfaceState where
  published : Option StereoCodecSurfaces := none
  generation : UInt32 := 0
  decoder : H264AnnexBDecoder := {}
  phase : Phase := .idle

inductive Move where
  | createCodecSurfaceResources (windows : Option (Nat × Nat))
  | cleanup
  | decode (call : Call)
  | advance

inductive SurfaceEvent where
  | created (surfaces : StereoCodecSurfaces)
  | cleared
  | decoder (event : Event)
  deriving DecidableEq

def createCodecSurfaceResources (s : SurfaceState) (windows : Option (Nat × Nat)) :
    SurfaceState × List SurfaceEvent :=
  match windows with
  | none => (s, [])
  | some (left, right) =>
    let generation := s.generation + 1
    let surfaces : StereoCodecSurfaces :=
      { leftWindow := left, rightWindow := right, generation := generation.toNat }
    ({ s with published := some surfaces, generation := generation }, [.created surfaces])

def cleanup (s : SurfaceState) : SurfaceState × List SurfaceEvent :=
  ({ s with published := none, generation := s.generation + 1 }, [.cleared])

/-- `ensureStarted` returns before it stops the codecs, with this value. -/
def startedAlready (d : H264AnnexBDecoder) (header : VideoFrameHeader) : Option Bool :=
  if header.width = 0 ∨ header.height = 0 ∨ header.leftPayloadSize = 0 ∨
      header.rightPayloadSize = 0 then some false
  else if d.leftCodec ≠ none ∧ d.rightCodec ≠ none ∧ d.width = header.width ∧
      d.height = header.height then some true
  else none

def begin (s : SurfaceState) (call : Call) : SurfaceState × List SurfaceEvent :=
  let restarted := restartIfRewound s.decoder call.header.frameIndex.toNat
  match startedAlready restarted.1 call.header with
  | some true =>
    ({ s with decoder := restarted.1, phase := .queueLeft call }, restarted.2.map .decoder)
  | some false => ({ s with decoder := restarted.1 }, restarted.2.map .decoder)
  | none =>
    let stopped := stop restarted.1
    ({ s with
      decoder := { stopped.1 with width := call.header.width, height := call.header.height }
      phase := .acquire call }, (restarted.2 ++ stopped.2).map .decoder)

def acquireStereoCodecSurfaces (s : SurfaceState) (call : Call) :
    SurfaceState × List SurfaceEvent :=
  match s.published with
  | none => ({ s with phase := .idle }, [])
  | some surfaces =>
    ({ s with
      decoder :=
        { s.decoder with
          leftWindow := some surfaces.leftWindow
          rightWindow := some surfaces.rightWindow
          surfaceGeneration := surfaces.generation
          surfaceOutput := true }
      phase := .createLeft call surfaces },
      [.decoder (.windowAcquired .left surfaces.leftWindow),
        .decoder (.windowAcquired .right surfaces.rightWindow)])

def createLeft (s : SurfaceState) (call : Call) (surfaces : StereoCodecSurfaces) :
    SurfaceState × List SurfaceEvent :=
  let left := createH264Decoder .left surfaces.leftWindow call.turn.left.create
  ({ s with
    decoder := { s.decoder with leftCodec := left.1 }
    phase := .createRight call surfaces }, left.2.map .decoder)

def createRight (s : SurfaceState) (call : Call) (surfaces : StereoCodecSurfaces) :
    SurfaceState × List SurfaceEvent :=
  let right := createH264Decoder .right surfaces.rightWindow call.turn.right.create
  let d := { s.decoder with rightCodec := right.1 }
  if d.leftCodec = none ∨ d.rightCodec = none then
    ({ s with decoder := (stop d).1, phase := .idle }, (right.2 ++ (stop d).2).map .decoder)
  else ({ s with decoder := d, phase := .queueLeft call }, right.2.map .decoder)

def queueLeft (s : SurfaceState) (call : Call) : SurfaceState × List SurfaceEvent :=
  let queued := queueAccessUnit .left s.decoder.leftCodec call.left
    call.header.frameIndex.toNat call.turn.left.input
  ({ s with phase := .queueRight call queued.1 }, queued.2.map .decoder)

def queueRight (s : SurfaceState) (call : Call) (leftQueued : Bool) :
    SurfaceState × List SurfaceEvent :=
  let queued := queueAccessUnit .right s.decoder.rightCodec call.right
    call.header.frameIndex.toNat call.turn.right.input
  let d := s.decoder
  ({ s with
    decoder :=
      if leftQueued && queued.1 then
        { d with receiveTimeByFrame :=
            assign call.header.frameIndex.toNat call.turn.receiveTimeNs d.receiveTimeByFrame }
      else d
    phase := .draining call }, queued.2.map .decoder)

def drain (s : SurfaceState) (call : Call) : SurfaceState × List SurfaceEvent :=
  let drained :=
    if s.decoder.surfaceOutput then drainSurfaces s.decoder call.turn
    else drainImages s.decoder call.turn
  ({ s with decoder := drained.1, phase := .publishing call }, drained.2.map .decoder)

def publish (s : SurfaceState) (call : Call) : SurfaceState × List SurfaceEvent :=
  let published :=
    if s.decoder.surfaceOutput then publishReady s.decoder call.turn.publishTimeNs
    else publishImages s.decoder call.turn.publishTimeNs
  ({ s with decoder := published.1, phase := .idle }, published.2.map .decoder)

def step (s : SurfaceState) : Move → SurfaceState × List SurfaceEvent
  | .createCodecSurfaceResources windows => createCodecSurfaceResources s windows
  | .cleanup => cleanup s
  | .decode call =>
    match s.phase with
    | .idle => begin s call
    | _ => (s, [])
  | .advance =>
    match s.phase with
    | .idle => (s, [])
    | .acquire call => acquireStereoCodecSurfaces s call
    | .createLeft call surfaces => createLeft s call surfaces
    | .createRight call surfaces => createRight s call surfaces
    | .queueLeft call => queueLeft s call
    | .queueRight call leftQueued => queueRight s call leftQueued
    | .draining call => drain s call
    | .publishing call => publish s call

def isInput : SurfaceEvent → Bool
  | .decoder (.inputQueued _ _ _ _) => true
  | _ => false

def isFrame : SurfaceEvent → Bool
  | .decoder (.publishStereoCodecFrame _) => true
  | .decoder (.publishStereoVideoFrame _) => true
  | _ => false

def RendersTo (d : H264AnnexBDecoder) (surfaces : StereoCodecSurfaces) : Prop :=
  d.leftCodec = some { window := surfaces.leftWindow } ∧
    d.rightCodec = some { window := surfaces.rightWindow } ∧
    d.surfaceGeneration = surfaces.generation

def FollowsSurfaces (s : SurfaceState) (_ : List SurfaceEvent) (move : Move) : Prop :=
  ((step s move).2.any isInput = true →
      ∃ surfaces ∈ s.published, RendersTo s.decoder surfaces) ∧
    ((step s move).2.any isFrame = true →
      ∀ surfaces ∈ s.published, RendersTo s.decoder surfaces)

def isAcquired : SurfaceEvent → Bool
  | .decoder (.windowAcquired .left _) => true
  | _ => false

def isCreated : SurfaceEvent → Bool
  | .created _ => true
  | _ => false

def isSession : SurfaceEvent → Bool
  | .created _ | .cleared => true
  | .decoder _ => false

/-- No session replaced or took away the surfaces since the decoder acquired them, at the moves
    that hand the codecs an access unit, and none replaced them where frames are published. -/
def SurfacesStay (s : SurfaceState) (past : List SurfaceEvent) (move : Move) : Prop :=
  match move, s.phase with
  | .advance, .queueLeft _ => (since isAcquired past).any isSession = false
  | .advance, .queueRight _ _ => (since isAcquired past).any isSession = false
  | .advance, .publishing _ => (since isAcquired past).any isCreated = false
  | _, _ => True

instance (d : H264AnnexBDecoder) (surfaces : StereoCodecSurfaces) :
    Decidable (RendersTo d surfaces) := by
  unfold RendersTo
  exact inferInstance

instance (s : SurfaceState) (past : List SurfaceEvent) (move : Move) :
    Decidable (FollowsSurfaces s past move) := by
  unfold FollowsSurfaces
  exact inferInstance

instance (s : SurfaceState) (past : List SurfaceEvent) (move : Move) :
    Decidable (SurfacesStay s past move) := by
  unfold SurfacesStay
  split <;> exact inferInstance

theorem run_idle {s : SurfaceState} (free : s.phase = .idle) (n : Nat) :
    run step s (List.replicate n .advance) = (s, []) := by
  induction n with
  | zero => rfl
  | succ n ih =>
    have still : step s .advance = (s, []) := by simp only [step, free]
    rw [List.replicate_succ, run, still, ih]
    rfl

theorem run_output {s : SurfaceState} {call : Call} (phase : s.phase = .draining call) :
    run step s [.advance, .advance] =
      ({ s with decoder := (output s.decoder call.turn).1, phase := .idle },
        (output s.decoder call.turn).2.map .decoder) := by
  simp only [run, step, phase, drain, publish, output]
  cases surfaces : s.decoder.surfaceOutput with
  | true =>
    have still : (drainSurfaces s.decoder call.turn).1.surfaceOutput = true := surfaces
    simp only [if_true, still, List.map_append, List.append_nil]
  | false =>
    have still : (drainImages s.decoder call.turn).1.surfaceOutput = false := surfaces
    simp only [Bool.false_eq_true, if_false, still, List.map_append, List.append_nil]

theorem run_queue {s : SurfaceState} {call : Call} (phase : s.phase = .queueLeft call) :
    run step s [.advance, .advance, .advance, .advance] =
      ({ s with
        decoder := (output (queueStereo s.decoder call.header.frameIndex.toNat call.left
          call.right call.turn).1 call.turn).1
        phase := .idle },
        ((queueStereo s.decoder call.header.frameIndex.toNat call.left call.right
          call.turn).2.1 ++ (output (queueStereo s.decoder call.header.frameIndex.toNat call.left
          call.right call.turn).1 call.turn).2).map .decoder) := by
  have queued : run step s [.advance, .advance] =
      ({ s with
        decoder := (queueStereo s.decoder call.header.frameIndex.toNat call.left call.right
          call.turn).1
        phase := .draining call },
        (queueStereo s.decoder call.header.frameIndex.toNat call.left call.right
          call.turn).2.1.map .decoder) := by
    simp only [run, step, phase, queueLeft, queueRight, queueStereo, List.map_append,
      List.append_nil]
  have four : [Move.advance, .advance, .advance, .advance] =
      [.advance, .advance] ++ [.advance, .advance] := rfl
  rw [four, run_append, queued, run_output rfl, List.map_append]

theorem run_start {s : SurfaceState} {call : Call} (phase : s.phase = .acquire call) :
    run step s [.advance, .advance, .advance] =
      match s.published with
      | none => ({ s with phase := .idle }, [])
      | some surfaces =>
        let started := startCodecs s.decoder surfaces call.turn
        ({ s with
          decoder := started.1
          phase := if started.2.2 then .queueLeft call else .idle },
          started.2.1.map .decoder) := by
  cases published : s.published with
  | none => simp only [run, step, phase, acquireStereoCodecSurfaces, published, List.append_nil]
  | some surfaces =>
    simp only [run, step, phase, acquireStereoCodecSurfaces, published, createLeft, createRight,
      startCodecs]
    split
    · simp only [Bool.false_eq_true, if_false, List.map_append, List.map_cons, List.map_nil,
        List.append_assoc, List.append_nil]
    · simp only [if_true, List.map_append, List.map_cons, List.map_nil,
        List.append_assoc, List.append_nil]

theorem ensureStarted_split (d : H264AnnexBDecoder) (header : VideoFrameHeader) (turn : Turn) :
    ensureStarted d header turn =
      match startedAlready d header with
      | some ok => (d, [], ok)
      | none =>
        let resized := { (stop d).1 with width := header.width, height := header.height }
        match turn.surfaces with
        | none => (resized, (stop d).2, false)
        | some surfaces =>
          let started := startCodecs resized surfaces turn
          (started.1, (stop d).2 ++ started.2.1, started.2.2) := by
  unfold ensureStarted startedAlready
  split
  · rfl
  · split <;> rfl

theorem call_decode (s : SurfaceState) (free : s.phase = .idle) (call : Call) :
    let decoded := decode s.decoder call.header call.left call.right
      { call.turn with surfaces := s.published }
    let moved := run step s (.decode call :: List.replicate 7 .advance)
    moved.1 = { s with decoder := decoded.1 } ∧ moved.2 = decoded.2.1.map .decoder := by
  obtain ⟨published, generation, decoder, phase⟩ := s
  obtain rfl : phase = .idle := free
  have early : List.replicate 7 Move.advance =
      [.advance, .advance, .advance, .advance] ++ List.replicate 3 .advance := rfl
  have late : List.replicate 7 Move.advance =
      [.advance, .advance, .advance] ++ List.replicate 4 .advance := rfl
  simp only [run, step, begin, decode, ensureStarted_split]
  generalize restartIfRewound decoder call.header.frameIndex.toNat = restarted
  cases startedAlready restarted.1 call.header with
  | some ok =>
    cases ok with
    | false =>
      simp only [Bool.false_eq_true, if_false]
      rw [run_idle rfl]
      simp
    | true =>
      simp only [if_true]
      rw [early, run_append, run_queue rfl, run_idle rfl]
      simp only [List.append_nil, List.map_append, List.append_assoc]
      exact ⟨rfl, rfl⟩
  | none =>
    simp only
    rw [late, run_append, run_start rfl]
    cases published with
    | none =>
      simp only
      rw [run_idle rfl]
      simp
    | some surfaces =>
      have sameTurn (d : H264AnnexBDecoder) :
          startCodecs d surfaces { call.turn with surfaces := some surfaces } =
            startCodecs d surfaces call.turn := rfl
      simp only [sameTurn]
      generalize startCodecs { (stop restarted.1).1 with
        width := call.header.width, height := call.header.height } surfaces call.turn = started
      obtain ⟨d, es, ok⟩ := started
      cases ok with
      | false =>
        simp only [Bool.false_eq_true, if_false]
        rw [run_idle rfl]
        simp
      | true =>
        have four : List.replicate 4 Move.advance =
            [.advance, .advance, .advance, .advance] := rfl
        simp only [if_true, four]
        rw [run_queue rfl]
        simp only [List.map_append, List.append_assoc]
        exact ⟨rfl, rfl⟩

/- What the decoder renders to, over a run. -/

def BoundFor (s : SurfaceState) (surfaces : StereoCodecSurfaces) : Prop :=
  match s.phase with
  | .acquire _ => False
  | .createLeft _ acquired =>
    acquired = surfaces ∧ s.decoder.surfaceGeneration = surfaces.generation
  | .createRight _ acquired =>
    acquired = surfaces ∧ s.decoder.surfaceGeneration = surfaces.generation ∧
      ∀ codec ∈ s.decoder.leftCodec, codec.window = surfaces.leftWindow
  | _ => RendersTo s.decoder surfaces

/-- Nothing is held, or what was acquired is still published until a session ends, and nothing
    else is until one begins. -/
inductive Tracks (s : SurfaceState) (past : List SurfaceEvent) : Prop
  | bare (nothing : NoneHeld s.decoder) (free : s.phase = .idle ∨ ∃ call, s.phase = .acquire call)
  | bound (surfaces : StereoCodecSurfaces) (boundFor : BoundFor s surfaces)
    (stays : (since isAcquired past).any isSession = false → s.published = some surfaces)
    (unreplaced : (since isAcquired past).any isCreated = false →
      s.published = some surfaces ∨ s.published = none)

theorem decoder_noSession (es : List Event) :
    (es.map SurfaceEvent.decoder).any isSession = false ∧
      (es.map SurfaceEvent.decoder).any isCreated = false := by
  simp [isSession, isCreated]

def NoAcquire (es : List Event) : Prop := ∀ e ∈ es, isAcquired (.decoder e) = false

theorem since_noAcquire {es : List Event} (none_ : NoAcquire es) (past : List SurfaceEvent) :
    since isAcquired (past ++ es.map .decoder) = since isAcquired past ++ es.map .decoder := by
  apply since_append_plain
  intro e mem
  obtain ⟨event, inside, rfl⟩ := List.mem_map.mp mem
  exact none_ event inside

theorem noAcquire_part {part : Part} {es : List Event} (all : AllOf part es)
    (other : part ≠ .start) : NoAcquire es := by
  intro e mem
  have kind := all e mem
  cases e <;> first | rfl | exact absurd kind.symm other

theorem create_noAcquire (eye : Eye) (window : Nat) (result : CreateResult) :
    NoAcquire (createH264Decoder eye window result).2 := by
  cases result <;> simp [NoAcquire, createH264Decoder, isAcquired]

theorem create_window {eye : Eye} {window : Nat} {result : CreateResult} {codec : AMediaCodec}
    (created : (createH264Decoder eye window result).1 = some codec) : codec.window = window := by
  cases result <;> simp_all [createH264Decoder, eq_comm]

theorem tracks_bound {s after : SurfaceState} {past : List SurfaceEvent} {es : List Event}
    {surfaces : StereoCodecSurfaces} (boundFor : BoundFor after surfaces)
    (stays : (since isAcquired past).any isSession = false → s.published = some surfaces)
    (unreplaced : (since isAcquired past).any isCreated = false →
      s.published = some surfaces ∨ s.published = none)
    (published : after.published = s.published) (none_ : NoAcquire es) :
    Tracks after (past ++ es.map .decoder) := by
  obtain ⟨noSession, noCreated⟩ := decoder_noSession es
  apply Tracks.bound surfaces boundFor
  · rw [since_noAcquire none_, List.any_append, noSession, Bool.or_false, published]
    exact stays
  · rw [since_noAcquire none_, List.any_append, noCreated, Bool.or_false, published]
    exact unreplaced

theorem begin_tracks {s : SurfaceState} {past : List SurfaceEvent} (tracks : Tracks s past)
    (free : s.phase = .idle) (call : Call) :
    Tracks (begin s call).1 (past ++ (begin s call).2) := by
  unfold begin
  simp only
  by_cases back : rewound s.decoder call.header.frameIndex.toNat = true
  · have stopped : restartIfRewound s.decoder call.header.frameIndex.toNat = stop s.decoder :=
      if_pos back
    rw [stopped]
    have idle : startedAlready (stop s.decoder).1 call.header ≠ some true := by
      unfold startedAlready
      split
      · simp
      · rw [if_neg fun running => running.1 rfl]
        simp
    cases answer : startedAlready (stop s.decoder).1 call.header with
    | none => exact Tracks.bare (stop_none (stop s.decoder).1) (Or.inr ⟨call, rfl⟩)
    | some value =>
      cases value with
      | true => exact absurd answer idle
      | false => exact Tracks.bare (stop_none s.decoder) (Or.inl free)
  · have same : restartIfRewound s.decoder call.header.frameIndex.toNat = (s.decoder, []) :=
      if_neg back
    rw [same]
    cases answer : startedAlready s.decoder call.header with
    | none => exact Tracks.bare (stop_none s.decoder) (Or.inr ⟨call, rfl⟩)
    | some value =>
      cases value with
      | false =>
        simp only [List.map_nil, List.append_nil]
        exact tracks
      | true =>
        have live : s.decoder.leftCodec ≠ none := by
          unfold startedAlready at answer
          split at answer
          · simp at answer
          · split at answer
            case isTrue running => exact running.1
            case isFalse => simp at answer
        simp only [List.map_nil, List.append_nil]
        cases tracks with
        | bare nothing _ => exact absurd nothing.1 live
        | bound surfaces boundFor stays unreplaced =>
          simp only [BoundFor, free] at boundFor
          exact Tracks.bound surfaces boundFor stays unreplaced

theorem acquire_tracks {s : SurfaceState} {past : List SurfaceEvent} {call : Call}
    (tracks : Tracks s past) (phase : s.phase = .acquire call) :
    Tracks (acquireStereoCodecSurfaces s call).1
      (past ++ (acquireStereoCodecSurfaces s call).2) := by
  cases tracks with
  | bound _ boundFor _ _ => simp [BoundFor, phase] at boundFor
  | bare nothing _ =>
    unfold acquireStereoCodecSurfaces
    cases published : s.published with
    | none => exact Tracks.bare nothing (Or.inl rfl)
    | some surfaces =>
      apply Tracks.bound surfaces
      · exact ⟨rfl, rfl⟩
      · exact fun _ => rfl
      · exact fun _ => Or.inl rfl

theorem createLeft_tracks {s : SurfaceState} {past : List SurfaceEvent} {call : Call}
    {surfaces : StereoCodecSurfaces} (tracks : Tracks s past)
    (phase : s.phase = .createLeft call surfaces) :
    Tracks (createLeft s call surfaces).1 (past ++ (createLeft s call surfaces).2) := by
  cases tracks with
  | bare _ free => simp [phase] at free
  | bound other boundFor stays unreplaced =>
    simp only [BoundFor, phase] at boundFor
    obtain ⟨rfl, generation⟩ := boundFor
    unfold createLeft
    refine tracks_bound ?_ stays unreplaced rfl (create_noAcquire _ _ _)
    exact ⟨rfl, generation, fun codec created => create_window created⟩

theorem createRight_tracks {s : SurfaceState} {past : List SurfaceEvent} {call : Call}
    {surfaces : StereoCodecSurfaces} (tracks : Tracks s past)
    (phase : s.phase = .createRight call surfaces) :
    Tracks (createRight s call surfaces).1 (past ++ (createRight s call surfaces).2) := by
  cases tracks with
  | bare _ free => simp [phase] at free
  | bound other boundFor stays unreplaced =>
    simp only [BoundFor, phase] at boundFor
    obtain ⟨rfl, generation, left⟩ := boundFor
    unfold createRight
    simp only
    split
    case isTrue => exact Tracks.bare (stop_none _) (Or.inl rfl)
    case isFalse both =>
      simp only [not_or] at both
      obtain ⟨leftCodec, isLeft⟩ := Option.ne_none_iff_exists'.mp both.1
      obtain ⟨rightCodec, isRight⟩ := Option.ne_none_iff_exists'.mp both.2
      refine tracks_bound ?_ stays unreplaced rfl (create_noAcquire _ _ _)
      refine ⟨isLeft.trans ?_, isRight.trans ?_, generation⟩
      · rw [← left leftCodec isLeft]
      · rw [← create_window isRight]

theorem tracks_session {s after : SurfaceState} {past : List SurfaceEvent} {e : SurfaceEvent}
    (tracks : Tracks s past) (decoder : after.decoder = s.decoder) (phase : after.phase = s.phase)
    (plain : isAcquired e = false) (session : isSession e = true)
    (clears : isCreated e = false → after.published = none) :
    Tracks after (past ++ [e]) := by
  have longer : since isAcquired (past ++ [e]) = since isAcquired past ++ [e] :=
    since_append_plain isAcquired past (by simpa using plain)
  cases tracks with
  | bare nothing free =>
    rw [← phase] at free
    exact Tracks.bare (decoder ▸ nothing) free
  | bound surfaces boundFor _ _ =>
    have still : BoundFor after surfaces := by
      rw [BoundFor, phase, decoder]
      exact boundFor
    apply Tracks.bound surfaces still
    · intro noSession
      rw [longer, List.any_append, Bool.or_eq_false_iff] at noSession
      simp [session] at noSession
    · intro noCreated
      rw [longer, List.any_append, Bool.or_eq_false_iff] at noCreated
      exact Or.inr (clears (by simpa using noCreated.2))

theorem tracks_same {s after : SurfaceState} {past : List SurfaceEvent} {es : List Event}
    (tracks : Tracks s past) (busy : ¬ (s.phase = .idle ∨ ∃ call, s.phase = .acquire call))
    (renders : ∀ surfaces, BoundFor s surfaces → BoundFor after surfaces)
    (published : after.published = s.published) (none_ : NoAcquire es) :
    Tracks after (past ++ es.map .decoder) := by
  cases tracks with
  | bare _ free => exact absurd free busy
  | bound surfaces boundFor stays unreplaced =>
    exact tracks_bound (renders surfaces boundFor) stays unreplaced published none_

theorem renders_setup {d after : H264AnnexBDecoder} {surfaces : StereoCodecSurfaces}
    (same : setup after = setup d) (renders : RendersTo d surfaces) :
    RendersTo after surfaces := by
  simp only [setup, Setup.mk.injEq] at same
  obtain ⟨left, right, _, _, generation, _⟩ := same
  rw [RendersTo, left, right, generation]
  exact renders

theorem drain_released (s : SurfaceState) (call : Call) :
    setup (drain s call).1.decoder = setup s.decoder ∧
      ∃ es : List Event, (drain s call).2 = es.map .decoder ∧ ∀ e ∈ es, isReleased e = true := by
  unfold drain
  split
  · obtain ⟨same, released⟩ := drainSurfaces_released s.decoder call.turn
    exact ⟨same, _, rfl, released⟩
  · obtain ⟨same, released⟩ := drainImages_released s.decoder call.turn
    exact ⟨same, _, rfl, released⟩

theorem publish_output (s : SurfaceState) (call : Call) :
    setup (publish s call).1.decoder = setup s.decoder ∧
      ∃ es, (publish s call).2 = es.map .decoder ∧ AllOf .output es := by
  unfold publish
  split
  · obtain ⟨same, published⟩ := publishReady_output s.decoder call.turn.publishTimeNs
    exact ⟨same, _, rfl, published⟩
  · obtain ⟨same, published⟩ := publishImages_output s.decoder call.turn.publishTimeNs
    exact ⟨same, _, rfl, published⟩

theorem step_tracks {s : SurfaceState} {past : List SurfaceEvent} (tracks : Tracks s past)
    (move : Move) : Tracks (step s move).1 (past ++ (step s move).2) := by
  cases move with
  | createCodecSurfaceResources windows =>
    cases windows with
    | none => simpa only [step, createCodecSurfaceResources, List.append_nil] using tracks
    | some windows =>
      simp only [step, createCodecSurfaceResources]
      apply tracks_session tracks
      · rfl
      · rfl
      · rfl
      · simp [isSession]
      · simp [isCreated]
  | cleanup =>
    simp only [step, cleanup]
    apply tracks_session tracks
    · rfl
    · rfl
    · rfl
    · simp [isSession]
    · exact fun _ => rfl
  | decode call =>
    cases free : s.phase with
    | idle => simpa only [step, free] using begin_tracks tracks free call
    | _ => simpa only [step, free, List.append_nil] using tracks
  | advance =>
    cases phase : s.phase with
    | idle => simpa only [step, phase, List.append_nil] using tracks
    | acquire call => simpa only [step, phase] using acquire_tracks tracks phase
    | createLeft call surfaces => simpa only [step, phase] using createLeft_tracks tracks phase
    | createRight call surfaces => simpa only [step, phase] using createRight_tracks tracks phase
    | queueLeft call =>
      simp only [step, phase, queueLeft]
      apply tracks_same tracks
      · simp [phase]
      · intro surfaces renders
        simpa only [BoundFor, phase] using renders
      · rfl
      · exact noAcquire_part (queueAccessUnit_input _ _ _ _ _) (by decide)
    | queueRight call leftQueued =>
      simp only [step, phase, queueRight]
      apply tracks_same tracks
      · simp [phase]
      · intro surfaces renders
        simp only [BoundFor, phase] at renders ⊢
        split <;> exact renders
      · rfl
      · exact noAcquire_part (queueAccessUnit_input _ _ _ _ _) (by decide)
    | draining call =>
      obtain ⟨same, es, events, released⟩ := drain_released s call
      simp only [step, phase]
      rw [events]
      apply tracks_same tracks
      · simp [phase]
      · intro surfaces renders
        simp only [BoundFor, phase] at renders
        exact renders_setup same renders
      · rfl
      · exact noAcquire_part (released_output released) (by decide)
    | publishing call =>
      obtain ⟨same, es, events, published⟩ := publish_output s call
      simp only [step, phase]
      rw [events]
      apply tracks_same tracks
      · simp [phase]
      · intro surfaces renders
        simp only [BoundFor, phase] at renders
        exact renders_setup same renders
      · rfl
      · exact noAcquire_part published (by decide)

/- What the parts of a call put into the trace. -/

theorem allOf_noInput {part : Part} {es : List Event} (all : AllOf part es)
    (other : part ≠ .input) : (es.map SurfaceEvent.decoder).any isInput = false := by
  rw [List.any_map, List.any_eq_false]
  intro e mem
  have kind := all e mem
  cases e <;> first | exact Bool.false_ne_true | exact absurd kind.symm other

theorem allOf_noFrame {part : Part} {es : List Event} (all : AllOf part es)
    (other : part ≠ .output) : (es.map SurfaceEvent.decoder).any isFrame = false := by
  rw [List.any_map, List.any_eq_false]
  intro e mem
  have kind := all e mem
  cases e <;> first | exact Bool.false_ne_true | exact absurd kind.symm other

theorem released_noFrame {es : List Event} (all : ∀ e ∈ es, isReleased e = true) :
    (es.map SurfaceEvent.decoder).any isFrame = false := by
  rw [List.any_map, List.any_eq_false]
  intro e mem
  have kind := all e mem
  cases e <;> first | exact Bool.false_ne_true | exact absurd kind Bool.false_ne_true

theorem begin_start (s : SurfaceState) (call : Call) :
    ∃ es, (begin s call).2 = es.map .decoder ∧ AllOf .start es := by
  have restarted := restartIfRewound_start s.decoder call.header.frameIndex.toNat
  unfold begin
  simp only
  split
  · exact ⟨_, rfl, restarted⟩
  · exact ⟨_, rfl, restarted⟩
  · exact ⟨_, rfl, allOf_append restarted (stop_start _)⟩

theorem acquire_start (s : SurfaceState) (call : Call) :
    ∃ es, (acquireStereoCodecSurfaces s call).2 = es.map .decoder ∧ AllOf .start es := by
  unfold acquireStereoCodecSurfaces
  cases s.published with
  | none => exact ⟨[], rfl, allOf_nil _⟩
  | some surfaces =>
    exact ⟨[.windowAcquired .left surfaces.leftWindow, .windowAcquired .right surfaces.rightWindow],
      rfl, by simp [AllOf, partOf]⟩

theorem createRight_start (s : SurfaceState) (call : Call) (surfaces : StereoCodecSurfaces) :
    ∃ es, (createRight s call surfaces).2 = es.map .decoder ∧ AllOf .start es := by
  have created := create_start .right surfaces.rightWindow call.turn.right.create
  unfold createRight
  simp only
  split
  · exact ⟨_, rfl, allOf_append created (stop_start _)⟩
  · exact ⟨_, rfl, created⟩

theorem queue_follows {s : SurfaceState} {past : List SurfaceEvent} (tracks : Tracks s past)
    (queueing : (∃ call, s.phase = .queueLeft call) ∨
      ∃ call leftQueued, s.phase = .queueRight call leftQueued)
    (stay : (since isAcquired past).any isSession = false) :
    ∃ surfaces, s.published = some surfaces ∧ RendersTo s.decoder surfaces := by
  cases tracks with
  | bare _ free => rcases queueing with ⟨_, phase⟩ | ⟨_, _, phase⟩ <;> simp [phase] at free
  | bound surfaces boundFor stays _ =>
    refine ⟨surfaces, stays stay, ?_⟩
    rcases queueing with ⟨_, phase⟩ | ⟨_, _, phase⟩ <;> simpa only [BoundFor, phase] using boundFor

theorem step_follows {s : SurfaceState} {past : List SurfaceEvent} {move : Move}
    (tracks : Tracks s past) (stay : SurfacesStay s past move) : FollowsSurfaces s past move := by
  -- a move that neither hands over input nor publishes a frame
  have other (noInput : (step s move).2.any isInput = false)
      (noFrame : (step s move).2.any isFrame = false) : FollowsSurfaces s past move := by
    rw [FollowsSurfaces, noInput, noFrame]
    simp
  have starting (starts : ∃ es, (step s move).2 = es.map .decoder ∧ AllOf .start es) :
      FollowsSurfaces s past move := by
    obtain ⟨es, same, all⟩ := starts
    apply other
    · rw [same]
      exact allOf_noInput all (by decide)
    · rw [same]
      exact allOf_noFrame all (by decide)
  cases move with
  | createCodecSurfaceResources windows => cases windows <;> exact other rfl rfl
  | cleanup => exact other rfl rfl
  | decode call =>
    cases phase : s.phase with
    | idle =>
      apply starting
      simpa only [step, phase] using begin_start s call
    | _ => exact other (by simp [step, phase]) (by simp [step, phase])
  | advance =>
    have queueing (here : (∃ call, s.phase = .queueLeft call) ∨
        ∃ call leftQueued, s.phase = .queueRight call leftQueued)
        (noFrame : (step s .advance).2.any isFrame = false)
        (stay : (since isAcquired past).any isSession = false) :
        FollowsSurfaces s past .advance := by
      obtain ⟨surfaces, published, renders⟩ := queue_follows tracks here stay
      exact ⟨fun _ => ⟨surfaces, published, renders⟩, fun frame => by simp [noFrame] at frame⟩
    cases phase : s.phase with
    | idle => exact other (by simp [step, phase]) (by simp [step, phase])
    | acquire call =>
      apply starting
      simpa only [step, phase] using acquire_start s call
    | createLeft call surfaces =>
      apply starting
      simp only [step, phase, createLeft]
      exact ⟨_, rfl, create_start _ _ _⟩
    | createRight call surfaces =>
      apply starting
      simpa only [step, phase] using createRight_start s call surfaces
    | queueLeft call =>
      simp only [SurfacesStay, phase] at stay
      refine queueing (Or.inl ⟨call, phase⟩) ?_ stay
      simp only [step, phase, queueLeft]
      exact allOf_noFrame (queueAccessUnit_input _ _ _ _ _) (by decide)
    | queueRight call leftQueued =>
      simp only [SurfacesStay, phase] at stay
      refine queueing (Or.inr ⟨call, leftQueued, phase⟩) ?_ stay
      simp only [step, phase, queueRight]
      exact allOf_noFrame (queueAccessUnit_input _ _ _ _ _) (by decide)
    | draining call =>
      obtain ⟨_, es, events, released⟩ := drain_released s call
      apply other
      · simp only [step, phase]
        rw [events]
        exact allOf_noInput (released_output released) (by decide)
      · simp only [step, phase]
        rw [events]
        exact released_noFrame released
    | publishing call =>
      simp only [SurfacesStay, phase] at stay
      constructor
      · obtain ⟨_, es, events, published⟩ := publish_output s call
        simp only [step, phase]
        rw [events, allOf_noInput published (by decide)]
        simp
      · intro _ current published
        cases tracks with
        | bare _ free => simp [phase] at free
        | bound surfaces boundFor _ unreplaced =>
          simp only [BoundFor, phase] at boundFor
          rcases unreplaced stay with same | gone
          · rw [same, Option.mem_some_iff] at published
            exact published ▸ boundFor
          · simp [gone] at published

def steadyCall (frameIndex : UInt64) : Call :=
  promptCall frameIndex (promptTurn (promptCodec 0 0) (promptCodec 0 0))

/-- Frames go to the codecs, and come from them, on the published surfaces, as long as no
    session replaces or takes away surfaces that the codecs were started on. -/
theorem follows_surfaces (moves : List Move) (stay : AtSteps step SurfacesStay {} [] moves) :
    AtSteps step FollowsSurfaces {} [] moves := by
  have start : Tracks {} [] := Tracks.bare ⟨rfl, rfl, rfl, rfl, rfl⟩ (Or.inl rfl)
  exact atSteps_mono (fun _ _ move tracks _ => step_tracks tracks move)
    (fun _ _ _ tracks stays => step_follows tracks stays) start stay

def restartedSessions : List Move :=
  [.createCodecSurfaceResources (some (1, 2)),
    .decode (promptCall 5 (promptTurn (promptCodec 5 1) (promptCodec 5 1))), .advance, .advance,
    .advance, .advance, .advance, .advance, .advance, .cleanup,
    .createCodecSurfaceResources (some (3, 4)), .decode (steadyCall 0), .advance, .advance,
    .advance, .advance, .advance, .advance, .advance]

theorem follows_restarted :
    AtSteps step SurfacesStay {} [] restartedSessions ∧
      AtSteps step FollowsSurfaces {} [] restartedSessions :=
  ⟨by decide +kernel, follows_surfaces restartedSessions (by decide +kernel)⟩

/-- Two sessions, and a frame of the same size in each. -/
def twoSessions : List Move :=
  [.createCodecSurfaceResources (some (1, 2)), .decode (steadyCall 0), .advance, .advance,
    .advance, .advance, .advance, .advance, .advance, .cleanup,
    .createCodecSurfaceResources (some (3, 4)), .decode (steadyCall 1), .advance, .advance,
    .advance, .advance]

theorem stale_surfaces : ¬ AtSteps step FollowsSurfaces {} [] twoSessions := by
  decide +kernel

end QuestSurfaces
