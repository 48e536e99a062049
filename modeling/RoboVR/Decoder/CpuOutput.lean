import RoboVR.Decoder.InputQueue

/- The output without surfaces. `decode` converts and publishes images when its codecs run without
   a window, but `ensureStarted` starts no codecs without one. -/
namespace QuestCpuOutput
open QuestTeleop (Bytes)
open QuestMediaCodec QuestH264Decoder QuestDecodeStep QuestDecodeTrace QuestResources
open QuestInputQueue
open TracedRun

/-- The call goes on to queue, and then takes images from the codecs instead of rendering. -/
def ReachesCpuOutput (d : H264AnnexBDecoder) (call : Call) : Prop :=
  let started :=
    ensureStarted (restartIfRewound d call.header.frameIndex.toNat).1 call.header call.turn
  started.2.2 = true ∧ started.1.surfaceOutput = false

def WithoutSurfaces (calls : List Call) : Prop := ∀ call ∈ calls, call.turn.surfaces = none

instance (calls : List Call) : Decidable (WithoutSurfaces calls) := by
  unfold WithoutSurfaces
  exact inferInstance

theorem started_onSurfaces {d : H264AnnexBDecoder} (inv : OnSurfaces d) (call : Call) :
    ¬ ReachesCpuOutput d call := by
  rintro ⟨ok, cpu⟩
  have beginning := decode_beginning d call.header call.turn
  rw [ok] at beginning
  have running := (beginning_running beginning).1
  have surface := beginning_onSurfaces inv beginning running.1 running.2.1
  rw [cpu] at surface
  exact Bool.false_ne_true surface

theorem call_without_surfaces {d : H264AnnexBDecoder} (nothing : NoneHeld d) {call : Call}
    (without : call.turn.surfaces = none) :
    NoneHeld (decodeCall d call).1 ∧ AllOf .start (decodeCall d call).2 ∧
      (decode d call.header call.left call.right call.turn).2.2 = false := by
  have refused : ¬ Passes d call := by
    rintro (goes | starts)
    · exact goes.2.2.1 nothing.1
    · exact starts.2.1 without
  have after : NoneHeld (decodeCall d call).1 := by
    obtain ⟨ok, settles⟩ := decode_settles d call.header call.left call.right call.turn
    cases settles with
    | kept same _ _ => exact noneHeld_of_setup nothing same
    | released idle _ => exact idle
    | started acquired provided _ _ _ => exact absurd (without.symm.trans provided) (by simp)
  have starting := allOf_append (restartIfRewound_start d call.header.frameIndex.toNat)
    (ensureStarted_start (restartIfRewound d call.header.frameIndex.toNat).1 call.header call.turn)
  rw [← passes_iff] at refused
  refine ⟨after, ?_, ?_⟩
  · unfold decodeCall decode
    simp only [if_neg refused]
    exact starting
  · unfold decode
    simp only [if_neg refused]

theorem run_without_surfaces {calls : List Call} (without : WithoutSurfaces calls)
    {d : H264AnnexBDecoder} (nothing : NoneHeld d) : AllOf .start (run decodeCall d calls).2 := by
  induction calls generalizing d with
  | nil => exact allOf_nil _
  | cons call calls ih =>
    obtain ⟨after, events, _⟩ := call_without_surfaces nothing (without call List.mem_cons_self)
    exact allOf_append events (ih (fun c mem => without c (List.mem_cons_of_mem call mem)) after)

/-- In no run does a call reach the output without surfaces, and where surfaces are never there
    the decoder feeds nothing to a codec, takes nothing from one and publishes nothing. -/
theorem cpu_output_never (calls : List Call) :
    AtSteps decodeCall (fun d _ call => ¬ ReachesCpuOutput d call) {} [] calls ∧
      (WithoutSurfaces calls → AllOf .start (decodeTrace calls)) := by
  constructor
  · have kept : ∀ d (past : List Event) call, OnSurfaces d → OnSurfaces (decodeCall d call).1 :=
      fun d _ call inv => (decodeCall_outcome inv call).2
    have never : ∀ d (past : List Event) call, OnSurfaces d → ¬ ReachesCpuOutput d call :=
      fun d _ call inv => started_onSurfaces inv call
    exact atSteps_of_invariant kept never (fun left _ => absurd rfl left) calls
  · intro without
    exact run_without_surfaces without ⟨rfl, rfl, rfl, rfl, rfl⟩

/- Codecs that would run without a window, and give back a whole image of one pixel. -/

def imageCodec : CodecTurn where
  create := .started
  input := { dequeued := .buffer 0, inputSize := some 4096, queued := true }
  outputs := { results := [], held := by decide }
  images := [.buffer 0 { offset := 0, size := 1, presentationTimeUs := 0 } (some [16])]

def imageCall : Call where
  header := { codec := 2, width := 1, height := 1, leftPayloadSize := 1, rightPayloadSize := 1 }
  left := [7]
  right := [9]
  turn :=
    { left := imageCodec, right := imageCodec, surfaces := none, receiveTimeNs := 0,
      publishTimeNs := 0 }

def windowless : H264AnnexBDecoder :=
  { leftCodec := some { window := 0 }, rightCodec := some { window := 0 }, width := 1, height := 1 }

theorem image_refused : AllOf .start (decodeTrace [imageCall]) :=
  (cpu_output_never [imageCall]).2 (by decide)

/-- The images that the CPU output would publish never come out. -/
theorem fallback_shows_nothing :
    WithoutSurfaces [imageCall] ∧
      Event.publishStereoVideoFrame
        { frameIndex := 0, width := 1, height := 1, leftRgba := [0, 0, 0, 255],
          rightRgba := [0, 0, 0, 255] } ∈ (output windowless imageCall.turn).2 ∧
      decodeTrace [imageCall] = [.stopped] := by
  exact ⟨by decide, by decide, by decide⟩

end QuestCpuOutput
