import RoboVR.Lib.Teardown

/- What `OpenXrApp` makes in `initialize` and gives back in `cleanup`, wherever a call fails. -/
namespace QuestXrSetup
open Teardown

inductive Handle where
  | xrInstance
  | eglDisplay
  | eglContext
  | eglSurface
  | session
  | space
  | actionSet
  | gripPoseAction
  | aimPoseAction
  | triggerAction
  | squeezeAction
  | primaryButtonAction
  | secondaryButtonAction
  | leftGripSpace
  | rightGripSpace
  | leftAimSpace
  | rightAimSpace
  | framebuffer
  | videoTextures
  | bridgeClass
  | codecTextures
  deriving DecidableEq

inductive Program where
  | video
  | externalVideo
  | waiting
  deriving DecidableEq

/-- The handles of `OpenXrApp`, and the shaders that are there while a program is made. -/
inductive Resource where
  | handle (handle : Handle)
  | swapchain (i : Nat)
  | program (program : Program)
  | vertexShader (program : Program)
  | fragmentShader (program : Program)
  | surfaceTexture (i : Nat)
  | surface (i : Nat)
  | codecWindow (i : Nat)
  deriving DecidableEq

def Handle.sources : Handle → List Handle
  | xrInstance | eglDisplay | bridgeClass => []
  | eglContext | eglSurface => [eglDisplay]
  | session => [xrInstance, eglContext]
  | space => [session]
  | actionSet => [xrInstance]
  | gripPoseAction | aimPoseAction | triggerAction | squeezeAction | primaryButtonAction
  | secondaryButtonAction => [actionSet]
  | leftGripSpace | rightGripSpace => [session, gripPoseAction]
  | leftAimSpace | rightAimSpace => [session, aimPoseAction]
  | framebuffer | videoTextures | codecTextures => [eglContext]

def sources : Resource → List Resource
  | .handle h => h.sources.map .handle
  | .swapchain _ => [.handle .session]
  | .program _ | .vertexShader _ | .fragmentShader _ => [.handle .eglContext]
  | .surfaceTexture _ => [.handle .codecTextures, .handle .bridgeClass]
  | .surface i => [.surfaceTexture i, .handle .bridgeClass]
  | .codecWindow i => [.surface i]

/-- What a handle must not outlive. A native window counts its own references. -/
def parents : Resource → List Resource
  | .codecWindow _ => []
  | r => sources r

inductive Step where
  | call (name : String)
  /-- A call that makes a handle or fails. -/
  | create (r : Resource)
  /-- A call that makes a handle and is not checked. -/
  | make (r : Resource)
  | program (p : Program)

def createEglContext : List Step :=
  [.create (.handle .eglDisplay), .call "eglInitialize", .call "eglChooseConfig",
    .create (.handle .eglContext), .create (.handle .eglSurface), .call "eglMakeCurrent"]

def createActions : List Step :=
  [.call "/user/hand/left", .call "/user/hand/right", .create (.handle .actionSet),
    .create (.handle .gripPoseAction), .create (.handle .aimPoseAction),
    .create (.handle .triggerAction), .create (.handle .squeezeAction),
    .create (.handle .primaryButtonAction), .create (.handle .secondaryButtonAction),
    .call "/interaction_profiles/oculus/touch_controller",
    .call "xrSuggestInteractionProfileBindings", .create (.handle .leftGripSpace),
    .create (.handle .rightGripSpace), .create (.handle .leftAimSpace),
    .create (.handle .rightAimSpace), .call "xrAttachSessionActionSets"]

def createSwapchain (i : Nat) : List Step :=
  [.create (.swapchain i), .call "xrEnumerateSwapchainImages count",
    .call "xrEnumerateSwapchainImages"]

def createSwapchains (viewCount : Nat) : List Step :=
  [.call "xrEnumerateViewConfigurationViews count", .call "xrEnumerateViewConfigurationViews",
    .call "xrEnumerateSwapchainFormats count", .call "xrEnumerateSwapchainFormats"] ++
    (List.range viewCount).flatMap createSwapchain

/-- The calls up to those of the codec surfaces; what is ignored when it fails is left out. -/
def initializeSteps (viewCount : Nat) : List Step :=
  [.create (.handle .xrInstance), .call "xrGetSystem"] ++ createEglContext ++
    [.call "xrGetOpenGLESGraphicsRequirementsKHR proc",
      .call "xrGetOpenGLESGraphicsRequirementsKHR", .create (.handle .session),
      .create (.handle .space)] ++
    createActions ++ createSwapchains viewCount ++
    [.create (.handle .framebuffer), .make (.handle .videoTextures), .program .video,
      .program .externalVideo, .program .waiting]

def createCodecSurface (i : Nat) : List Step :=
  [.call "createSurfaceTexture", .make (.surfaceTexture i), .call "createSurface",
    .make (.surface i), .create (.codecWindow i)]

def createCodecSurfaceResources : List Step :=
  [.call "VideoSurfaceBridge", .make (.handle .bridgeClass), .call "GetStaticMethodID",
    .make (.handle .codecTextures)] ++
    createCodecSurface 0 ++ createCodecSurface 1

def compileShader (shader : Resource) (compiled : Bool) : List (Act Resource) :=
  .take shader :: if compiled then [] else [.give shader]

def createProgram (p : Program) (vertex fragment linked : Bool) : List (Act Resource) :=
  compileShader (.vertexShader p) vertex ++ compileShader (.fragmentShader p) fragment ++
    if vertex && fragment then
      [.take (.program p), .give (.vertexShader p), .give (.fragmentShader p)] ++
        if linked then [] else [.give (.program p)]
    else
      (if vertex then [.give (.vertexShader p)] else []) ++
        if fragment then [.give (.fragmentShader p)] else []

structure Made where
  acts : List (Act Resource)
  ok : Bool
  answers : List Bool

def runSteps : List Step → List Bool → Made
  | [], answers => { acts := [], ok := true, answers := answers }
  | .call _ :: steps, answers =>
    if answers.headD false then runSteps steps answers.tail
    else { acts := [], ok := false, answers := answers.tail }
  | .create r :: steps, answers =>
    if answers.headD false then
      let more := runSteps steps answers.tail
      { more with acts := .take r :: more.acts }
    else { acts := [], ok := false, answers := answers.tail }
  | .make r :: steps, answers =>
    let more := runSteps steps answers
    { more with acts := .take r :: more.acts }
  | .program p :: steps, answers =>
    let vertex := answers.getD 0 false
    let fragment := answers.getD 1 false
    let linked := answers.getD 2 false
    let made := createProgram p vertex fragment linked
    if vertex && fragment && linked then
      let more := runSteps steps (answers.drop 3)
      { more with acts := made ++ more.acts }
    else { acts := made, ok := false, answers := answers.drop 3 }

/-- `initialize`. Without the codec surfaces the CPU path is used, so their failure is none. -/
def setUp (viewCount : Nat) (answers : List Bool) : Made :=
  let first := runSteps (initializeSteps viewCount) answers
  if first.ok then
    let codec := runSteps createCodecSurfaceResources first.answers
    { acts := first.acts ++ codec.acts, ok := true, answers := codec.answers }
  else first

def javaOrder : List Resource :=
  [.surface 0, .surface 1, .surfaceTexture 0, .surfaceTexture 1, .handle .bridgeClass]

def graphicsOrder : List Resource :=
  [.codecWindow 0, .codecWindow 1, .program .externalVideo, .program .waiting, .program .video,
    .handle .codecTextures, .handle .videoTextures, .handle .framebuffer]

def sessionOrder : List Handle :=
  [.space, .leftGripSpace, .rightGripSpace, .leftAimSpace, .rightAimSpace, .gripPoseAction,
    .aimPoseAction, .triggerAction, .squeezeAction, .primaryButtonAction,
    .secondaryButtonAction, .actionSet, .session, .xrInstance, .eglSurface, .eglContext,
    .eglDisplay]

/-- The order in which `cleanup` looks at the handles; with no environment it leaves those of the
    Java side. -/
def cleanupOrder (env : Bool) (viewCount : Nat) : List Resource :=
  (if env then javaOrder else []) ++ graphicsOrder ++ (List.range viewCount).map .swapchain ++
    sessionOrder.map .handle

def cleanup (env : Bool) (viewCount : Nat) (held : Finset Resource) : List (Act Resource) :=
  giveAll (cleanupOrder env viewCount) held

/-- `run` on a thread that was attached, without its loop, which makes and gives back nothing. -/
def run (env : Bool) (viewCount : Nat) (answers : List Bool) : List (Act Resource) :=
  let made := setUp viewCount answers
  made.acts ++ cleanup env viewCount (after ∅ made.acts)

/- What the steps make. -/

def creates : List Step → List Resource
  | [] => []
  | .call _ :: steps => creates steps
  | .create r :: steps | .make r :: steps => r :: creates steps
  | .program p :: steps => .program p :: creates steps

def isShader : Resource → Bool
  | .vertexShader _ | .fragmentShader _ => true
  | _ => false

theorem creates_append (as bs : List Step) : creates (as ++ bs) = creates as ++ creates bs := by
  induction as with
  | nil => rfl
  | cons a as ih => cases a <;> simp only [List.cons_append, creates, ih]

theorem parents_notShader {r : Resource} (shader : isShader r) (c : Resource) :
    r ∉ parents c := by
  cases r <;> simp only [isShader, Bool.false_eq_true] at shader <;>
    cases c <;> simp [parents, sources]

theorem parents_notProgram (p : Program) (c : Resource) : .program p ∉ parents c := by
  cases c <;> simp [parents, sources]

theorem parents_notSelf (r : Resource) : r ∉ parents r := by
  cases r with
  | handle h => cases h <;> simp [parents, sources, Handle.sources]
  | _ => simp [parents, sources]

/- What one step does. -/

theorem createProgram_sound {held : Finset Resource} {p : Program} (new : .program p ∉ held)
    (context : .handle .eglContext ∈ held) (clear : ∀ r ∈ held, isShader r = false)
    (vertex fragment linked : Bool) :
    Sound sources parents held (createProgram p vertex fragment linked) ∧
      after held (createProgram p vertex fragment linked) =
        if vertex && fragment && linked then insert (.program p) held else held := by
  have noVertex : Resource.vertexShader p ∉ held := fun mem => by simpa [isShader] using clear _ mem
  have noFragment : Resource.fragmentShader p ∉ held := fun mem => by
    simpa [isShader] using clear _ mem
  have vertexFree := @parents_notShader (.vertexShader p) rfl
  have fragmentFree := @parents_notShader (.fragmentShader p) rfl
  have programFree := parents_notProgram p
  have vertexSources : sources (.vertexShader p) = [.handle .eglContext] := rfl
  have fragmentSources : sources (.fragmentShader p) = [.handle .eglContext] := rfl
  have programSources : sources (.program p) = [.handle .eglContext] := rfl
  constructor
  · cases vertex <;> cases fragment <;> cases linked <;>
      simp [createProgram, compileShader, Sound, *]
  · cases vertex <;> cases fragment <;> cases linked <;>
      simp [createProgram, compileShader, after, *] <;> ext r <;> grind

/- What a run of steps does. -/

structure Went (steps : List Step) (held : Finset Resource) (made : Made) : Prop where
  sound : Sound sources parents held made.acts
  kept : held ⊆ after held made.acts
  within : after held made.acts ⊆ held ∪ (creates steps).toFinset
  all : made.ok = true → after held made.acts = held ∪ (creates steps).toFinset

theorem went_nothing (steps : List Step) (held : Finset Resource) (answers : List Bool) :
    Went steps held { acts := [], ok := false, answers := answers } := by
  constructor
  · trivial
  · exact Finset.Subset.refl held
  · exact Finset.subset_union_left
  · intro ok
    cases ok

theorem went_take {step : Step} {steps : List Step} {held : Finset Resource} {r : Resource}
    (makes : creates (step :: steps) = r :: creates steps)
    (free : r ∉ held ∧ ∀ p ∈ sources r, p ∈ held) {made : Made}
    (went : Went steps (insert r held) made) :
    Went (step :: steps) held { made with acts := .take r :: made.acts } := by
  have same : insert r held ∪ (creates steps).toFinset =
      held ∪ (creates (step :: steps)).toFinset := by
    rw [makes, List.toFinset_cons, Finset.insert_union, Finset.union_insert]
  constructor
  · exact ⟨free, went.sound⟩
  · exact (Finset.subset_insert r held).trans went.kept
  · rw [← same]
    exact went.within
  · intro ok
    rw [← same]
    exact went.all ok

theorem runSteps_went {steps : List Step} {held : Finset Resource}
    (sound : Sound sources parents held ((creates steps).map .take))
    (clear : ∀ r ∈ held, isShader r = false) (plain : ∀ r ∈ creates steps, isShader r = false)
    (answers : List Bool) : Went steps held (runSteps steps answers) := by
  induction steps generalizing held answers with
  | nil =>
    constructor
    · trivial
    · exact Finset.Subset.refl held
    · exact Finset.subset_union_left
    · intro _
      simp [runSteps, after, creates]
  | cons step steps ih =>
    have later : ∀ r ∈ creates steps, isShader r = false := by
      intro r mem
      apply plain
      cases step
      case call => exact mem
      all_goals exact List.mem_cons_of_mem _ mem
    have insertClear {r : Resource} (notShader : isShader r = false) :
        ∀ s ∈ insert r held, isShader s = false := by
      intro s mem
      rcases Finset.mem_insert.mp mem with rfl | old
      · exact notShader
      · exact clear s old
    cases step with
    | call name =>
      unfold runSteps
      split
      · have went := ih sound clear later answers.tail
        exact ⟨went.sound, went.kept, went.within, went.all⟩
      · exact went_nothing _ _ _
    | create r =>
      unfold runSteps
      split
      · exact went_take rfl sound.1
          (ih sound.2 (insertClear (plain r List.mem_cons_self)) later answers.tail)
      · exact went_nothing _ _ _
    | make r =>
      exact went_take rfl sound.1
        (ih sound.2 (insertClear (plain r List.mem_cons_self)) later answers)
    | program p =>
      obtain ⟨⟨new, there⟩, rest⟩ := sound
      obtain ⟨made, left⟩ := createProgram_sound new
        (there _ List.mem_cons_self) clear (answers.getD 0 false) (answers.getD 1 false)
        (answers.getD 2 false)
      have same : insert (Resource.program p) held ∪ (creates steps).toFinset =
          held ∪ (creates (.program p :: steps)).toFinset := by
        rw [creates, List.toFinset_cons, Finset.insert_union, Finset.union_insert]
      unfold runSteps
      by_cases worked :
          (answers.getD 0 false && answers.getD 1 false && answers.getD 2 false) = true
      · have went := ih rest (insertClear (r := .program p) rfl) later (answers.drop 3)
        rw [if_pos worked] at left
        simp only [worked, if_true]
        constructor
        · exact (sound_append _ _ _).mpr ⟨made, left ▸ went.sound⟩
        · rw [after_append, left]
          exact (Finset.subset_insert _ held).trans went.kept
        · rw [after_append, left, ← same]
          exact went.within
        · intro ok
          rw [after_append, left, ← same]
          exact went.all ok
      · rw [if_neg worked] at left
        simp only [worked]
        constructor
        · exact made
        · exact left.superset
        · exact left.subset.trans Finset.subset_union_left
        · intro ok
          cases ok

/- What `initialize` makes, the swapchains apart. -/

def beforeSwapchains : List Resource :=
  creates ([.create (.handle .xrInstance), .call "xrGetSystem"] ++ createEglContext ++
    [.call "xrGetOpenGLESGraphicsRequirementsKHR proc",
      .call "xrGetOpenGLESGraphicsRequirementsKHR", .create (.handle .session),
      .create (.handle .space)] ++ createActions)

def afterSwapchains : List Resource :=
  [.handle .framebuffer, .handle .videoTextures, .program .video, .program .externalVideo,
    .program .waiting] ++ creates createCodecSurfaceResources

def allMade (viewCount : Nat) : List Resource :=
  beforeSwapchains ++ (List.range viewCount).map .swapchain ++ afterSwapchains

theorem creates_createSwapchains (viewCount : Nat) :
    creates (createSwapchains viewCount) = (List.range viewCount).map .swapchain := by
  have each (is : List Nat) : creates (is.flatMap createSwapchain) = is.map .swapchain := by
    induction is with
    | nil => rfl
    | cons i is ih =>
      rw [List.flatMap_cons, creates_append, ih]
      rfl
  rw [createSwapchains, creates_append, each]
  rfl

theorem creates_all (viewCount : Nat) :
    creates (initializeSteps viewCount) ++ creates createCodecSurfaceResources =
      allMade viewCount := by
  unfold initializeSteps allMade beforeSwapchains afterSwapchains
  rw [creates_append, creates_append, creates_createSwapchains]
  simp only [List.append_assoc]
  rfl

theorem mem_allMade {viewCount : Nat} {r : Resource} (mem : r ∈ allMade viewCount) :
    (r ∈ beforeSwapchains ++ afterSwapchains) ∨ ∃ i < viewCount, r = .swapchain i := by
  simp only [allMade, List.mem_append, List.mem_map, List.mem_range] at mem
  rcases mem with (first | ⟨i, lt, rfl⟩) | last
  · exact .inl (List.mem_append_left _ first)
  · exact .inr ⟨i, lt, rfl⟩
  · exact .inl (List.mem_append_right _ last)

theorem allMade_sound (viewCount : Nat) :
    Sound sources parents ∅ ((allMade viewCount).map .take) := by
  have first : Sound sources parents ∅ (beforeSwapchains.map .take) := by decide +kernel
  have last : Sound sources parents beforeSwapchains.toFinset (afterSwapchains.map .take) := by
    decide +kernel
  have noSwapchain : ∀ r ∈ beforeSwapchains ++ afterSwapchains, ∀ i, r ≠ .swapchain i := by
    intro r mem i
    rintro rfl
    simp [beforeSwapchains, afterSwapchains, creates, createEglContext, createActions,
      createCodecSurfaceResources, createCodecSurface] at mem
  have middle : Sound sources parents beforeSwapchains.toFinset
      (((List.range viewCount).map Resource.swapchain).map .take) := by
    apply sound_takes
    · refine List.Nodup.map (fun i j same => ?_) List.nodup_range
      exact Resource.swapchain.inj same
    · intro r mem
      obtain ⟨i, _, rfl⟩ := List.mem_map.mp mem
      exact fun old => noSwapchain _ (List.mem_append_left _ (List.mem_toFinset.mp old)) i rfl
    · intro r mem p parent
      obtain ⟨i, _, rfl⟩ := List.mem_map.mp mem
      rw [sources, List.mem_singleton] at parent
      subst parent
      decide +kernel
  unfold allMade
  rw [List.map_append, List.map_append, List.append_assoc, sound_append, after_takes,
    Finset.empty_union, sound_append, after_takes]
  refine ⟨first, middle, sound_more last fun r mem swapchain => ?_⟩
  obtain ⟨i, _, rfl⟩ := List.mem_map.mp (List.mem_toFinset.mp swapchain)
  exact noSwapchain _ (List.mem_append_right _ mem) i rfl

theorem allMade_plain (viewCount : Nat) : ∀ r ∈ allMade viewCount, isShader r = false := by
  intro r mem
  rcases mem_allMade mem with fixed | ⟨i, _, rfl⟩
  · have all : ∀ r ∈ beforeSwapchains ++ afterSwapchains, isShader r = false := by decide +kernel
    exact all r fixed
  · rfl

/- What `cleanup` looks at. -/

theorem cleanupOrder_covers {viewCount : Nat} {r : Resource} (mem : r ∈ allMade viewCount) :
    r ∈ cleanupOrder true viewCount := by
  have fixed : ∀ r ∈ beforeSwapchains ++ afterSwapchains,
      r ∈ javaOrder ++ graphicsOrder ++ sessionOrder.map .handle := by decide +kernel
  simp only [cleanupOrder, if_true, List.mem_append]
  rcases mem_allMade mem with known | ⟨i, lt, rfl⟩
  · have known := fixed r known
    simp only [List.mem_append] at known
    tauto
  · exact .inl (.inr (List.mem_map.mpr ⟨i, List.mem_range.mpr lt, rfl⟩))

theorem cleanupOrder_childrenFirst (viewCount : Nat) :
    ChildrenFirst parents (cleanupOrder true viewCount) := by
  have first : ChildrenFirst parents (javaOrder ++ graphicsOrder) := by
    unfold ChildrenFirst
    decide +kernel
  have last : ChildrenFirst parents (sessionOrder.map .handle) := by
    unfold ChildrenFirst
    decide +kernel
  have cross : ∀ r ∈ javaOrder ++ graphicsOrder, ∀ later ∈ sessionOrder.map Resource.handle,
      r ∉ parents later := by decide +kernel
  have noSession : ∀ r ∈ javaOrder ++ graphicsOrder, r ≠ .handle .session := by decide +kernel
  have noSwapchain (i : Nat) : ∀ later ∈ sessionOrder.map Resource.handle,
      .swapchain i ∉ parents later := by
    intro later mem
    obtain ⟨h, _, rfl⟩ := List.mem_map.mp mem
    simp [parents, sources]
  unfold cleanupOrder ChildrenFirst
  rw [if_pos rfl, List.pairwise_append, List.pairwise_append]
  refine ⟨⟨first, ?_, ?_⟩, last, ?_⟩
  · rw [List.pairwise_map]
    exact List.pairwise_of_forall fun i j => by simp [parents, sources]
  · intro r mem later swapchain
    obtain ⟨i, _, rfl⟩ := List.mem_map.mp swapchain
    simpa [parents, sources] using noSession r mem
  · intro r mem later old
    rcases List.mem_append.mp mem with known | swapchain
    · exact cross r known later old
    · obtain ⟨i, _, rfl⟩ := List.mem_map.mp swapchain
      exact noSwapchain i later old

/- `initialize` and `run`. -/

theorem setUp_sound (viewCount : Nat) (answers : List Bool) :
    Sound sources parents ∅ (setUp viewCount answers).acts ∧
      (∀ r ∈ after ∅ (setUp viewCount answers).acts, r ∈ allMade viewCount) ∧
      ((setUp viewCount answers).ok = true → ∀ r ∈ creates (initializeSteps viewCount),
        r ∈ after ∅ (setUp viewCount answers).acts) := by
  have sound := allMade_sound viewCount
  have plain := allMade_plain viewCount
  rw [← creates_all, List.map_append, sound_append, after_takes, Finset.empty_union] at sound
  rw [← creates_all] at plain
  have first := runSteps_went sound.1 (by simp) (fun r mem => plain r (List.mem_append_left _ mem))
    answers
  unfold setUp
  by_cases ok : (runSteps (initializeSteps viewCount) answers).ok = true
  · have made := first.all ok
    rw [Finset.empty_union] at made
    have codec := runSteps_went sound.2
      (fun r mem => plain r (List.mem_append_left _ (List.mem_toFinset.mp mem)))
      (fun r mem => plain r (List.mem_append_right _ mem))
      (runSteps (initializeSteps viewCount) answers).answers
    simp only [ok, if_true]
    rw [sound_append, after_append, made, ← creates_all]
    refine ⟨⟨first.sound, codec.sound⟩, ?_, ?_⟩
    · intro r mem
      have within := codec.within mem
      simpa using within
    · intro _ r mem
      exact codec.kept (List.mem_toFinset.mpr mem)
  · rw [if_neg ok]
    refine ⟨first.sound, ?_, fun worked => absurd worked ok⟩
    intro r mem
    rw [← creates_all]
    have within := first.within mem
    rw [Finset.empty_union] at within
    exact List.mem_append_left _ (List.mem_toFinset.mp within)

/-- Wherever `initialize` fails, everything that was made is given back once and before what it
    must not outlive; the loop runs with everything there; and what stays when `cleanup` has no
    environment is what was made of the Java side. -/
theorem run_gives_back (viewCount : Nat) (answers : List Bool) :
    (Sound sources parents ∅ (run true viewCount answers) ∧
        after ∅ (run true viewCount answers) = ∅) ∧
      ((setUp viewCount answers).ok = true → ∀ r ∈ creates (initializeSteps viewCount),
        r ∈ after ∅ (setUp viewCount answers).acts) ∧
      after ∅ (run false viewCount answers) =
        (after ∅ (setUp viewCount answers).acts).filter (· ∈ javaOrder) := by
  obtain ⟨sound, known, there⟩ := setUp_sound viewCount answers
  have covers : ∀ r ∈ after ∅ (setUp viewCount answers).acts, r ∈ cleanupOrder true viewCount :=
    fun r mem => cleanupOrder_covers (known r mem)
  refine ⟨?_, there, ?_⟩
  · obtain ⟨given, nothing⟩ :=
      giveAll_sound parents_notSelf (cleanupOrder_childrenFirst viewCount) covers
    constructor
    · exact (sound_append _ _ _).mpr ⟨sound, given⟩
    · rw [run, after_append]
      exact nothing
  · rw [run, after_append, cleanup, after_giveAll]
    ext r
    simp only [Finset.mem_filter]
    refine and_congr_right fun mem => ?_
    have either := covers r mem
    have apart : r ∈ javaOrder → r ∉ cleanupOrder false viewCount := by
      intro java
      simp [javaOrder] at java
      rcases java with rfl | rfl | rfl | rfl | rfl <;>
        simp [cleanupOrder, graphicsOrder, sessionOrder]
    simp only [cleanupOrder, if_true, List.mem_append] at either
    simp only [cleanupOrder, Bool.false_eq_true, if_false, List.nil_append, List.mem_append]
      at apart ⊢
    tauto

end QuestXrSetup
