import RoboVR.Xr.Frames

/- What the calls of the loop come to: frames that are ended, images that are lost, and the end of
   the loop. -/
namespace QuestXrFrames
open TracedRun CallOrder

/- Frames and images. -/

def isWaited : Call → Bool
  | .waitFrame ok => ok
  | _ => false

def isBegin : Call → Bool
  | .beginFrame _ => true
  | _ => false

def isBegun : Call → Bool
  | .beginFrame ok => ok
  | _ => false

def isEnd : Call → Bool
  | .endFrame _ _ => true
  | _ => false

def isAcquired (view : Nat) : Call → Bool
  | .acquireImage v ok => decide (v = view) && ok
  | _ => false

def isReleased (view : Nat) : Call → Bool
  | .releaseImage v ok => decide (v = view) && ok
  | _ => false

/-- An image that was acquired and stays so. -/
def isLost (view : Nat) : Call → Bool
  | .waitImage v ok | .releaseImage v ok => decide (v = view) && !ok
  | _ => false

def Runtime.waitedFrames (r : Runtime) : Nat :=
  match r.frame with
  | .waited => 1
  | _ => 0

def Runtime.begunFrames (r : Runtime) : Nat :=
  match r.frame with
  | .begun _ _ => 1
  | _ => 0

def Runtime.images (view : Nat) (r : Runtime) : Nat :=
  match r.frame with
  | .begun shown (some _) => if shown = view + 1 then 1 else 0
  | _ => 0

section
variable {setup : Setup} {r after : Runtime} {call : Call}

theorem waitedFrames_step (allowed : Allows setup r call after) :
    after.waitedFrames + (isBegin call).toNat = r.waitedFrames + (isWaited call).toNat := by
  cases allowed
  case waitFrame ok _ _ between =>
    cases ok <;> simp [Runtime.waitedFrames, isBegin, isWaited, between]
  case beginFrame ok waited => cases ok <;> simp [Runtime.waitedFrames, isBegin, isWaited, waited]
  all_goals simp [Runtime.waitedFrames, isBegin, isWaited, *]

theorem begunFrames_step (allowed : Allows setup r call after) :
    after.begunFrames + (isEnd call).toNat = r.begunFrames + (isBegun call).toNat := by
  cases allowed
  case waitFrame ok _ _ between => cases ok <;> simp [Runtime.begunFrames, isEnd, isBegun, between]
  case beginFrame ok waited => cases ok <;> simp [Runtime.begunFrames, isEnd, isBegun, waited]
  all_goals simp [Runtime.begunFrames, isEnd, isBegun, *]

theorem images_step (view : Nat) (allowed : Allows setup r call after) :
    after.images view + (isReleased view call || isLost view call).toNat =
      r.images view + (isAcquired view call).toNat := by
  cases allowed
  case acquireImage v ok _ next =>
    by_cases same : v = view <;> cases ok <;>
      simp [Runtime.images, isReleased, isLost, isAcquired, next, same]
  case waitImage v ok acquired =>
    by_cases same : v = view <;> cases ok <;>
      simp [Runtime.images, isReleased, isLost, isAcquired, acquired, same]
  case draw v waited =>
    by_cases same : v = view <;>
      simp [Runtime.images, isReleased, isLost, isAcquired, waited, same]
  case releaseImage v ok drawn =>
    by_cases same : v = view <;> cases ok <;>
      simp [Runtime.images, isReleased, isLost, isAcquired, drawn, same]
  case waitFrame ok _ _ between =>
    cases ok <;> simp [Runtime.images, isReleased, isLost, isAcquired, between]
  case beginFrame ok waited =>
    cases ok <;> simp [Runtime.images, isReleased, isLost, isAcquired, waited]
  all_goals simp [Runtime.images, isReleased, isLost, isAcquired, *]

end

section
variable (setup : Setup)

theorem countP_either (view : Nat) (calls : List Call) :
    calls.countP (fun call => isReleased view call || isLost view call) =
      calls.countP (isReleased view) + calls.countP (isLost view) := by
  induction calls with
  | nil => rfl
  | cons call calls ih =>
    rw [List.countP_cons, List.countP_cons, List.countP_cons, ih]
    have apart : isReleased view call = true → isLost view call = false := by
      cases call <;> simp [isReleased, isLost]
      tauto
    cases released : isReleased view call <;> cases lost : isLost view call <;> simp_all <;> omega

/-- In every run of the loop each frame that was waited for is begun and each that was begun is
    ended, and of each view's images those that are not released are those of a failed wait or
    release. -/
theorem frames_accounted (rounds : List (Round setup.views)) (view : Nat) :
    (run (step setup) {} rounds).2.countP isWaited = (run (step setup) {} rounds).2.countP isBegin ∧
      (run (step setup) {} rounds).2.countP isBegun = (run (step setup) {} rounds).2.countP isEnd ∧
      (run (step setup) {} rounds).2.countP (isAcquired view) =
        (run (step setup) {} rounds).2.countP (isReleased view) +
          (run (step setup) {} rounds).2.countP (isLost view) := by
  obtain ⟨after, accepted, idle⟩ := calls_ordered setup rounds
  generalize (run (step setup) {} rounds).2 = calls at accepted ⊢
  have waited : after.waitedFrames + calls.countP isBegin = 0 + calls.countP isWaited :=
    accepts_balance (fun _ _ _ allowed => waitedFrames_step allowed) accepted
  have begun : after.begunFrames + calls.countP isEnd = 0 + calls.countP isBegun :=
    accepts_balance (fun _ _ _ allowed => begunFrames_step allowed) accepted
  have images : after.images view +
      calls.countP (fun call => isReleased view call || isLost view call) =
        0 + calls.countP (isAcquired view) :=
    accepts_balance (fun _ _ _ allowed => images_step view allowed) accepted
  rw [countP_either] at images
  simp only [Runtime.waitedFrames, Runtime.begunFrames, Runtime.images, idle.between] at *
  omega

end

/- The rounds of the loop. -/

def isExit : XrEvent → Bool
  | .sessionStateChanged .exiting | .sessionStateChanged .lossPending | .instanceLossPending => true
  | _ => false

def Polled.exits (p : Polled) : Bool := isExit p.event

def isPolling : Call → Bool
  | .polled _ | .beginSession _ | .endSession _ | .requestRefreshRate _ _ => true
  | _ => false

def isPicture : Call → Bool
  | .locateViews _ | .publishHeadPose _ | .acquireImage _ _ | .waitImage _ _ | .draw _
  | .releaseImage _ _ => true
  | _ => false

def polledEvent : Call → Option XrEvent
  | .polled event => some event
  | _ => none

structure Polls (polled : List Polled) (calls : List Call) : Prop where
  events : calls.filterMap polledEvent = polled.map Polled.event
  only : ∀ call ∈ calls, isPolling call = true

inductive Pause : List Call → Prop where
  | sleep : Pause [.sleep]
  | unwaited : Pause [.waitFrame false]
  | unbegun : Pause [.waitFrame true, .beginFrame false]
  | frame {calls : List Call} (pictures : ∀ call ∈ calls, isPicture call = true)
      (layer : Option Nat) (ok : Bool) :
      Pause (.waitFrame true :: .beginFrame true :: (calls ++ [.endFrame layer ok]))

def IsRound {views : Nat} (round : Round views) (calls : List Call) : Prop :=
  ∃ polls pause, calls = polls ++ pause ∧ Polls round.polled polls ∧ Pause pause

/-- The rounds before `g_running` is cleared, up to the one in which an event ends the loop. -/
def goneThrough {views : Nat} : List (Round views) → List (Round views)
  | [] => []
  | round :: rounds =>
    if round.gRunning = false then []
    else if round.polled.any Polled.exits then [round]
    else round :: goneThrough rounds

section
variable (setup : Setup)

theorem request_polls (s : App) (ok : Bool) :
    Polls [] (requestDisplayRefreshRate setup s ok).2 ∧
      (requestDisplayRefreshRate setup s ok).1.exitRenderLoop = s.exitRenderLoop ∧
      (requestDisplayRefreshRate setup s ok).1.done = s.done := by
  unfold requestDisplayRefreshRate
  split
  · exact ⟨⟨rfl, by simp⟩, rfl, rfl⟩
  · exact ⟨⟨rfl, by simp [isPolling]⟩, rfl, rfl⟩

theorem polls_cons {event : XrEvent} {calls : List Call} {p : Polled} (is : p.event = event)
    (rest : Polls [] calls) : Polls [p] (.polled event :: calls) := by
  constructor
  · simp only [List.filterMap_cons, polledEvent, rest.events, List.map_nil, List.map_cons, is]
  · intro call mem
    rcases List.mem_cons.mp mem with rfl | mem
    · rfl
    · exact rest.only call mem

theorem pollEvent_polls (s : App) (p : Polled) :
    Polls [p] (pollEvent setup s p).2 ∧
      (pollEvent setup s p).1.exitRenderLoop = (s.exitRenderLoop || p.exits) ∧
      (pollEvent setup s p).1.done = s.done := by
  have alone : Polls [] [] := ⟨rfl, by simp⟩
  unfold pollEvent Polled.exits
  cases event : p.event with
  | sessionStateChanged state =>
    cases state with
    | ready =>
      cases begun : p.begun with
      | true =>
        obtain ⟨asked, same, done⟩ := request_polls setup
          { s with sessionState := .ready, sessionRunning := true } p.requested
        refine ⟨polls_cons event ⟨asked.events, ?_⟩, same.trans (Bool.or_false _).symm, done⟩
        intro call mem
        rcases List.mem_cons.mp mem with rfl | mem
        · rfl
        · exact asked.only call mem
      | false =>
        exact ⟨polls_cons event ⟨rfl, by simp [isPolling]⟩, (Bool.or_false _).symm, rfl⟩
    | stopping =>
      exact ⟨polls_cons event ⟨rfl, by simp [isPolling]⟩, (Bool.or_false _).symm, rfl⟩
    | exiting | lossPending => exact ⟨polls_cons event alone, (Bool.or_true _).symm, rfl⟩
    | _ => exact ⟨polls_cons event alone, (Bool.or_false _).symm, rfl⟩
  | instanceLossPending => exact ⟨polls_cons event alone, (Bool.or_true _).symm, rfl⟩
  | _ => exact ⟨polls_cons event alone, (Bool.or_false _).symm, rfl⟩

theorem pollEvents_polls (s : App) (polled : List Polled) :
    Polls polled (pollEvents setup s polled).2 ∧
      (pollEvents setup s polled).1.exitRenderLoop =
        (s.exitRenderLoop || polled.any Polled.exits) ∧
      (pollEvents setup s polled).1.done = s.done := by
  unfold pollEvents
  induction polled generalizing s with
  | nil => exact ⟨⟨rfl, by simp [run]⟩, (Bool.or_false _).symm, rfl⟩
  | cons p polled ih =>
    obtain ⟨first, exits, done⟩ := pollEvent_polls setup s p
    obtain ⟨rest, later, still⟩ := ih (pollEvent setup s p).1
    refine ⟨⟨?_, ?_⟩, ?_, still.trans done⟩
    · rw [run, List.filterMap_append, first.events, rest.events]
      rfl
    · intro call mem
      rcases List.mem_append.mp mem with old | new
      · exact first.only call old
      · exact rest.only call new
    · rw [run, later, exits, List.any_cons, Bool.or_assoc]

theorem renderView_pictures (view : Nat) (image : ImageTurn) :
    ∀ call ∈ renderView view image, isPicture call = true := by
  unfold renderView
  split
  · simp [isPicture]
  · split <;> simp [isPicture]

theorem renderViews_pictures (turn : FrameTurn setup.views) :
    ∀ call ∈ (renderViews setup turn).1, isPicture call = true := by
  unfold renderViews publication
  cases turn.shouldRender with
  | false => simp
  | true =>
    cases turn.located with
    | none => simp [isPicture]
    | some located =>
      intro call mem
      rcases List.mem_cons.mp mem with rfl | mem
      · rfl
      · rcases List.mem_append.mp mem with published | shown
        · cases views : located.located with
          | nil => simp [views] at published
          | cons first others =>
            rw [views, List.mem_singleton] at published
            rw [published]
            rfl
        · obtain ⟨view, _, mem⟩ := List.mem_flatMap.mp shown
          exact renderView_pictures view _ call mem

theorem renderFrame_pause (turn : FrameTurn setup.views) : Pause (renderFrame setup turn) := by
  unfold renderFrame
  split
  · exact .unwaited
  · split
    · exact .unbegun
    · exact .frame (renderViews_pictures setup turn) _ _

theorem step_round {s : App} {round : Round setup.views} (open_ : s.done = false)
    (stays : s.exitRenderLoop = false) (running : round.gRunning = true) :
    IsRound round (step setup s round).2 ∧ (step setup s round).1.done = false ∧
      (step setup s round).1.exitRenderLoop = round.polled.any Polled.exits := by
  obtain ⟨polls, exits, done⟩ := pollEvents_polls setup s round.polled
  rw [stays, Bool.false_or] at exits
  unfold step
  rw [if_neg (by simp [open_, stays, running])]
  cases session : (pollEvents setup s round.polled).1.sessionRunning with
  | true =>
    simp only [session, if_true]
    exact ⟨⟨_, _, rfl, polls, renderFrame_pause setup round.frame⟩, done.trans open_, exits⟩
  | false =>
    simp only [session, Bool.false_eq_true, if_false]
    exact ⟨⟨_, _, rfl, polls, .sleep⟩, done.trans open_, exits⟩

theorem run_over {s : App} (left : s.done = true ∨ s.exitRenderLoop = true)
    (rounds : List (Round setup.views)) : (run (step setup) s rounds).2 = [] := by
  induction rounds generalizing s with
  | nil => rfl
  | cons round rounds ih =>
    have silent : step setup s round = ({ s with done := true }, []) := by
      unfold step
      rw [if_pos (by tauto)]
    rw [run, silent]
    exact ih (.inl rfl)

theorem run_rounds {s : App} (open_ : s.done = false) (stays : s.exitRenderLoop = false)
    (rounds : List (Round setup.views)) :
    ∃ parts, (run (step setup) s rounds).2 = parts.flatten ∧
      List.Forall₂ IsRound (goneThrough rounds) parts := by
  induction rounds generalizing s with
  | nil => exact ⟨[], rfl, .nil⟩
  | cons round rounds ih =>
    unfold goneThrough
    cases running : round.gRunning with
    | false =>
      have left : step setup s round = ({ s with done := true }, []) := by
        unfold step
        rw [if_pos (.inr (.inl running))]
      refine ⟨[], ?_, .nil⟩
      rw [run, left]
      exact run_over setup (.inl rfl) rounds
    | true =>
      obtain ⟨here, goesOn, exits⟩ := step_round setup open_ stays running
      rw [if_neg (by simp), run]
      cases exit : round.polled.any Polled.exits with
      | true =>
        rw [exit] at exits
        refine ⟨[(step setup s round).2], ?_, .cons here .nil⟩
        simp only [run_over setup (.inr exits) rounds, List.append_nil, List.flatten_singleton]
      | false =>
        rw [exit] at exits
        obtain ⟨parts, trace, each⟩ := ih goesOn exits
        refine ⟨(step setup s round).2 :: parts, ?_, .cons here each⟩
        simp only [trace, List.flatten_cons]

/-- In every run the loop goes through the rounds before `g_running` is cleared, up to the one in
    which an event ends it: each polls its events and then makes exactly one frame or sleeps. -/
theorem loop_left (rounds : List (Round setup.views)) :
    ∃ parts, (run (step setup) {} rounds).2 = parts.flatten ∧
      List.Forall₂ IsRound (goneThrough rounds) parts :=
  run_rounds setup rfl rfl rounds

end

end QuestXrFrames
