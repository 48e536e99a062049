import RoboVR.Input.PosePayload
import RoboVR.Lib.CallOrder

/- The loop of `OpenXrApp::run`: events of the runtime, frames and their views. What the runtime
   answers is the input, and the calls are the events. -/
namespace QuestXrFrames
open TracedRun CallOrder
open QuestPosePayload (FloatBits XrVector3f XrQuaternionf XrPosef XrFovf HeadPoseSample)

inductive SessionState where
  | unknown
  | idle
  | ready
  | synchronized
  | visible
  | focused
  | stopping
  | lossPending
  | exiting
  deriving DecidableEq

inductive XrEvent where
  | sessionStateChanged (state : SessionState)
  | instanceLossPending
  | displayRefreshRateChanged
  | other
  deriving DecidableEq

/-- What the code computes with floats. -/
structure Floats where
  middle : FloatBits → FloatBits → FloatBits
  minus : FloatBits → FloatBits → FloatBits
  length : XrVector3f → FloatBits
  /-- `std::abs(rate - requested_hz)` of a supported rate; none where that is a NaN. -/
  error : FloatBits → Option (WithTop ℚ)

structure Setup where
  views : Nat
  refreshRateEnabled : Bool
  supportedRates : List FloatBits
  floats : Floats

structure Polled where
  event : XrEvent
  begun : Bool
  ended : Bool
  requested : Bool

structure ControllerTurn where
  trigger : Option FloatBits
  squeeze : Option FloatBits
  primary : Option Bool
  secondary : Option Bool
  grip : Option (XrPosef × UInt64)
  aim : Option (XrPosef × UInt64)

structure ControllerState where
  gripPose : XrPosef
  aimPose : XrPosef
  gripFlags : UInt64
  aimFlags : UInt64
  trigger : FloatBits
  squeeze : FloatBits
  primaryButton : Bool
  secondaryButton : Bool

structure LocatedView where
  pose : XrPosef
  fov : XrFovf

/-- What `xrLocateViews` writes; it never exceeds the capacity it is given. -/
structure Located (views : Nat) where
  viewStateFlags : UInt64
  located : List LocatedView
  fits : located.length ≤ views

structure ImageTurn where
  acquired : Bool
  waited : Bool
  released : Bool

structure FrameTurn (views : Nat) where
  waited : Bool
  begun : Bool
  shouldRender : Bool
  predictedDisplayTime : Int64
  left : ControllerTurn
  right : ControllerTurn
  located : Option (Located views)
  images : Nat → ImageTurn
  ended : Bool

/-- One round of the loop; `gRunning` is what it reads at its head. -/
structure Round (views : Nat) where
  gRunning : Bool
  polled : List Polled
  frame : FrameTurn views

structure App where
  sessionState : SessionState := .unknown
  sessionRunning : Bool := false
  exitRenderLoop : Bool := false
  refreshRateRequested : Bool := false
  done : Bool := false

inductive Call where
  | polled (event : XrEvent)
  | beginSession (ok : Bool)
  | endSession (ok : Bool)
  | requestRefreshRate (hz : FloatBits) (ok : Bool)
  | sleep
  | waitFrame (ok : Bool)
  | beginFrame (ok : Bool)
  | locateViews (ok : Bool)
  | publishHeadPose (sample : HeadPoseSample)
  | acquireImage (view : Nat) (ok : Bool)
  | waitImage (view : Nat) (ok : Bool)
  | draw (view : Nat)
  | releaseImage (view : Nat) (ok : Bool)
  | endFrame (layer : Option Nat) (ok : Bool)

def kRequestedDisplayRefreshRateHz : FloatBits := 0x42900000

def zeroPose : XrPosef :=
  { orientation := { x := 0, y := 0, z := 0, w := 0 }, position := { x := 0, y := 0, z := 0 } }

def zeroFov : XrFovf := { angleLeft := 0, angleRight := 0, angleUp := 0, angleDown := 0 }

section
variable (setup : Setup)

/-- `error < best_error`; no NaN is less than anything, and nothing than a NaN. -/
def isLess : Option (WithTop ℚ) → Option (WithTop ℚ) → Bool
  | some error, some best => decide (error < best)
  | _, _ => false

def nearer (error : FloatBits → Option (WithTop ℚ)) (selected rate : FloatBits) : FloatBits :=
  if isLess (error rate) (error selected) then rate else selected

def selectRate : FloatBits :=
  match setup.supportedRates with
  | [] => kRequestedDisplayRefreshRateHz
  | first :: rest => (first :: rest).foldl (nearer setup.floats.error) first

def requestDisplayRefreshRate (s : App) (ok : Bool) : App × List Call :=
  if setup.refreshRateEnabled = false ∨ s.refreshRateRequested = true then (s, [])
  else ({ s with refreshRateRequested := ok }, [.requestRefreshRate (selectRate setup) ok])

def pollEvent (s : App) (p : Polled) : App × List Call :=
  match p.event with
  | .sessionStateChanged state =>
    let s := { s with sessionState := state }
    match state with
    | .ready =>
      let s := { s with sessionRunning := p.begun }
      if p.begun then
        let (s, calls) := requestDisplayRefreshRate setup s p.requested
        (s, .polled p.event :: .beginSession true :: calls)
      else (s, [.polled p.event, .beginSession false])
    | .stopping => ({ s with sessionRunning := false }, [.polled p.event, .endSession p.ended])
    | .exiting | .lossPending => ({ s with exitRenderLoop := true }, [.polled p.event])
    | _ => (s, [.polled p.event])
  | .instanceLossPending => ({ s with exitRenderLoop := true }, [.polled p.event])
  | _ => (s, [.polled p.event])

def pollEvents (s : App) (polled : List Polled) : App × List Call := run (pollEvent setup) s polled

def locateController (turn : ControllerTurn) : ControllerState where
  gripPose := (turn.grip.map Prod.fst).getD zeroPose
  aimPose := (turn.aim.map Prod.fst).getD zeroPose
  gripFlags := (turn.grip.map Prod.snd).getD 0
  aimFlags := (turn.aim.map Prod.snd).getD 0
  trigger := turn.trigger.getD 0
  squeeze := turn.squeeze.getD 0
  primaryButton := turn.primary.getD false
  secondaryButton := turn.secondary.getD false

def headPose (first second : XrPosef) : XrPosef :=
  { first with
    position :=
      { x := setup.floats.middle first.position.x second.position.x
        y := setup.floats.middle first.position.y second.position.y
        z := setup.floats.middle first.position.z second.position.z } }

def ipd (first second : XrVector3f) : FloatBits :=
  setup.floats.length
    { x := setup.floats.minus second.x first.x
      y := setup.floats.minus second.y first.y
      z := setup.floats.minus second.z first.z }

def headPoseSample (displayTime : Int64) (flags : UInt64) (first : LocatedView)
    (others : List LocatedView) (left right : ControllerState) : HeadPoseSample where
  predictedDisplayTimeNs := displayTime
  pose := (others.head?.map fun second => headPose setup first.pose second.pose).getD first.pose
  viewStateFlags := flags
  eyeViewCount := UInt32.ofNat (others.length + 1)
  leftEyePose := first.pose
  rightEyePose := (others.head?.map LocatedView.pose).getD zeroPose
  leftEyeFov := first.fov
  rightEyeFov := (others.head?.map LocatedView.fov).getD zeroFov
  ipdM := (others.head?.map fun second => ipd setup first.pose.position second.pose.position).getD 0
  leftGripPose := left.gripPose
  rightGripPose := right.gripPose
  leftAimPose := left.aimPose
  rightAimPose := right.aimPose
  leftGripFlags := left.gripFlags
  rightGripFlags := right.gripFlags
  leftAimFlags := left.aimFlags
  rightAimFlags := right.aimFlags
  leftTrigger := left.trigger
  rightTrigger := right.trigger
  leftSqueeze := left.squeeze
  rightSqueeze := right.squeeze
  buttonA := right.primaryButton
  buttonB := right.secondaryButton
  buttonX := left.primaryButton
  buttonY := left.secondaryButton

def renderView (view : Nat) (image : ImageTurn) : List Call :=
  if image.acquired = false then [.acquireImage view false]
  else if image.waited = false then [.acquireImage view true, .waitImage view false]
  else [.acquireImage view true, .waitImage view true, .draw view,
    .releaseImage view image.released]

def publication (turn : FrameTurn setup.views) (located : Located setup.views) : List Call :=
  match located.located with
  | [] => []
  | first :: others => [.publishHeadPose (headPoseSample setup turn.predictedDisplayTime
      located.viewStateFlags first others (locateController turn.left)
      (locateController turn.right))]

/-- What `renderFrame` does between the begin and the end of a frame, and its layer. -/
def renderViews (turn : FrameTurn setup.views) : List Call × Option Nat :=
  if turn.shouldRender then
    match turn.located with
    | none => ([.locateViews false], none)
    | some located =>
      (.locateViews true :: (publication setup turn located ++
        (List.range located.located.length).flatMap fun view => renderView view (turn.images view)),
        some located.located.length)
  else ([], none)

def renderFrame (turn : FrameTurn setup.views) : List Call :=
  if turn.waited = false then [.waitFrame false]
  else if turn.begun = false then [.waitFrame true, .beginFrame false]
  else
    let (calls, layer) := renderViews setup turn
    .waitFrame true :: .beginFrame true :: (calls ++ [.endFrame layer turn.ended])

def step (s : App) (round : Round setup.views) : App × List Call :=
  if s.done = true ∨ round.gRunning = false ∨ s.exitRenderLoop = true then
    ({ s with done := true }, [])
  else
    let (s, calls) := pollEvents setup s round.polled
    if s.sessionRunning then (s, calls ++ renderFrame setup round.frame)
    else (s, calls ++ [.sleep])

/- The rules for the order of the calls. -/

inductive Picture where
  | acquired
  | waited
  | drawn

inductive FramePhase where
  | between
  | waited
  | begun (shown : Nat) (image : Option Picture)

structure Runtime where
  running : Bool := false
  event : Option XrEvent := none
  granted : Bool := false
  due : Bool := false
  frame : FramePhase := .between

/-- The first of the supported rates that no other is nearer than. A rate that compares with none
    is passed over, unless it is the first. -/
def Nearest (hz : FloatBits) : Prop :=
  ∃ before after, setup.supportedRates = before ++ hz :: after ∧
    (∀ rate ∈ before, setup.floats.error rate = none ∨
      isLess (setup.floats.error hz) (setup.floats.error rate) = true) ∧
      ∀ rate ∈ after, isLess (setup.floats.error rate) (setup.floats.error hz) = false

/-- A session begins and ends when its state says so; a refresh rate is asked for behind each begin
    until it is given; frames belong to a running session and are waited for, begun and ended in
    turn; in a frame each view in order has its image acquired, waited for, drawn and released. -/
inductive Allows : Runtime → Call → Runtime → Prop where
  | polled {r : Runtime} (event : XrEvent) (settled : r.due = false)
      (between : r.frame = .between) : Allows r (.polled event) { r with event := some event }
  | beginSession {r : Runtime} (ok : Bool) (settled : r.due = false)
      (between : r.frame = .between) (ready : r.event = some (.sessionStateChanged .ready)) :
      Allows r (.beginSession ok)
        { r with
          running := ok
          event := none
          due := ok && setup.refreshRateEnabled && !r.granted }
  | endSession {r : Runtime} (ok : Bool) (settled : r.due = false) (between : r.frame = .between)
      (stopping : r.event = some (.sessionStateChanged .stopping)) :
      Allows r (.endSession ok) { r with running := false, event := none }
  | requestRefreshRate {r : Runtime} {hz : FloatBits} (ok : Bool) (due : r.due = true)
      (best : (setup.supportedRates = [] ∧ hz = kRequestedDisplayRefreshRateHz) ∨
        Nearest setup hz) :
      Allows r (.requestRefreshRate hz ok) { r with granted := ok, due := false }
  | sleep {r : Runtime} (settled : r.due = false) (idle : r.running = false) : Allows r .sleep r
  | waitFrame {r : Runtime} (ok : Bool) (settled : r.due = false) (running : r.running = true)
      (between : r.frame = .between) :
      Allows r (.waitFrame ok) { r with frame := if ok then .waited else .between }
  | beginFrame {r : Runtime} (ok : Bool) (waited : r.frame = .waited) :
      Allows r (.beginFrame ok) { r with frame := if ok then .begun 0 none else .between }
  | locateViews {r : Runtime} (ok : Bool) (begun : r.frame = .begun 0 none) :
      Allows r (.locateViews ok) r
  | publishHeadPose {r : Runtime} (sample : HeadPoseSample) (begun : r.frame = .begun 0 none) :
      Allows r (.publishHeadPose sample) r
  | acquireImage {r : Runtime} {view : Nat} (ok : Bool) (inside : view < setup.views)
      (next : r.frame = .begun view none) :
      Allows r (.acquireImage view ok)
        { r with frame := .begun (view + 1) (if ok then some .acquired else none) }
  | waitImage {r : Runtime} {view : Nat} (ok : Bool)
      (acquired : r.frame = .begun (view + 1) (some .acquired)) :
      Allows r (.waitImage view ok)
        { r with frame := .begun (view + 1) (if ok then some .waited else none) }
  | draw {r : Runtime} {view : Nat} (waited : r.frame = .begun (view + 1) (some .waited)) :
      Allows r (.draw view) { r with frame := .begun (view + 1) (some .drawn) }
  | releaseImage {r : Runtime} {view : Nat} (ok : Bool)
      (drawn : r.frame = .begun (view + 1) (some .drawn)) :
      Allows r (.releaseImage view ok) { r with frame := .begun (view + 1) none }
  | endFrame {r : Runtime} (layer : Option Nat) (ok : Bool)
      (shown : r.frame = .begun (layer.getD 0) none) :
      Allows r (.endFrame layer ok) { r with frame := .between }

/- The selected rate. -/

theorem isLess_trans {a b c : Option (WithTop ℚ)} (first : isLess a b = true)
    (second : isLess b c = true) : isLess a c = true := by
  cases a <;> cases b <;> cases c <;> simp only [isLess, Bool.false_eq_true, decide_eq_true_eq] at *
  exact first.trans second

theorem isLess_behind {a b c : Option (WithTop ℚ)} (first : isLess a b = true)
    (second : isLess c b = false) : c = none ∨ isLess a c = true := by
  cases a <;> cases b <;> cases c <;>
    simp only [isLess, Bool.false_eq_true, decide_eq_true_eq, decide_eq_false_iff_not, not_lt,
      reduceCtorEq, false_or, true_or] at *
  exact first.trans_le second

theorem isLess_self (a : Option (WithTop ℚ)) : isLess a a = false := by
  cases a <;> simp [isLess]

theorem foldl_nearest (error : FloatBits → Option (WithTop ℚ))
    {rates before after : List FloatBits} {selected : FloatBits}
    (split : rates = before ++ selected :: after)
    (first : ∀ rate ∈ before, error rate = none ∨ isLess (error selected) (error rate) = true)
    (rest : ∀ rate ∈ after, isLess (error rate) (error selected) = false)
    (later : List FloatBits) :
    ∃ front back, rates ++ later = front ++ later.foldl (nearer error) selected :: back ∧
      (∀ rate ∈ front, error rate = none ∨
        isLess (error (later.foldl (nearer error) selected)) (error rate) = true) ∧
      ∀ rate ∈ back,
        isLess (error rate) (error (later.foldl (nearer error) selected)) = false := by
  induction later generalizing rates before after selected with
  | nil => exact ⟨before, after, by simpa using split, first, rest⟩
  | cons rate later ih =>
    have moved : rates ++ rate :: later = (rates ++ [rate]) ++ later := by simp
    rw [moved, List.foldl_cons, nearer]
    by_cases less : isLess (error rate) (error selected) = true
    · rw [if_pos less]
      refine @ih (rates ++ [rate]) rates [] rate rfl ?_ (by simp)
      intro other mem
      rw [split, List.mem_append, List.mem_cons] at mem
      rcases mem with old | rfl | old
      · exact (first other old).imp_right (isLess_trans less)
      · exact .inr less
      · exact isLess_behind less (rest other old)
    · rw [if_neg less]
      refine @ih (rates ++ [rate]) before (after ++ [rate]) selected (by simp [split]) first ?_
      intro other mem
      rcases List.mem_append.mp mem with old | new
      · exact rest other old
      · rw [List.mem_singleton.mp new]
        exact Bool.eq_false_iff.mpr less

theorem selectRate_best :
    (setup.supportedRates = [] ∧ selectRate setup = kRequestedDisplayRefreshRateHz) ∨
      Nearest setup (selectRate setup) := by
  unfold selectRate Nearest
  cases rates : setup.supportedRates with
  | nil => exact .inl ⟨rfl, rfl⟩
  | cons first rest =>
    right
    -- the code compares the first rate with itself too
    simp only [List.foldl_cons, nearer, isLess_self, Bool.false_eq_true, if_false]
    exact @foldl_nearest setup.floats.error [first] [] [] first rfl (by simp) (by simp) rest

/- Every part of the loop keeps to the rules. -/

structure Idle (s : App) (r : Runtime) : Prop where
  between : r.frame = .between
  settled : r.due = false
  running : r.running = s.sessionRunning
  granted : r.granted = s.refreshRateRequested

theorem request_allowed {s : App} {r : Runtime} (between : r.frame = .between)
    (running : r.running = s.sessionRunning) (granted : r.granted = s.refreshRateRequested)
    (due : r.due = (setup.refreshRateEnabled && !r.granted)) (ok : Bool) :
    ∃ after, Accepts (Allows setup) r (requestDisplayRefreshRate setup s ok).2 after ∧
      Idle (requestDisplayRefreshRate setup s ok).1 after := by
  unfold requestDisplayRefreshRate
  split
  · next skip =>
    refine ⟨r, rfl, between, ?_, running, granted⟩
    rw [due, granted]
    rcases skip with off | given
    · rw [off, Bool.false_and]
    · rw [given, Bool.not_true, Bool.and_false]
  · next ask =>
    rw [not_or, Bool.not_eq_false, Bool.not_eq_true] at ask
    rw [ask.1, granted, ask.2] at due
    refine ⟨_, accepts_one (.requestRefreshRate ok due (selectRate_best setup)), ?_⟩
    exact ⟨between, rfl, running, rfl⟩

theorem pollEvent_allowed {s : App} {r : Runtime} (idle : Idle s r) (p : Polled) :
    ∃ after, Accepts (Allows setup) r (pollEvent setup s p).2 after ∧
      Idle (pollEvent setup s p).1 after := by
  obtain ⟨between, settled, running, granted⟩ := idle
  have polled : Allows setup r (.polled p.event) { r with event := some p.event } :=
    .polled p.event settled between
  unfold pollEvent
  cases event : p.event with
  | sessionStateChanged state =>
    rw [event] at polled
    cases state with
    | ready =>
      have begins (ok : Bool) : Allows setup
          { r with event := some (.sessionStateChanged .ready) } (.beginSession ok)
          { r with
            running := ok
            event := none
            due := ok && setup.refreshRateEnabled && !r.granted } :=
        .beginSession ok settled between rfl
      cases begun : p.begun with
      | true =>
        obtain ⟨after, asked, idle⟩ := @request_allowed setup
          { s with sessionState := .ready, sessionRunning := true }
          { r with
            running := true
            event := none
            due := setup.refreshRateEnabled && !r.granted }
          between rfl granted rfl p.requested
        exact ⟨after, ⟨_, polled, _, begins true, asked⟩, idle⟩
      | false => exact ⟨_, ⟨_, polled, accepts_one (begins false)⟩, between, rfl, rfl, granted⟩
    | stopping =>
      have ends : Allows setup { r with event := some (.sessionStateChanged .stopping) }
          (.endSession p.ended) { r with running := false, event := none } :=
        .endSession p.ended settled between rfl
      exact ⟨_, ⟨_, polled, accepts_one ends⟩, between, settled, rfl, granted⟩
    | _ => exact ⟨_, accepts_one polled, between, settled, running, granted⟩
  | _ =>
    rw [event] at polled
    exact ⟨_, accepts_one polled, between, settled, running, granted⟩

theorem pollEvents_allowed {s : App} {r : Runtime} (idle : Idle s r) (polled : List Polled) :
    ∃ after, Accepts (Allows setup) r (pollEvents setup s polled).2 after ∧
      Idle (pollEvents setup s polled).1 after :=
  accepts_run Idle (fun _ _ p idle => pollEvent_allowed setup idle p) idle polled

theorem renderView_allowed (r : Runtime) {view : Nat} (inside : view < setup.views)
    (image : ImageTurn) :
    Accepts (Allows setup) { r with frame := .begun view none } (renderView view image)
      { r with frame := .begun (view + 1) none } := by
  have acquires (ok : Bool) : Allows setup { r with frame := .begun view none }
      (.acquireImage view ok)
      { r with frame := .begun (view + 1) (if ok then some .acquired else none) } :=
    .acquireImage ok inside rfl
  have waits (ok : Bool) : Allows setup { r with frame := .begun (view + 1) (some .acquired) }
      (.waitImage view ok)
      { r with frame := .begun (view + 1) (if ok then some .waited else none) } :=
    .waitImage ok rfl
  have draws : Allows setup { r with frame := .begun (view + 1) (some .waited) } (.draw view)
      { r with frame := .begun (view + 1) (some .drawn) } := .draw rfl
  have releases (ok : Bool) : Allows setup { r with frame := .begun (view + 1) (some .drawn) }
      (.releaseImage view ok) { r with frame := .begun (view + 1) none } := .releaseImage ok rfl
  unfold renderView
  split
  · exact accepts_one (acquires false)
  · split
    · exact ⟨_, acquires true, accepts_one (waits false)⟩
    · exact ⟨_, acquires true, _, waits true, _, draws, accepts_one (releases image.released)⟩

theorem allViews_allowed (r : Runtime) (images : Nat → ImageTurn) {count : Nat}
    (fits : count ≤ setup.views) :
    Accepts (Allows setup) { r with frame := .begun 0 none }
      ((List.range count).flatMap fun view => renderView view (images view))
      { r with frame := .begun count none } := by
  induction count with
  | zero => rfl
  | succ count ih =>
    rw [List.range_succ, List.flatMap_append]
    refine accepts_trans (ih (by omega)) ?_
    rw [List.flatMap_singleton]
    exact renderView_allowed setup r (by omega) (images count)

theorem renderViews_allowed (r : Runtime) (turn : FrameTurn setup.views) :
    Accepts (Allows setup) { r with frame := .begun 0 none } (renderViews setup turn).1
      { r with frame := .begun ((renderViews setup turn).2.getD 0) none } := by
  have locates (ok : Bool) : Allows setup { r with frame := .begun 0 none } (.locateViews ok)
      { r with frame := .begun 0 none } := .locateViews ok rfl
  unfold renderViews
  cases turn.shouldRender with
  | false => rfl
  | true =>
    cases turn.located with
    | none => exact accepts_one (locates false)
    | some located =>
      have published : Accepts (Allows setup) { r with frame := .begun 0 none }
          (publication setup turn located) { r with frame := .begun 0 none } := by
        unfold publication
        cases located.located with
        | nil => rfl
        | cons first others => exact accepts_one (.publishHeadPose _ rfl)
      exact ⟨_, locates true,
        accepts_trans published (allViews_allowed setup r turn.images located.fits)⟩

theorem renderFrame_allowed {s : App} {r : Runtime} (idle : Idle s r)
    (running : s.sessionRunning = true) (turn : FrameTurn setup.views) :
    ∃ after, Accepts (Allows setup) r (renderFrame setup turn) after ∧ Idle s after := by
  have back : Idle s { r with frame := .between } := ⟨rfl, idle.settled, idle.running, idle.granted⟩
  have waits (ok : Bool) : Allows setup r (.waitFrame ok)
      { r with frame := if ok then .waited else .between } :=
    .waitFrame ok idle.settled (idle.running.trans running) idle.between
  have begins (ok : Bool) : Allows setup { r with frame := .waited } (.beginFrame ok)
      { r with frame := if ok then .begun 0 none else .between } := .beginFrame ok rfl
  unfold renderFrame
  split
  · exact ⟨_, accepts_one (waits false), back⟩
  · split
    · exact ⟨_, ⟨_, waits true, accepts_one (begins false)⟩, back⟩
    · have views := renderViews_allowed setup r turn
      have ends : Allows setup
          { r with frame := .begun ((renderViews setup turn).2.getD 0) none }
          (.endFrame (renderViews setup turn).2 turn.ended) { r with frame := .between } :=
        .endFrame _ _ rfl
      exact ⟨_, ⟨_, waits true, _, begins true, accepts_trans views (accepts_one ends)⟩, back⟩

theorem step_allowed {s : App} {r : Runtime} (idle : Idle s r) (round : Round setup.views) :
    ∃ after, Accepts (Allows setup) r (step setup s round).2 after ∧
      Idle (step setup s round).1 after := by
  obtain ⟨mid, polled, known⟩ := pollEvents_allowed setup idle round.polled
  unfold step
  split
  · exact ⟨r, rfl, idle.between, idle.settled, idle.running, idle.granted⟩
  · cases running : (pollEvents setup s round.polled).1.sessionRunning with
    | true =>
      obtain ⟨after, framed, last⟩ := renderFrame_allowed setup known running round.frame
      simp only [running, if_true]
      exact ⟨after, accepts_trans polled framed, last⟩
    | false =>
      simp only [running, Bool.false_eq_true, if_false]
      have sleeps : Allows setup mid .sleep mid :=
        .sleep known.settled (known.running.trans running)
      exact ⟨mid, accepts_trans polled (accepts_one sleeps), known⟩

/-- In every run of the loop, whatever the runtime answers, the calls keep to the rules, and no
    frame and no image is under way at the head of the loop. -/
theorem calls_ordered (rounds : List (Round setup.views)) :
    ∃ after, Accepts (Allows setup) {} (run (step setup) {} rounds).2 after ∧
      Idle (run (step setup) {} rounds).1 after := by
  have start : Idle {} {} := ⟨rfl, rfl, rfl, rfl⟩
  exact accepts_run Idle (fun _ _ round idle => step_allowed setup idle round) start rounds

end

end QuestXrFrames
