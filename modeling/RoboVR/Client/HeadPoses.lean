import RoboVR.Client.Outgoing
import RoboVR.Lib.Mailbox

/- The head poses between the render thread and the transport thread: `g_latest_pose` is a box for
   one sample, and what is taken out of it goes into a packet. -/
namespace QuestHeadPoses
open TracedRun Mailbox
open QuestPosePayload (HeadPoseSample)
open QuestTransport QuestOutgoing

def mailOf : Event → Option (Mail HeadPoseSample)
  | .published sample => some (.put sample)
  | .took sample => some (.took sample)
  | _ => none

def mails (past : List Event) : List (Mail HeadPoseSample) := past.filterMap mailOf

def isPoseCall (call : SendCall) : Bool := decide (call.message.type = .pose)

def poseCalls (past : List Event) : List SendCall := (sentCalls past).filter isPoseCall

theorem mails_append (past es : List Event) : mails (past ++ es) = mails past ++ mails es :=
  List.filterMap_append

theorem poseCalls_append (past es : List Event) :
    poseCalls (past ++ es) = poseCalls past ++ poseCalls es := by
  rw [poseCalls, sentCalls_append, List.filter_append]
  rfl

structure PoseBox (signedNan : Bool) (s : State) (past : List Event) : Prop where
  box : content (mails past) = s.latestPose
  delivers : Delivers (mails past)
  sent : (poseCalls past).map (·.message.payload) =
    (takes (mails past)).map (posePayload signedNan)

section
variable {signedNan : Bool} {s after : State} {past es : List Event}

theorem poseBox_quiet (inv : PoseBox signedNan s past) (same : after.latestPose = s.latestPose)
    (noMail : mails es = []) (noCall : poseCalls es = []) :
    PoseBox signedNan after (past ++ es) := by
  constructor
  · rw [mails_append, noMail, List.append_nil, same]
    exact inv.box
  · rw [mails_append, noMail, List.append_nil]
    exact inv.delivers
  · rw [mails_append, poseCalls_append, noMail, noCall, List.append_nil, List.append_nil]
    exact inv.sent

theorem goOn_poses (s : State) (conn : Nat) (ok : Bool) (next : Phase) :
    (goOn s conn ok next).1.latestPose = s.latestPose ∧ mails (goOn s conn ok next).2 = [] ∧
      poseCalls (goOn s conn ok next).2 = [] := by
  cases ok <;> exact ⟨rfl, rfl, rfl⟩

theorem acks_poses (conn : Nat) {sent : List SendCall}
    (acks : ∀ call ∈ sent, SendsAck signedNan call) :
    mails (sent.map (.sent conn)) = [] ∧ poseCalls (sent.map (.sent conn)) = [] := by
  constructor
  · rw [mails, List.filterMap_map, List.filterMap_eq_nil_iff]
    exact fun _ _ => rfl
  · rw [poseCalls, (calls_sent conn sent).2.1, List.filter_eq_nil_iff]
    intro call mem
    obtain ⟨seq, ack, turn, rfl⟩ := acks call mem
    exact Bool.false_ne_true

theorem decoded_poses (decoded : List QuestMediaCodec.Event) :
    mails (decoded.map .decoder) = [] ∧ poseCalls (decoded.map .decoder) = [] := by
  constructor
  · rw [mails, List.filterMap_map, List.filterMap_eq_nil_iff]
    exact fun _ _ => rfl
  · rw [poseCalls, (calls_decoded 0 decoded).2]
    rfl

theorem poseBox_put (inv : PoseBox signedNan s past) (sample : HeadPoseSample) :
    PoseBox signedNan { s with latestPose := some sample } (past ++ [.published sample]) := by
  have mail : mails (past ++ [.published sample]) = mails past ++ [.put sample] := by
    rw [mails_append]
    rfl
  constructor
  · rw [mail, content_put]
  · rw [mail]
    exact delivers_put inv.delivers sample
  · have noTake : takes (mails past ++ [.put sample]) = takes (mails past) := by
      simp [takes, letterTaken]
    have noCall : poseCalls [Event.published sample] = [] := rfl
    rw [mail, noTake, poseCalls_append, noCall, List.append_nil]
    exact inv.sent

theorem poseBox_took {conn : Nat} {sample : HeadPoseSample} {turn : SendTurn} {call : SendCall}
    {closing : List Event} (inv : PoseBox signedNan s past) (full : s.latestPose = some sample)
    (sent : call = send s.seq .pose (posePayload signedNan sample) turn)
    (empty : after.latestPose = none) (noMail : mails closing = [])
    (noCall : poseCalls closing = []) :
    PoseBox signedNan after (past ++ ([.took sample, .sent conn call] ++ closing)) := by
  have mail : mails (past ++ ([.took sample, .sent conn call] ++ closing)) =
      mails past ++ [.took sample] := by
    rw [mails_append, mails_append, noMail]
    rfl
  have inside : content (mails past) = some sample := inv.box.trans full
  have own : poseCalls [Event.took sample, Event.sent conn call] = [call] := by
    rw [sent]
    rfl
  constructor
  · rw [mail, content_took, empty]
  · rw [mail]
    exact delivers_took inv.delivers inside
  · have more : takes (mails past ++ [.took sample]) = takes (mails past) ++ [sample] := by
      simp [takes, letterTaken]
    rw [mail, more, poseCalls_append, poseCalls_append, own, noCall, List.map_append, inv.sent, sent]
    simp [send]

theorem poseBox_step (inv : PoseBox signedNan s past) (acts : Acts signedNan s after es) :
    PoseBox signedNan after (past ++ es) := by
  cases acts with
  | published sample => exact poseBox_put inv sample
  | @acked conn next decoder decoded sent acks turns here there _ isCalls =>
    have packets := sendAckPackets_calls signedNan acks turns s.seq
    rw [← isCalls] at packets
    obtain ⟨same, noMail, noCall⟩ :=
      goOn_poses { s with decoder := decoder, seq := sent.2.1 } conn sent.2.2 next
    obtain ⟨ackMail, ackCall⟩ := acks_poses conn packets.acks
    obtain ⟨codecMail, codecCall⟩ := decoded_poses decoded
    apply poseBox_quiet inv same
    · rw [mails_append, mails_append, codecMail, ackMail, noMail]
      rfl
    · rw [poseCalls_append, poseCalls_append, codecCall, ackCall, noCall]
      rfl
  | @beaten conn nowNs last turn call here _ sent _ =>
    obtain ⟨same, noMail, noCall⟩ := goOn_poses
      { s with seq := s.seq + 1, lastHeartbeatNs := last } conn call.ok (.posing conn)
    apply poseBox_quiet inv same
    · rw [mails_append, noMail]
      rfl
    · rw [poseCalls_append, noCall, sent]
      rfl
  | @posed conn sample turn call here full sent =>
    obtain ⟨same, noMail, noCall⟩ :=
      goOn_poses { s with latestPose := none, seq := s.seq + 1 } conn call.ok (.looping conn)
    exact poseBox_took inv full sent same noMail noCall
  | _ => exact poseBox_quiet inv rfl rfl rfl

end

theorem run_poseBox (signedNan : Bool) (moves : List Move) :
    PoseBox signedNan (run (step signedNan) {} moves).1 (run (step signedNan) {} moves).2 := by
  have kept : ∀ s past move, PoseBox signedNan s past →
      PoseBox signedNan (step signedNan s move).1 (past ++ (step signedNan s move).2) :=
    fun s past move inv => poseBox_step inv (step_acts signedNan s move)
  have start : PoseBox signedNan {} [] := ⟨rfl, trivial, rfl⟩
  exact run_invariant kept start moves

/-- Each pose packet is about the sample that was the newest one when it was taken, so the packets
    are about different publications in the order of these; what is still in the box is newer. -/
theorem poses_fresh (signedNan : Bool) (moves : List Move) :
    let ran := run (step signedNan) {} moves
    (poseCalls ran.2).map (·.message.payload) =
        (takes (mails ran.2)).map (posePayload signedNan) ∧
      Delivers (mails ran.2) ∧
      ran.1.latestPose = content (mails ran.2) ∧
      (takes (mails ran.2) ++ ran.1.latestPose.toList).Sublist (puts (mails ran.2)) := by
  have inv := run_poseBox signedNan moves
  refine ⟨inv.sent, inv.delivers, inv.box.symm, ?_⟩
  rw [← inv.box]
  exact takes_content_sublist inv.delivers

end QuestHeadPoses
