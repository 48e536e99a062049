import RoboVR.Host.Pacing

/- When the first ack comes early enough, the host never goes back too far: the acks rise, and
   behind the first one no frame is sent more than three above the latest. -/
namespace HostFirstAck
open QuestMediaCodec QuestSurfaceDrain QuestH264Decoder QuestDecodeStep QuestDecodeTrace
open QuestHostPackets HostVideoThread HostConnection HostPacing
open Pairing TracedRun

/-- No frame that the host has sent or is about to send lies more than five above `n`. -/
def Within (c : Connection) (past : List Sign) (n : Nat) : Prop :=
  (∀ f ∈ sentFrames past, f.toNat ≤ n + 5) ∧
    (c.host.stage = .sending → c.host.videoFrame.toNat ≤ n + 5)

/-- All frames are within reach of the first ack that the host counts. -/
def FirstAckClose (c : Connection) (past : List Sign) : Move → Prop
  | .handleAck =>
    match c.toHost with
    | [] => True
    | ack :: _ => c.host.hasVideoAck = false → (c.host.videoSendTimeNs.lookup ack).isSome →
      Within c past ack.toNat
  | _ => True

structure Early (c : Connection) (past : List Sign) (move : Move) : Prop where
  returns : CodecsReturn c past move
  noWrap : NoWrap c move
  firstAck : FirstAckClose c past move

instance (c : Connection) (past : List Sign) (n : Nat) : Decidable (Within c past n) :=
  have := List.decidableBAll (fun f : UInt64 => f.toNat ≤ n + 5) (sentFrames past)
  inferInstanceAs (Decidable (_ ∧ _))

instance (c : Connection) (past : List Sign) : (move : Move) → Decidable (FirstAckClose c past move)
  | .handleAck =>
    match here : c.toHost with
    | [] => isTrue (by rw [FirstAckClose, here]; trivial)
    | ack :: rest => decidable_of_iff (c.host.hasVideoAck = false →
        (c.host.videoSendTimeNs.lookup ack).isSome → Within c past ack.toNat)
        (by rw [FirstAckClose, here])
  | .pace _ | .send _ _ | .record _ | .receive _ => isTrue trivial

instance (c : Connection) (past : List Sign) (move : Move) : Decidable (Early c past move) :=
  decidable_of_iff (CodecsReturn c past move ∧ NoWrap c move ∧ FirstAckClose c past move)
    ⟨fun ⟨returns, noWrap, firstAck⟩ => ⟨returns, noWrap, firstAck⟩,
      fun early => ⟨early.returns, early.noWrap, early.firstAck⟩⟩

structure AcksPaced (toHost : List UInt64) (host : HostBridge) (last : Option Nat) : Prop where
  rise : toHost.Pairwise fun a b => a.toNat < b.toNat
  above : host.hasVideoAck = true → ∀ a ∈ toHost, host.latestVideoAckFrame.toNat < a.toNat
  known : ∀ a ∈ toHost, ∃ k ∈ last, a.toNat ≤ k
  counted : host.hasVideoAck = true → ∃ k ∈ last, host.latestVideoAckFrame.toNat ≤ k

structure AckPaced (c : Connection) (past : List Sign) : Prop where
  within_ : c.host.hasVideoAck = true → Within c past c.host.latestVideoAckFrame.toNat
  acks : AcksPaced c.toHost c.host (pairOf c.quest.decoder).last

theorem acks_counted {toHost : List UInt64} {host after : HostBridge} {last : Option Nat}
    (paced : AcksPaced toHost host last) (hasAck : after.hasVideoAck = host.hasVideoAck)
    (latest : after.latestVideoAckFrame = host.latestVideoAckFrame) :
    AcksPaced toHost after last where
  rise := paced.rise
  above := by
    rw [hasAck, latest]
    exact paced.above
  known := paced.known
  counted := by
    rw [hasAck, latest]
    exact paced.counted

theorem acks_published {toHost : List UInt64} {host : HostBridge} {before after : Pair Nat}
    {got : List UInt64} {news : Option Nat} (paced : AcksPaced toHost host before.last)
    (publishes : Publishes before after (got.map UInt64.toNat) news) :
    AcksPaced (toHost ++ news.toList.map UInt64.ofNat) host after.last := by
  cases news with
  | none =>
    rw [show after.last = before.last from publishes]
    simpa using paced
  | some n =>
    obtain ⟨last, mem, newer⟩ := publishes
    obtain ⟨f, _, same⟩ := List.mem_map.mp mem
    have back : (UInt64.ofNat n).toNat = n := by
      rw [← same, UInt64.ofNat_toNat]
    rw [last]
    constructor
    · rw [Option.toList_some, List.map_singleton, List.pairwise_append]
      refine ⟨paced.rise, List.pairwise_singleton _ _, ?_⟩
      intro a old b new
      obtain ⟨k, known, bound⟩ := paced.known a old
      rw [List.mem_singleton.mp new, back]
      exact Nat.lt_of_le_of_lt bound (newer k known)
    · intro counts a mem
      rcases List.mem_append.mp mem with old | new
      · exact paced.above counts a old
      · obtain ⟨k, known, bound⟩ := paced.counted counts
        rw [Option.toList_some, List.map_singleton, List.mem_singleton] at new
        rw [new, back]
        exact Nat.lt_of_le_of_lt bound (newer k known)
    · intro a mem
      refine ⟨n, rfl, ?_⟩
      rcases List.mem_append.mp mem with old | new
      · obtain ⟨k, known, bound⟩ := paced.known a old
        exact Nat.le_of_lt (Nat.lt_of_le_of_lt bound (newer k known))
      · rw [Option.toList_some, List.map_singleton, List.mem_singleton] at new
        rw [new, back]
    · intro counts
      obtain ⟨k, known, bound⟩ := paced.counted counts
      exact ⟨n, rfl, Nat.le_of_lt (Nat.lt_of_le_of_lt bound (newer k known))⟩

theorem acks_handled {ack : UInt64} {rest : List UInt64} {host : HostBridge} {last : Option Nat}
    (paced : AcksPaced (ack :: rest) host last) :
    AcksPaced rest (handleStatsPayload host (.videoAck (some ack))) last := by
  have rises := List.pairwise_cons.mp paced.rise
  unfold handleStatsPayload
  simp only
  split
  · constructor
    · exact rises.2
    · exact fun _ => rises.1
    · exact fun a mem => paced.known a (List.mem_cons_of_mem _ mem)
    · exact fun _ => paced.known ack (List.mem_cons_self ..)
  · constructor
    · exact rises.2
    · exact fun counts a mem => paced.above counts a (List.mem_cons_of_mem _ mem)
    · exact fun a mem => paced.known a (List.mem_cons_of_mem _ mem)
    · exact paced.counted

/- Each move keeps what is known about the acks. -/

theorem pace_ackPaced {c : Connection} {past : List Sign}
    (paced : HostPaced c.host (sentFrames past)) (ackPaced : AckPaced c past)
    {missedFrames : UInt64}
    (noWrap : c.host.videoFrame.toNat + missedFrames.toNat + 3 < 2 ^ 64) :
    AckPaced { c with host := pace c.host missedFrames } past := by
  obtain ⟨_, near, _⟩ := pace_spec noWrap paced.ackSmall
  obtain ⟨_, _, latest, hasAck⟩ := pace_rest c.host missedFrames
  constructor
  · rw [hasAck, latest]
    intro counts
    refine ⟨(ackPaced.within_ counts).1, ?_⟩
    intro _
    exact le_trans (near counts) (Nat.add_le_add_left (by decide) _)
  · exact acks_counted ackPaced.acks hasAck latest

theorem send_ackPaced {c : Connection} {past : List Sign} (ackPaced : AckPaced c past)
    (stage : c.host.stage = .sending) (toQuest : List QuestTeleop.Bytes) :
    AckPaced { c with host := sent c.host true, toQuest := toQuest }
      (past ++ [Sign.sent c.host.videoFrame]) := by
  constructor
  · intro counts
    obtain ⟨sends, next⟩ := ackPaced.within_ counts
    constructor
    · intro f mem
      rw [(frames_sent past c.host.videoFrame).1] at mem
      rcases List.mem_append.mp mem with old | new
      · exact sends f old
      · rw [List.mem_singleton.mp new]
        exact next stage
    · intro impossible
      exact absurd impossible (by simp [sent])
  · exact acks_counted ackPaced.acks rfl rfl

theorem idle_ackPaced {c : Connection} {past : List Sign} (ackPaced : AckPaced c past)
    {host : HostBridge} (hasAck : host.hasVideoAck = c.host.hasVideoAck)
    (latest : host.latestVideoAckFrame = c.host.latestVideoAckFrame)
    (stage : host.stage ≠ .sending) : AckPaced { c with host := host } past := by
  constructor
  · rw [hasAck, latest]
    intro counts
    exact ⟨(ackPaced.within_ counts).1, fun sending => absurd sending stage⟩
  · exact acks_counted ackPaced.acks hasAck latest

theorem receive_ackPaced {stream : H264TestStream} {c : Connection} {past : List Sign}
    (paced : Paced stream c past) (ackPaced : AckPaced c past) {turn : Turn}
    (returns : CodecsReturn c past (.receive turn)) :
    AckPaced (receive c turn).1 (past ++ (receive c turn).2) := by
  have same : AckPaced c (past ++ []) := by
    rw [List.append_nil]
    exact ackPaced
  unfold receive
  split
  · exact same
  · next payload rest here =>
    split
    · obtain ⟨news, acks, publishes, _, _⟩ := paced_packet paced returns here
      obtain ⟨sends, _⟩ := frames_received past (frameOf payload)
        (receivePacket c.quest (videoPacket payload turn)).2.1
      constructor
      · intro counts
        obtain ⟨close, next⟩ := ackPaced.within_ counts
        exact ⟨fun f mem => close f (sends ▸ mem), next⟩
      · simp only [acks]
        exact acks_published ackPaced.acks publishes
    · exact same

theorem handleAck_ackPaced {c : Connection} {past : List Sign} (ackPaced : AckPaced c past)
    (first : FirstAckClose c past .handleAck) {ack : UInt64} {rest : List UInt64}
    (here : c.toHost = ack :: rest) :
    AckPaced { c with host := handleStatsPayload c.host (.videoAck (some ack)), toHost := rest }
      past := by
  have acks := ackPaced.acks
  rw [here] at acks
  refine ⟨?_, acks_handled acks⟩
  rw [FirstAckClose, here] at first
  unfold handleStatsPayload
  simp only
  split
  · next found =>
    intro _
    cases hasAck : c.host.hasVideoAck with
    | false => exact first hasAck found
    | true =>
      obtain ⟨sends, next⟩ := ackPaced.within_ hasAck
      have rises := acks.above hasAck ack (List.mem_cons_self ..)
      constructor
      · intro f mem
        have := sends f mem
        simp only
        omega
      · intro stage
        have := next stage
        simp only
        omega
  · exact fun counts => ackPaced.within_ counts

theorem step_ackPaced {stream : H264TestStream} {c : Connection} {past : List Sign} {move : Move}
    (paced : Paced stream c past) (ackPaced : AckPaced c past) (early : Early c past move) :
    AckPaced (step stream c move).1 (past ++ (step stream c move).2) := by
  cases move with
  | receive turn => exact receive_ackPaced paced ackPaced early.returns
  | pace missedFrames =>
    simp only [step]
    split
    · next stage =>
      rw [List.append_nil]
      exact pace_ackPaced paced.host ackPaced (early.noWrap stage)
    · rw [List.append_nil]
      exact ackPaced
  | send ok monotonicTimeNs =>
    simp only [step]
    split
    · next stage =>
      split
      · exact send_ackPaced ackPaced stage _
      · rw [List.append_nil]
        exact idle_ackPaced ackPaced rfl rfl (by simp [sent])
    · rw [List.append_nil]
      exact ackPaced
  | record nowNs =>
    simp only [step]
    split
    · rw [List.append_nil]
      exact idle_ackPaced ackPaced rfl rfl (by simp [recordSendTime])
    · rw [List.append_nil]
      exact ackPaced
  | handleAck =>
    simp only [step]
    split
    · rw [List.append_nil]
      exact ackPaced
    · next ack rest here =>
      rw [List.append_nil]
      exact handleAck_ackPaced ackPaced early.firstAck here

theorem early_close {c : Connection} {past : List Sign} {move : Move} (ackPaced : AckPaced c past)
    (early : Early c past move) : Close c past move where
  returns := early.returns
  noWrap := early.noWrap
  backClose := by
    cases move with
    | pace missedFrames =>
      intro _ back
      exact (ackPaced.within_ back.1).1
    | send _ _ => trivial
    | record _ => trivial
    | receive _ => trivial
    | handleAck => trivial

/-- A run in which all frames are within reach of the first ack never resets the headset. -/
theorem early_run_never_resets (stream : H264TestStream) (moves : List Move)
    (early : AtSteps (step stream) Early {} [] moves) :
    AtSteps (step stream) NoReset {} [] moves ∧
      AtSteps (step stream) (KeepsRunning stream) {} [] moves := by
  have kept : ∀ c past move, (Paced stream c past ∧ AckPaced c past) → Early c past move →
      Paced stream (step stream c move).1 (past ++ (step stream c move).2) ∧
        AckPaced (step stream c move).1 (past ++ (step stream c move).2) := by
    intro c past move both early
    exact ⟨step_paced stream c past move both.1 (early_close both.2 early),
      step_ackPaced both.1 both.2 early⟩
  have start : AckPaced {} [] := by
    constructor
    · simp
    · constructor
      · exact List.Pairwise.nil
      · simp
      · simp
      · simp
  constructor
  · exact atSteps_mono kept (fun _ _ move both _ => paced_noReset both.1 move)
      ⟨start_paced stream, start⟩ early
  · exact atSteps_mono kept (fun _ _ move both _ => paced_keepsRunning both.1 move)
      ⟨start_paced stream, start⟩ early

/-- The host counts its first ack, of frame 0, with frame 5 sent. -/
theorem sixth_frame_never_resets :
    AtSteps (step smallStream) NoReset {} [] timelyAck ∧
      AtSteps (step smallStream) (KeepsRunning smallStream) {} [] timelyAck :=
  early_run_never_resets smallStream timelyAck (by decide +kernel)

end HostFirstAck
