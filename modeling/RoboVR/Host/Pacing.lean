import RoboVR.Host.Connection

/- Whether the pacing of the host can look like a new stream to the headset: the host goes back
   to three frames behind the latest ack, the headset restarts for a frame more than two below
   its last published one. -/
namespace HostPacing
open QuestTeleop (Bytes VideoFrameHeader)
open QuestMediaCodec QuestSurfaceDrain QuestH264Decoder QuestDecodeStep QuestDecodeTrace
open QuestPublication QuestHostPackets QuestVideoPayload
open HostVideoThread HostConnection
open Pairing TracedRun

def NoReset (c : Connection) (_past : List Sign) (move : Move) : Prop :=
  ∀ header ∈ incoming c move,
    c.quest.decoder.lastPublishedFrameIndex ≤ header.frameIndex.toNat + 2 ∧
      rewound c.quest.decoder header.frameIndex.toNat = false

instance (c : Connection) (past : List Sign) (move : Move) : Decidable (NoReset c past move) :=
  inferInstanceAs (Decidable (∀ header ∈ incoming c move,
    c.quest.decoder.lastPublishedFrameIndex ≤ header.frameIndex.toNat + 2 ∧
      rewound c.quest.decoder header.frameIndex.toNat = false))

def Runs (stream : H264TestStream) (d : H264AnnexBDecoder) : Prop :=
  d.leftCodec ≠ none ∧ d.rightCodec ≠ none ∧ d.width = stream.width ∧ d.height = stream.height

def KeepsRunning (stream : H264TestStream) (c : Connection) (_past : List Sign) (move : Move) :
    Prop :=
  Runs stream c.quest.decoder → .quest .stopped ∉ (step stream c move).2

instance (stream : H264TestStream) (c : Connection) (past : List Sign) (move : Move) :
    Decidable (KeepsRunning stream c past move) :=
  inferInstanceAs (Decidable ((_ ∧ _ ∧ _ ∧ _) → _))

def outputsOf (turn : Turn) : List Nat :=
  frames (dequeued turn.left.outputs) ++ frames (dequeued turn.right.outputs)

/-- The codecs give back frames that were received, the one of this move included. -/
def CodecsReturn (c : Connection) (past : List Sign) : Move → Prop
  | .receive turn => ∀ n ∈ outputsOf turn,
      n ∈ (receivedFrames past).map UInt64.toNat ∨
        ∃ header ∈ incoming c (.receive turn), header.frameIndex.toNat = n
  | _ => True

def NoWrap (c : Connection) : Move → Prop
  | .pace missedFrames => c.host.stage = .pacing →
      c.host.videoFrame.toNat + missedFrames.toNat + 3 < 2 ^ 64
  | _ => True

/-- The thread is further than three frames behind the latest ack, and goes back. -/
def GoesBack (host : HostBridge) (missedFrames : UInt64) : Prop :=
  host.hasVideoAck = true ∧ skipMissed host missedFrames > host.latestVideoAckFrame + 3

/-- The thread goes back only while all frames it has sent lie at most five above the ack. -/
def BackClose (c : Connection) (past : List Sign) : Move → Prop
  | .pace missedFrames => c.host.stage = .pacing → GoesBack c.host missedFrames →
      ∀ f ∈ sentFrames past, f.toNat ≤ c.host.latestVideoAckFrame.toNat + 5
  | _ => True

structure Close (c : Connection) (past : List Sign) (move : Move) : Prop where
  returns : CodecsReturn c past move
  noWrap : NoWrap c move
  backClose : BackClose c past move

instance (c : Connection) (past : List Sign) : (move : Move) → Decidable (CodecsReturn c past move)
  | .receive turn => inferInstanceAs (Decidable (∀ n ∈ outputsOf turn,
      n ∈ (receivedFrames past).map UInt64.toNat ∨
        ∃ header ∈ incoming c (.receive turn), header.frameIndex.toNat = n))
  | .pace _ | .send _ _ | .record _ | .handleAck => isTrue trivial

instance (c : Connection) : (move : Move) → Decidable (NoWrap c move)
  | .pace missedFrames => inferInstanceAs (Decidable (c.host.stage = .pacing →
      c.host.videoFrame.toNat + missedFrames.toNat + 3 < 2 ^ 64))
  | .receive _ | .send _ _ | .record _ | .handleAck => isTrue trivial

instance (c : Connection) (past : List Sign) : (move : Move) → Decidable (BackClose c past move)
  | .pace _ =>
    have := List.decidableBAll (fun f : UInt64 => f.toNat ≤ c.host.latestVideoAckFrame.toNat + 5)
      (sentFrames past)
    inferInstanceAs (Decidable (c.host.stage = .pacing → (_ ∧ _) → _))
  | .receive _ | .send _ _ | .record _ | .handleAck => isTrue trivial

instance (c : Connection) (past : List Sign) (move : Move) : Decidable (Close c past move) :=
  decidable_of_iff (CodecsReturn c past move ∧ NoWrap c move ∧ BackClose c past move)
    ⟨fun all => ⟨all.1, all.2.1, all.2.2⟩, fun close => ⟨close.1, close.2, close.3⟩⟩

/- The host's side. -/

structure HostPaced (host : HostBridge) (sends : List UInt64) : Prop where
  close : sends.Pairwise fun a b => a.toNat ≤ b.toNat + 2
  above : ∀ f ∈ sends, f.toNat ≤ host.videoFrame.toNat + 2
  sentSmall : ∀ f ∈ sends, f.toNat + 3 < 2 ^ 64
  small : host.stage ≠ .pacing → host.videoFrame.toNat + 3 < 2 ^ 64
  timesSmall : ∀ entry ∈ host.videoSendTimeNs, entry.1.toNat + 3 < 2 ^ 64
  ackSmall : host.hasVideoAck = true → host.latestVideoAckFrame.toNat + 3 < 2 ^ 64

theorem toNat_add_of_lt {a b : UInt64} (small : a.toNat + b.toNat < 2 ^ 64) :
    (a + b).toNat = a.toNat + b.toNat := by
  rw [UInt64.toNat_add, Nat.mod_eq_of_lt small]

theorem skipMissed_spec {host : HostBridge} {missedFrames : UInt64}
    (noWrap : host.videoFrame.toNat + missedFrames.toNat + 3 < 2 ^ 64) :
    host.videoFrame.toNat ≤ (skipMissed host missedFrames).toNat ∧
      (skipMissed host missedFrames).toNat + 3 < 2 ^ 64 := by
  unfold skipMissed
  split
  · rw [toNat_add_of_lt (by omega)]
    omega
  · omega

theorem pace_spec {host : HostBridge} {missedFrames : UInt64}
    (noWrap : host.videoFrame.toNat + missedFrames.toNat + 3 < 2 ^ 64)
    (ackSmall : host.hasVideoAck = true → host.latestVideoAckFrame.toNat + 3 < 2 ^ 64) :
    (pace host missedFrames).videoFrame.toNat + 3 < 2 ^ 64 ∧
      (host.hasVideoAck = true → (pace host missedFrames).videoFrame.toNat ≤
        host.latestVideoAckFrame.toNat + 3) ∧
      (host.videoFrame.toNat ≤ (pace host missedFrames).videoFrame.toNat ∨
        GoesBack host missedFrames ∧
          (pace host missedFrames).videoFrame.toNat = host.latestVideoAckFrame.toNat + 3) := by
  obtain ⟨ahead, low⟩ := skipMissed_spec noWrap
  unfold pace GoesBack
  generalize skipMissed host missedFrames = next at ahead low ⊢
  simp only
  by_cases far : host.hasVideoAck = true ∧ next > host.latestVideoAckFrame + 3
  · have three : (host.latestVideoAckFrame + 3).toNat = host.latestVideoAckFrame.toNat + 3 :=
      toNat_add_of_lt (ackSmall far.1)
    have above := UInt64.lt_iff_toNat_lt.mp far.2
    rw [three] at above
    simp only [if_pos far, three]
    exact ⟨by omega, fun _ => le_refl _, Or.inr ⟨far, trivial⟩⟩
  · rw [if_neg far]
    refine ⟨low, ?_, Or.inl ahead⟩
    intro hasAck
    have three : (host.latestVideoAckFrame + 3).toNat = host.latestVideoAckFrame.toNat + 3 :=
      toNat_add_of_lt (ackSmall hasAck)
    rw [not_and, gt_iff_lt, UInt64.lt_iff_toNat_lt, three] at far
    exact Nat.le_of_not_lt (far hasAck)

theorem pace_rest (host : HostBridge) (missedFrames : UInt64) :
    (pace host missedFrames).stage = .sending ∧
      (pace host missedFrames).videoSendTimeNs = host.videoSendTimeNs ∧
      (pace host missedFrames).latestVideoAckFrame = host.latestVideoAckFrame ∧
      (pace host missedFrames).hasVideoAck = host.hasVideoAck := by
  unfold pace
  simp only
  split
  · exact ⟨rfl, rfl, rfl, rfl⟩
  · exact ⟨rfl, rfl, rfl, rfl⟩

theorem pace_paced {host : HostBridge} {sends : List UInt64} (paced : HostPaced host sends)
    {missedFrames : UInt64} (noWrap : host.videoFrame.toNat + missedFrames.toNat + 3 < 2 ^ 64)
    (backClose : GoesBack host missedFrames → ∀ f ∈ sends,
      f.toNat ≤ host.latestVideoAckFrame.toNat + 5) :
    HostPaced (pace host missedFrames) sends := by
  obtain ⟨small, _, next⟩ := pace_spec noWrap paced.ackSmall
  obtain ⟨_, times, latest, hasAck⟩ := pace_rest host missedFrames
  constructor
  · exact paced.close
  · intro f mem
    rcases next with ahead | ⟨back, three⟩
    · have := paced.above f mem
      omega
    · have := backClose back f mem
      omega
  · exact paced.sentSmall
  · exact fun _ => small
  · rw [times]
    exact paced.timesSmall
  · rw [latest, hasAck]
    exact paced.ackSmall

theorem sent_paced {host : HostBridge} {sends : List UInt64} (paced : HostPaced host sends)
    (stage : host.stage = .sending) : HostPaced (sent host true) (sends ++ [host.videoFrame]) := by
  have small := paced.small (by simp [stage])
  constructor
  · rw [List.pairwise_append]
    refine ⟨paced.close, List.pairwise_singleton _ _, ?_⟩
    intro a mem b here
    rw [List.mem_singleton.mp here]
    exact paced.above a mem
  · intro f mem
    rcases List.mem_append.mp mem with old | new
    · exact paced.above f old
    · rw [List.mem_singleton.mp new]
      exact Nat.le_add_right _ _
  · intro f mem
    rcases List.mem_append.mp mem with old | new
    · exact paced.sentSmall f old
    · rw [List.mem_singleton.mp new]
      exact small
  · exact fun _ => small
  · exact paced.timesSmall
  · exact paced.ackSmall

theorem unsent_paced {host : HostBridge} {sends : List UInt64} (paced : HostPaced host sends) :
    HostPaced (sent host false) sends :=
  { paced with small := fun impossible => absurd rfl impossible }

theorem record_paced {host : HostBridge} {sends : List UInt64} (paced : HostPaced host sends)
    (stage : host.stage = .recording) (nowNs : Int) :
    HostPaced (recordSendTime host nowNs) sends := by
  have small := paced.small (by simp [stage])
  constructor
  · exact paced.close
  · intro f mem
    have := paced.above f mem
    have next : (host.videoFrame + 1).toNat = host.videoFrame.toNat + 1 :=
      toNat_add_of_lt (Nat.lt_of_le_of_lt (Nat.add_le_add_left (by decide) _) small)
    simp only [recordSendTime, next]
    omega
  · exact paced.sentSmall
  · exact fun impossible => absurd rfl impossible
  · intro entry mem
    rcases List.mem_cons.mp mem with rfl | old
    · exact small
    · exact paced.timesSmall entry (List.mem_filter.mp old).1
  · exact paced.ackSmall

theorem handleAck_paced {host : HostBridge} {sends : List UInt64} (paced : HostPaced host sends)
    (ack : UInt64) : HostPaced (handleStatsPayload host (.videoAck (some ack))) sends := by
  unfold handleStatsPayload
  simp only
  split
  · next found =>
    obtain ⟨entry, mem, same⟩ := List.lookup_isSome_iff.mp found
    have known := paced.timesSmall entry mem
    rw [← beq_iff_eq.mp same] at known
    constructor
    · exact paced.close
    · exact paced.above
    · exact paced.sentSmall
    · exact paced.small
    · intro other kept
      exact paced.timesSmall other (List.mem_filter.mp (List.mem_filter.mp kept).1).1
    · exact fun _ => known
  · constructor
    · exact paced.close
    · exact paced.above
    · exact paced.sentSmall
    · exact paced.small
    · intro other kept
      exact paced.timesSmall other (List.mem_filter.mp kept).1
    · exact paced.ackSmall

/- The headset's side. -/

structure QuestPaced (stream : H264TestStream) (d : H264AnnexBDecoder) (got : List Nat) : Prop where
  onSurfaces : OnSurfaces d
  zeroed : Zeroed d
  runs : (pairOf d).last ≠ none → Runs stream d
  marks : ∀ n, n ∈ (pairOf d).left ∨ n ∈ (pairOf d).right → n ∈ got
  last : ∀ n ∈ (pairOf d).last, n ∈ got

/-- What a call may publish: nothing, or a frame it has got above the last one. -/
def Publishes (before after : Pair Nat) (got : List Nat) : Option Nat → Prop
  | none => after.last = before.last
  | some n => after.last = some n ∧ n ∈ got ∧ ∀ m ∈ before.last, m < n

theorem newest_output {turn : Turn} {n : Nat} (new : newestLeft turn = some n ∨ newestRight turn = some n) :
    n ∈ outputsOf turn := by
  rcases new with left | right
  · exact List.mem_append_left _ (newest_mem_frames left)
  · exact List.mem_append_right _ (newest_mem_frames right)

theorem step_publishes {p : Pair Nat} {got : List Nat} {turn : Turn}
    (marks : ∀ n, n ∈ p.left ∨ n ∈ p.right → n ∈ got) (outputs : ∀ n ∈ outputsOf turn, n ∈ got) :
    Publishes p (p.step (newestLeft turn) (newestRight turn)).1 got
        (p.step (newestLeft turn) (newestRight turn)).2 ∧
      ∀ n, n ∈ (p.step (newestLeft turn) (newestRight turn)).1.left ∨
        n ∈ (p.step (newestLeft turn) (newestRight turn)).1.right → n ∈ got := by
  have marked : ∀ n, n ∈ (p.mark (newestLeft turn) (newestRight turn)).left ∨
      n ∈ (p.mark (newestLeft turn) (newestRight turn)).right → n ∈ got := by
    intro n mem
    rcases mem with left | right
    · rcases mem_mark.mp left with new | old
      · exact outputs n (newest_output (Or.inl new))
      · exact marks n (Or.inl old)
    · rcases mem_mark.mp right with new | old
      · exact outputs n (newest_output (Or.inr new))
      · exact marks n (Or.inr old)
  cases outcome : (p.step (newestLeft turn) (newestRight turn)).2 with
  | none =>
    rw [(step_none outcome).2]
    exact ⟨rfl, marked⟩
  | some n =>
    obtain ⟨ready, same⟩ := step_some outcome
    obtain ⟨⟨left, _, fresh⟩, _⟩ := ready_some.mp ready
    rw [same]
    refine ⟨⟨rfl, marked n (Or.inl left), fresh⟩, ?_⟩
    intro m mem
    apply marked m
    rcases mem with left' | right'
    · exact Or.inl (Finset.mem_filter.mp left').1
    · exact Or.inr (Finset.mem_filter.mp right').1

theorem publishes_last {before after : Pair Nat} {got : List Nat} {news : Option Nat}
    (publishes : Publishes before after got news) (kept : ∀ n ∈ before.last, n ∈ got) :
    ∀ n ∈ after.last, n ∈ got := by
  cases news with
  | none =>
    rw [show after.last = before.last from publishes]
    exact kept
  | some m =>
    obtain ⟨last, mem, _⟩ := publishes
    intro n here
    rw [last, Option.mem_some_iff] at here
    rw [← here]
    exact mem

theorem breaks_unpublished {stream : H264TestStream} {d : H264AnnexBDecoder} {got : List Nat}
    (paced : QuestPaced stream d got) {header : VideoFrameHeader}
    (width : header.width = stream.width) (height : header.height = stream.height)
    (level : rewound d header.frameIndex.toNat = false) (breaks : Breaks d header) :
    (pairOf d).last = none := by
  rcases breaks with back | idle
  · rw [level] at back
    exact absurd back Bool.false_ne_true
  · by_contra some_
    obtain ⟨leftLive, rightLive, wide, high⟩ := paced.runs some_
    exact idle ⟨leftLive, rightLive, wide.trans width.symm, high.trans height.symm⟩

theorem started_pair {d started : H264AnnexBDecoder} {goes starts breaks : Prop}
    {es : List Event} (on : goes → Continues d es started)
    (anew : ¬ goes → starts ∧ breaks ∧ Restarts es started)
    (unpublished : breaks → (pairOf d).last = none) :
    (pairOf started).last = (pairOf d).last ∧
      ∀ n, n ∈ (pairOf started).left ∨ n ∈ (pairOf started).right →
        n ∈ (pairOf d).left ∨ n ∈ (pairOf d).right := by
  by_cases goesOn : goes
  · rw [(on goesOn).pair]
    exact ⟨rfl, fun n mem => mem⟩
  · obtain ⟨_, broken, restarts⟩ := anew goesOn
    rw [restarts.pair, unpublished broken]
    exact ⟨rfl, by simp [Pair.empty]⟩

theorem decode_paced {stream : H264TestStream} {d : H264AnnexBDecoder} {got : List Nat}
    (paced : QuestPaced stream d got) (none_ : ackIndices d = []) {header : VideoFrameHeader}
    (width : header.width = stream.width) (height : header.height = stream.height)
    (level : rewound d header.frameIndex.toNat = false) (left right : Bytes) {turn : Turn}
    (outputs : ∀ n ∈ outputsOf turn, n ∈ got ++ [header.frameIndex.toNat]) :
    ∃ news, ackIndices (decode d header left right turn).1 = news.toList ∧
      Publishes (pairOf d) (pairOf (decode d header left right turn).1)
        (got ++ [header.frameIndex.toNat]) news ∧
      QuestPaced stream (decode d header left right turn).1 (got ++ [header.frameIndex.toNat]) := by
  obtain ⟨outcome, onSurfaces, running⟩ := decode_outcome paced.onSurfaces header left right turn
  have broken := breaks_unpublished paced width height level
  have marks : ∀ n, n ∈ (pairOf d).left ∨ n ∈ (pairOf d).right →
      n ∈ got ++ [header.frameIndex.toNat] :=
    fun n mem => List.mem_append_left _ (paced.marks n mem)
  have last : ∀ n ∈ (pairOf d).last, n ∈ got ++ [header.frameIndex.toNat] :=
    fun n mem => List.mem_append_left _ (paced.last n mem)
  have zeroed := decode_zeroed paced.zeroed header left right turn
  generalize decode d header left right turn = decoded at outcome onSurfaces running zeroed ⊢
  obtain ⟨after, events, ok⟩ := decoded
  simp only at outcome onSurfaces running zeroed ⊢
  cases outcome with
  | waiting _ _ begins stays =>
    refine ⟨none, begins_acks begins none_, ?_⟩
    rcases stays with ⟨rfl, _⟩ | ⟨breaks, restarts⟩
    · exact ⟨rfl, { onSurfaces, zeroed, runs := paced.runs, marks, last }⟩
    · have empty := restarts.pair
      constructor
      · rw [Publishes, empty, broken breaks]
        rfl
      · constructor
        · exact onSurfaces
        · exact zeroed
        · intro some_
          rw [empty] at some_
          exact absurd rfl some_
        · intro n mem
          simp [empty, Pair.empty] at mem
        · intro n mem
          simp [empty, Pair.empty] at mem
  | @drained started _ es _ on anew pair acks parts =>
    have begins := begins_of_goes on anew
    have able : GoesOn d header ∨ Starts header turn := by
      by_cases goes : GoesOn d header
      · exact Or.inl goes
      · exact Or.inr (anew goes).1
    obtain ⟨sameLast, fewer⟩ := started_pair on anew broken
    have before : ∀ n, n ∈ (pairOf started).left ∨ n ∈ (pairOf started).right →
        n ∈ got ++ [header.frameIndex.toNat] := fun n mem => marks n (fewer n mem)
    obtain ⟨publishes, after_marks⟩ := step_publishes before outputs
    have publishes_ : Publishes (pairOf d) (pairOf after) (got ++ [header.frameIndex.toNat])
        ((pairOf started).step (newestLeft turn) (newestRight turn)).2 := by
      rw [pair]
      unfold Publishes at publishes ⊢
      rw [← sameLast]
      exact publishes
    refine ⟨((pairOf started).step (newestLeft turn) (newestRight turn)).2, ?_, publishes_, ?_⟩
    · rw [acks, begins_acks begins none_, List.nil_append]
    · constructor
      · exact onSurfaces
      · exact zeroed
      · intro _
        obtain ⟨leftLive, rightLive, wide, high⟩ := running able
        exact ⟨leftLive, rightLive, wide.trans width, high.trans height⟩
      · rw [pair]
        exact after_marks
      · exact publishes_last publishes_ last

theorem questPaced_more {stream : H264TestStream} {d : H264AnnexBDecoder} {got : List Nat}
    (paced : QuestPaced stream d got) (more : List Nat) : QuestPaced stream d (got ++ more) where
  onSurfaces := paced.onSurfaces
  zeroed := paced.zeroed
  runs := paced.runs
  marks := fun n mem => List.mem_append_left _ (paced.marks n mem)
  last := fun n mem => List.mem_append_left _ (paced.last n mem)

theorem payload_paced {stream : H264TestStream} {d : H264AnnexBDecoder} {got : List Nat}
    (paced : QuestPaced stream d got) (none_ : ackIndices d = []) (frameIndex : UInt64)
    (monotonicTimeNs : Int64) (level : rewound d frameIndex.toNat = false) {turn : Turn}
    (outputs : ∀ n ∈ outputsOf turn, n ∈ got ++ [frameIndex.toNat]) :
    ∃ news, ackIndices (handlePayload d (makeH264TestPayload stream frameIndex monotonicTimeNs)
        turn).1 = news.toList ∧
      Publishes (pairOf d) (pairOf (handlePayload d
        (makeH264TestPayload stream frameIndex monotonicTimeNs) turn).1)
        (got ++ [frameIndex.toNat]) news ∧
      QuestPaced stream (handlePayload d
        (makeH264TestPayload stream frameIndex monotonicTimeNs) turn).1
        (got ++ [frameIndex.toNat]) := by
  have unchanged : ∃ news, ackIndices d = news.toList ∧
      Publishes (pairOf d) (pairOf d) (got ++ [frameIndex.toNat]) news ∧
      QuestPaced stream d (got ++ [frameIndex.toNat]) :=
    ⟨none, none_, rfl, questPaced_more paced _⟩
  unfold handlePayload
  split
  · exact unchanged
  · exact unchanged
  · exact unchanged
  · next header left right routed =>
    obtain rfl := (routed_header routed).trans (unpack_testPayload stream frameIndex _)
    exact decode_paced paced none_ rfl rfl level _ _ outputs

theorem receivePacket_paced {stream : H264TestStream} {session : Session} {got : List Nat}
    (paced : QuestPaced stream session.decoder got) (none_ : ackIndices session.decoder = [])
    (frameIndex : UInt64) (monotonicTimeNs : Int64)
    (level : rewound session.decoder frameIndex.toNat = false) {turn : Turn}
    (outputs : ∀ n ∈ outputsOf turn, n ∈ got ++ [frameIndex.toNat]) :
    ∃ news, framesOf acked (receivePacket session (videoPacket
        (makeH264TestPayload stream frameIndex monotonicTimeNs) turn)).2.1 = news.toList ∧
      Publishes (pairOf session.decoder) (pairOf (receivePacket session (videoPacket
        (makeH264TestPayload stream frameIndex monotonicTimeNs) turn)).1.decoder)
        (got ++ [frameIndex.toNat]) news ∧
      QuestPaced stream (receivePacket session (videoPacket
        (makeH264TestPayload stream frameIndex monotonicTimeNs) turn)).1.decoder
        (got ++ [frameIndex.toNat]) ∧
      ackIndices (receivePacket session (videoPacket
        (makeH264TestPayload stream frameIndex monotonicTimeNs) turn)).1.decoder = [] := by
  obtain ⟨news, acks, publishes, after⟩ :=
    payload_paced paced none_ frameIndex monotonicTimeNs level outputs
  obtain ⟨⟨_, _, _, outcome, _⟩, _⟩ := handlePayload_outcome paced.onSurfaces
    (makeH264TestPayload stream frameIndex monotonicTimeNs) turn
  have noAcks := outcome_noAcks outcome
  unfold receivePacket videoPacket
  simp only [handleVideoPayload, sendVideoDecodeAcks, takeAcks, if_true]
  generalize handlePayload session.decoder (makeH264TestPayload stream frameIndex monotonicTimeNs)
    turn = handled at acks publishes after noAcks ⊢
  have sentAcks := (sendAcks_spec handled.1.pendingAcks [] session.seq).2 (sendAcks_all _ _)
  refine ⟨news, ?_, publishes, ?_, rfl⟩
  · rw [framesOf_append, noAcks, sentAcks, List.nil_append]
    exact acks
  · exact { after with }

theorem receivePacket_running {stream : H264TestStream} {session : Session}
    (onSurfaces : OnSurfaces session.decoder) (runs : Runs stream session.decoder)
    (frameIndex : UInt64) (monotonicTimeNs : Int64)
    (level : rewound session.decoder frameIndex.toNat = false) (turn : Turn) :
    ∀ e ∈ (receivePacket session (videoPacket
      (makeH264TestPayload stream frameIndex monotonicTimeNs) turn)).2.1, isStopped e = false := by
  obtain ⟨⟨_, _, _, outcome, broken⟩, _⟩ := handlePayload_outcome onSurfaces
    (makeH264TestPayload stream frameIndex monotonicTimeNs) turn
  have running := outcome_running outcome (by
    intro breaks
    obtain ⟨header, left, right, routed, breaks⟩ := broken breaks
    obtain rfl := (routed_header routed).trans (unpack_testPayload stream frameIndex _)
    rcases breaks with back | idle
    · exact absurd (level.symm.trans back) Bool.false_ne_true
    · exact idle runs)
  unfold receivePacket videoPacket
  simp only [handleVideoPayload, sendVideoDecodeAcks, takeAcks, if_true]
  intro e mem
  rcases List.mem_append.mp mem with handled | acks
  · exact running e handled
  · exact ((sendAcks_spec _ _ _).1 e acks).2

/- The connection. -/

def frameOf (payload : Bytes) : UInt64 :=
  (QuestTeleop.unpackVideoFrameHeader payload).frameIndex

structure Paced (stream : H264TestStream) (c : Connection) (past : List Sign) : Prop where
  host : HostPaced c.host (sentFrames past)
  inFlight : sentFrames past = receivedFrames past ++ c.toQuest.map frameOf
  made : ∀ payload ∈ c.toQuest, ∃ frameIndex monotonicTimeNs,
    payload = makeH264TestPayload stream frameIndex monotonicTimeNs
  quest : QuestPaced stream c.quest.decoder ((receivedFrames past).map UInt64.toNat)
  nonePending : ackIndices c.quest.decoder = []

theorem frameOf_testPayload (stream : H264TestStream) (frameIndex : UInt64)
    (monotonicTimeNs : Int64) :
    frameOf (makeH264TestPayload stream frameIndex monotonicTimeNs) = frameIndex := by
  rw [frameOf, unpack_testPayload, testHeader]

theorem paced_near {stream : H264TestStream} {c : Connection} {past : List Sign}
    (paced : Paced stream c past) {payload : Bytes} {rest : List Bytes}
    (here : c.toQuest = payload :: rest) :
    ∀ k ∈ (pairOf c.quest.decoder).last, k ≤ (frameOf payload).toNat + 2 := by
  intro k last
  obtain ⟨f, got, rfl⟩ := List.mem_map.mp (paced.quest.last k last)
  have close := paced.host.close
  rw [paced.inFlight, here, List.pairwise_append] at close
  exact close.2.2 f got _ (List.mem_cons_self ..)

theorem paced_level {stream : H264TestStream} {c : Connection} {past : List Sign}
    (paced : Paced stream c past) {payload : Bytes} {rest : List Bytes}
    (here : c.toQuest = payload :: rest) :
    c.quest.decoder.lastPublishedFrameIndex ≤ (frameOf payload).toNat + 2 ∧
      rewound c.quest.decoder (frameOf payload).toNat = false := by
  have near := paced_near paced here
  have small : (frameOf payload).toNat + 3 < 2 ^ 64 := by
    apply paced.host.sentSmall
    rw [paced.inFlight, here]
    exact List.mem_append_right _ (List.mem_cons_self ..)
  have noWrap : ((frameOf payload).toNat + 2) % 2 ^ 64 = (frameOf payload).toNat + 2 :=
    Nat.mod_eq_of_lt (Nat.lt_of_succ_lt small)
  unfold rewound
  rw [noWrap]
  cases published_ : c.quest.decoder.hasPublishedFrame with
  | false =>
    rw [paced.quest.zeroed published_]
    exact ⟨Nat.zero_le _, rfl⟩
  | true =>
    have bound := near c.quest.decoder.lastPublishedFrameIndex (by simp [pairOf, published_])
    exact ⟨bound, by simpa using bound⟩

theorem incoming_head {c : Connection} {move : Move} {header : VideoFrameHeader}
    (comes : header ∈ incoming c move) :
    ∃ payload rest, c.toQuest = payload :: rest ∧ header.frameIndex = frameOf payload := by
  unfold incoming at comes
  split at comes
  · split at comes
    · exact absurd comes (by simp)
    · next payload rest here =>
      split at comes
      · next other left right routed =>
        rw [Option.mem_some_iff] at comes
        refine ⟨payload, rest, here, ?_⟩
        rw [← comes, routed_header routed, frameOf]
      · exact absurd comes (by simp)
  · exact absurd comes (by simp)

theorem paced_noReset {stream : H264TestStream} {c : Connection} {past : List Sign}
    (paced : Paced stream c past) (move : Move) : NoReset c past move := by
  intro header comes
  obtain ⟨payload, rest, here, same⟩ := incoming_head comes
  rw [same]
  exact paced_level paced here

theorem paced_keepsRunning {stream : H264TestStream} {c : Connection} {past : List Sign}
    (paced : Paced stream c past) (move : Move) : KeepsRunning stream c past move := by
  intro runs stops
  cases move with
  | receive turn =>
    simp only [step, receive] at stops
    split at stops
    · simp at stops
    · next payload rest here =>
      split at stops
      · obtain ⟨frameIndex, monotonicTimeNs, rfl⟩ := paced.made payload (by simp [here])
        have level := (paced_level paced here).2
        rw [frameOf_testPayload] at level
        have running := receivePacket_running paced.quest.onSurfaces runs frameIndex
          monotonicTimeNs level turn
        simp only [List.mem_cons, reduceCtorEq, List.mem_map, Sign.quest.injEq, exists_eq_right,
          false_or] at stops
        exact absurd (running _ stops) (by simp [isStopped])
      · simp at stops
  | pace missedFrames => simp only [step] at stops; split at stops <;> simp at stops
  | send ok monotonicTimeNs =>
    simp only [step] at stops
    split at stops
    · split at stops <;> simp at stops
    · simp at stops
  | record nowNs => simp only [step] at stops; split at stops <;> simp at stops
  | handleAck => simp only [step] at stops; split at stops <;> simp at stops

/- What the signs of a move add to the frames sent and received. -/

theorem frames_sent (past : List Sign) (frameIndex : UInt64) :
    sentFrames (past ++ [Sign.sent frameIndex]) = sentFrames past ++ [frameIndex] ∧
      receivedFrames (past ++ [Sign.sent frameIndex]) = receivedFrames past := by
  unfold sentFrames receivedFrames
  rw [List.filterMap_append, List.filterMap_append]
  exact ⟨rfl, by simp [receivedFrame]⟩

theorem frames_received (past : List Sign) (frameIndex : UInt64) (es : List Event) :
    sentFrames (past ++ Sign.received frameIndex :: es.map Sign.quest) = sentFrames past ∧
      receivedFrames (past ++ Sign.received frameIndex :: es.map Sign.quest) =
        receivedFrames past ++ [frameIndex] := by
  have silent (kind : Sign → Option UInt64) (none_ : ∀ e, kind (.quest e) = none) :
      (es.map Sign.quest).filterMap kind = [] := by
    rw [List.filterMap_map, List.filterMap_eq_nil_iff]
    intro e _
    exact none_ e
  unfold sentFrames receivedFrames
  rw [List.filterMap_append, List.filterMap_append, List.filterMap_cons, List.filterMap_cons,
    silent sentFrame fun _ => rfl, silent receivedFrame fun _ => rfl]
  exact ⟨List.append_nil _, rfl⟩

/- Each move keeps the invariant. -/

theorem paced_host {stream : H264TestStream} {c : Connection} {past : List Sign}
    (paced : Paced stream c past) {host : HostBridge} (hostPaced : HostPaced host (sentFrames past))
    (toHost : List UInt64) :
    Paced stream { c with host := host, toHost := toHost } (past ++ []) := by
  rw [List.append_nil]
  exact { paced with host := hostPaced }

theorem paced_same {stream : H264TestStream} {c : Connection} {past : List Sign}
    (paced : Paced stream c past) : Paced stream c (past ++ []) := by
  rw [List.append_nil]
  exact paced

theorem paced_send {stream : H264TestStream} {c : Connection} {past : List Sign}
    (paced : Paced stream c past) (stage : c.host.stage = .sending) (monotonicTimeNs : Int64) :
    Paced stream
      { c with
        host := sent c.host true
        toQuest := c.toQuest ++ [makeH264TestPayload stream c.host.videoFrame monotonicTimeNs] }
      (past ++ [Sign.sent c.host.videoFrame]) := by
  obtain ⟨sends, receives⟩ := frames_sent past c.host.videoFrame
  constructor
  · rw [sends]
    exact sent_paced paced.host stage
  · rw [sends, receives, paced.inFlight, List.map_append, List.map_singleton,
      frameOf_testPayload, List.append_assoc]
  · intro payload mem
    rcases List.mem_append.mp mem with old | new
    · exact paced.made payload old
    · exact ⟨_, _, List.mem_singleton.mp new⟩
  · rw [receives]
    exact paced.quest
  · exact paced.nonePending

theorem paced_packet {stream : H264TestStream} {c : Connection} {past : List Sign}
    (paced : Paced stream c past) {turn : Turn} (returns : CodecsReturn c past (.receive turn))
    {payload : Bytes} {rest : List Bytes} (here : c.toQuest = payload :: rest) :
    ∃ news, framesOf acked (receivePacket c.quest (videoPacket payload turn)).2.1 = news.toList ∧
      Publishes (pairOf c.quest.decoder)
        (pairOf (receivePacket c.quest (videoPacket payload turn)).1.decoder)
        ((receivedFrames past ++ [frameOf payload]).map UInt64.toNat) news ∧
      QuestPaced stream (receivePacket c.quest (videoPacket payload turn)).1.decoder
        ((receivedFrames past ++ [frameOf payload]).map UInt64.toNat) ∧
      ackIndices (receivePacket c.quest (videoPacket payload turn)).1.decoder = [] := by
  obtain ⟨frameIndex, monotonicTimeNs, rfl⟩ := paced.made payload (by simp [here])
  have level := (paced_level paced here).2
  rw [frameOf_testPayload] at level ⊢
  rw [List.map_append, List.map_singleton]
  apply receivePacket_paced paced.quest paced.nonePending frameIndex monotonicTimeNs level
  intro n mem
  rcases returns n mem with old | ⟨header, comes, same⟩
  · exact List.mem_append_left _ old
  · obtain ⟨_, _, head, index⟩ := incoming_head comes
    rw [here, List.cons.injEq] at head
    rw [← head.1, frameOf_testPayload] at index
    rw [← same, index]
    exact List.mem_append_right _ (List.mem_singleton_self _)

theorem paced_receive {stream : H264TestStream} {c : Connection} {past : List Sign}
    (paced : Paced stream c past) {turn : Turn} (returns : CodecsReturn c past (.receive turn)) :
    Paced stream (receive c turn).1 (past ++ (receive c turn).2) := by
  unfold receive
  split
  · exact paced_same paced
  · next payload rest here =>
    split
    · obtain ⟨_, _, _, quest, nonePending⟩ := paced_packet paced returns here
      obtain ⟨sends, receives⟩ := frames_received past (frameOf payload)
        (receivePacket c.quest (videoPacket payload turn)).2.1
      constructor
      · exact sends ▸ paced.host
      · refine sends.trans ?_
        rw [paced.inFlight, here, List.map_cons, List.append_cons]
        exact congrArg (· ++ rest.map frameOf) receives.symm
      · intro other mem
        exact paced.made other (by simp only [here, List.mem_cons, mem, or_true])
      · exact receives ▸ quest
      · exact nonePending
    · exact paced_same paced

theorem step_paced (stream : H264TestStream) (c : Connection) (past : List Sign) (move : Move)
    (paced : Paced stream c past) (close : Close c past move) :
    Paced stream (step stream c move).1 (past ++ (step stream c move).2) := by
  cases move with
  | pace missedFrames =>
    simp only [step]
    split
    · next stage =>
      have hostPaced :=
        pace_paced paced.host (close.noWrap stage) (close.backClose stage)
      exact paced_host paced hostPaced c.toHost
    · exact paced_same paced
  | send ok monotonicTimeNs =>
    simp only [step]
    split
    · next stage =>
      split
      · exact paced_send paced stage monotonicTimeNs
      · exact paced_host paced (unsent_paced paced.host) c.toHost
    · exact paced_same paced
  | record nowNs =>
    simp only [step]
    split
    · next stage => exact paced_host paced (record_paced paced.host stage nowNs) c.toHost
    · exact paced_same paced
  | receive turn => exact paced_receive paced close.returns
  | handleAck =>
    simp only [step]
    split
    · exact paced_same paced
    · next ack rest _ => exact paced_host paced (handleAck_paced paced.host ack) rest

theorem start_paced (stream : H264TestStream) : Paced stream {} [] where
  host := by
    constructor
    · exact List.Pairwise.nil
    · simp [sentFrames]
    · simp [sentFrames]
    · exact fun impossible => absurd rfl impossible
    · simp
    · simp
  inFlight := rfl
  made := by simp
  quest := by
    constructor
    · exact fun impossible _ => absurd rfl impossible
    · exact fun _ => rfl
    · exact fun impossible => absurd rfl impossible
    · simp [pairOf]
    · simp [pairOf]
  nonePending := rfl

/-- In a run whose moves are all close, the headset never takes a frame for a new stream, and
    never stops codecs that run. -/
theorem close_run_never_resets (stream : H264TestStream) (moves : List Move)
    (close : AtSteps (step stream) Close {} [] moves) :
    AtSteps (step stream) NoReset {} [] moves ∧
      AtSteps (step stream) (KeepsRunning stream) {} [] moves := by
  constructor
  · exact atSteps_mono (step_paced stream) (fun _ _ move paced _ => paced_noReset paced move)
      (start_paced stream) close
  · exact atSteps_mono (step_paced stream) (fun _ _ move paced _ => paced_keepsRunning paced move)
      (start_paced stream) close

def smallStream : H264TestStream where
  accessUnits := [[0, 0, 1, 0x65]]
  keyframes := [true]
  width := 16
  height := 8
  nonempty := by decide
  flagged := by decide

def sendFrames (n : Nat) : List Move :=
  (List.replicate n [.pace 0, .send true 0, .record 0]).flatten

def receiveFrame (first count : Nat) : Move :=
  .receive (promptTurn (promptCodec first count) (promptCodec first count))

/-- The first ack comes after six frames: the host goes back to frame 3, two below frame 5. -/
def timelyAck : List Move :=
  sendFrames 6 ++ [receiveFrame 0 1, .handleAck] ++ sendFrames 1 ++
    List.replicate 4 (receiveFrame 0 0) ++
    [receiveFrame 1 5, receiveFrame 3 1]

theorem timely_ack_never_resets :
    receivedFrames (run (step smallStream) {} timelyAck).2 = [0, 1, 2, 3, 4, 5, 3] ∧
      AtSteps (step smallStream) NoReset {} [] timelyAck ∧
      AtSteps (step smallStream) (KeepsRunning smallStream) {} [] timelyAck :=
  ⟨by decide +kernel, close_run_never_resets smallStream timelyAck (by decide +kernel)⟩

def questEvent : Sign → Option Event
  | .quest event => some event
  | _ => none

/-- The first ack comes after seven frames, when the headset has published the last of them:
    the host goes back to frame 3. -/
def lateAck : List Move :=
  sendFrames 7 ++ [receiveFrame 0 1] ++
    List.replicate 5 (receiveFrame 0 0) ++
    [receiveFrame 1 6, .handleAck] ++ sendFrames 1 ++
    [receiveFrame 0 0]

theorem late_ack_resets :
    AtSteps (step smallStream) (fun c past move => CodecsReturn c past move ∧ NoWrap c move) {} []
        lateAck ∧
      (∀ eye, AtEvents (InOrder eye) []
        ((run (step smallStream) {} lateAck).2.filterMap questEvent)) ∧
      receivedFrames (run (step smallStream) {} lateAck).2 = [0, 1, 2, 3, 4, 5, 6, 3] ∧
      framesOf published ((run (step smallStream) {} lateAck).2.filterMap questEvent) = [0, 6] ∧
      ¬ AtSteps (step smallStream) NoReset {} [] lateAck ∧
      ¬ AtSteps (step smallStream) (KeepsRunning smallStream) {} [] lateAck := by
  refine ⟨by decide +kernel, ?_, by decide +kernel, by decide +kernel, by decide +kernel,
    by decide +kernel⟩
  intro eye
  cases eye
  · decide +kernel
  · decide +kernel

end HostPacing
