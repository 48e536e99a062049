import RoboVR.Decoder.DecodeTrace
import RoboVR.Decoder.HostPackets

/- Published frames over a whole run: each is acknowledged once and in order, the indices rise
   between restarts, and both codecs have rendered what is published. -/
namespace QuestPublication
open QuestTeleop (Bytes VideoFrameHeader)
open QuestMediaCodec QuestSurfaceDrain QuestH264Decoder QuestDecodeStep QuestDecodeTrace
  QuestHostPackets
open Pairing TracedRun

def PublishedRightly (past : List Event) (event : Event) : Prop :=
  ∀ n, published event = some n →
    (∀ m ∈ framesOf published (sinceStop past), m < n) ∧
    n ∈ framesOf (rendered .left) (sinceStop past) ∧
    n ∈ framesOf (rendered .right) (sinceStop past)

/-- What the pairing remembers agrees with the trace since the last `stop`. -/
structure Remembers (p : Pair Nat) (past : List Event) : Prop where
  published : ∀ m ∈ framesOf published (sinceStop past), ∃ k ∈ p.last, m ≤ k
  left : ∀ n ∈ p.left, n ∈ framesOf (rendered .left) (sinceStop past)
  right : ∀ n ∈ p.right, n ∈ framesOf (rendered .right) (sinceStop past)

theorem remembers_begins {d after : H264AnnexBDecoder} {es past : List Event}
    (begins : Begins d es after) (before : Remembers (pairOf d) past) :
    Remembers (pairOf after) (past ++ es) := by
  have quiet := begins_quiet begins
  have publications := begins_framesOf past (fun e mem => (quiet e mem).1) begins
  have lefts := begins_framesOf past (fun e mem => ((quiet e mem).2.2 .left).2.1) begins
  have rights := begins_framesOf past (fun e mem => ((quiet e mem).2.2 .right).2.1) begins
  constructor
  · rcases publications with ⟨pair, same⟩ | ⟨_, none_⟩
    · rw [pair, same]
      exact before.published
    · rw [none_]
      simp
  · rcases lefts with ⟨pair, same⟩ | ⟨pair, _⟩
    · rw [pair, same]
      exact before.left
    · rw [pair]
      simp [Pair.empty]
  · rcases rights with ⟨pair, same⟩ | ⟨pair, _⟩
    · rw [pair, same]
      exact before.right
    · rw [pair]
      simp [Pair.empty]

theorem remembers_drains {p : Pair Nat} {past : List Event} (turn : Turn)
    (before : Remembers p past) :
    Remembers (p.mark (newestLeft turn) (newestRight turn)) (past ++ drains turn) := by
  have same : sinceStop (past ++ drains turn) = sinceStop past ++ drains turn :=
    sinceStop_running fun e mem => (drains_only mem).2.2
  constructor
  · rw [same, framesOf_append, framesOf_nil (fun e mem => (drains_only mem).1), List.append_nil]
    exact before.published
  · intro n mem
    rw [same, framesOf_append, drains_left]
    rcases mem_mark.mp mem with new | old
    · rw [new]
      simp
    · exact List.mem_append_left _ (before.left n old)
  · intro n mem
    rw [same, framesOf_append, drains_right]
    rcases mem_mark.mp mem with new | old
    · rw [new]
      simp
    · exact List.mem_append_left _ (before.right n old)

theorem remembers_publication {p : Pair Nat} {past : List Event} {n : Nat}
    (before : Remembers p past) (ready : p.ready = some n) :
    PublishedRightly past (.publishStereoCodecFrame n) ∧
      Remembers (p.take n) (past ++ publication (some n)) := by
  obtain ⟨⟨left, right, fresh⟩, _⟩ := ready_some.mp ready
  have same : sinceStop (past ++ publication (some n)) = sinceStop past ++ publication (some n) :=
    sinceStop_running (by simp [publication, isStopped])
  constructor
  · intro m publishes
    obtain rfl := Option.some.inj publishes
    refine ⟨?_, before.left n left, before.right n right⟩
    intro earlier mem
    obtain ⟨k, last, bound⟩ := before.published earlier mem
    exact Nat.lt_of_le_of_lt bound (fresh k last)
  · constructor
    · intro m mem
      rw [same, framesOf_append] at mem
      refine ⟨n, rfl, ?_⟩
      rcases List.mem_append.mp mem with old | new
      · obtain ⟨k, last, bound⟩ := before.published m old
        exact Nat.le_of_lt (Nat.lt_of_le_of_lt bound (fresh k last))
      · simp only [framesOf, publication, published, List.filterMap_cons, List.filterMap_nil,
          List.mem_singleton] at new
        exact Nat.le_of_eq new
    · intro m mem
      rw [same, framesOf_append]
      exact List.mem_append_left _ (before.left m (Finset.mem_filter.mp mem).1)
    · intro m mem
      rw [same, framesOf_append]
      exact List.mem_append_left _ (before.right m (Finset.mem_filter.mp mem).1)

theorem remembers_step {p : Pair Nat} {past : List Event} (turn : Turn)
    (before : Remembers p past) :
    AtEvents PublishedRightly past (drains turn ++
        publication (p.step (newestLeft turn) (newestRight turn)).2) ∧
      Remembers (p.step (newestLeft turn) (newestRight turn)).1
        (past ++ (drains turn ++ publication (p.step (newestLeft turn) (newestRight turn)).2)) := by
  have marked := remembers_drains turn before
  have silent : AtEvents PublishedRightly past (drains turn) := by
    apply atEvents_of_all
    intro e mem _ n publishes
    rw [(drains_only mem).1] at publishes
    exact absurd publishes (by simp)
  cases outcome : (p.step (newestLeft turn) (newestRight turn)).2 with
  | none =>
    rw [(step_none outcome).2]
    simpa [publication] using ⟨silent, marked⟩
  | some n =>
    obtain ⟨ready, same⟩ := step_some outcome
    obtain ⟨rightly, after⟩ := remembers_publication marked ready
    rw [same, atEvents_append, ← List.append_assoc]
    exact ⟨⟨silent, rightly, trivial⟩, after⟩

theorem quiet_rightly {es : List Event} (quiet : Quiet es) (past : List Event) :
    AtEvents PublishedRightly past es := by
  apply atEvents_of_all
  intro e mem _ n publishes
  rw [(quiet e mem).1] at publishes
  exact absurd publishes (by simp)

theorem begins_acks {d after : H264AnnexBDecoder} {es : List Event} (begins : Begins d es after)
    (none_ : ackIndices d = []) : ackIndices after = [] := by
  rcases begins with continues | restarts
  · rw [continues.acks, none_]
  · exact restarts.acks

theorem outcome_publishes {d after : H264AnnexBDecoder} {turn : Turn} {es past : List Event}
    {goes starts breaks : Prop} (outcome : Outcome d turn goes starts breaks after es)
    (before : Remembers (pairOf d) past) (none_ : ackIndices d = []) :
    AtEvents PublishedRightly past es ∧ Remembers (pairOf after) (past ++ es) ∧
      framesOf published es = ackIndices after := by
  cases outcome with
  | waiting _ _ begins _ =>
    have quiet := begins_quiet begins
    refine ⟨quiet_rightly quiet past, remembers_begins begins before, ?_⟩
    rw [framesOf_nil fun e mem => (quiet e mem).1, begins_acks begins none_]
  | @drained started _ es₀ _ on anew pair acks parts =>
    have begins := begins_of_goes on anew
    have quiet := begins_quiet begins
    obtain ⟨rightly, remembers⟩ := remembers_step turn (remembers_begins begins before)
    rw [parts]
    refine ⟨?_, ?_, ?_⟩
    · rw [atEvents_append]
      exact ⟨quiet_rightly quiet past, rightly⟩
    · rw [pair, ← List.append_assoc]
      exact remembers
    · rw [framesOf_append, framesOf_append, framesOf_nil fun e mem => (quiet e mem).1,
        framesOf_nil fun e mem => (drains_only mem).1, (publication_frames _).1, acks,
        begins_acks begins none_]
      rfl

def BreaksOn (d : H264AnnexBDecoder) (payload : Bytes) : Prop :=
  ∃ header left right, QuestVideoPayload.routePayload payload = .h264 header left right ∧
    Breaks d header

theorem handlePayload_outcome {d : H264AnnexBDecoder} (inv : OnSurfaces d) (payload : Bytes)
    (turn : Turn) :
    (∃ goes starts breaks, Outcome d turn goes starts breaks (handlePayload d payload turn).1
        (handlePayload d payload turn).2.1 ∧ (breaks → BreaksOn d payload)) ∧
      OnSurfaces (handlePayload d payload turn).1 := by
  have nothing : Outcome d turn False False False d [] :=
    Outcome.waiting id id (begins_refl d) (Or.inl ⟨rfl, by simp⟩)
  unfold handlePayload
  split
  · exact ⟨⟨False, False, False, nothing, False.elim⟩, inv⟩
  · exact ⟨⟨False, False, False, nothing, False.elim⟩, inv⟩
  · next header left right _ =>
    have raw : ∀ e ∈ (rawRgbaDecode header (left.read payload) (right.read payload)).2,
        ∃ frame, e = .publishRawFrame frame := by
      unfold rawRgbaDecode
      intro e mem
      split at mem
      · simp at mem
      · exact ⟨_, List.mem_singleton.mp mem⟩
    have running : ∀ e ∈ (rawRgbaDecode header (left.read payload) (right.read payload)).2,
        isStopped e = false := by
      intro e mem
      obtain ⟨frame, rfl⟩ := raw e mem
      simp [isStopped]
    refine ⟨⟨False, False, False,
      Outcome.waiting id id (Or.inl ?_) (Or.inl ⟨rfl, running⟩), False.elim⟩, inv⟩
    constructor
    · intro e mem
      obtain ⟨frame, rfl⟩ := raw e mem
      exact ⟨rfl, rfl, fun _ => ⟨rfl, rfl, rfl⟩⟩
    · exact running
    · rfl
    · rfl
  · next header left right routed =>
    obtain ⟨outcome, onSurfaces, _⟩ :=
      decode_outcome inv header (left.read payload) (right.read payload) turn
    exact ⟨⟨_, _, _, outcome, fun breaks => ⟨header, left, right, routed, breaks⟩⟩, onSurfaces⟩

theorem sendAcks_spec (acks : List VideoDecodeAck) (sends : List Bool) (seq : UInt64) :
    (∀ e ∈ (sendAcks acks sends seq).1, published e = none ∧ isStopped e = false) ∧
      ((sendAcks acks sends seq).2.2 = true →
        framesOf acked (sendAcks acks sends seq).1 = acks.map VideoDecodeAck.frameIndex) := by
  induction acks generalizing sends seq with
  | nil => simp [sendAcks, framesOf]
  | cons ack acks ih =>
    obtain ⟨silent, whole⟩ := ih sends.tail (seq + 1)
    unfold sendAcks
    split
    · constructor
      · intro e mem
        rcases List.mem_cons.mp mem with rfl | later
        · exact ⟨rfl, by simp [isStopped]⟩
        · exact silent e later
      · intro ok
        have later := whole ok
        simp only [framesOf, List.map_cons] at later ⊢
        rw [List.filterMap_cons_some (by rfl), later]
    · simp

theorem sendAcks_all (acks : List VideoDecodeAck) (seq : UInt64) :
    (sendAcks acks [] seq).2.2 = true := by
  induction acks generalizing seq with
  | nil => rfl
  | cons ack acks ih => exact ih (seq + 1)

theorem remembers_silent {p : Pair Nat} {past es : List Event} (before : Remembers p past)
    (silent : ∀ e ∈ es, published e = none ∧ isStopped e = false) : Remembers p (past ++ es) := by
  have same : sinceStop (past ++ es) = sinceStop past ++ es :=
    sinceStop_running fun e mem => (silent e mem).2
  constructor
  · rw [same, framesOf_append, framesOf_nil fun e mem => (silent e mem).1, List.append_nil]
    exact before.published
  · intro n mem
    rw [same, framesOf_append]
    exact List.mem_append_left _ (before.left n mem)
  · intro n mem
    rw [same, framesOf_append]
    exact List.mem_append_left _ (before.right n mem)

structure Acknowledged (session : Session) (past : List Event) : Prop where
  onSurfaces : OnSurfaces session.decoder
  remembers : Remembers (pairOf session.decoder) past
  none_pending : ackIndices session.decoder = []
  matched : framesOf acked past = framesOf published past

theorem receivePacket_acknowledged {session : Session} {past : List Event}
    (inv : Acknowledged session past) (packet : HostPacket)
    (sent : (receivePacket session packet).2.2 = true) :
    AtEvents PublishedRightly past (receivePacket session packet).2.1 ∧
      Acknowledged (receivePacket session packet).1
        (past ++ (receivePacket session packet).2.1) := by
  unfold receivePacket at sent ⊢
  split at sent
  · next video =>
    rw [if_pos video]
    obtain ⟨⟨_, _, _, outcome, _⟩, onSurfaces⟩ :=
      handlePayload_outcome inv.onSurfaces packet.payload packet.turn
    obtain ⟨rightly, remembers, news⟩ :=
      outcome_publishes outcome inv.remembers inv.none_pending
    have noAcks := outcome_noAcks outcome
    simp only [handleVideoPayload, sendVideoDecodeAcks, takeAcks] at sent ⊢
    generalize handlePayload session.decoder packet.payload packet.turn = handled
      at outcome onSurfaces rightly remembers news noAcks sent ⊢
    obtain ⟨silent, whole⟩ := sendAcks_spec handled.1.pendingAcks packet.ackSends session.seq
    have all := whole sent
    constructor
    · rw [atEvents_append]
      refine ⟨rightly, atEvents_of_all ?_ _⟩
      intro e mem _ n publishes
      rw [(silent e mem).1] at publishes
      exact absurd publishes (by simp)
    · rw [← List.append_assoc]
      constructor
      · exact onSurfaces
      · exact remembers_silent remembers silent
      · rfl
      · rw [framesOf_append, framesOf_append, framesOf_append, framesOf_append, noAcks, all,
          framesOf_nil fun e mem => (silent e mem).1, inv.matched, news]
        simp [ackIndices]
  · next other =>
    rw [if_neg other]
    exact ⟨trivial, by simpa using inv⟩

theorem receiveHostPackets_acknowledged {session : Session} {past : List Event}
    (inv : Acknowledged session past) (packets : List HostPacket)
    (sent : (receiveHostPackets session packets).2.2 = true) :
    AtEvents PublishedRightly past (receiveHostPackets session packets).2.1 ∧
      Acknowledged (receiveHostPackets session packets).1
        (past ++ (receiveHostPackets session packets).2.1) := by
  induction packets generalizing session past with
  | nil => exact ⟨trivial, by simpa [receiveHostPackets] using inv⟩
  | cons packet packets ih =>
    by_cases ok : (receivePacket session packet).2.2 = true
    · simp only [receiveHostPackets, if_pos ok] at sent ⊢
      obtain ⟨rightly, next⟩ := receivePacket_acknowledged inv packet ok
      obtain ⟨later, final⟩ := ih next sent
      rw [List.append_assoc] at final
      exact ⟨(atEvents_append _ _ _ _).mpr ⟨rightly, later⟩, final⟩
    · simp only [receiveHostPackets, if_neg ok] at sent
      exact absurd sent ok

theorem fresh_acknowledged : Acknowledged {} [] where
  onSurfaces := fun impossible _ => absurd rfl impossible
  remembers := by
    constructor
    · simp [framesOf, sinceStop, since]
    · simp [pairOf]
    · simp [pairOf]
  none_pending := rfl
  matched := rfl

/-- In a run without a failed ack the acks are the publications, in order; between restarts
    these rise, and both codecs have rendered each of them. -/
theorem acks_are_publications (packets : List HostPacket)
    (sent : (receiveHostPackets {} packets).2.2 = true) :
    framesOf acked (receiveHostPackets {} packets).2.1 =
        framesOf published (receiveHostPackets {} packets).2.1 ∧
      AtEvents PublishedRightly [] (receiveHostPackets {} packets).2.1 := by
  obtain ⟨rightly, final⟩ := receiveHostPackets_acknowledged fresh_acknowledged packets sent
  exact ⟨by simpa using final.matched, rightly⟩

def promptPacket (frameIndex : UInt64) (turn : Turn) : HostPacket where
  type := QuestTeleop.PacketType.video.code
  payload := QuestTeleop.packVideoFrameHeader (smallHeader frameIndex) ++ [7, 9]
  turn := turn
  ackSends := []

def laggingPackets : List HostPacket :=
  [promptPacket 1 (promptTurn (promptCodec 1 1) (promptCodec 0 0)),
    promptPacket 2 (promptTurn (promptCodec 2 1) (promptCodec 1 2))]

theorem lagging_acks_are_publications :
    framesOf acked (receiveHostPackets {} laggingPackets).2.1 = [2] ∧
      framesOf published (receiveHostPackets {} laggingPackets).2.1 = [2] ∧
      AtEvents PublishedRightly [] (receiveHostPackets {} laggingPackets).2.1 := by
  obtain ⟨same, rightly⟩ := acks_are_publications laggingPackets (by decide +kernel)
  have acks : framesOf acked (receiveHostPackets {} laggingPackets).2.1 = [2] := by
    decide +kernel
  exact ⟨acks, same.symm.trans acks, rightly⟩

end QuestPublication
