import RoboVR.AnnexB.Grouping

/- How the queue depends on the way the pipe cuts the stream. The loop clears its buffer
   while it has seen no start code, so a code that a read splits is lost with its NAL. -/
namespace AnnexBChunkCuts
open Delimited AnnexBStartCode AnnexBSliceHeader AnnexBReaderLoop AnnexBGrouping

/-- The NALs that reach the queue: those up to the last slice, and what follows it
    inside its picture. -/
def emittedNals : List Bytes → List Bytes
  | [] => []
  | nal :: rest =>
    if rest.any isVcl then nal :: emittedNals rest
    else if isVcl nal then nal :: rest.takeWhile fun n => !startsNewAu n
    else []

def pendingNals (enc : H264Encoder) (nals : List Bytes) : List Bytes :=
  if nals.any isVcl then enc.currentNals ++ emittedNals nals
  else if enc.currentHasVcl then enc.currentNals ++ nals.takeWhile fun n => !startsNewAu n
  else []

def queuedBytes (enc : H264Encoder) : Bytes := (enc.queue.map Prod.snd).flatten

theorem emitCurrent_bytes (enc : H264Encoder) :
    queuedBytes enc.emitCurrent =
      queuedBytes enc ++ if enc.currentHasVcl then enc.currentNals.flatten else [] := by
  by_cases sliced : enc.currentHasVcl = true
  · by_cases empty : enc.currentNals = []
    · simp [H264Encoder.emitCurrent, queuedBytes, empty]
    · simp [H264Encoder.emitCurrent, queuedBytes, empty, sliced]
  · simp [H264Encoder.emitCurrent, queuedBytes, sliced]

theorem processNal_bodied {enc : H264Encoder} {nal : Bytes} (body : codeOnly nal = false) :
    enc.processNal nal =
      { (if startsNewAu nal && enc.currentHasVcl then enc.emitCurrent else enc) with
        currentNals := (if startsNewAu nal && enc.currentHasVcl then [] else enc.currentNals) ++ [nal]
        currentHasVcl := (if startsNewAu nal && enc.currentHasVcl then false else enc.currentHasVcl) ||
          isVcl nal } := by
  rw [H264Encoder.processNal, if_neg (by simp [body])]
  by_cases cut : (startsNewAu nal && enc.currentHasVcl) = true
  · simp [cut, H264Encoder.emitCurrent]
  · simp [cut]

theorem processNal_pending (enc : H264Encoder) {nal : Bytes} (body : codeOnly nal = false)
    (nals : List Bytes) :
    queuedBytes (enc.processNal nal) ++ (pendingNals (enc.processNal nal) nals).flatten =
      queuedBytes enc ++ (pendingNals enc (nal :: nals)).flatten := by
  rw [processNal_bodied body]
  by_cases cut : (startsNewAu nal && enc.currentHasVcl) = true
  · obtain ⟨starts, sliced⟩ := Bool.and_eq_true_iff.mp cut
    have moved := emitCurrent_bytes enc
    simp only [queuedBytes, sliced, if_true] at moved
    simp only [if_true, queuedBytes, pendingNals, emittedNals, List.any_cons, sliced, starts,
      List.takeWhile_cons]
    generalize nals.any isVcl = later
    cases later <;> cases isVcl nal <;> simp [moved]
  · have stay := Bool.eq_false_iff.mpr cut
    simp only [stay, Bool.false_eq_true, if_false, queuedBytes, pendingNals, emittedNals,
      List.any_cons, List.takeWhile_cons]
    rw [Bool.and_eq_false_iff] at stay
    generalize nals.any isVcl = later
    cases later <;> cases isVcl nal <;> rcases stay with plain | plain <;> simp [plain]

theorem groupNals_bytes (nals : List Bytes) (enc : H264Encoder) :
    queuedBytes (groupNals enc nals) =
      queuedBytes enc ++ (pendingNals enc (bodied nals)).flatten := by
  induction nals generalizing enc with
  | nil =>
    rw [groupNals, List.foldl_nil, emitCurrent_bytes]
    by_cases sliced : enc.currentHasVcl = true <;> simp [pendingNals, bodied, sliced]
  | cons nal nals ih =>
    have step : groupNals enc (nal :: nals) = groupNals (enc.processNal nal) nals := rfl
    rw [step, ih]
    by_cases body : codeOnly nal = true
    · simp [bodied, body, H264Encoder.processNal]
    · have keep : bodied (nal :: nals) = nal :: bodied nals := by simp [bodied, body]
      rw [keep, processNal_pending enc (Bool.eq_false_iff.mpr body)]

theorem groupNals_init_bytes (nals : List Bytes) :
    queuedBytes (groupNals H264Encoder.init nals) = (emittedNals (bodied nals)).flatten := by
  rw [groupNals_bytes]
  by_cases sliced : (bodied nals).any isVcl = true
  · simp [queuedBytes, pendingNals, sliced, H264Encoder.init]
  · have none_ : emittedNals (bodied nals) = [] := by
      cases h : bodied nals with
      | nil => rfl
      | cons nal rest => simp_all [emittedNals]
    simp [queuedBytes, pendingNals, sliced, none_, H264Encoder.init]

theorem emittedNals_append (before : List Bytes) {after : List Bytes}
    (sliced : after.any isVcl = true) :
    emittedNals (before ++ after) = before ++ emittedNals after := by
  induction before with
  | nil => rfl
  | cons nal before ih => simp [emittedNals, sliced, ih]

theorem emittedNals_sliceless {nals : List Bytes} (none_ : nals.any isVcl = false) :
    emittedNals nals = [] := by
  cases nals with
  | nil => rfl
  | cons nal rest => simp_all [emittedNals]

theorem emittedNals_head {nal : Bytes} {rest : List Bytes}
    (sliced : (nal :: rest).any isVcl = true) :
    emittedNals (nal :: rest) = nal :: (emittedNals (nal :: rest)).tail := by
  by_cases later : rest.any isVcl = true
  · simp only [emittedNals, later, if_true, List.tail_cons]
  · rw [List.any_cons, Bool.eq_false_iff.mpr later, Bool.or_false] at sliced
    simp only [emittedNals, later, sliced, if_true, if_false, List.tail_cons, Bool.false_eq_true]

theorem emittedNals_tail {a b : Bytes} {rest : List Bytes} (same : isVcl a = isVcl b) :
    (emittedNals (a :: rest)).tail = (emittedNals (b :: rest)).tail := by
  by_cases later : rest.any isVcl = true
  · simp [emittedNals, later]
  · by_cases vcl : isVcl b = true <;> simp [emittedNals, later, same, vcl]

theorem groupNals_sliceless {nals : List Bytes} (none_ : ∀ nal ∈ nals, isVcl nal = false) :
    (groupNals H264Encoder.init nals).queue = [] := by
  obtain ⟨units, dropped, queue, kept, _⟩ := groupNals_units nals
  rw [queue]
  cases units with
  | nil => rfl
  | cons unit units =>
    obtain ⟨nal, mem, vcl⟩ := List.any_eq_true.mp unit.sliced
    have here : nal ∈ bodied nals := by rw [kept]; simp [mem]
    rw [none_ nal (List.mem_of_mem_filter here)] at vcl
    contradiction

def leadIn (stream : Bytes) : Nat :=
  match startCode.seek stream with
  | none => stream.length
  | some c => c.1.length

/-- The cut does no harm to the stream: it has no slice, or what is thrown away before
    the loop finds a start code inside one read reaches into no NAL that has a body. -/
def Harmless (stream : Bytes) (chunks : List Bytes) : Prop :=
  (∀ nal ∈ nalsOf stream, isVcl nal = false) ∨
    ∀ before nal after, nalsOf stream = before ++ nal :: after →
      leadIn stream + before.flatten.length < (discarded chunks).length → codeOnly nal = true

theorem discarded_split (chunks : List Bytes) :
    ∃ rest, chunks.flatten = discarded chunks ++ rest ∧ (rest = [] ∨ headCode rest ≠ 0) := by
  induction chunks with
  | nil => exact ⟨[], rfl, Or.inl rfl⟩
  | cons chunk chunks ih =>
    rw [discarded, List.flatten_cons]
    cases found : findStartCode chunk 0 with
    | none =>
      obtain ⟨rest, split, start⟩ := ih
      exact ⟨rest, by simp [← split], start⟩
    | some first =>
      obtain ⟨marked, _⟩ := drainBuffer_of_some H264Encoder.init found
      refine ⟨chunk.drop first ++ chunks.flatten, ?_, Or.inr ?_⟩
      · simp only
        rw [← List.append_assoc, List.take_append_drop]
      · rw [headCode_append _ marked]; exact marked

theorem bodied_foldl (nals : List Bytes) (enc : H264Encoder) :
    nals.foldl H264Encoder.processNal enc = (bodied nals).foldl H264Encoder.processNal enc := by
  induction nals generalizing enc with
  | nil => rfl
  | cons nal nals ih =>
    cases body : codeOnly nal with
    | true => simp [bodied_cons_empty nals body, body, H264Encoder.processNal, ih]
    | false => simp [bodied_cons_body nals body, ih]

theorem groupNals_bodied {as bs : List Bytes} (same : bodied as = bodied bs)
    (enc : H264Encoder) : groupNals enc as = groupNals enc bs := by
  rw [groupNals, groupNals, bodied_foldl, same, ← bodied_foldl]

theorem codeOnly_not_vcl {nal : Bytes} (marked : headCode nal ≠ 0)
    (empty : codeOnly nal = true) : isVcl nal = false := by
  have header : headerByte nal = 0 := by
    rw [headerByte_eq, (codeOnly_iff marked).mp empty]; rfl
  simp [isVcl, nalType, header]

theorem bodied_any_vcl {nals : List Bytes} (marked : ∀ nal ∈ nals, headCode nal ≠ 0) :
    (bodied nals).any isVcl = nals.any isVcl := by
  induction nals with
  | nil => rfl
  | cons nal nals ih =>
    have rest := ih fun n mem => marked n (List.mem_cons_of_mem nal mem)
    cases body : codeOnly nal with
    | true =>
      have plain := codeOnly_not_vcl (marked nal (by simp)) body
      rw [bodied_cons_empty nals body, rest, List.any_cons, plain, Bool.false_or]
    | false => rw [bodied_cons_body nals body, List.any_cons, List.any_cons, rest]

theorem codeOnly_of_bodied_flatten {nals : List Bytes} (sized : ∀ n ∈ nals, n ≠ [])
    (none_ : (bodied nals).flatten = []) : ∀ n ∈ nals, codeOnly n = true := by
  intro n mem
  by_contra full
  have kept : n ∈ bodied nals := by
    rw [bodied, List.mem_filter]
    exact ⟨mem, by simp [Bool.eq_false_iff.mpr full]⟩
  exact sized n mem (List.flatten_eq_nil_iff.mp none_ n kept)

/-- The part of a NAL list that a reader loses when it starts inside the list: whole NALs
    `before` and, of the next one, `lead`. Nothing bodied may be in it. -/
def LostNothing (before : List Bytes) (lead nal : Bytes) : Prop :=
  (∀ n ∈ before, codeOnly n = true) ∧ (lead = [] ∨ codeOnly (lead ++ nal) = true)

theorem lostNothing_bodied {before : List Bytes} {lead nal : Bytes} (after : List Bytes)
    (same : codeOnly (lead ++ nal) = codeOnly nal) (lost : LostNothing before lead nal) :
    bodied (before ++ (lead ++ nal) :: after) = bodied (nal :: after) := by
  obtain ⟨whole, part⟩ := lost
  have none_ : bodied before = [] := by
    rw [bodied, List.filter_eq_nil_iff]
    intro n mem
    simp [whole n mem]
  rw [bodied_append, none_, List.nil_append]
  rcases part with rfl | empty
  · rfl
  · rw [bodied_cons_empty _ empty, bodied_cons_empty _ (same ▸ empty)]

theorem emitted_length {before after : List Bytes} {lead nal : Bytes}
    (role : isVcl (lead ++ nal) = isVcl nal) (body : codeOnly (lead ++ nal) = codeOnly nal)
    (kept : (bodied (nal :: after)).any isVcl = true) :
    (emittedNals (bodied (before ++ (lead ++ nal) :: after))).flatten.length =
      (bodied before).flatten.length + (if codeOnly nal then 0 else lead.length) +
        (emittedNals (bodied (nal :: after))).flatten.length := by
  rw [bodied_append]
  cases empty : codeOnly nal with
  | true =>
    rw [bodied_cons_empty after (body.trans empty), ← bodied_cons_empty after empty,
      emittedNals_append _ kept, List.flatten_append, List.length_append]
    simp
  | false =>
    rw [bodied_cons_body after (body.trans empty)]
    rw [bodied_cons_body after empty] at kept ⊢
    have whole : ((lead ++ nal) :: bodied after).any isVcl = true := by
      rw [List.any_cons, role, ← List.any_cons]; exact kept
    rw [emittedNals_append _ whole, emittedNals_head whole, emittedNals_head kept,
      emittedNals_tail role]
    simp only [List.flatten_append, List.flatten_cons, List.length_append, Bool.false_eq_true,
      if_false]
    omega

theorem emitted_shorter {before after : List Bytes} {lead nal : Bytes}
    (role : isVcl (lead ++ nal) = isVcl nal) (body : codeOnly (lead ++ nal) = codeOnly nal)
    (sized : ∀ n ∈ before ++ (lead ++ nal) :: after, n ≠ [])
    (sliced : (bodied (before ++ (lead ++ nal) :: after)).any isVcl = true)
    (same : (emittedNals (bodied (before ++ (lead ++ nal) :: after))).flatten =
      (emittedNals (bodied (nal :: after))).flatten) :
    LostNothing before lead nal := by
  have lengths := congrArg List.length same
  by_cases kept : (bodied (nal :: after)).any isVcl = true
  · rw [emitted_length role body kept] at lengths
    have none_ : (bodied before).flatten = [] := List.length_eq_zero_iff.mp (by omega)
    refine ⟨codeOnly_of_bodied_flatten (fun n mem => sized n (by simp [mem])) none_, ?_⟩
    cases empty : codeOnly nal with
    | true => exact Or.inr (body.trans empty)
    | false =>
      simp only [empty, Bool.false_eq_true, if_false] at lengths
      exact Or.inl (List.length_eq_zero_iff.mp (by omega))
  · -- the reader sees no slice at all, but the whole stream queues its first NAL
    rw [emittedNals_sliceless (Bool.eq_false_iff.mpr kept), List.flatten_nil,
      List.length_nil] at lengths
    cases all : bodied (before ++ (lead ++ nal) :: after) with
    | nil => rw [all] at sliced; simp at sliced
    | cons n rest =>
      rw [all] at sliced lengths
      rw [emittedNals_head sliced, List.flatten_cons, List.length_append] at lengths
      have here : n ∈ bodied (before ++ (lead ++ nal) :: after) := by rw [all]; simp
      exact absurd (List.length_eq_zero_iff.mp (by omega)) (sized n (bodied_subset here))

theorem lostNothing_iff {before after : List Bytes} {lead nal : Bytes}
    (sized : ∀ n ∈ before ++ (lead ++ nal) :: after, n ≠ []) :
    (∀ b n a, before ++ (lead ++ nal) :: after = b ++ n :: a →
        b.flatten.length < before.flatten.length + lead.length → codeOnly n = true) ↔
      LostNothing before lead nal := by
  constructor
  · intro lost
    refine ⟨fun n mem => ?_, ?_⟩
    · obtain ⟨b, a, rfl⟩ := List.append_of_mem mem
      refine lost b n (a ++ (lead ++ nal) :: after) (by simp) ?_
      have := List.length_pos_of_ne_nil (sized n (by simp))
      simp only [List.flatten_append, List.flatten_cons, List.length_append]
      omega
    · by_cases empty : lead = []
      · exact Or.inl empty
      · have := List.length_pos_of_ne_nil empty
        exact Or.inr (lost before (lead ++ nal) after rfl (by omega))
  · rintro ⟨whole, part⟩ b n a split early
    rcases List.append_eq_append_iff.mp split with ⟨c, rfl, same⟩ | ⟨c, rfl, same⟩
    · -- `n` begins where `before` ends or later
      cases c with
      | nil =>
        obtain ⟨rfl, _⟩ := List.cons.inj (by simpa using same)
        rcases part with rfl | empty
        · simp at early
        · exact empty
      | cons m c =>
        obtain ⟨rfl, _⟩ := List.cons.inj same
        simp only [List.flatten_append, List.flatten_cons, List.length_append] at early
        omega
    · cases c with
      | nil =>
        obtain ⟨rfl, _⟩ := List.cons.inj (by simpa using same)
        rcases part with rfl | empty
        · simp at early
        · exact empty
      | cons m c =>
        obtain ⟨rfl, _⟩ := List.cons.inj same
        exact whole n (by simp)

theorem groupNals_nothing : (groupNals H264Encoder.init (startCode.tokens [])).queue = [] := by
  simp [Delimiter.tokens, Delimiter.drain, Delimiter.drainFuel, groupNals,
    H264Encoder.processNal, codeOnly, headCode, H264Encoder.emitCurrent, H264Encoder.init]

theorem discarded_nals {stream : Bytes} {chunks : List Bytes} (cuts : Cuts stream chunks) :
    (discarded chunks = stream ∧ (readerLoop chunks).queue = []) ∨
      ∃ before lead nal after, nalsOf stream = before ++ (lead ++ nal) :: after ∧
        readerLoop chunks = groupNals H264Encoder.init (nal :: after) ∧
        (discarded chunks).length = leadIn stream + (before.flatten.length + lead.length) ∧
        isVcl (lead ++ nal) = isVcl nal ∧ codeOnly (lead ++ nal) = codeOnly nal := by
  obtain ⟨rest, split, start⟩ := discarded_split chunks
  rw [cuts.1] at split
  have read := readerLoop_eq cuts
  have behind : stream.drop (discarded chunks).length = rest := by
    conv => lhs; rw [split]
    rw [List.drop_left]
  rw [behind] at read
  rcases start with rfl | marked
  · rw [List.append_nil] at split
    exact Or.inl ⟨split.symm, by rw [read, groupNals_nothing]⟩
  · obtain ⟨p, q, parts, search⟩ := seek_reaches startCode (discarded chunks) marked
    rw [← split] at search
    have first := (seek_some startCode search).2.1
    obtain ⟨before, lead, nal, after, all, seen, joined, together⟩ :=
      tokens_from_later_mark startCode first marked
    have block := blocks_tokens startCode marked
    have whole : nal ++ after.flatten = rest := by
      rw [← tokens_flatten startCode rest, seen, List.flatten_cons]
    rw [seen] at block
    obtain ⟨_, inside, _, _⟩ := block
    rw [startCode_mark, whole] at inside
    have code : headCode nal = headCode rest := by
      rw [← whole] at inside marked ⊢
      exact headCode_whole inside marked
    have codeLead : headCode (lead ++ nal) = lead.length + headCode nal := by
      rw [startCode_mark, startCode_mark, ← whole, ← List.append_assoc] at together
      rw [code, ← whole, together]
      refine headCode_whole ?_ ?_
      · rw [← together, List.length_append, ← whole] at *
        omega
      · rw [← together, whole]
        exact fun zero => marked (by omega)
    have role := same_payload_same_role (a := lead ++ nal) (b := nal)
      (by rw [codeLead, code]; exact fun zero => marked (by omega))
      (by rw [code]; exact marked)
      (by rw [codeLead, ← List.drop_drop, List.drop_left])
    refine Or.inr ⟨before, lead, nal, after, ?_, by rw [read, seen], ?_, role.1, role.2.2.2⟩
    · rw [nalsOf, search]; exact all
    · rw [leadIn, search, parts, List.length_append, joined, List.length_append]

theorem groupNals_empty_iff {nals : List Bytes} (marked : ∀ nal ∈ nals, headCode nal ≠ 0) :
    (groupNals H264Encoder.init nals).queue = [] ↔ ∀ nal ∈ nals, isVcl nal = false := by
  refine ⟨fun empty => ?_, groupNals_sliceless⟩
  obtain ⟨units, dropped, queue, kept, sliceless⟩ := groupNals_units nals
  rw [queue, numbered, List.mapIdx_eq_nil_iff] at empty
  rw [empty, List.flatMap_nil, List.nil_append] at kept
  have none_ : (bodied nals).any isVcl = false := by
    rw [kept, List.any_eq_false]
    intro nal mem
    simp [sliceless nal mem]
  rw [bodied_any_vcl marked, List.any_eq_false] at none_
  exact fun nal mem => Bool.eq_false_iff.mpr (none_ nal mem)

theorem leadIn_length {stream : Bytes} {nal : Bytes} (mem : nal ∈ nalsOf stream) :
    leadIn stream + (nalsOf stream).flatten.length = stream.length := by
  rw [nalsOf, leadIn] at *
  cases search : startCode.seek stream with
  | none => simp [search] at mem
  | some c =>
    have split := (seek_some startCode search).1
    simp only [tokens_flatten]
    rw [← List.length_append, ← split]

theorem queue_whole_iff {stream : Bytes} {chunks : List Bytes} (cuts : Cuts stream chunks) :
    (readerLoop chunks).queue = (readerLoop [stream]).queue ↔ Harmless stream chunks := by
  rw [readerLoop_whole]
  have marked : ∀ nal ∈ nalsOf stream, headCode nal ≠ 0 := fun nal mem => nalsOf_marked mem
  have sized : ∀ nal ∈ nalsOf stream, nal ≠ [] := by
    rintro nal mem rfl
    exact marked [] mem rfl
  rcases discarded_nals cuts with ⟨all, empty⟩ | ⟨before, lead, nal, after, nals, read, lost, role, body⟩
  · -- nothing is read: the stream must have nothing to queue
    rw [empty, eq_comm, groupNals_empty_iff marked, Harmless, all]
    refine ⟨Or.inl, fun harmless => harmless.elim id fun lost nal mem => ?_⟩
    obtain ⟨b, a, split⟩ := List.append_of_mem mem
    refine codeOnly_not_vcl (marked nal mem) (lost b nal a split ?_)
    have total := leadIn_length mem
    have := List.length_pos_of_ne_nil (sized nal mem)
    rw [split] at total
    simp only [List.flatten_append, List.flatten_cons, List.length_append] at total
    omega
  · rw [read, Harmless, nals, lost]
    rw [nals] at marked sized
    simp only [Nat.add_lt_add_iff_left]
    rw [lostNothing_iff sized]
    by_cases none_ : ∀ n ∈ before ++ (lead ++ nal) :: after, isVcl n = false
    · refine iff_of_true ?_ (Or.inl none_)
      have seen : ∀ n ∈ nal :: after, isVcl n = false := by
        intro n mem
        rcases List.mem_cons.mp mem with rfl | later
        · rw [← role]; exact none_ _ (by simp)
        · exact none_ n (by simp [later])
      rw [groupNals_sliceless seen, groupNals_sliceless none_]
    · constructor
      · intro same
        refine Or.inr (emitted_shorter role body sized ?_ ?_)
        · rw [bodied_any_vcl marked]
          by_contra sliceless
          exact none_ fun n mem => Bool.eq_false_iff.mpr
            (List.any_eq_false.mp (Bool.eq_false_iff.mpr sliceless) n mem)
        · rw [← groupNals_init_bytes, ← groupNals_init_bytes, queuedBytes, queuedBytes, same]
      · rintro (sliceless | lost)
        · exact absurd sliceless none_
        · rw [groupNals_bodied (lostNothing_bodied after body lost)]

/-- Two ways of reading a stream queue the same units as reading it at once exactly when
    neither loses a part of a bodied NAL of a stream with slices. -/
theorem chunk_independent_iff {stream : Bytes} {a b : List Bytes} (cutsA : Cuts stream a)
    (cutsB : Cuts stream b) :
    ((readerLoop a).queue = (readerLoop b).queue ∧
        (readerLoop b).queue = (readerLoop [stream]).queue) ↔
      Harmless stream a ∧ Harmless stream b := by
  rw [← queue_whole_iff cutsA, ← queue_whole_iff cutsB]
  constructor
  · rintro ⟨same, whole⟩
    exact ⟨same.trans whole, whole⟩
  · rintro ⟨wholeA, wholeB⟩
    exact ⟨wholeA.trans wholeB.symm, wholeB⟩

def splitStart : List Bytes := [[0, 0], [1, 0x65, 0x88]]

/-- The split start code loses the picture that one read delivers. -/
theorem split_start_code_loses_picture :
    ∃ stream a b, Cuts stream a ∧ Cuts stream b ∧
      (readerLoop a).queue ≠ (readerLoop b).queue ∧
      (readerLoop b).queue = (readerLoop [stream]).queue :=
  ⟨[0, 0, 1, 0x65, 0x88], splitStart, [[0, 0, 1, 0x65, 0x88]],
    ⟨rfl, by decide⟩, ⟨rfl, by decide⟩, by decide, rfl⟩

theorem chunk_independent_inside_nal :
    (readerLoop [[0, 0, 1, 0x65], [0x88]]).queue = (readerLoop [[0, 0, 1, 0x65, 0x88]]).queue ∧
        (readerLoop [[0, 0, 1, 0x65, 0x88]]).queue = (readerLoop [[0, 0, 1, 0x65, 0x88]]).queue ↔
      Harmless [0, 0, 1, 0x65, 0x88] [[0, 0, 1, 0x65], [0x88]] ∧
        Harmless [0, 0, 1, 0x65, 0x88] [[0, 0, 1, 0x65, 0x88]] :=
  chunk_independent_iff ⟨rfl, by decide⟩ ⟨rfl, by decide⟩

end AnnexBChunkCuts
