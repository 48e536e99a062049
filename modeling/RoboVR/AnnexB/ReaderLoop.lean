import RoboVR.AnnexB.SliceHeader

/- `_H264Encoder` from its stdout pipe to its queue. A run of `_reader_loop` is given by
   the chunks that `read` returns; `_stop` set between two reads ends it as EOF does. -/
namespace AnnexBReaderLoop
open Delimited AnnexBStartCode AnnexBSliceHeader

structure H264Encoder where
  currentNals : List Bytes
  currentHasVcl : Bool
  frameIndex : Nat
  queue : List (Nat × Bytes)
  deriving DecidableEq, Repr

def H264Encoder.init : H264Encoder := ⟨[], false, 0, []⟩

def H264Encoder.emitCurrent (enc : H264Encoder) : H264Encoder :=
  let enc :=
    if enc.currentNals ≠ [] ∧ enc.currentHasVcl = true then
      { enc with
        queue := enc.queue ++ [(enc.frameIndex, enc.currentNals.flatten)]
        frameIndex := enc.frameIndex + 1 }
    else enc
  { enc with currentNals := [], currentHasVcl := false }

def H264Encoder.processNal (enc : H264Encoder) (nal : Bytes) : H264Encoder :=
  if codeOnly nal then enc
  else
    let enc := if startsNewAu nal && enc.currentHasVcl then enc.emitCurrent else enc
    { enc with
      currentNals := enc.currentNals ++ [nal]
      currentHasVcl := enc.currentHasVcl || isVcl nal }

/-- The inner loop of `_reader_loop`. Every round but the last deletes bytes, so the
    length of the buffer bounds the rounds. -/
def drainBuffer : Nat → H264Encoder → Bytes → H264Encoder × Bytes
  | 0, enc, buffer => (enc, buffer)
  | fuel + 1, enc, buffer =>
    match findStartCode buffer 0 with
    | none => (enc, [])
    | some first =>
      let buffer := buffer.drop first
      match findStartCode buffer (startCodeSize buffer 0) with
      | none => (enc, buffer)
      | some second => drainBuffer fuel (enc.processNal (buffer.take second)) (buffer.drop second)

def finishStream (enc : H264Encoder) (buffer : Bytes) : H264Encoder :=
  (if buffer ≠ [] then enc.processNal buffer else enc).emitCurrent

def readerLoopFrom (enc : H264Encoder) (buffer : Bytes) : List Bytes → H264Encoder
  | [] => finishStream enc buffer
  | chunk :: chunks =>
    if chunk = [] then finishStream enc buffer
    else
      let drained := drainBuffer ((buffer ++ chunk).length + 1) enc (buffer ++ chunk)
      readerLoopFrom drained.1 drained.2 chunks

/-- The encoder after its reader thread has read `chunks` and then EOF. -/
def readerLoop (chunks : List Bytes) : H264Encoder := readerLoopFrom H264Encoder.init [] chunks

def groupNals (enc : H264Encoder) (nals : List Bytes) : H264Encoder :=
  (nals.foldl H264Encoder.processNal enc).emitCurrent

def nalsOf (stream : Bytes) : List Bytes :=
  match startCode.seek stream with
  | none => []
  | some c => startCode.tokens c.2

/-- The bytes thrown away before the buffer first begins with a start code: chunks
    without one are cleared, and the first chunk with one is deleted up to it. -/
def discarded : List Bytes → Bytes
  | [] => []
  | chunk :: chunks =>
    match findStartCode chunk 0 with
    | none => chunk ++ discarded chunks
    | some first => chunk.take first

/-- `chunks` are what `read` returns for `stream`. -/
def Cuts (stream : Bytes) (chunks : List Bytes) : Prop :=
  chunks.flatten = stream ∧ ∀ chunk ∈ chunks, chunk ≠ []

def StartsAligned (chunks : List Bytes) : Prop :=
  ∃ first rest, chunks = first :: rest ∧ startCodeSize first 0 ≠ 0

theorem findStartCode_zero (data : Bytes) :
    findStartCode data 0 = (startCode.seek data).map fun c => c.1.length := by
  simp [findStartCode_eq]

theorem findStartCode_of_code {data : Bytes} (marked : headCode data ≠ 0) :
    findStartCode data 0 = some 0 := by
  rw [findStartCode_zero, seek_of_mark startCode marked]
  rfl

theorem secondCode_eq_cut (data : Bytes) :
    findStartCode data (startCodeSize data 0) =
      (startCode.cut data).map fun c => c.1.length := by
  rw [findStartCode_eq, startCodeSize_zero, Delimiter.cut, Option.map_map, startCode_mark]
  congr 1
  funext c
  simp [headCode_length]

theorem drainBuffer_of_code {fuel : Nat} (enc : H264Encoder) {buffer : Bytes}
    (marked : headCode buffer ≠ 0) (enough : buffer.length < fuel) :
    drainBuffer fuel enc buffer =
      ((startCode.drain buffer).1.foldl H264Encoder.processNal enc,
        (startCode.drain buffer).2) := by
  induction fuel generalizing enc buffer with
  | zero => omega
  | succ fuel ih =>
    simp only [drainBuffer, findStartCode_of_code marked, List.drop_zero, secondCode_eq_cut]
    cases found : startCode.cut buffer with
    | none => simp [drain_of_cut_none startCode found]
    | some c =>
      obtain ⟨nal, rest⟩ := c
      obtain ⟨split, here, smaller⟩ := cut_some startCode found
      have head : buffer.take nal.length = nal := by rw [split, List.take_left]
      have tail : buffer.drop nal.length = rest := by rw [split, List.drop_left]
      simp only [Option.map_some, head, tail, ih _ here (by omega),
        drain_of_cut_some startCode found, List.foldl_cons]

theorem drainBuffer_of_none {fuel : Nat} {enc : H264Encoder} {buffer : Bytes}
    (none_ : findStartCode buffer 0 = none) : drainBuffer (fuel + 1) enc buffer = (enc, []) := by
  simp [drainBuffer, none_]

theorem drainBuffer_of_some (enc : H264Encoder) {buffer : Bytes} {first : Nat}
    (found : findStartCode buffer 0 = some first) :
    headCode (buffer.drop first) ≠ 0 ∧
      drainBuffer (buffer.length + 1) enc buffer =
        ((startCode.drain (buffer.drop first)).1.foldl H264Encoder.processNal enc,
          (startCode.drain (buffer.drop first)).2) := by
  have search := found
  rw [findStartCode_zero, Option.map_eq_some_iff] at search
  obtain ⟨⟨pre, rest⟩, seek, rfl⟩ := search
  obtain ⟨split, here, _⟩ := seek_some startCode seek
  have tail : buffer.drop pre.length = rest := by rw [split, List.drop_left]
  simp only [tail]
  refine ⟨here, ?_⟩
  have room : rest.length < buffer.length + 1 := by rw [split, List.length_append]; omega
  have direct := drainBuffer_of_code enc here room
  rw [← direct]
  simp only [drainBuffer, found, tail, findStartCode_of_code here, List.drop_zero]

theorem finishStream_eq (enc : H264Encoder) (buffer : Bytes) :
    finishStream enc buffer = groupNals enc [buffer] := by
  by_cases empty : buffer = []
  · subst empty
    simp [finishStream, groupNals, H264Encoder.processNal, codeOnly, headCode]
  · simp [finishStream, groupNals, empty]

theorem groupNals_append (enc : H264Encoder) (as bs : List Bytes) :
    groupNals enc (as ++ bs) = groupNals (as.foldl H264Encoder.processNal enc) bs := by
  rw [groupNals, groupNals, List.foldl_append]

theorem readerLoopFrom_of_code {enc : H264Encoder} {stream : Bytes} {chunks : List Bytes}
    (marked : headCode stream ≠ 0) (nonempty : ∀ chunk ∈ chunks, chunk ≠ []) :
    readerLoopFrom ((startCode.drain stream).1.foldl H264Encoder.processNal enc)
        (startCode.drain stream).2 chunks =
      groupNals enc (startCode.tokens (stream ++ chunks.flatten)) := by
  induction chunks generalizing stream with
  | nil =>
    rw [readerLoopFrom, finishStream_eq, List.flatten_nil, List.append_nil, ← groupNals_append]
    rfl
  | cons chunk chunks ih =>
    have here : chunk ≠ [] := nonempty chunk (by simp)
    have longer : headCode (stream ++ chunk) ≠ 0 := by rw [headCode_append _ marked]; exact marked
    have kept : headCode ((startCode.drain stream).2 ++ chunk) ≠ 0 := by
      rw [headCode_append _ (drain_rest_marked startCode marked)]
      exact drain_rest_marked startCode marked
    have step := drain_append startCode chunk marked
    simp only [readerLoopFrom, if_neg here, drainBuffer_of_code _ kept (Nat.lt_succ_self _)]
    rw [← List.foldl_append, List.flatten_cons, ← List.append_assoc,
      ← ih longer fun c mem => nonempty c (List.mem_cons_of_mem chunk mem), step]

theorem readerLoop_eq {stream : Bytes} {chunks : List Bytes} (cuts : Cuts stream chunks) :
    readerLoop chunks =
      groupNals H264Encoder.init (startCode.tokens (stream.drop (discarded chunks).length)) := by
  obtain ⟨rfl, nonempty⟩ := cuts
  unfold readerLoop
  induction chunks with
  | nil => rfl
  | cons chunk chunks ih =>
    have here : chunk ≠ [] := nonempty chunk (by simp)
    have rest : ∀ c ∈ chunks, c ≠ [] := fun c mem => nonempty c (List.mem_cons_of_mem chunk mem)
    cases found : findStartCode chunk 0 with
    | none =>
      simp only [readerLoopFrom, if_neg here, List.nil_append, drainBuffer_of_none found, ih rest,
        discarded, found, List.flatten_cons, List.length_append]
      rw [← List.drop_drop, List.drop_left]
    | some first =>
      obtain ⟨marked, drained⟩ := drainBuffer_of_some H264Encoder.init found
      have inside : first ≤ chunk.length := by
        by_contra beyond
        rw [List.drop_of_length_le (by omega)] at marked
        exact marked rfl
      simp only [readerLoopFrom, if_neg here, List.nil_append, drained]
      rw [readerLoopFrom_of_code marked rest, discarded, found, List.flatten_cons,
        List.length_take, Nat.min_eq_left inside, List.drop_append_of_le_length inside]

theorem discarded_of_aligned {chunks : List Bytes} (aligned : StartsAligned chunks) :
    discarded chunks = [] := by
  obtain ⟨first, rest, rfl, marked⟩ := aligned
  rw [startCodeSize_zero] at marked
  simp [discarded, findStartCode_of_code marked]

theorem aligned_stream_marked {stream : Bytes} {chunks : List Bytes} (cuts : Cuts stream chunks)
    (aligned : StartsAligned chunks) : headCode stream ≠ 0 := by
  obtain ⟨first, rest, rfl, marked⟩ := aligned
  rw [startCodeSize_zero] at marked
  rw [← cuts.1, List.flatten_cons, headCode_append _ marked]
  exact marked

theorem nalsOf_of_code {stream : Bytes} (marked : headCode stream ≠ 0) :
    nalsOf stream = startCode.tokens stream := by
  rw [nalsOf, seek_of_mark startCode marked]

theorem blocks_marked {nals : List Bytes} (blocks : startCode.Blocks nals) {nal : Bytes}
    (mem : nal ∈ nals) : headCode nal ≠ 0 := by
  induction nals with
  | nil => simp at mem
  | cons first rest ih =>
    obtain ⟨marked, inside, _, tail⟩ := blocks
    rcases List.mem_cons.mp mem with rfl | later
    · rw [headCode_whole inside marked]; exact marked
    · exact ih tail later

theorem nalsOf_blocks (stream : Bytes) : startCode.Blocks (nalsOf stream) := by
  unfold nalsOf
  cases search : startCode.seek stream with
  | none => trivial
  | some c => exact blocks_tokens startCode (seek_some startCode search).2.1

theorem nalsOf_marked {stream nal : Bytes} (mem : nal ∈ nalsOf stream) : headCode nal ≠ 0 :=
  blocks_marked (nalsOf_blocks stream) mem

theorem readerLoop_aligned {stream : Bytes} {chunks : List Bytes} (cuts : Cuts stream chunks)
    (aligned : StartsAligned chunks) :
    readerLoop chunks = groupNals H264Encoder.init (nalsOf stream) := by
  rw [readerLoop_eq cuts, discarded_of_aligned aligned, List.length_nil, List.drop_zero,
    nalsOf_of_code (aligned_stream_marked cuts aligned)]

theorem readerLoop_whole (stream : Bytes) :
    readerLoop [stream] = groupNals H264Encoder.init (nalsOf stream) := by
  by_cases empty : stream = []
  · subst empty; rfl
  · have cuts : Cuts stream [stream] := ⟨by simp, by simpa using empty⟩
    rw [readerLoop_eq cuts, discarded]
    cases search : startCode.seek stream with
    | none =>
      have missing : findStartCode stream 0 = none := by rw [findStartCode_zero, search]; rfl
      simp [missing, discarded, nalsOf, search, groupNals, Delimiter.tokens, Delimiter.drain,
        Delimiter.drainFuel, H264Encoder.processNal, codeOnly, headCode]
    | some c =>
      obtain ⟨pre, rest⟩ := c
      obtain ⟨split, _, _⟩ := seek_some startCode search
      have found : findStartCode stream 0 = some pre.length := by
        rw [findStartCode_zero, search]; rfl
      simp only [found, nalsOf, search]
      rw [List.length_take, Nat.min_eq_left (by simp [split]), split, List.drop_left]

end AnnexBReaderLoop
