import RoboVR.AnnexB.Grouping

/- H.264 access units on the wire and what the encoder thread makes of them. The thread
   cuts at delimiters and first slices only, so without a delimiter the parameter sets
   and SEI in front of a picture stay with the picture before it. -/
namespace AnnexBAccessUnits
open Delimited AnnexBStartCode AnnexBSliceHeader AnnexBReaderLoop AnnexBGrouping

structure WireNal where
  code : Bytes
  body : Bytes
  start : code = [0, 0, 1] ∨ code = [0, 0, 0, 1]
  long : 2 ≤ body.length
  no_zeros : ¬ [0, 0, 0] <:+: body
  no_code : ¬ [0, 0, 1] <:+: body
  closed : body.getLast? ≠ some 0

def WireNal.bytes (nal : WireNal) : Bytes := nal.code ++ nal.body

def WireNal.type (nal : WireNal) : Nat := (nal.body.getD 0 0).toNat &&& 0x1F

/-- One picture: an optional delimiter, SEI and parameter sets, and its slices. -/
structure AccessUnit where
  delimiter : Option WireNal
  headers : List WireNal
  first : WireNal
  others : List WireNal
  delimiter_type : ∀ nal ∈ delimiter, nal.type = 9
  header_types : ∀ nal ∈ headers, nal.type = 6 ∨ nal.type = 7 ∨ nal.type = 8
  slice_types : ∀ nal ∈ first :: others, nal.type = 1 ∨ nal.type = 5
  first_mb : firstMbInSlice first.bytes = some 0
  others_mb : ∀ nal ∈ others, ∃ mb, mb ≠ 0 ∧ firstMbInSlice nal.bytes = some mb

def AccessUnit.slices (unit : AccessUnit) : List WireNal := unit.first :: unit.others

def AccessUnit.nals (unit : AccessUnit) : List WireNal :=
  unit.delimiter.toList ++ unit.headers ++ unit.slices

def wire (nals : List WireNal) : List Bytes := nals.map WireNal.bytes

def AccessUnit.bytes (unit : AccessUnit) : Bytes := (wire unit.nals).flatten

def streamOf (units : List AccessUnit) : Bytes := (units.map AccessUnit.bytes).flatten

theorem code_head (nal : WireNal) (rest : Bytes) :
    headCode (nal.code ++ (nal.body ++ rest)) = nal.code.length := by
  rcases nal.start with code | code
  · rw [code]; rfl
  · rw [code]; rfl

theorem bytes_head (nal : WireNal) : headCode nal.bytes = nal.code.length := by
  have := code_head nal []
  rwa [List.append_nil] at this

theorem bytes_marked (nal : WireNal) : headCode nal.bytes ≠ 0 := by
  rw [bytes_head]
  rcases nal.start with code | code <;> simp [code]

theorem bytes_payload (nal : WireNal) : nal.bytes.drop (headCode nal.bytes) = nal.body := by
  rw [bytes_head, WireNal.bytes, List.drop_left]

theorem bytes_type (nal : WireNal) : nalType nal.bytes = nal.type := by
  rw [nalType, headerByte_eq, bytes_payload, WireNal.type]

theorem bytes_bodied (nal : WireNal) : codeOnly nal.bytes = false := by
  rw [Bool.eq_false_iff, ne_eq, codeOnly_iff (bytes_marked nal), bytes_payload]
  intro empty
  have := nal.long
  simp [empty] at this

theorem bytes_nonempty (nal : WireNal) : nal.bytes ≠ [] := by
  intro empty
  exact bytes_marked nal (by rw [empty]; rfl)

theorem body_plain (nal : WireNal) {a b : Bytes} (parts : nal.body = a ++ b) (some_ : b ≠ [])
    (rest : Bytes) : headCode (b ++ rest) = 0 := by
  refine (headCode_cases (b ++ rest)).resolve_right fun shape => ?_
  have last : b.getLast? ≠ some 0 := by
    have closed := nal.closed
    rwa [parts, List.getLast?_append_of_ne_nil _ some_] at closed
  have zeros : ¬ [0, 0, 0] <:+: b := fun inside =>
    nal.no_zeros (parts ▸ inside.trans (List.suffix_append a b).isInfix)
  have code : ¬ [0, 0, 1] <:+: b := fun inside =>
    nal.no_code (parts ▸ inside.trans (List.suffix_append a b).isInfix)
  generalize headCode (b ++ rest) = n at shape
  match b with
  | [] => exact some_ rfl
  | [x] => cases shape <;> simp at last
  | [x, y] => cases shape <;> simp at last
  | x :: y :: z :: b =>
    simp only [List.cons_append] at shape
    generalize b ++ rest = tail at shape
    cases shape
    · exact code (List.prefix_append [0, 0, 1] b).isInfix
    · exact zeros (List.prefix_append [0, 0, 0] b).isInfix

theorem wire_blocks (nals : List WireNal) : startCode.Blocks (wire nals) := by
  induction nals with
  | nil => trivial
  | cons nal nals ih =>
    have head : headCode (nal.bytes ++ (wire nals).flatten) = nal.code.length := by
      rw [WireNal.bytes, List.append_assoc]
      exact code_head nal _
    refine ⟨?_, ?_, fun a b parts long some_ => ?_, ih⟩
    · change headCode (nal.bytes ++ (wire nals).flatten) ≠ 0
      rw [head]
      rcases nal.start with code | code <;> simp [code]
    · change headCode (nal.bytes ++ (wire nals).flatten) ≤ nal.bytes.length
      rw [head, WireNal.bytes, List.length_append]
      omega
    · change headCode (b ++ (wire nals).flatten) = 0
      change headCode (nal.bytes ++ (wire nals).flatten) ≤ a.length at long
      rw [head] at long
      refine body_plain nal (a := a.drop nal.code.length) ?_ some_ _
      have := congrArg (List.drop nal.code.length) parts
      rwa [WireNal.bytes, List.drop_left, List.drop_append_of_le_length long] at this

theorem nalsOf_wire {nals : List WireNal} (some_ : nals ≠ []) :
    nalsOf (wire nals).flatten = wire nals := by
  have blocks := wire_blocks nals
  have nonempty : wire nals ≠ [] := by simpa [wire] using some_
  have marked : headCode (wire nals).flatten ≠ 0 := by
    cases nals with
    | nil => contradiction
    | cons nal nals => exact blocks.1
  rw [nalsOf_of_code marked, tokens_of_blocks startCode blocks nonempty]

theorem streamOf_wire (units : List AccessUnit) :
    streamOf units = (wire (units.flatMap AccessUnit.nals)).flatten := by
  induction units with
  | nil => rfl
  | cons unit units ih =>
    simp only [streamOf, List.map_cons, List.flatten_cons] at ih ⊢
    simp only [ih, List.flatMap_cons, wire, List.map_append, List.flatten_append,
      AccessUnit.bytes]

theorem process_joining {nals : List WireNal} (joins : ∀ nal ∈ nals, startsNewAu nal.bytes = false)
    (enc : H264Encoder) :
    (wire nals).foldl H264Encoder.processNal enc =
      { enc with
        currentNals := enc.currentNals ++ wire nals
        currentHasVcl := enc.currentHasVcl || (wire nals).any isVcl } := by
  induction nals generalizing enc with
  | nil => simp [wire]
  | cons nal nals ih =>
    have here := joins nal (by simp)
    have step : enc.processNal nal.bytes =
        { enc with
          currentNals := enc.currentNals ++ [nal.bytes]
          currentHasVcl := enc.currentHasVcl || isVcl nal.bytes } := by
      simp [H264Encoder.processNal, bytes_bodied, here]
    rw [wire, List.map_cons, List.foldl_cons, step, ← wire,
      ih fun n mem => joins n (List.mem_cons_of_mem nal mem)]
    simp [wire, Bool.or_assoc]

theorem header_joins (unit : AccessUnit) :
    ∀ nal ∈ unit.headers, startsNewAu nal.bytes = false ∧ isVcl nal.bytes = false := by
  intro nal mem
  have type := unit.header_types nal mem
  have plain : isVcl nal.bytes = false := by
    simp only [isVcl, bytes_type, Bool.and_eq_false_iff, decide_eq_false_iff_not]
    omega
  refine ⟨?_, plain⟩
  simp only [startsNewAu, plain, Bool.false_and, Bool.or_false, bytes_type, beq_eq_false_iff_ne]
  omega

theorem slice_vcl (unit : AccessUnit) : ∀ nal ∈ unit.slices, isVcl nal.bytes = true := by
  intro nal mem
  have type := unit.slice_types nal mem
  simp only [isVcl, bytes_type, Bool.and_eq_true, decide_eq_true_iff]
  omega

theorem other_joins (unit : AccessUnit) :
    ∀ nal ∈ unit.others, startsNewAu nal.bytes = false := by
  intro nal mem
  have type := unit.slice_types nal (List.mem_cons_of_mem _ mem)
  obtain ⟨mb, nonzero, decoded⟩ := unit.others_mb nal mem
  rw [startsNewAu, decoded, bytes_type]
  have : (nal.type == 9) = false := by rw [beq_eq_false_iff_ne]; omega
  simp [this, nonzero]

theorem first_starts (unit : AccessUnit) : startsNewAu unit.first.bytes = true := by
  rw [startsNewAu, slice_vcl unit unit.first (by simp [AccessUnit.slices]), unit.first_mb]
  simp

theorem delimiter_starts (unit : AccessUnit) :
    ∀ nal ∈ unit.delimiter, startsNewAu nal.bytes = true ∧ isVcl nal.bytes = false := by
  intro nal mem
  have type := unit.delimiter_type nal mem
  simp [startsNewAu, isVcl, bytes_type, type]

def AccessUnit.carried (unit : AccessUnit) : List WireNal :=
  if unit.delimiter.isSome then [] else unit.headers

def AccessUnit.kept (unit : AccessUnit) : List WireNal :=
  if unit.delimiter.isSome then unit.nals else unit.slices

/-- The units as the thread cuts them, from the open NALs `current`. -/
def recut (current : List WireNal) : List AccessUnit → List (List WireNal)
  | [] => [current]
  | unit :: units => (current ++ unit.carried) :: recut unit.kept units

def queueItems (index : Nat) (cuts : List (List WireNal)) : List (Nat × Bytes) :=
  cuts.mapIdx fun i nals => (index + i, (wire nals).flatten)

theorem queueItems_cons (index : Nat) (nals : List WireNal) (cuts : List (List WireNal)) :
    queueItems index (nals :: cuts) =
      (index, (wire nals).flatten) :: queueItems (index + 1) cuts := by
  simp [queueItems, List.mapIdx_cons, Nat.add_assoc, Nat.add_comm 1]

theorem process_start {enc : H264Encoder} {nal : WireNal} (starts : startsNewAu nal.bytes = true)
    (sliced : enc.currentHasVcl = true) (open_ : enc.currentNals ≠ []) :
    enc.processNal nal.bytes =
      { currentNals := wire [nal]
        currentHasVcl := isVcl nal.bytes
        frameIndex := enc.frameIndex + 1
        queue := enc.queue ++ [(enc.frameIndex, enc.currentNals.flatten)] } := by
  simp [H264Encoder.processNal, H264Encoder.emitCurrent, bytes_bodied, starts, sliced, open_, wire]

theorem wire_append (as bs : List WireNal) : wire (as ++ bs) = wire as ++ wire bs :=
  List.map_append ..

theorem process_slices {enc : H264Encoder} (unit : AccessUnit)
    (sliced : enc.currentHasVcl = true) (open_ : enc.currentNals ≠ []) :
    (wire unit.slices).foldl H264Encoder.processNal enc =
      { currentNals := wire unit.slices
        currentHasVcl := true
        frameIndex := enc.frameIndex + 1
        queue := enc.queue ++ [(enc.frameIndex, enc.currentNals.flatten)] } := by
  have vcl := slice_vcl unit unit.first (by simp [AccessUnit.slices])
  have split : wire unit.slices = unit.first.bytes :: wire unit.others := rfl
  rw [split, List.foldl_cons, process_start (first_starts unit) sliced open_,
    process_joining (other_joins unit)]
  simp [vcl, wire]

theorem process_opening {enc : H264Encoder} (unit : AccessUnit)
    (none_ : enc.currentHasVcl = false) :
    (wire (unit.headers ++ unit.slices)).foldl H264Encoder.processNal enc =
      { enc with
        currentNals := enc.currentNals ++ wire (unit.headers ++ unit.slices)
        currentHasVcl := true } := by
  have vcl := slice_vcl unit unit.first (by simp [AccessUnit.slices])
  have split : wire unit.slices = unit.first.bytes :: wire unit.others := rfl
  have first : ∀ e : H264Encoder, e.currentHasVcl = false → e.processNal unit.first.bytes =
      { e with currentNals := e.currentNals ++ wire [unit.first], currentHasVcl := true } := by
    intro e sliceless
    simp [H264Encoder.processNal, bytes_bodied, sliceless, vcl, wire]
  have headersPlain : (wire unit.headers).any isVcl = false := by
    rw [List.any_eq_false]
    intro n mem
    obtain ⟨header, inside, rfl⟩ := List.mem_map.mp mem
    simp [(header_joins unit header inside).2]
  rw [wire_append, List.foldl_append,
    process_joining fun nal mem => (header_joins unit nal mem).1, split, List.foldl_cons,
    first _ (by simp [none_, headersPlain]), process_joining (other_joins unit)]
  simp [wire]

theorem nals_eq (unit : AccessUnit) :
    unit.nals = unit.delimiter.toList ++ (unit.headers ++ unit.slices) := by
  rw [AccessUnit.nals, List.append_assoc]

theorem process_first (unit : AccessUnit) :
    (wire unit.nals).foldl H264Encoder.processNal H264Encoder.init =
      { H264Encoder.init with currentNals := wire unit.nals, currentHasVcl := true } := by
  rw [nals_eq, wire_append, List.foldl_append]
  cases delimiter : unit.delimiter with
  | none => exact process_opening unit rfl
  | some nal =>
    have plain := (delimiter_starts unit nal delimiter).2
    have step : (wire (some nal).toList).foldl H264Encoder.processNal H264Encoder.init =
        { H264Encoder.init with currentNals := wire [nal] } := by
      simp [wire, H264Encoder.processNal, bytes_bodied, H264Encoder.init, plain]
    rw [step, process_opening unit rfl, wire_append]
    rfl

theorem process_unit {enc : H264Encoder} {current : List WireNal} (unit : AccessUnit)
    (sliced : enc.currentHasVcl = true) (open_ : enc.currentNals = wire current)
    (some_ : current ≠ []) :
    (wire unit.nals).foldl H264Encoder.processNal enc =
      { currentNals := wire unit.kept
        currentHasVcl := true
        frameIndex := enc.frameIndex + 1
        queue := enc.queue ++ [(enc.frameIndex, (wire (current ++ unit.carried)).flatten)] } := by
  have nonempty : enc.currentNals ≠ [] := by rw [open_]; simpa [wire] using some_
  rw [nals_eq]
  cases delimiter : unit.delimiter with
  | none =>
    rw [Option.toList_none, List.nil_append, wire_append, List.foldl_append,
      process_joining fun nal mem => (header_joins unit nal mem).1,
      process_slices unit (by simp [sliced]) (by simp [nonempty])]
    simp [AccessUnit.kept, AccessUnit.carried, delimiter, wire_append, open_]
  | some nal =>
    obtain ⟨starts, plain⟩ := delimiter_starts unit nal delimiter
    have split : wire (Option.toList (some nal) ++ (unit.headers ++ unit.slices)) =
        nal.bytes :: wire (unit.headers ++ unit.slices) := rfl
    rw [split, List.foldl_cons, process_start starts sliced nonempty, process_opening unit plain]
    simp [AccessUnit.kept, AccessUnit.carried, delimiter, open_, nals_eq, wire]

theorem kept_nonempty (unit : AccessUnit) : unit.kept ≠ [] := by
  unfold AccessUnit.kept
  split <;> simp [AccessUnit.nals, AccessUnit.slices]

theorem group_recut (units : List AccessUnit) {enc : H264Encoder} {current : List WireNal}
    (sliced : enc.currentHasVcl = true) (open_ : enc.currentNals = wire current)
    (some_ : current ≠ []) :
    (groupNals enc (wire (units.flatMap AccessUnit.nals))).queue =
      enc.queue ++ queueItems enc.frameIndex (recut current units) := by
  induction units generalizing enc current with
  | nil =>
    have nonempty : enc.currentNals ≠ [] := by rw [open_]; simpa [wire] using some_
    rw [groupNals, List.flatMap_nil, H264Encoder.emitCurrent]
    simp only [wire, List.map_nil, List.foldl_nil]
    rw [if_pos ⟨nonempty, sliced⟩, open_]
    simp [recut, queueItems]
  | cons unit units ih =>
    rw [List.flatMap_cons, wire_append, groupNals_append, process_unit unit sliced open_ some_,
      ih rfl rfl (kept_nonempty unit), recut, queueItems_cons, List.append_assoc]
    rfl

theorem carried_nil_iff (unit : AccessUnit) :
    unit.carried = [] ↔ unit.delimiter.isSome = true ∨ unit.headers = [] := by
  unfold AccessUnit.carried
  split
  · rename_i some_; simp [some_]
  · rename_i none_; simp [none_]

theorem kept_of_carried_nil {unit : AccessUnit} (none_ : unit.carried = []) :
    unit.kept = unit.nals := by
  unfold AccessUnit.carried at none_
  unfold AccessUnit.kept
  cases delimiter : unit.delimiter with
  | some nal => simp
  | none => simp_all [AccessUnit.nals]

theorem wire_flatten_nil {nals : List WireNal} (none_ : (wire nals).flatten = []) : nals = [] := by
  cases nals with
  | nil => rfl
  | cons nal nals =>
    rw [wire, List.map_cons, List.flatten_cons, List.append_eq_nil_iff] at none_
    exact absurd none_.1 (bytes_nonempty nal)

/-- The cut gives back the units exactly when no unit behind the first is carried. -/
theorem recut_eq_iff (units : List AccessUnit) (current : List WireNal) (index : Nat) :
    queueItems index (recut current units) =
        queueItems index (current :: units.map AccessUnit.nals) ↔
      ∀ unit ∈ units, unit.carried = [] := by
  induction units generalizing current index with
  | nil => simp [recut]
  | cons unit units ih =>
    rw [recut, queueItems_cons, queueItems_cons, List.map_cons, List.cons_eq_cons,
      List.forall_mem_cons]
    have head : (index, (wire (current ++ unit.carried)).flatten) =
        (index, (wire current).flatten) ↔ unit.carried = [] := by
      rw [wire_append, List.flatten_append]
      refine ⟨fun same => wire_flatten_nil ?_, fun none_ => by simp [none_, wire]⟩
      simpa using same
    rw [head]
    refine and_congr_right fun none_ => ?_
    rw [kept_of_carried_nil none_, ih]

/-- However the stream is read from its first start code on, the queue receives the units
    it was written from exactly when every later unit that has parameter sets or SEI also
    has a delimiter in front of them. -/
theorem units_recovered_iff (first : AccessUnit) (units : List AccessUnit) {chunks : List Bytes}
    (cuts : Cuts (streamOf (first :: units)) chunks) (aligned : StartsAligned chunks) :
    (readerLoop chunks).queue = (first :: units).mapIdx (fun i unit => (i, unit.bytes)) ↔
      ∀ unit ∈ units, unit.delimiter.isSome = true ∨ unit.headers = [] := by
  have some_ : (first :: units).flatMap AccessUnit.nals ≠ [] := by
    simp [AccessUnit.nals, AccessUnit.slices]
  have open_ : first.nals ≠ [] := by simp [AccessUnit.nals, AccessUnit.slices]
  have items : (first :: units).mapIdx (fun i unit => (i, unit.bytes)) =
      queueItems 0 (first.nals :: units.map AccessUnit.nals) := by
    rw [← List.map_cons]
    apply List.ext_getElem
    · simp [queueItems]
    · intro i _ _
      simp only [queueItems, List.getElem_mapIdx, List.getElem_map, AccessUnit.bytes, Nat.zero_add]
  rw [readerLoop_aligned cuts aligned, streamOf_wire, nalsOf_wire some_, List.flatMap_cons,
    wire_append, groupNals_append, process_first, group_recut units rfl rfl open_, items]
  simp only [← carried_nil_iff]
  exact recut_eq_iff units first.nals 0

def idrSlice : WireNal :=
  ⟨[0, 0, 1], [0x65, 0x88], by decide, by decide, by decide, by decide, by decide⟩

def parameterSet : WireNal :=
  ⟨[0, 0, 0, 1], [0x67, 0x42], by decide, by decide, by decide, by decide, by decide⟩

def delimiterNal : WireNal :=
  ⟨[0, 0, 0, 1], [0x09, 0x10], by decide, by decide, by decide, by decide, by decide⟩

def repeatedHeaders : AccessUnit :=
  ⟨none, [parameterSet], idrSlice, [], by decide, by decide, by decide, by decide, by simp⟩

def delimited : AccessUnit :=
  ⟨some delimiterNal, [parameterSet], idrSlice, [], by decide, by decide, by decide, by decide,
    by simp⟩

def laterSlice : WireNal :=
  ⟨[0, 0, 1], [0x41, 0x50], by decide, by decide, by decide, by decide, by decide⟩

def twoSlices : AccessUnit :=
  ⟨none, [], idrSlice, [laterSlice], by decide, by decide, by decide, by decide,
    by
      intro nal mem
      rw [List.mem_singleton.mp mem]
      exact ⟨1, by decide, by decide⟩⟩

/-- The second parameter set ends the first picture's unit. -/
theorem repeated_headers_misplaced :
    ∃ first units chunks, Cuts (streamOf (first :: units)) chunks ∧ StartsAligned chunks ∧
      (readerLoop chunks).queue ≠ (first :: units).mapIdx (fun i unit => (i, unit.bytes)) :=
  ⟨repeatedHeaders, [repeatedHeaders], [streamOf [repeatedHeaders, repeatedHeaders]],
    ⟨by decide, by decide⟩, ⟨_, _, rfl, by decide⟩, by decide⟩

theorem delimited_pictures_recovered :
    (readerLoop [streamOf [repeatedHeaders, delimited]]).queue =
      [repeatedHeaders, delimited].mapIdx fun i unit => (i, unit.bytes) :=
  (units_recovered_iff repeatedHeaders [delimited] ⟨by decide, by decide⟩
    ⟨_, _, rfl, by decide⟩).mpr (by decide)

end AnnexBAccessUnits
