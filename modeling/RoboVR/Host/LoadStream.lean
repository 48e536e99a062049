import RoboVR.AnnexB.AccessUnits
import RoboVR.Host.SliceReader
import RoboVR.Host.VideoThread

/- `loadH264TestStream`: a whole Annex-B file cut into access units, next to the Python encoder,
   which cuts the same bytes as they come in. -/
namespace HostLoadStream
open Delimited AnnexBStartCode AnnexBSliceHeader AnnexBReaderLoop AnnexBAccessUnits
open HostSliceReader (byteAt readFirstMbInSlice)
open HostVideoThread (H264TestStream)

/-- The units pushed so far, each with its keyframe flag, and the one being built. -/
structure Loader where
  accessUnits : List (Bytes × Bool) := []
  current : Bytes := []
  currentHasVcl : Bool := false
  currentIsKeyframe : Bool := false
  deriving DecidableEq

def Loader.push (l : Loader) : Loader :=
  { accessUnits := l.accessUnits ++ [(l.current, l.currentIsKeyframe)] }

def typeAt (nal : Bytes) (headerOffset : Nat) : Nat := (byteAt nal headerOffset).toNat &&& 0x1F

def Loader.addNal (l : Loader) (nal : Bytes) (headerOffset : Nat) : Loader :=
  if headerOffset < nal.length then
    let nalType := typeAt nal headerOffset
    let l :=
      if nalType = 1 ∨ nalType = 5 then
        let firstMbInSlice := readFirstMbInSlice (nal.drop headerOffset)
        let l := if l.currentHasVcl ∧ firstMbInSlice.getD 0 = 0 then l.push else l
        { l with
          currentHasVcl := true
          currentIsKeyframe := l.currentIsKeyframe || nalType == 5 }
      else if nalType = 9 ∧ l.current ≠ [] then l.push
      else l
    { l with current := l.current ++ nal }
  else l

def loadFrom (bytes : Bytes) : Nat → Loader → Nat → Loader
  | 0, l, _ => l
  | fuel + 1, l, nalStart =>
    let codeSize := HostSliceReader.startCodeSize bytes nalStart
    let nextNal := HostSliceReader.findStartCode bytes (nalStart + codeSize)
    let nalEnd := nextNal.getD bytes.length
    let l := l.addNal ((bytes.take nalEnd).drop nalStart) codeSize
    match nextNal with
    | none => l
    | some next => loadFrom bytes fuel l next

def groupFile (bytes : Bytes) : Loader :=
  match HostSliceReader.findStartCode bytes 0 with
  | none => {}
  | some first => loadFrom bytes (bytes.length + 1) {} first

def Loader.finish (l : Loader) : Loader := if l.current ≠ [] then l.push else l

/-- The units of a file; a file without any is one unit as it stands. -/
def loadedUnits (bytes : Bytes) : List (Bytes × Bool) :=
  let units := (groupFile bytes).finish.accessUnits
  if units = [] then [(bytes, true)] else units

theorem loadedUnits_some (bytes : Bytes) : loadedUnits bytes ≠ [] := by
  unfold loadedUnits
  simp only
  split
  · simp
  · next some_ => exact some_

/-- `none` for a file that cannot be opened or has no bytes. -/
def loadH264TestStream (file : Option Bytes) (width height : UInt32) : Option H264TestStream :=
  match file with
  | none => none
  | some bytes =>
    if bytes = [] then none
    else
      some
        { accessUnits := (loadedUnits bytes).map Prod.fst
          keyframes := (loadedUnits bytes).map Prod.snd
          width := width
          height := height
          nonempty := by
            rw [List.length_map]
            exact List.length_pos_of_ne_nil (loadedUnits_some bytes)
          flagged := by rw [List.length_map, List.length_map] }

/- The loop takes the NALs of the file one by one. -/

def Loader.addWhole (l : Loader) (nal : Bytes) : Loader := l.addNal nal (headCode nal)

def isSlice (nal : Bytes) : Bool := nalType nal == 1 || nalType nal == 5

def Loader.Cuts (l : Loader) (nal : Bytes) : Prop :=
  (isSlice nal = true ∧ l.currentHasVcl = true ∧
    (readFirstMbInSlice (nal.drop (headCode nal))).getD 0 = 0) ∨
  (nalType nal = 9 ∧ l.current ≠ [])

instance (l : Loader) (nal : Bytes) : Decidable (l.Cuts nal) :=
  inferInstanceAs (Decidable (_ ∨ _))

def Loader.append (l : Loader) (nal : Bytes) : Loader :=
  { l with
    current := l.current ++ nal
    currentHasVcl := l.currentHasVcl || isSlice nal
    currentIsKeyframe := l.currentIsKeyframe || nalType nal == 5 }

theorem typeAt_head (nal : Bytes) : typeAt nal (headCode nal) = nalType nal := by
  simp [typeAt, byteAt, nalType, headerByte]

theorem addWhole_headed (l : Loader) {nal : Bytes} (header : headCode nal < nal.length) :
    l.addWhole nal = (if l.Cuts nal then l.push else l).append nal := by
  rw [Loader.addWhole, Loader.addNal, if_pos header]
  simp only [typeAt_head]
  by_cases slice : nalType nal = 1 ∨ nalType nal = 5
  · have vcl : isSlice nal = true := by simpa [isSlice] using slice
    have other : nalType nal ≠ 9 := by omega
    simp only [if_pos slice, Loader.Cuts, vcl, other, false_and, or_false, true_and]
    simp [Loader.append, vcl]
  · have plain : isSlice nal = false := by simpa [isSlice] using slice
    have idr : (nalType nal == 5) = false := by
      rw [beq_eq_false_iff_ne]
      omega
    simp only [if_neg slice, Loader.Cuts, plain, Bool.false_eq_true, false_and, false_or]
    simp [Loader.append, plain, idr]

theorem cut_head {xs token rest : Bytes} (marked : headCode xs ≠ 0)
    (found : startCode.cut xs = some (token, rest)) : headCode token = headCode xs := by
  obtain ⟨split, _, _⟩ := cut_some startCode found
  unfold Delimiter.cut at found
  rw [Option.map_eq_some_iff] at found
  obtain ⟨⟨pre, tail⟩, _, same⟩ := found
  have bound := headCode_length xs
  have long : headCode xs ≤ token.length := by
    rw [← (Prod.mk.inj same).1, List.length_append, List.length_take, startCode_mark]
    omega
  rw [split] at marked long ⊢
  exact headCode_whole long marked

theorem loadFrom_tokens (bytes : Bytes) {fuel : Nat} (l : Loader) {nalStart : Nat}
    (marked : headCode (bytes.drop nalStart) ≠ 0) (enough : (bytes.drop nalStart).length < fuel) :
    loadFrom bytes fuel l nalStart =
      (startCode.tokens (bytes.drop nalStart)).foldl Loader.addWhole l := by
  induction fuel generalizing l nalStart with
  | zero => omega
  | succ fuel ih =>
    have size : HostSliceReader.startCodeSize bytes nalStart = headCode (bytes.drop nalStart) := by
      rw [HostSliceReader.startCodeSize_same, startCodeSize_eq]
    have next : HostSliceReader.findStartCode bytes (nalStart + headCode (bytes.drop nalStart)) =
        (startCode.cut (bytes.drop nalStart)).map fun c => nalStart + c.1.length := by
      rw [HostSliceReader.findStartCode_same, findStartCode_eq, ← List.drop_drop, Delimiter.cut,
        Option.map_map, startCode_mark]
      congr 1
      funext c
      have bound := headCode_length (bytes.drop nalStart)
      simp only [Function.comp_apply, List.length_append, List.length_take]
      omega
    rw [loadFrom]
    simp only [size, next]
    cases found : startCode.cut (bytes.drop nalStart) with
    | none =>
      rw [tokens_of_cut_none startCode found]
      simp [Loader.addWhole]
    | some c =>
      obtain ⟨nal, rest⟩ := c
      obtain ⟨split, here, smaller⟩ := cut_some startCode found
      have head := cut_head marked found
      have tail : bytes.drop (nalStart + nal.length) = rest := by
        rw [← List.drop_drop, split, List.drop_left]
      have cut : (bytes.take (nalStart + nal.length)).drop nalStart = nal := by
        rw [List.drop_take, Nat.add_sub_cancel_left, split, List.take_left]
      simp only [Option.map_some, Option.getD_some, cut]
      rw [ih _ (by rw [tail]; exact here) (by rw [tail]; omega), tail,
        tokens_of_cut_some startCode found, List.foldl_cons, Loader.addWhole, head]

theorem groupFile_eq (bytes : Bytes) : groupFile bytes = (nalsOf bytes).foldl Loader.addWhole {} := by
  rw [groupFile, HostSliceReader.findStartCode_same, findStartCode_zero, nalsOf]
  cases search : startCode.seek bytes with
  | none => rfl
  | some c =>
    obtain ⟨pre, rest⟩ := c
    obtain ⟨split, here, _⟩ := seek_some startCode search
    have tail : bytes.drop pre.length = rest := by rw [split, List.drop_left]
    have short : rest.length < bytes.length + 1 := by
      rw [split, List.length_append]
      omega
    simp only [Option.map_some]
    rw [loadFrom_tokens bytes {} (by rw [tail]; exact here) (by rw [tail]; exact short), tail]

/- On well-formed streams both splitters cut at the same NALs. -/

/-- The slices behind the first begin at macroblocks that 32 bits tell apart. -/
def ShortMb (unit : AccessUnit) : Prop :=
  ∀ nal ∈ unit.others, ∀ mb, firstMbInSlice nal.bytes = some mb → mb < 2 ^ 32 - 1

/-- The loader and the encoder have pushed the same units and hold the same bytes. -/
structure Alike (enc : H264Encoder) (l : Loader) : Prop where
  units : l.accessUnits.map Prod.fst = enc.queue.map Prod.snd
  current : l.current = enc.currentNals.flatten
  hasVcl : l.currentHasVcl = enc.currentHasVcl
  nonempty : ∀ nal ∈ enc.currentNals, nal ≠ []
  open_ : enc.currentHasVcl = true → enc.currentNals ≠ []

theorem alike_start : Alike H264Encoder.init {} where
  units := rfl
  current := rfl
  hasVcl := rfl
  nonempty := by simp [H264Encoder.init]
  open_ := by simp [H264Encoder.init]

theorem alike_empty {enc : H264Encoder} {l : Loader} (alike : Alike enc l) :
    l.current = [] ↔ enc.currentNals = [] := by
  rw [alike.current]
  constructor
  · intro flat
    cases nals : enc.currentNals with
    | nil => rfl
    | cons nal rest =>
      rw [nals, List.flatten_cons, List.append_eq_nil_iff] at flat
      exact absurd flat.1 (alike.nonempty nal (by simp [nals]))
  · intro none_
    rw [none_, List.flatten_nil]

theorem alike_push {enc : H264Encoder} {l : Loader} (alike : Alike enc l)
    (sliced : enc.currentHasVcl = true) : Alike enc.emitCurrent l.push := by
  have some_ := alike.open_ sliced
  constructor
  · simp [Loader.push, H264Encoder.emitCurrent, some_, sliced, alike.units, alike.current]
  · simp [Loader.push, H264Encoder.emitCurrent]
  · simp [Loader.push, H264Encoder.emitCurrent]
  · simp [H264Encoder.emitCurrent]
  · simp [H264Encoder.emitCurrent]

theorem alike_append {enc : H264Encoder} {l : Loader} (alike : Alike enc l) (nal : WireNal)
    (vcl : isSlice nal.bytes = isVcl nal.bytes) :
    Alike
      { enc with
        currentNals := enc.currentNals ++ [nal.bytes]
        currentHasVcl := enc.currentHasVcl || isVcl nal.bytes }
      (l.append nal.bytes) where
  units := alike.units
  current := by simp [Loader.append, alike.current]
  hasVcl := by simp [Loader.append, alike.hasVcl, vcl]
  nonempty := by
    intro other mem
    rcases List.mem_append.mp mem with old | new
    · exact alike.nonempty other old
    · rw [List.mem_singleton.mp new]
      exact bytes_nonempty nal
  open_ := by simp

theorem header_inside (nal : WireNal) : headCode nal.bytes < nal.bytes.length := by
  have long := nal.long
  rw [bytes_head, WireNal.bytes, List.length_append]
  omega

theorem ofNat_zero_iff {mb : Nat} (small : mb < 2 ^ 32 - 1) : UInt32.ofNat mb = 0 ↔ mb = 0 := by
  rw [← UInt32.toNat_inj, UInt32.toNat_ofNat', Nat.mod_eq_of_lt (by omega)]
  rfl

theorem slice_read {nal : WireNal} {mb : Nat} (decoded : firstMbInSlice nal.bytes = some mb)
    (small : mb < 2 ^ 32 - 1) :
    (readFirstMbInSlice (nal.bytes.drop (headCode nal.bytes))).getD 0 = 0 ↔ mb = 0 := by
  have read := HostSliceReader.readFirstMbInSlice_of_python decoded small
  rw [nalPayload_of_code (bytes_marked nal)] at read
  rw [read, Option.getD_some]
  exact ofNat_zero_iff small

theorem alike_nal {enc : H264Encoder} {l : Loader} (alike : Alike enc l) {nal : WireNal}
    (cuts : l.Cuts nal.bytes ↔ startsNewAu nal.bytes = true ∧ enc.currentHasVcl = true)
    (vcl : isSlice nal.bytes = isVcl nal.bytes) :
    Alike (enc.processNal nal.bytes) (l.addWhole nal.bytes) := by
  rw [H264Encoder.processNal, if_neg (by simp [bytes_bodied]), addWhole_headed l (header_inside nal)]
  by_cases cut : l.Cuts nal.bytes
  · have both := cuts.mp cut
    rw [if_pos cut, both.1, both.2]
    exact alike_append (alike_push alike both.2) nal vcl
  · have neither : (startsNewAu nal.bytes && enc.currentHasVcl) = false := by
      rw [Bool.eq_false_iff, ne_eq, Bool.and_eq_true, ← cuts]
      exact cut
    rw [if_neg cut, neither]
    exact alike_append alike nal vcl

def Between (enc : H264Encoder) : Prop := enc.currentNals = [] ∨ enc.currentHasVcl = true

theorem alike_delimiter {enc : H264Encoder} {l : Loader} (alike : Alike enc l)
    (between : Between enc) {nal : WireNal} (delimiter : nal.type = 9) :
    Alike (enc.processNal nal.bytes) (l.addWhole nal.bytes) := by
  have type : nalType nal.bytes = 9 := by rw [bytes_type, delimiter]
  have starts : startsNewAu nal.bytes = true := by simp [startsNewAu, type]
  have plain : isSlice nal.bytes = false ∧ isVcl nal.bytes = false := by simp [isSlice, isVcl, type]
  apply alike_nal alike
  · rw [Loader.Cuts, plain.1, starts, type, ne_eq, alike_empty alike]
    simp only [Bool.false_eq_true, false_and, false_or, true_and]
    constructor
    · intro some_
      exact between.resolve_left some_
    · exact alike.open_
  · rw [plain.1, plain.2]

theorem alike_header {enc : H264Encoder} {l : Loader} (alike : Alike enc l) {nal : WireNal}
    (header : nal.type = 6 ∨ nal.type = 7 ∨ nal.type = 8) :
    Alike (enc.processNal nal.bytes) (l.addWhole nal.bytes) := by
  have vcl : isVcl nal.bytes = false := by
    simp only [isVcl, bytes_type, Bool.and_eq_false_iff, decide_eq_false_iff_not]
    omega
  have slice : isSlice nal.bytes = false := by
    simp only [isSlice, bytes_type, Bool.or_eq_false_iff, beq_eq_false_iff_ne]
    omega
  have other : nalType nal.bytes ≠ 9 := by
    rw [bytes_type]
    omega
  apply alike_nal alike
  · simp [Loader.Cuts, startsNewAu, slice, vcl, other]
  · rw [slice, vcl]

theorem alike_slice {enc : H264Encoder} {l : Loader} (alike : Alike enc l) {nal : WireNal}
    (slice : nal.type = 1 ∨ nal.type = 5) {mb : Nat} (small : mb < 2 ^ 32 - 1)
    (decoded : firstMbInSlice nal.bytes = some mb) :
    Alike (enc.processNal nal.bytes) (l.addWhole nal.bytes) := by
  have vcl : isVcl nal.bytes = true := by
    simp only [isVcl, bytes_type, Bool.and_eq_true, decide_eq_true_iff]
    omega
  have taken : isSlice nal.bytes = true := by simpa [isSlice, bytes_type] using slice
  have other : nalType nal.bytes ≠ 9 := by
    rw [bytes_type]
    omega
  apply alike_nal alike
  · simp [Loader.Cuts, startsNewAu, taken, vcl, other, decoded, slice_read decoded small,
      alike.hasVcl, and_comm]
  · rw [taken, vcl]

theorem alike_headers {enc : H264Encoder} {l : Loader} (alike : Alike enc l)
    {headers : List WireNal} (types : ∀ nal ∈ headers, nal.type = 6 ∨ nal.type = 7 ∨ nal.type = 8) :
    Alike ((wire headers).foldl H264Encoder.processNal enc)
      ((wire headers).foldl Loader.addWhole l) := by
  rw [wire, List.foldl_map, List.foldl_map]
  apply List.foldl_rel alike
  intro nal mem enc l alike
  exact alike_header alike (types nal mem)

theorem slice_sets_vcl (unit : AccessUnit) (enc : H264Encoder) :
    ((wire unit.slices).foldl H264Encoder.processNal enc).currentHasVcl = true := by
  have last : ∀ nal ∈ unit.slices, ∀ enc : H264Encoder,
      (enc.processNal nal.bytes).currentHasVcl = true := by
    intro nal mem enc
    simp [H264Encoder.processNal, bytes_bodied, slice_vcl unit nal mem]
  rcases List.eq_nil_or_concat unit.slices with none_ | ⟨before, nal, split⟩
  · simp [AccessUnit.slices] at none_
  · rw [List.concat_eq_append] at split
    rw [split, wire_append, List.foldl_append]
    exact last nal (by simp [split]) _

theorem slices_read {unit : AccessUnit} (short : ShortMb unit) :
    ∀ nal ∈ unit.slices, ∃ mb, mb < 2 ^ 32 - 1 ∧ firstMbInSlice nal.bytes = some mb := by
  intro nal mem
  rcases List.mem_cons.mp mem with first | other
  · exact ⟨0, by omega, by rw [first]; exact unit.first_mb⟩
  · obtain ⟨mb, _, decoded⟩ := unit.others_mb nal other
    exact ⟨mb, short nal other mb decoded, decoded⟩

theorem alike_slices {enc : H264Encoder} {l : Loader} (alike : Alike enc l) {unit : AccessUnit}
    (short : ShortMb unit) :
    Alike ((wire unit.slices).foldl H264Encoder.processNal enc)
      ((wire unit.slices).foldl Loader.addWhole l) := by
  rw [wire, List.foldl_map, List.foldl_map]
  apply List.foldl_rel alike
  intro nal mem enc l alike
  obtain ⟨mb, small, decoded⟩ := slices_read short nal mem
  exact alike_slice alike (unit.slice_types nal mem) small decoded

theorem alike_unit {enc : H264Encoder} {l : Loader} (alike : Alike enc l) (between : Between enc)
    {unit : AccessUnit} (short : ShortMb unit) :
    Alike ((wire unit.nals).foldl H264Encoder.processNal enc)
        ((wire unit.nals).foldl Loader.addWhole l) ∧
      Between ((wire unit.nals).foldl H264Encoder.processNal enc) := by
  have delimited : Alike ((wire unit.delimiter.toList).foldl H264Encoder.processNal enc)
      ((wire unit.delimiter.toList).foldl Loader.addWhole l) := by
    cases delimiter : unit.delimiter with
    | none => exact alike
    | some nal => exact alike_delimiter alike between (unit.delimiter_type nal delimiter)
  rw [nals_eq, wire_append, wire_append]
  simp only [List.foldl_append]
  constructor
  · exact alike_slices (alike_headers delimited unit.header_types) short
  · exact Or.inr (slice_sets_vcl unit _)

theorem alike_units (units : List AccessUnit) (short : ∀ unit ∈ units, ShortMb unit)
    {enc : H264Encoder} {l : Loader} (alike : Alike enc l) (between : Between enc) :
    Alike ((wire (units.flatMap AccessUnit.nals)).foldl H264Encoder.processNal enc)
        ((wire (units.flatMap AccessUnit.nals)).foldl Loader.addWhole l) ∧
      Between ((wire (units.flatMap AccessUnit.nals)).foldl H264Encoder.processNal enc) := by
  induction units generalizing enc l with
  | nil => exact ⟨alike, between⟩
  | cons unit units ih =>
    obtain ⟨step, cut⟩ := alike_unit alike between (short unit (by simp))
    rw [List.flatMap_cons, wire_append, List.foldl_append, List.foldl_append]
    exact ih (fun u mem => short u (List.mem_cons_of_mem unit mem)) step cut

theorem alike_finish {enc : H264Encoder} {l : Loader} (alike : Alike enc l)
    (between : Between enc) :
    l.finish.accessUnits.map Prod.fst = enc.emitCurrent.queue.map Prod.snd := by
  by_cases empty : enc.currentNals = []
  · have held := (alike_empty alike).mpr empty
    simp [Loader.finish, held, H264Encoder.emitCurrent, empty, alike.units]
  · have sliced := between.resolve_left empty
    have held : l.current ≠ [] := by
      intro none_
      exact empty ((alike_empty alike).mp none_)
    rw [Loader.finish, if_pos held]
    exact (alike_push alike sliced).units

theorem nalsOf_streamOf (units : List AccessUnit) :
    nalsOf (streamOf units) = wire (units.flatMap AccessUnit.nals) := by
  rw [streamOf_wire]
  by_cases none_ : units.flatMap AccessUnit.nals = []
  · rw [none_]
    rfl
  · exact nalsOf_wire none_

theorem grouped_alike {units : List AccessUnit} (short : ∀ unit ∈ units, ShortMb unit) :
    (groupFile (streamOf units)).finish.accessUnits.map Prod.fst =
      (readerLoop [streamOf units]).queue.map Prod.snd := by
  obtain ⟨alike, between⟩ := alike_units units short alike_start (Or.inl rfl)
  rw [groupFile_eq, readerLoop_whole, nalsOf_streamOf]
  exact alike_finish alike between

theorem streamOf_empty_iff (units : List AccessUnit) : streamOf units = [] ↔ units = [] := by
  constructor
  · intro empty
    cases units with
    | nil => rfl
    | cons unit units =>
      have marked := bytes_nonempty unit.first
      simp [streamOf, AccessUnit.bytes, wire, AccessUnit.nals, AccessUnit.slices, marked] at empty
  · rintro rfl
    rfl

theorem queue_some {unit : AccessUnit} {units : List AccessUnit} :
    (readerLoop [streamOf (unit :: units)]).queue ≠ [] := by
  rw [readerLoop_whole, nalsOf_streamOf, List.flatMap_cons, wire_append, groupNals_append,
    process_first, group_recut units rfl rfl (by simp [AccessUnit.nals, AccessUnit.slices])]
  cases units <;> simp [recut, queueItems]

/-- On every well-formed stream the file loader builds the units that the encoder queues. -/
theorem splitters_agree (units : List AccessUnit) (short : ∀ unit ∈ units, ShortMb unit)
    (width height : UInt32) :
    (loadH264TestStream (some (streamOf units)) width height).elim [] H264TestStream.accessUnits =
        (readerLoop [streamOf units]).queue.map Prod.snd ∧
      ((loadH264TestStream (some (streamOf units)) width height).isSome ↔ units ≠ []) := by
  cases units with
  | nil => exact ⟨rfl, by simp [loadH264TestStream, streamOf]⟩
  | cons unit units =>
    have grouped := grouped_alike short
    have some_ : streamOf (unit :: units) ≠ [] := by simp [streamOf_empty_iff]
    have pushed : (groupFile (streamOf (unit :: units))).finish.accessUnits ≠ [] := by
      intro none_
      rw [none_] at grouped
      exact queue_some (List.map_eq_nil_iff.mp grouped.symm)
    simp only [loadH264TestStream, some_, if_false, loadedUnits, pushed, Option.elim_some, grouped]
    simp

theorem splitters_agree_on_pictures :
    (loadH264TestStream (some (streamOf [repeatedHeaders, delimited, twoSlices])) 1280 720).elim []
        H264TestStream.accessUnits =
      (readerLoop [streamOf [repeatedHeaders, delimited, twoSlices]]).queue.map Prod.snd := by
  have read : firstMbInSlice laterSlice.bytes = some 1 := by decide
  have short : ∀ unit ∈ [repeatedHeaders, delimited, twoSlices], ShortMb unit := by
    simp [ShortMb, repeatedHeaders, delimited, twoSlices, read]
  exact (splitters_agree [repeatedHeaders, delimited, twoSlices] short 1280 720).1

end HostLoadStream
