import RoboVR.AnnexB.ReaderLoop

/- How the encoder thread groups NALs into access units, for any list of NALs. -/
namespace AnnexBGrouping
open Delimited AnnexBStartCode AnnexBSliceHeader AnnexBReaderLoop

/-- No NAL that starts a new picture stands behind a slice. -/
def Uncut (nals : List Bytes) : Prop :=
  nals.Pairwise fun a b => isVcl a = true → startsNewAu b = false

structure PictureUnit where
  nals : List Bytes
  sliced : nals.any isVcl = true
  uncut : Uncut nals

def PictureUnit.bytes (unit : PictureUnit) : Bytes := unit.nals.flatten

def numbered (units : List PictureUnit) : List (Nat × Bytes) :=
  units.mapIdx fun i unit => (i, unit.bytes)

def bodied (nals : List Bytes) : List Bytes := nals.filter fun nal => !codeOnly nal

theorem bodied_append (as bs : List Bytes) : bodied (as ++ bs) = bodied as ++ bodied bs :=
  List.filter_append ..

theorem bodied_cons_empty {nal : Bytes} (nals : List Bytes) (empty : codeOnly nal = true) :
    bodied (nal :: nals) = bodied nals := by
  simp [bodied, empty]

theorem bodied_cons_body {nal : Bytes} (nals : List Bytes) (body : codeOnly nal = false) :
    bodied (nal :: nals) = nal :: bodied nals := by
  simp [bodied, body]

theorem bodied_subset {nals : List Bytes} {nal : Bytes} (mem : nal ∈ bodied nals) : nal ∈ nals :=
  List.mem_of_mem_filter mem

structure Grouped (seen : List Bytes) (enc : H264Encoder) (units : List PictureUnit) : Prop where
  queued : enc.queue = numbered units
  index : enc.frameIndex = units.length
  kept : seen = units.flatMap PictureUnit.nals ++ enc.currentNals
  flag : enc.currentHasVcl = enc.currentNals.any isVcl
  uncut : Uncut enc.currentNals

theorem numbered_concat (units : List PictureUnit) (unit : PictureUnit) :
    numbered (units ++ [unit]) = numbered units ++ [(units.length, unit.bytes)] := by
  simp [numbered, List.mapIdx_append]

theorem numbered_fst (units : List PictureUnit) :
    (numbered units).map Prod.fst = List.range units.length := by
  apply List.ext_getElem
  · simp [numbered]
  · intro i _ _; simp [numbered]

theorem numbered_snd (units : List PictureUnit) :
    (numbered units).map Prod.snd = units.map PictureUnit.bytes := by
  apply List.ext_getElem
  · simp [numbered]
  · intro i _ _; simp [numbered]

theorem emitCurrent_cleared (enc : H264Encoder) :
    enc.emitCurrent.currentNals = [] ∧ enc.emitCurrent.currentHasVcl = false := ⟨rfl, rfl⟩

theorem emitCurrent_open {enc : H264Encoder} (sliced : enc.currentNals.any isVcl = true)
    (flag : enc.currentHasVcl = enc.currentNals.any isVcl) :
    enc.emitCurrent.queue = enc.queue ++ [(enc.frameIndex, enc.currentNals.flatten)] ∧
      enc.emitCurrent.frameIndex = enc.frameIndex + 1 := by
  have nonempty : enc.currentNals ≠ [] := by rintro eq; simp [eq] at sliced
  simp [H264Encoder.emitCurrent, nonempty, flag, sliced]

theorem emitCurrent_sliceless {enc : H264Encoder} (none : enc.currentHasVcl = false) :
    enc.emitCurrent = { enc with currentNals := [], currentHasVcl := false } := by
  simp [H264Encoder.emitCurrent, none]

theorem grouped_init : Grouped [] H264Encoder.init [] :=
  ⟨rfl, rfl, rfl, rfl, List.Pairwise.nil⟩

theorem grouped_emit {seen : List Bytes} {enc : H264Encoder} {units : List PictureUnit}
    (inv : Grouped seen enc units) (sliced : enc.currentNals.any isVcl = true) :
    Grouped seen enc.emitCurrent (units ++ [⟨enc.currentNals, sliced, inv.uncut⟩]) := by
  obtain ⟨queue, index⟩ := emitCurrent_open sliced inv.flag
  refine ⟨?_, ?_, ?_, rfl, List.Pairwise.nil⟩
  · rw [queue, inv.queued, inv.index, numbered_concat]; rfl
  · rw [index, inv.index, List.length_append]; rfl
  · rw [(emitCurrent_cleared enc).1, List.flatMap_append, List.append_nil]
    simpa using inv.kept

theorem grouped_append {seen : List Bytes} {enc : H264Encoder} {units : List PictureUnit}
    (inv : Grouped seen enc units) (nal : Bytes)
    (joins : enc.currentNals.any isVcl = true → startsNewAu nal = false) :
    Grouped (seen ++ [nal])
      { enc with
        currentNals := enc.currentNals ++ [nal]
        currentHasVcl := enc.currentHasVcl || isVcl nal } units := by
  refine ⟨inv.queued, inv.index, ?_, ?_, ?_⟩
  · rw [inv.kept, List.append_assoc]
  · simp [inv.flag]
  · refine List.pairwise_append.mpr ⟨inv.uncut, List.pairwise_singleton _ _, ?_⟩
    intro a mem b last vcl
    rw [List.mem_singleton.mp last]
    exact joins (List.any_eq_true.mpr ⟨a, mem, vcl⟩)

theorem grouped_step {seen : List Bytes} {enc : H264Encoder} {units : List PictureUnit}
    (inv : Grouped seen enc units) (nal : Bytes) :
    ∃ more, Grouped (seen ++ bodied [nal]) (enc.processNal nal) (units ++ more) := by
  by_cases dropped : codeOnly nal = true
  · refine ⟨[], ?_⟩
    simpa [H264Encoder.processNal, bodied, dropped] using inv
  · have keep : bodied [nal] = [nal] := by simp [bodied, dropped]
    rw [keep]
    by_cases cut : startsNewAu nal = true ∧ enc.currentNals.any isVcl = true
    · refine ⟨[⟨enc.currentNals, cut.2, inv.uncut⟩], ?_⟩
      have after := grouped_append (grouped_emit inv cut.2) nal
        (by simp [(emitCurrent_cleared enc).1])
      simpa [H264Encoder.processNal, dropped, cut.1, inv.flag, cut.2] using after
    · refine ⟨[], ?_⟩
      have joins : enc.currentNals.any isVcl = true → startsNewAu nal = false := by
        intro sliced
        exact Bool.eq_false_iff.mpr fun starts => cut ⟨starts, sliced⟩
      have stay : (startsNewAu nal && enc.currentHasVcl) = false := by
        rw [inv.flag, Bool.and_eq_false_iff]
        by_cases sliced : enc.currentNals.any isVcl = true
        · exact Or.inl (joins sliced)
        · exact Or.inr (Bool.eq_false_iff.mpr sliced)
      rw [List.append_nil]
      simpa [H264Encoder.processNal, dropped, stay] using grouped_append inv nal joins

theorem grouped_run (nals : List Bytes) {seen : List Bytes} {enc : H264Encoder}
    {units : List PictureUnit} (inv : Grouped seen enc units) :
    ∃ more, Grouped (seen ++ bodied nals) (nals.foldl H264Encoder.processNal enc)
      (units ++ more) := by
  induction nals generalizing seen enc units with
  | nil => exact ⟨[], by simpa [bodied] using inv⟩
  | cons nal nals ih =>
    obtain ⟨here, step⟩ := grouped_step inv nal
    obtain ⟨later, run⟩ := ih step
    refine ⟨here ++ later, ?_⟩
    have joined : bodied (nal :: nals) = bodied [nal] ++ bodied nals := bodied_append [nal] nals
    rw [List.foldl_cons, joined, ← List.append_assoc, ← List.append_assoc]
    exact run

/-- Whatever the NALs, the queue is a cut of them into picture units, and what is lost
    at the end of the stream holds no slice. -/
theorem groupNals_units (nals : List Bytes) :
    ∃ units dropped, (groupNals H264Encoder.init nals).queue = numbered units ∧
      bodied nals = units.flatMap PictureUnit.nals ++ dropped ∧
      ∀ nal ∈ dropped, isVcl nal = false := by
  obtain ⟨units, run⟩ := grouped_run nals grouped_init
  rw [List.nil_append, List.nil_append] at run
  by_cases sliced : (nals.foldl H264Encoder.processNal H264Encoder.init).currentNals.any isVcl = true
  · have last := grouped_emit run sliced
    have kept := last.kept
    rw [(emitCurrent_cleared _).1] at kept
    exact ⟨_, [], last.queued, kept, by simp⟩
  · have none_ := Bool.eq_false_iff.mpr sliced
    refine ⟨units, (nals.foldl H264Encoder.processNal H264Encoder.init).currentNals,
      ?_, run.kept, fun nal mem => Bool.eq_false_iff.mpr (List.any_eq_false.mp none_ nal mem)⟩
    rw [groupNals, emitCurrent_sliceless (run.flag.trans none_)]
    exact run.queued

theorem startsNewAu_false_iff (nal : Bytes) :
    startsNewAu nal = false ↔
      nalType nal ≠ 9 ∧ ¬ (isVcl nal = true ∧ firstMbInSlice nal = some 0) := by
  simp [startsNewAu]

/-- Lossless splitting: however an aligned stream is read, the queue holds its NALs in
    order up to a tail without slices, numbered from 0, in units that have a slice and
    no picture boundary behind one. -/
theorem splitting_lossless {stream : Bytes} {chunks : List Bytes} (cuts : Cuts stream chunks)
    (aligned : StartsAligned chunks) :
    ∃ units : List (List Bytes), ∃ j, j ≤ (bodied (nalsOf stream)).length ∧
      (readerLoop chunks).queue.map Prod.snd = units.map List.flatten ∧
      units.flatten = (bodied (nalsOf stream)).take j ∧
      (∀ nal ∈ (bodied (nalsOf stream)).drop j, isVcl nal = false) ∧
      (readerLoop chunks).queue.map Prod.fst = List.range (readerLoop chunks).queue.length ∧
      (∀ unit ∈ units, ∃ nal ∈ unit, isVcl nal = true) ∧
      ∀ unit ∈ units, unit.Pairwise fun a b => isVcl a = true →
        nalType b ≠ 9 ∧ ¬ (isVcl b = true ∧ firstMbInSlice b = some 0) := by
  obtain ⟨units, dropped, queue, kept, sliceless⟩ := groupNals_units (nalsOf stream)
  rw [readerLoop_aligned cuts aligned, queue, kept]
  refine ⟨units.map PictureUnit.nals, (units.flatMap PictureUnit.nals).length, ?_, ?_, ?_, ?_,
    ?_, ?_, ?_⟩
  · simp
  · rw [numbered_snd, List.map_map]; rfl
  · rw [List.take_left, List.flatMap]
  · rw [List.drop_left]; exact sliceless
  · rw [numbered_fst, numbered, List.length_mapIdx]
  · intro unit mem
    obtain ⟨picture, _, rfl⟩ := List.mem_map.mp mem
    exact List.any_eq_true.mp picture.sliced
  · intro unit mem
    obtain ⟨picture, _, rfl⟩ := List.mem_map.mp mem
    exact picture.uncut.imp fun implied vcl => (startsNewAu_false_iff _).mp (implied vcl)

theorem splitting_lossless_across_reads :
    ∃ units : List (List Bytes), ∃ j,
      j ≤ (bodied (nalsOf [0, 0, 1, 0x65, 0x88, 0, 0, 1, 0x41, 0x9a])).length ∧
      (readerLoop [[0, 0, 1, 0x65, 0x88, 0], [0, 1, 0x41], [0x9a]]).queue.map Prod.snd =
        units.map List.flatten ∧
      units.flatten = (bodied (nalsOf [0, 0, 1, 0x65, 0x88, 0, 0, 1, 0x41, 0x9a])).take j := by
  have cuts : Cuts [0, 0, 1, 0x65, 0x88, 0, 0, 1, 0x41, 0x9a]
      [[0, 0, 1, 0x65, 0x88, 0], [0, 1, 0x41], [0x9a]] := ⟨by decide, by decide⟩
  obtain ⟨units, j, bound, queue, kept, _⟩ :=
    splitting_lossless cuts ⟨_, _, rfl, by decide⟩
  exact ⟨units, j, bound, queue, kept⟩

end AnnexBGrouping
