import RoboVR.Host.KeyframeFlag
import RoboVR.AnnexB.Grouping

/- Nothing of a file is lost when it is cut into access units, and each unit has its flag. -/
namespace HostLossless
open Delimited AnnexBStartCode AnnexBSliceHeader AnnexBReaderLoop
open AnnexBGrouping (bodied bodied_cons_empty bodied_cons_body)
open HostVideoThread HostLoadStream HostKeyframeFlag

/- The loop ends. -/

def round (bytes : Bytes) (l : Loader) (nalStart : Nat) : Loader × Option Nat :=
  let codeSize := HostSliceReader.startCodeSize bytes nalStart
  let nextNal := HostSliceReader.findStartCode bytes (nalStart + codeSize)
  (l.addNal ((bytes.take (nextNal.getD bytes.length)).drop nalStart) codeSize, nextNal)

/-- At most `n` rounds; `none` where that many do not end the loop. -/
def roundsWithin (bytes : Bytes) : Nat → Loader → Nat → Option Loader
  | 0, _, _ => none
  | n + 1, l, nalStart =>
    match round bytes l nalStart with
    | (l, none) => some l
    | (l, some next) => roundsWithin bytes n l next

theorem loadFrom_round (bytes : Bytes) (n : Nat) (l : Loader) (nalStart : Nat) :
    loadFrom bytes (n + 1) l nalStart =
      match round bytes l nalStart with
      | (l, none) => l
      | (l, some next) => loadFrom bytes n l next := by
  rw [loadFrom, round]
  cases HostSliceReader.findStartCode bytes
      (nalStart + HostSliceReader.startCodeSize bytes nalStart) <;> rfl

theorem round_next {bytes : Bytes} {l after : Loader} {nalStart next : Nat}
    (marked : headCode (bytes.drop nalStart) ≠ 0)
    (goes : round bytes l nalStart = (after, some next)) :
    nalStart < next ∧ headCode (bytes.drop next) ≠ 0 := by
  have size : HostSliceReader.startCodeSize bytes nalStart = headCode (bytes.drop nalStart) := by
    rw [HostSliceReader.startCodeSize_same, startCodeSize_eq]
  have found := (Prod.mk.inj goes).2
  rw [size, HostSliceReader.findStartCode_same, findStartCode_eq, Option.map_eq_some_iff] at found
  obtain ⟨⟨pre, rest⟩, search, place⟩ := found
  obtain ⟨split, here, _⟩ := seek_some startCode search
  have tail : bytes.drop next = rest := by
    rw [← place, ← List.drop_drop, split, List.drop_left]
  constructor
  · omega
  · rw [tail]
    exact here

theorem roundsWithin_some {bytes : Bytes} {n : Nat} (l : Loader) {nalStart : Nat}
    (marked : headCode (bytes.drop nalStart) ≠ 0) (enough : bytes.length < nalStart + n) :
    roundsWithin bytes n l nalStart = some (loadFrom bytes n l nalStart) := by
  induction n generalizing l nalStart with
  | zero =>
    rw [List.drop_eq_nil_of_le (by omega)] at marked
    exact absurd rfl marked
  | succ n ih =>
    rw [roundsWithin, loadFrom_round]
    cases goes : round bytes l nalStart with
    | mk after next =>
      cases next with
      | none => rfl
      | some next =>
        obtain ⟨further, there⟩ := round_next marked goes
        exact ih after there (by omega)

def loadRounds (bytes : Bytes) : Option Loader :=
  match HostSliceReader.findStartCode bytes 0 with
  | none => some {}
  | some first => roundsWithin bytes (bytes.length + 1) {} first

theorem loadRounds_eq (bytes : Bytes) : loadRounds bytes = some (groupFile bytes) := by
  unfold loadRounds groupFile
  rw [HostSliceReader.findStartCode_same, findStartCode_zero]
  cases search : startCode.seek bytes with
  | none => rfl
  | some c =>
    obtain ⟨pre, rest⟩ := c
    obtain ⟨split, here, _⟩ := seek_some startCode search
    have tail : bytes.drop pre.length = rest := by rw [split, List.drop_left]
    simp only [Option.map_some]
    exact roundsWithin_some {} (by rw [tail]; exact here) (by omega)

/- What the loader holds, pushed or not, is what it was given. -/

def written (l : Loader) : Bytes := (l.accessUnits.map Prod.fst).flatten ++ l.current

theorem written_push (l : Loader) : written l.push = written l := by
  simp [written, Loader.push]

theorem written_append (l : Loader) (nal : Bytes) : written (l.append nal) = written l ++ nal := by
  simp [written, Loader.append]

theorem written_addWhole (l : Loader) {nal : Bytes} (marked : headCode nal ≠ 0) :
    written (l.addWhole nal) = written l ++ (bodied [nal]).flatten := by
  cases headed : codeOnly nal with
  | true => simp [addWhole_codeOnly l marked headed, bodied, headed]
  | false =>
    have kept : written (if l.Cuts nal then l.push else l) = written l := by
      split
      · exact written_push l
      · rfl
    rw [addWhole_headed l (header_of_body marked headed), written_append, kept,
      bodied_cons_body [] headed]
    simp [bodied]

theorem written_foldl {nals : List Bytes} (marked : ∀ nal ∈ nals, headCode nal ≠ 0) (l : Loader) :
    written (nals.foldl Loader.addWhole l) = written l ++ (bodied nals).flatten := by
  induction nals generalizing l with
  | nil => simp [bodied]
  | cons nal nals ih =>
    have parts : bodied (nal :: nals) = bodied [nal] ++ bodied nals :=
      AnnexBGrouping.bodied_append [nal] nals
    rw [List.foldl_cons, ih fun n mem => marked n (List.mem_cons_of_mem nal mem),
      written_addWhole l (marked nal List.mem_cons_self), parts, List.flatten_append,
      List.append_assoc]

theorem written_finish (l : Loader) : (l.finish.accessUnits.map Prod.fst).flatten = written l := by
  unfold Loader.finish written
  split
  · simp [Loader.push]
  · next closed => simp [not_not.mp closed]

theorem groupFile_lossless (bytes : Bytes) :
    ((groupFile bytes).finish.accessUnits.map Prod.fst).flatten = (bodied (nalsOf bytes)).flatten := by
  rw [written_finish, groupFile_eq, written_foldl fun nal mem => nalsOf_marked mem]
  simp [written]

/-- A loaded stream of a file. The NALs of a file run from a start code to the next one or to the
    end, and some of them may be start codes and nothing else. -/
structure Lossless (bytes : Bytes) (stream : H264TestStream) : Prop where
  flagged : stream.keyframes.length = stream.accessUnits.length
  nonempty : 0 < stream.accessUnits.length
  units : (∃ nal ∈ nalsOf bytes, codeOnly nal = false) →
    stream.accessUnits.flatten = ((nalsOf bytes).filter fun nal => !codeOnly nal).flatten ∧
      ∀ entry ∈ stream.accessUnits.zip stream.keyframes, entry.2 = carriesIdr entry.1
  fallback : (∀ nal ∈ nalsOf bytes, codeOnly nal = true) →
    stream.accessUnits = [bytes] ∧ stream.keyframes = [true]
  indices : ∀ frameIndex, accessUnitIndex stream frameIndex < stream.accessUnits.length ∧
    accessUnitIndex stream frameIndex < stream.keyframes.length

/-- Every file with bytes in it is loaded, in a loop that ends, and nothing is lost. -/
theorem loadH264TestStream_lossless (bytes : Bytes) (width height : UInt32) (some_ : bytes ≠ []) :
    loadRounds bytes = some (groupFile bytes) ∧
      ∃ stream, loadH264TestStream (some bytes) width height = some stream ∧
        Lossless bytes stream := by
  refine ⟨loadRounds_eq bytes, ?_⟩
  cases loaded : loadH264TestStream (some bytes) width height with
  | none => simp [loadH264TestStream, some_] at loaded
  | some stream =>
    have units : stream.accessUnits = (loadedUnits bytes).map Prod.fst ∧
        stream.keyframes = (loadedUnits bytes).map Prod.snd := by
      simp only [loadH264TestStream, if_neg some_, Option.some.injEq] at loaded
      rw [← loaded]
      exact ⟨rfl, rfl⟩
    refine ⟨stream, rfl, stream.flagged, stream.nonempty, ?_, ?_, ?_⟩
    · intro headed
      have pushed := (groupFile_units bytes).mpr headed
      have whole : loadedUnits bytes = (groupFile bytes).finish.accessUnits := by
        unfold loadedUnits
        exact if_neg pushed
      constructor
      · rw [units.1, whole]
        exact groupFile_lossless bytes
      · intro entry mem
        rw [units.1, units.2, ← List.unzip_fst, ← List.unzip_snd, List.zip_unzip] at mem
        exact (loadedUnits_flags mem).mpr headed
    · intro bare
      have empty : (groupFile bytes).finish.accessUnits = [] := by
        by_contra pushed
        obtain ⟨nal, mem, headed⟩ := (groupFile_units bytes).mp pushed
        rw [bare nal mem] at headed
        exact absurd headed (by decide)
      have alone : loadedUnits bytes = [(bytes, true)] := by
        unfold loadedUnits
        exact if_pos empty
      rw [units.1, units.2, alone]
      exact ⟨rfl, rfl⟩
    · intro frameIndex
      have inside := accessUnitIndex_lt stream frameIndex
      rw [stream.flagged]
      exact ⟨inside, inside⟩

/-- Two slices of type 5 with a bare start code between them. -/
theorem two_pictures_lossless :
    loadRounds [0, 0, 1, 0x65, 0x88, 0, 0, 1, 0, 0, 0, 1, 0x65, 0x88] =
        some (groupFile [0, 0, 1, 0x65, 0x88, 0, 0, 1, 0, 0, 0, 1, 0x65, 0x88]) ∧
      ∃ stream, loadH264TestStream
          (some [0, 0, 1, 0x65, 0x88, 0, 0, 1, 0, 0, 0, 1, 0x65, 0x88]) 1280 720 = some stream ∧
        Lossless [0, 0, 1, 0x65, 0x88, 0, 0, 1, 0, 0, 0, 1, 0x65, 0x88] stream :=
  loadH264TestStream_lossless _ 1280 720 (by decide)

end HostLossless
