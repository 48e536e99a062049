import RoboVR.Decoder.CpuFrame

/- Which bytes of the codec's buffer the conversion reads. Its guard counts the luma plane as the
   codec reported it, and its loops run over the frame. -/
namespace QuestCpuReads
open QuestCpuFrame

def storedFormat (stride sliceHeight colorFormat : Int32) : OutputFormat :=
  { stride := stride.toInt, sliceHeight := sliceHeight.toInt, colorFormat := colorFormat.toInt }

/-- `drainOutput` has a frame size, and its size guard passes. -/
def Converts (p : Planes) (width height size : Nat) : Prop :=
  width ≠ 0 ∧ height ≠ 0 ∧ toSizeT (p.offset + p.luma) ≤ size

def outIndex (width x y : Nat) : Nat := toSizeT (toSizeT (y * width + x) * 4)

structure Inside (p : Planes) (width height size : Nat) : Prop where
  luma : ∀ x < width, ∀ y < height, p.yIndex x y < size
  chroma : ∀ x < width, ∀ y < height, ∀ u v, p.chroma size x y = some (u, v) →
    u < size ∧ v < size
  writes : ∀ x < width, ∀ y < height, ∀ c < 4, outIndex width x y + c < width * height * 4

def LastLuma (p : Planes) (width height size : Nat) : Prop :=
  p.offset + (height - 1) * p.stride + (width - 1) < size

/-- No chroma guard passes because its sum wraps around. -/
def Unwrapped (p : Planes) (width height size : Nat) : Prop :=
  ∀ x < width, ∀ y < height, ∀ u v, p.chroma size x y = some (u, v) → v < 2 ^ 64

theorem toSizeT_nat (n : Nat) : toSizeT n = n % 2 ^ 64 := by
  unfold toSizeT
  omega

theorem toSizeT_le (n : Nat) : toSizeT n ≤ n := by
  rw [toSizeT_nat]
  exact Nat.mod_le n (2 ^ 64)

theorem toSizeT_small {n : Nat} (small : n < 2 ^ 64) : toSizeT n = n := by
  rw [toSizeT_nat]
  exact Nat.mod_eq_of_lt small

/-- What a stride or a slice height in use can be: a positive `int32_t`, or, where the codec
    reported none, a frame dimension of 2 ^ 31 or more that was cast to a negative one. -/
inductive InUse (dimension used : Nat) : Prop where
  | positive (some_ : 0 < used) (small : used < 2 ^ 31)
  | negative (k : Nat) (some_ : 0 < k) (small : k ≤ 2 ^ 31) (cast : used = 2 ^ 64 - k)
      (frame : dimension + k = 2 ^ 32)

theorem inUse (reported : Int32) (dimension : UInt32) (nonzero : dimension.toNat ≠ 0) :
    InUse dimension.toNat
      (toSizeT (if reported.toInt > 0 then reported.toInt else toInt32 dimension.toNat)) := by
  have small := reported.toInt_lt
  have bounded := dimension.toNat_lt
  split
  · next positive =>
    apply InUse.positive
    · unfold toSizeT
      omega
    · unfold toSizeT
      omega
  · unfold toInt32
    split
    · apply InUse.positive
      · unfold toSizeT
        omega
      · unfold toSizeT
        omega
    · apply InUse.negative (2 ^ 32 - dimension.toNat)
      · omega
      · omega
      · unfold toSizeT
        omega
      · omega

section Sizes
variable {p : Planes} {width height size : Nat}

theorem row_small {stride x y : Nat} (small : stride < 2 ^ 31) (wide : width < 2 ^ 32)
    (high : height < 2 ^ 32) (column : x < width) (row : y < height) :
    y * stride + x < 2 ^ 64 := by
  have product : y * stride ≤ 2 ^ 32 * 2 ^ 31 := Nat.mul_le_mul (by omega) (by omega)
  omega

theorem luma_positive_iff (wide : width < 2 ^ 32) (high : height < 2 ^ 32)
    (small : p.stride < 2 ^ 31) (someColumn : width ≠ 0) (someRow : height ≠ 0) :
    (∀ x < width, ∀ y < height, p.yIndex x y < size) ↔ LastLuma p width height size := by
  have exact_ : ∀ x < width, ∀ y < height, p.yIndex x y = p.offset + (y * p.stride + x) := by
    intro x column y row
    have whole := toSizeT_small (row_small small wide high column row)
    rw [Planes.yIndex, ← whole]
    simp
  unfold LastLuma
  constructor
  · intro all
    have last := all (width - 1) (by omega) (height - 1) (by omega)
    rw [exact_ _ (by omega) _ (by omega)] at last
    omega
  · intro last x column y row
    have rows : y * p.stride ≤ (height - 1) * p.stride := Nat.mul_le_mul_right _ (by omega)
    rw [exact_ x column y row]
    omega

theorem luma_negative_iff {k : Nat} (fits : size < 2 ^ 64) (some_ : 0 < k) (small : k ≤ 2 ^ 31)
    (cast : p.stride = 2 ^ 64 - k) (frame : width + k = 2 ^ 32) (someRow : height ≠ 0) :
    (∀ x < width, ∀ y < height, p.yIndex x y < size) ↔ LastLuma p width height size := by
  unfold LastLuma
  by_cases single : height = 1
  · have exact_ : ∀ x < width, p.yIndex x 0 = p.offset + x := by
      intro x column
      have whole : toSizeT x = x := toSizeT_small (by omega)
      rw [Planes.yIndex, Nat.cast_zero, zero_mul, zero_add, whole]
    rw [single]
    constructor
    · intro all
      have last := all (width - 1) (by omega) 0 (by omega)
      rw [exact_ _ (by omega)] at last
      omega
    · intro last x column y row
      have first : y = 0 := by omega
      rw [first, exact_ x column]
      omega
  · constructor
    · intro all
      have second := all (k - 1) (by omega) 1 (by omega)
      have before : ((1 : Nat) : Int) * p.stride + ((k - 1 : Nat) : Int) = (2 ^ 64 - 1 : Nat) := by
        omega
      rw [Planes.yIndex, before, toSizeT_small (by omega)] at second
      omega
    · intro last
      have rows : 1 * p.stride ≤ (height - 1) * p.stride := Nat.mul_le_mul_right _ (by omega)
      omega

theorem luma_iff (wide : width < 2 ^ 32) (high : height < 2 ^ 32) (fits : size < 2 ^ 64)
    (used : InUse width p.stride) (someColumn : width ≠ 0) (someRow : height ≠ 0) :
    (∀ x < width, ∀ y < height, p.yIndex x y < size) ↔ LastLuma p width height size := by
  cases used with
  | positive some_ small => exact luma_positive_iff wide high small someColumn someRow
  | negative k some_ small cast frame =>
    exact luma_negative_iff fits some_ small cast frame someRow

theorem chroma_guard {x y u v : Nat} (there : p.chroma size x y = some (u, v)) :
    u ≤ v ∧ toSizeT v < size := by
  unfold Planes.chroma at there
  split at there
  · simp only [Planes.semiPlanar] at there
    split at there
    · next passes =>
      simp only [Option.some.injEq, Prod.mk.injEq] at there
      obtain ⟨rfl, rfl⟩ := there
      constructor
      · omega
      · exact_mod_cast passes
    · exact absurd there (by simp)
  · split at there
    · simp only [Planes.planar] at there
      split at there
      · next passes =>
        simp only [Option.some.injEq, Prod.mk.injEq] at there
        obtain ⟨rfl, rfl⟩ := there
        constructor
        · omega
        · exact_mod_cast passes
      · exact absurd there (by simp)
    · exact absurd there (by simp)

theorem chroma_iff (fits : size < 2 ^ 64) :
    (∀ x < width, ∀ y < height, ∀ u v, p.chroma size x y = some (u, v) → u < size ∧ v < size) ↔
      Unwrapped p width height size := by
  constructor
  · intro inside x column y row u v there
    have below := (inside x column y row u v there).2
    omega
  · intro unwrapped x column y row u v there
    obtain ⟨ordered, passes⟩ := chroma_guard there
    rw [toSizeT_small (unwrapped x column y row u v there)] at passes
    omega

theorem writes_inside (width height : Nat) :
    ∀ x < width, ∀ y < height, ∀ c < 4, outIndex width x y + c < width * height * 4 := by
  intro x column y row c byte
  have inner : toSizeT (y * width + x) ≤ y * width + x := toSizeT_le (y * width + x)
  have outer : outIndex width x y ≤ toSizeT (y * width + x) * 4 :=
    toSizeT_le (toSizeT (y * width + x) * 4)
  have rows : (y + 1) * width ≤ height * width := Nat.mul_le_mul_right _ row
  rw [Nat.succ_mul] at rows
  rw [Nat.mul_comm width height]
  omega

theorem unwrapped_positive (near : p.offset < 2 ^ 31) (wide : width < 2 ^ 32)
    (high : height < 2 ^ 32) (stride : p.stride < 2 ^ 31) (slice : p.sliceHeight < 2 ^ 31) :
    Unwrapped p width height size := by
  intro x column y row u v there
  have plane : p.stride * p.sliceHeight ≤ 2 ^ 31 * 2 ^ 31 :=
    Nat.mul_le_mul (by omega) (by omega)
  have luma : p.luma ≤ p.stride * p.sliceHeight := toSizeT_le (p.stride * p.sliceHeight)
  have rows : y / 2 * p.stride ≤ 2 ^ 31 * 2 ^ 31 := Nat.mul_le_mul (by omega) (by omega)
  unfold Planes.chroma at there
  split at there
  · simp only [Planes.semiPlanar] at there
    have index := toSizeT_le (y / 2 * p.stride + x / 2 * 2)
    split at there
    · simp only [Option.some.injEq, Prod.mk.injEq] at there
      obtain ⟨rfl, rfl⟩ := there
      push_cast at index ⊢
      omega
    · exact absurd there (by simp)
  · split at there
    · simp only [Planes.planar] at there
      have chroma := toSizeT_le (p.stride / 2 * (p.sliceHeight / 2))
      have chromaPlane : p.stride / 2 * (p.sliceHeight / 2) ≤ p.stride * p.sliceHeight :=
        Nat.mul_le_mul (by omega) (by omega)
      have index := toSizeT_le (y / 2 * (p.stride / 2) + x / 2)
      have chromaRows : y / 2 * (p.stride / 2) ≤ y / 2 * p.stride :=
        Nat.mul_le_mul_left _ (by omega)
      split at there
      · simp only [Option.some.injEq, Prod.mk.injEq] at there
        obtain ⟨rfl, rfl⟩ := there
        push_cast at chroma index ⊢
        omega
      · exact absurd there (by simp)
    · exact absurd there (by simp)

end Sizes

/-- The conversion of every buffer stays inside it if and only if, whenever the guard passes, the
    last luma byte of the frame lies in the buffer and no chroma sum wraps; frame dimensions below
    2 ^ 31 leave the first condition alone. -/
theorem conversion_inside_iff (stride sliceHeight colorFormat : Int32) (width height : UInt32)
    (offset : Int32) (size : UInt64) (nonneg : 0 ≤ offset.toInt) :
    let p := planesOf (storedFormat stride sliceHeight colorFormat) width.toNat height.toNat
      offset.toInt
    ((Converts p width.toNat height.toNat size.toNat →
        Inside p width.toNat height.toNat size.toNat) ↔
      (Converts p width.toNat height.toNat size.toNat →
        LastLuma p width.toNat height.toNat size.toNat ∧
          Unwrapped p width.toNat height.toNat size.toNat)) ∧
      (width.toNat < 2 ^ 31 → height.toNat < 2 ^ 31 →
        Unwrapped p width.toNat height.toNat size.toNat) := by
  intro p
  have wide := width.toNat_lt
  have high := height.toNat_lt
  have fits := size.toNat_lt
  constructor
  · apply imp_congr_right
    rintro ⟨someColumn, someRow, _⟩
    have used : InUse width.toNat p.stride := inUse stride width someColumn
    have luma := luma_iff wide high fits used someColumn someRow
    have chroma := @chroma_iff p width.toNat height.toNat size.toNat fits
    constructor
    · intro inside
      exact ⟨luma.mp inside.luma, chroma.mp inside.chroma⟩
    · intro condition
      exact ⟨luma.mpr condition.1, chroma.mpr condition.2, writes_inside width.toNat height.toNat⟩
  · intro narrow low
    by_cases empty : width.toNat = 0 ∨ height.toNat = 0
    · intro x column y row
      omega
    · have near : p.offset < 2 ^ 31 := by
        have small := offset.toInt_lt
        simp only [p, planesOf, toSizeT]
        omega
      have strideUsed : InUse width.toNat p.stride := inUse stride width (by omega)
      have sliceUsed : InUse height.toNat p.sliceHeight := inUse sliceHeight height (by omega)
      cases strideUsed with
      | negative k _ small _ frame => omega
      | positive _ strideSmall =>
        cases sliceUsed with
        | negative k _ small _ frame => omega
        | positive _ sliceSmall =>
          exact unwrapped_positive near wide high strideSmall sliceSmall

/-- A frame of 2 by 2 pixels in a buffer of six bytes. -/
theorem small_frame_inside :
    Converts (planesOf (storedFormat 2 2 21) 2 2 0) 2 2 6 ∧
      Inside (planesOf (storedFormat 2 2 21) 2 2 0) 2 2 6 := by
  have converts : Converts (planesOf (storedFormat 2 2 21) 2 2 0) 2 2 6 := by
    unfold Converts
    decide
  obtain ⟨inside, unwrapped⟩ := conversion_inside_iff 2 2 21 2 2 0 6 (by decide)
  refine ⟨converts, inside.mpr (fun _ => ⟨?_, ?_⟩) converts⟩
  · unfold LastLuma
    decide
  · exact unwrapped (by decide) (by decide)

/-- The stream has 1280 by 720 pixels, and the packet's header says 1920 by 1080. -/
theorem wider_frame_outside :
    ¬ ∀ (stride sliceHeight colorFormat : Int32) (width height : UInt32) (offset : Int32)
        (size : UInt64), 0 ≤ offset.toInt →
      Converts
          (planesOf (storedFormat stride sliceHeight colorFormat) width.toNat height.toNat
            offset.toInt) width.toNat height.toNat size.toNat →
        Inside
          (planesOf (storedFormat stride sliceHeight colorFormat) width.toNat height.toNat
            offset.toInt) width.toNat height.toNat size.toNat := by
  intro all
  have inside := all 1280 720 21 1920 1080 0 1382400 (by decide) (by unfold Converts; decide)
  have last := inside.luma 1919 (by decide) 1079 (by decide)
  exact absurd last (by decide)

end QuestCpuReads
