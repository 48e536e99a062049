import Mathlib

/- A cell that caches what was made of one value, and skips the work where the value's stamp is the
   one it holds. The work may fail, and leaves the old content under the new stamp. An empty cell
   holds a stamp too, the marker. -/
namespace StampedCache

structure Cell (K C : Type) where
  stamp : K
  content : Option C

variable {V K C : Type} [DecidableEq K] (key : V → K) (content : V → C) (stores : C → Bool)

def empty (marker : K) : Cell K C := ⟨marker, none⟩

def refresh (v : V) (cell : Cell K C) : Cell K C :=
  if cell.stamp = key v then cell
  else ⟨key v, if stores (content v) then some (content v) else cell.content⟩

/-- The cell after `last` was put in, if anything was. -/
def Holds (marker : K) (last : Option V) (cell : Cell K C) : Prop :=
  match last with
  | none => cell = empty marker
  | some v => cell = ⟨key v, some (content v)⟩

/-- A value that the cell does not take for another one, and whose work succeeds; or one that
    looks like the last. -/
def Fresh (marker : K) (last : Option V) (v : V) : Prop :=
  match last with
  | none => key v ≠ marker ∧ stores (content v) = true
  | some before => content before = content v ∨ key before ≠ key v ∧ stores (content v) = true

theorem refresh_current_iff {marker : K} {last : Option V} {cell : Cell K C}
    (holds : Holds key content marker last cell) (v : V) :
    (refresh key content stores v cell).content = some (content v) ↔
      Fresh key content stores marker last v := by
  cases last with
  | none =>
    have unfilled : cell = empty marker := holds
    by_cases taken : marker = key v
    · simp [refresh, unfilled, empty, Fresh, taken]
    · simp [refresh, unfilled, empty, Fresh, taken, Ne.symm taken]
  | some before =>
    have filled : cell = ⟨key before, some (content before)⟩ := holds
    by_cases taken : key before = key v
    · simp [refresh, filled, Fresh, taken]
    · cases stored : stores (content v) with
      | true => simp [refresh, filled, Fresh, taken, stored]
      | false => simp [refresh, filled, Fresh, taken, stored]

theorem refresh_holds {marker : K} {last : Option V} {cell : Cell K C}
    (holds : Holds key content marker last cell) {v : V}
    (fresh : Fresh key content stores marker last v) :
    Holds key content marker (some v) (refresh key content stores v cell) := by
  have current := (refresh_current_iff key content stores holds v).mpr fresh
  have stamped : (refresh key content stores v cell).stamp = key v := by
    unfold refresh
    split
    · next same => exact same
    · rfl
  cases after : refresh key content stores v cell with
  | mk stamp shown =>
    rw [after] at current stamped
    simp only at current stamped
    rw [Holds, current, stamped]

end StampedCache
