import Mathlib
import RoboVR.Lib.TracedRun

/- Resources that a trace takes and gives back. The books balance when everything taken is
   given back or still held; giving back what is not held would be a second release. -/
namespace Ledger
open TracedRun

variable {E R : Type} (takes gives : E → Option R)

def taken (past : List E) : Multiset R := ↑(past.filterMap takes)
def returned (past : List E) : Multiset R := ↑(past.filterMap gives)

def Balanced (past : List E) (held : Multiset R) : Prop :=
  taken takes past = returned gives past + held

def ReturnsHeld [DecidableEq R] (past : List E) (e : E) : Prop :=
  ∀ r, gives e = some r → (returned gives past).count r < (taken takes past).count r

/-- After any trace that leaves `held`, the events are in order and leave `after`. -/
def Moves [DecidableEq R] (held : Multiset R) (es : List E) (after : Multiset R) : Prop :=
  ∀ past, Balanced takes gives past held →
    AtEvents (ReturnsHeld takes gives) past es ∧ Balanced takes gives (past ++ es) after

variable {takes gives}

theorem balanced_nil : Balanced takes gives [] 0 := rfl

variable [DecidableEq R]

theorem moves_nil (held : Multiset R) : Moves takes gives held [] held := by
  intro past balanced
  rw [List.append_nil]
  exact ⟨trivial, balanced⟩

theorem moves_append {a b c : Multiset R} {es fs : List E} (first : Moves takes gives a es b)
    (second : Moves takes gives b fs c) : Moves takes gives a (es ++ fs) c := by
  intro past balanced
  obtain ⟨inOrder, between⟩ := first past balanced
  obtain ⟨after, final⟩ := second (past ++ es) between
  rw [List.append_assoc] at final
  exact ⟨(atEvents_append _ _ _ _).mpr ⟨inOrder, after⟩, final⟩

theorem moves_take {e : E} {r : R} (take : takes e = some r) (keep : gives e = none)
    (held : Multiset R) : Moves takes gives held [e] (r ::ₘ held) := by
  intro past balanced
  constructor
  · refine ⟨?_, trivial⟩
    intro other back
    rw [keep] at back
    exact absurd back (by simp)
  · unfold Balanced taken returned at balanced ⊢
    rw [List.filterMap_append, List.filterMap_append, ← Multiset.coe_add, ← Multiset.coe_add,
      balanced, List.filterMap_cons_some take, List.filterMap_cons_none keep, List.filterMap_nil,
      List.filterMap_nil, Multiset.coe_nil, Multiset.coe_singleton, add_zero, add_assoc,
      add_comm held, Multiset.singleton_add]

theorem moves_give {e : E} {r : R} (keep : takes e = none) (give : gives e = some r)
    (held : Multiset R) : Moves takes gives (r ::ₘ held) [e] held := by
  intro past balanced
  constructor
  · refine ⟨?_, trivial⟩
    intro other back
    rw [give, Option.some.injEq] at back
    rw [balanced, ← back, Multiset.count_add, Multiset.count_cons_self]
    omega
  · unfold Balanced taken returned at balanced ⊢
    rw [List.filterMap_append, List.filterMap_append, ← Multiset.coe_add, ← Multiset.coe_add,
      balanced, List.filterMap_cons_none keep, List.filterMap_cons_some give, List.filterMap_nil,
      List.filterMap_nil, Multiset.coe_nil, Multiset.coe_singleton, add_zero, add_assoc,
      Multiset.singleton_add]

theorem moves_silent {es : List E} (silent : ∀ e ∈ es, takes e = none ∧ gives e = none)
    (held : Multiset R) : Moves takes gives held es held := by
  intro past balanced
  constructor
  · apply atEvents_of_all
    intro e mem _ r back
    rw [(silent e mem).2] at back
    exact absurd back (by simp)
  · have none_ (kind : E → Option R) (quiet : ∀ e ∈ es, kind e = none) : es.filterMap kind = [] :=
      List.filterMap_eq_nil_iff.mpr quiet
    unfold Balanced taken returned at balanced ⊢
    rw [List.filterMap_append, List.filterMap_append, none_ takes fun e mem => (silent e mem).1,
      none_ gives fun e mem => (silent e mem).2, List.append_nil, List.append_nil]
    exact balanced

omit [DecidableEq R] in
/-- How many of a kind were taken, given back and are held. -/
theorem balanced_count {past : List E} {held : Multiset R} (balanced : Balanced takes gives past held)
    (kind : R → Prop) [DecidablePred kind] :
    (past.filterMap takes).countP (fun r => kind r) =
      (past.filterMap gives).countP (fun r => kind r) + held.countP kind := by
  have counts := congrArg (Multiset.countP kind) balanced
  rw [Multiset.countP_add] at counts
  simpa [taken, returned, Multiset.coe_countP] using counts

end Ledger
