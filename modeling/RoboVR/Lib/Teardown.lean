import Mathlib

/- Resources that are made from others, their sources, and must not outlive some, their parents. In
   a sound trace nothing is taken that is there already or whose sources are not, and nothing is
   given back that is not there or is a parent of something that is. -/
namespace Teardown

inductive Act (R : Type) where
  | take (r : R)
  | give (r : R)
  deriving DecidableEq

variable {R : Type} [DecidableEq R] (sources parents : R → List R)

def after (held : Finset R) : List (Act R) → Finset R
  | [] => held
  | .take r :: acts => after (insert r held) acts
  | .give r :: acts => after (held.erase r) acts

def Sound (held : Finset R) : List (Act R) → Prop
  | [] => True
  | .take r :: acts => (r ∉ held ∧ ∀ p ∈ sources r, p ∈ held) ∧ Sound (insert r held) acts
  | .give r :: acts => (r ∈ held ∧ ∀ c ∈ held, r ∉ parents c) ∧ Sound (held.erase r) acts

instance decidableSound : (held : Finset R) → (acts : List (Act R)) →
    Decidable (Sound sources parents held acts)
  | _, [] => isTrue trivial
  | held, .take r :: acts =>
    have := decidableSound (insert r held) acts
    inferInstanceAs (Decidable ((r ∉ held ∧ ∀ p ∈ sources r, p ∈ held) ∧
      Sound sources parents (insert r held) acts))
  | held, .give r :: acts =>
    have := decidableSound (held.erase r) acts
    inferInstanceAs (Decidable ((r ∈ held ∧ ∀ c ∈ held, r ∉ parents c) ∧
      Sound sources parents (held.erase r) acts))

def giveAll : List R → Finset R → List (Act R)
  | [], _ => []
  | r :: order, held => if r ∈ held then .give r :: giveAll order (held.erase r)
    else giveAll order held

/-- No parent comes before a child. -/
def ChildrenFirst (order : List R) : Prop := order.Pairwise fun r later => r ∉ parents later

variable {sources parents}

theorem after_append (held : Finset R) (as bs : List (Act R)) :
    after held (as ++ bs) = after (after held as) bs := by
  induction as generalizing held with
  | nil => rfl
  | cons a as ih => cases a <;> simp only [List.cons_append, after, ih]

theorem sound_append (held : Finset R) (as bs : List (Act R)) :
    Sound sources parents held (as ++ bs) ↔
      Sound sources parents held as ∧ Sound sources parents (after held as) bs := by
  induction as generalizing held with
  | nil => simp [Sound, after]
  | cons a as ih => cases a <;> simp only [List.cons_append, Sound, after, ih, and_assoc]

theorem after_takes (held : Finset R) (rs : List R) :
    after held (rs.map .take) = held ∪ rs.toFinset := by
  induction rs generalizing held with
  | nil => simp [after]
  | cons r rs ih =>
    rw [List.map_cons, after, ih, List.toFinset_cons, Finset.insert_union, Finset.union_insert]

theorem sound_more {held more : Finset R} {rs : List R}
    (sound : Sound sources parents held (rs.map .take))
    (apart : ∀ r ∈ rs, r ∉ more) : Sound sources parents (held ∪ more) (rs.map .take) := by
  induction rs generalizing held with
  | nil => trivial
  | cons r rs ih =>
    obtain ⟨⟨new, there⟩, later⟩ := sound
    constructor
    · constructor
      · rw [Finset.mem_union, not_or]
        exact ⟨new, apart r List.mem_cons_self⟩
      · exact fun p mem => Finset.mem_union_left _ (there p mem)
    · rw [← Finset.insert_union]
      exact ih later fun s mem => apart s (List.mem_cons_of_mem r mem)

theorem sound_takes {held : Finset R} {rs : List R} (nodup : rs.Nodup) (new : ∀ r ∈ rs, r ∉ held)
    (there : ∀ r ∈ rs, ∀ p ∈ sources r, p ∈ held) :
    Sound sources parents held (rs.map .take) := by
  induction rs generalizing held with
  | nil => trivial
  | cons r rs ih =>
    obtain ⟨first, nodup⟩ := List.nodup_cons.mp nodup
    refine ⟨⟨new r List.mem_cons_self, there r List.mem_cons_self⟩, ih nodup ?_ ?_⟩
    · intro s mem old
      rcases Finset.mem_insert.mp old with rfl | old
      · exact first mem
      · exact new s (List.mem_cons_of_mem r mem) old
    · exact fun s mem p is =>
        Finset.mem_insert_of_mem (there s (List.mem_cons_of_mem r mem) p is)

/-- Giving back in an order that covers what is there and puts children first leaves nothing. -/
theorem giveAll_sound (grounded : ∀ r, r ∉ parents r) {order : List R}
    (children : ChildrenFirst parents order) {held : Finset R} (covers : ∀ r ∈ held, r ∈ order) :
    Sound sources parents held (giveAll order held) ∧ after held (giveAll order held) = ∅ := by
  induction order generalizing held with
  | nil =>
    refine ⟨trivial, Finset.eq_empty_of_forall_notMem fun r mem => ?_⟩
    exact absurd (covers r mem) (by simp)
  | cons r order ih =>
    obtain ⟨first, later⟩ := List.pairwise_cons.mp children
    unfold giveAll
    split
    · next there =>
      have rest : ∀ s ∈ held.erase r, s ∈ order := by
        intro s mem
        obtain ⟨ne, old⟩ := Finset.mem_erase.mp mem
        exact (List.mem_cons.mp (covers s old)).resolve_left ne
      obtain ⟨sound, none_⟩ := ih later rest
      refine ⟨⟨⟨there, fun c mem => ?_⟩, sound⟩, none_⟩
      rcases List.mem_cons.mp (covers c mem) with rfl | behind
      · exact grounded c
      · exact first c behind
    · next gone =>
      apply ih later
      intro s mem
      refine (List.mem_cons.mp (covers s mem)).resolve_left ?_
      rintro rfl
      exact gone mem

theorem after_giveAll (order : List R) (held : Finset R) :
    after held (giveAll order held) = held.filter (· ∉ order) := by
  induction order generalizing held with
  | nil => simp [giveAll, after]
  | cons r order ih =>
    unfold giveAll
    split
    · rw [after, ih]
      ext s
      simp only [Finset.mem_filter, Finset.mem_erase, List.mem_cons, not_or]
      tauto
    · next gone =>
      rw [ih]
      ext s
      simp only [Finset.mem_filter, List.mem_cons, not_or]
      constructor
      · rintro ⟨mem, out⟩
        exact ⟨mem, fun same => gone (same ▸ mem), out⟩
      · rintro ⟨mem, _, out⟩
        exact ⟨mem, out⟩

end Teardown
