import Mathlib

/- Two sides mark keys as they become ready, each at its own pace. A key that both sides have
   marked is taken when it lies above the last one taken; the greatest is taken first, and
   marks up to it are dropped. -/
namespace Pairing

variable {α : Type} [LinearOrder α]

structure Pair (α : Type) [LinearOrder α] where
  left : Finset α
  right : Finset α
  last : Option α

def Pair.empty : Pair α := { left := ∅, right := ∅, last := none }

def Pair.Fresh (p : Pair α) (n : α) : Prop := ∀ m ∈ p.last, m < n

instance (p : Pair α) (n : α) : Decidable (p.Fresh n) := by
  unfold Pair.Fresh
  exact inferInstance

def greatest (keys : Finset α) : Option α :=
  if some_ : keys.Nonempty then some (keys.max' some_) else none

def Pair.ready (p : Pair α) : Option α := greatest ((p.left ∩ p.right).filter p.Fresh)

def mark (keys : Finset α) : Option α → Finset α
  | none => keys
  | some n => insert n keys

def Pair.mark (p : Pair α) (l r : Option α) : Pair α :=
  { p with left := Pairing.mark p.left l, right := Pairing.mark p.right r }

def Pair.take (p : Pair α) (n : α) : Pair α :=
  { left := p.left.filter (n < ·), right := p.right.filter (n < ·), last := some n }

/-- Both sides mark at most one key, then a ready key is taken. -/
def Pair.step (p : Pair α) (l r : Option α) : Pair α × Option α :=
  match (p.mark l r).ready with
  | none => (p.mark l r, none)
  | some n => ((p.mark l r).take n, some n)

def Pair.Settled (p : Pair α) : Prop := ∀ n, n ∈ p.left → n ∈ p.right → ¬ p.Fresh n

theorem mem_mark {keys : Finset α} {l : Option α} {n : α} :
    n ∈ mark keys l ↔ l = some n ∨ n ∈ keys := by
  cases l with
  | none => simp [mark]
  | some m => simp [mark, eq_comm]

theorem greatest_none {keys : Finset α} : greatest keys = none ↔ keys = ∅ := by
  unfold greatest
  split
  · next some_ => simp [some_.ne_empty]
  · next none_ => simp [Finset.not_nonempty_iff_eq_empty.mp none_]

theorem greatest_some {keys : Finset α} {n : α} :
    greatest keys = some n ↔ n ∈ keys ∧ ∀ m ∈ keys, m ≤ n := by
  unfold greatest
  split
  · next some_ =>
    rw [Option.some.injEq]
    constructor
    · rintro rfl
      exact ⟨keys.max'_mem some_, fun m mem => keys.le_max' m mem⟩
    · rintro ⟨mem, above⟩
      exact le_antisymm (above _ (keys.max'_mem some_)) (keys.le_max' n mem)
  · next none_ =>
    constructor
    · intro impossible
      exact absurd impossible (by simp)
    · rintro ⟨mem, _⟩
      exact absurd ⟨n, mem⟩ none_

theorem ready_none {p : Pair α} : p.ready = none ↔ p.Settled := by
  rw [Pair.ready, greatest_none, Finset.filter_eq_empty_iff]
  constructor
  · intro all n left right
    exact all (Finset.mem_inter.mpr ⟨left, right⟩)
  · intro settled n mem
    exact settled n (Finset.mem_inter.mp mem).1 (Finset.mem_inter.mp mem).2

theorem ready_some {p : Pair α} {n : α} : p.ready = some n ↔
    (n ∈ p.left ∧ n ∈ p.right ∧ p.Fresh n) ∧
      ∀ m, m ∈ p.left → m ∈ p.right → p.Fresh m → m ≤ n := by
  simp only [Pair.ready, greatest_some, Finset.mem_filter, Finset.mem_inter]
  constructor
  · rintro ⟨⟨⟨left, right⟩, fresh⟩, above⟩
    exact ⟨⟨left, right, fresh⟩, fun m l r f => above m ⟨⟨l, r⟩, f⟩⟩
  · rintro ⟨⟨left, right, fresh⟩, above⟩
    exact ⟨⟨⟨left, right⟩, fresh⟩, fun m mem => above m mem.1.1 mem.1.2 mem.2⟩

theorem take_settled {p : Pair α} {n : α} (ready : p.ready = some n) : (p.take n).Settled := by
  intro m left right fresh
  obtain ⟨⟨_, _, above_last⟩, above⟩ := ready_some.mp ready
  simp only [Pair.take, Finset.mem_filter] at left right
  have newer : p.Fresh m := by
    intro k mem
    exact lt_trans (above_last k mem) left.2
  have low := above m left.1 right.1 newer
  exact absurd left.2 (not_lt.mpr low)

theorem step_none {p : Pair α} {l r : Option α} (nothing : (p.step l r).2 = none) :
    (p.mark l r).Settled ∧ (p.step l r).1 = p.mark l r := by
  unfold Pair.step at nothing ⊢
  cases ready : (p.mark l r).ready with
  | none => exact ⟨ready_none.mp ready, rfl⟩
  | some n => simp [ready] at nothing

theorem step_some {p : Pair α} {l r : Option α} {n : α} (taken : (p.step l r).2 = some n) :
    (p.mark l r).ready = some n ∧ (p.step l r).1 = (p.mark l r).take n := by
  unfold Pair.step at taken ⊢
  cases ready : (p.mark l r).ready with
  | none => simp [ready] at taken
  | some m =>
    rw [ready] at taken
    obtain rfl := Option.some.inj taken
    exact ⟨rfl, rfl⟩

theorem step_settled (p : Pair α) (l r : Option α) : (p.step l r).1.Settled := by
  cases outcome : (p.step l r).2 with
  | none =>
    obtain ⟨settled, same⟩ := step_none outcome
    rw [same]
    exact settled
  | some n =>
    obtain ⟨ready, same⟩ := step_some outcome
    rw [same]
    exact take_settled ready

theorem ready_new {p : Pair α} {l r : Option α} {n : α} (settled : p.Settled)
    (ready : (p.mark l r).ready = some n) :
    (l = some n ∧ n ∈ mark p.right r) ∨ (r = some n ∧ n ∈ mark p.left l) := by
  obtain ⟨⟨left, right, fresh⟩, _⟩ := ready_some.mp ready
  simp only [Pair.mark] at left right
  rcases mem_mark.mp left with new | old
  · exact Or.inl ⟨new, right⟩
  · rcases mem_mark.mp right with new' | old'
    · exact Or.inr ⟨new', left⟩
    · exact absurd fresh (settled n old old')

/- Each side also shows the key it marked last. -/

/-- When a side marks a key that the other has marked before, the other still shows it. -/
def Level (p : Pair α) (l r shownL shownR : Option α) : Prop :=
  ∀ n, p.Fresh n →
    (l = some n → n ∈ p.right → r.or shownR = some n) ∧
    (r = some n → n ∈ p.left → l.or shownL = some n)

/-- A taken key is the one both sides show, exactly when no side marks behind the other. -/
theorem shown_iff_level {p : Pair α} {l r shownL shownR : Option α} (settled : p.Settled) :
    (∀ n, (p.step l r).2 = some n → l.or shownL = some n ∧ r.or shownR = some n) ↔
      Level p l r shownL shownR := by
  have lefts {n : α} : l = some n → l.or shownL = some n := by rintro rfl; rfl
  have rights {n : α} : r = some n → r.or shownR = some n := by rintro rfl; rfl
  constructor
  · intro shown n fresh
    have marked (left : n ∈ mark p.left l) (right : n ∈ mark p.right r) :
        ∃ k, n ≤ k ∧ (p.step l r).2 = some k := by
      cases outcome : (p.step l r).2 with
      | none => exact absurd fresh ((step_none outcome).1 n left right)
      | some k =>
        exact ⟨k, (ready_some.mp (step_some outcome).1).2 n left right fresh, rfl⟩
    constructor
    · intro new old
      obtain ⟨k, above, taken⟩ := marked (mem_mark.mpr (Or.inl new)) (mem_mark.mpr (Or.inr old))
      obtain ⟨left, right⟩ := shown k taken
      rw [lefts new, Option.some.injEq] at left
      rw [left]
      exact right
    · intro new old
      obtain ⟨k, above, taken⟩ := marked (mem_mark.mpr (Or.inr old)) (mem_mark.mpr (Or.inl new))
      obtain ⟨left, right⟩ := shown k taken
      rw [rights new, Option.some.injEq] at right
      rw [right]
      exact left
  · intro level n taken
    have ready := (step_some taken).1
    have fresh := (ready_some.mp ready).1.2.2
    rcases ready_new settled ready with ⟨new, other⟩ | ⟨new, other⟩
    · refine ⟨lefts new, ?_⟩
      rcases mem_mark.mp other with also | old
      · exact rights also
      · exact (level n fresh).1 new old
    · refine ⟨?_, rights new⟩
      rcases mem_mark.mp other with also | old
      · exact lefts also
      · exact (level n fresh).2 new old

/- A side may pass over keys it has seen; the marks are only those it has done. -/

def Tracks (p : Pair α) (doneL doneR : Finset α) : Prop :=
  ∀ n, p.Fresh n → (n ∈ p.left ↔ n ∈ doneL) ∧ (n ∈ p.right ↔ n ∈ doneR)

def Kept (p : Pair α) (seenL seenR doneL doneR : Finset α) : Prop :=
  ∀ m, greatest (seenL ∩ seenR) = some m → p.Fresh m → m ∈ doneL ∧ m ∈ doneR

/-- Every key that both sides have seen is taken or lies below a taken one. -/
def Covered (p : Pair α) (seenL seenR : Finset α) : Prop :=
  ∀ n, n ∈ seenL → n ∈ seenR → ∃ k ∈ p.last, n ≤ k

theorem fresh_take {p : Pair α} {k n : α} : (p.take k).Fresh n ↔ k < n := by
  simp [Pair.Fresh, Pair.take]

theorem tracks_empty : Tracks (Pair.empty : Pair α) ∅ ∅ := by
  intro n _
  simp [Pair.empty]

theorem tracks_mark {p : Pair α} {doneL doneR : Finset α} {l r : Option α}
    (tracks : Tracks p doneL doneR) :
    Tracks (p.mark l r) (mark doneL l) (mark doneR r) := by
  intro n fresh
  obtain ⟨lefts, rights⟩ := tracks n fresh
  simp only [Pair.mark, mem_mark, lefts, rights, and_self]

theorem tracks_take {p : Pair α} {doneL doneR : Finset α} {k : α}
    (tracks : Tracks p doneL doneR) (ready : p.ready = some k) :
    Tracks (p.take k) doneL doneR := by
  intro n fresh
  rw [fresh_take] at fresh
  have newer : p.Fresh n := by
    intro j mem
    exact lt_trans ((ready_some.mp ready).1.2.2 j mem) fresh
  obtain ⟨lefts, rights⟩ := tracks n newer
  simp only [Pair.take, Finset.mem_filter, lefts, rights, fresh, and_true, and_self]

theorem tracks_step {p : Pair α} {doneL doneR : Finset α} (l r : Option α)
    (tracks : Tracks p doneL doneR) :
    Tracks (p.step l r).1 (mark doneL l) (mark doneR r) := by
  cases outcome : (p.step l r).2 with
  | none =>
    rw [(step_none outcome).2]
    exact tracks_mark tracks
  | some n =>
    obtain ⟨ready, same⟩ := step_some outcome
    rw [same]
    exact tracks_take (tracks_mark tracks) ready

/-- After a step all seen pairs are covered, exactly when the newest one was kept. -/
theorem covered_iff_kept {p : Pair α} {doneL doneR seenL seenR : Finset α} {l r : Option α}
    (tracks : Tracks p doneL doneR)
    (seesL : mark doneL l ⊆ seenL) (seesR : mark doneR r ⊆ seenR) :
    Covered (p.step l r).1 seenL seenR ↔
      Kept p seenL seenR (mark doneL l) (mark doneR r) := by
  have marks := tracks_mark (l := l) (r := r) tracks
  constructor
  · intro covered m newest fresh
    obtain ⟨inside, above⟩ := greatest_some.mp newest
    obtain ⟨left, right⟩ := Finset.mem_inter.mp inside
    obtain ⟨k, last, bound⟩ := covered m left right
    cases outcome : (p.step l r).2 with
    | none =>
      rw [(step_none outcome).2] at last
      exact absurd (fresh k last) (not_lt.mpr bound)
    | some taken =>
      obtain ⟨ready, same⟩ := step_some outcome
      rw [same] at last
      obtain rfl : taken = k := by simpa [Pair.take] using last
      obtain ⟨⟨inLeft, inRight, newer⟩, _⟩ := ready_some.mp ready
      have doneLeft := ((marks taken newer).1).mp inLeft
      have doneRight := ((marks taken newer).2).mp inRight
      have low := above taken (Finset.mem_inter.mpr ⟨seesL doneLeft, seesR doneRight⟩)
      rw [le_antisymm bound low]
      exact ⟨doneLeft, doneRight⟩
  · intro kept n left right
    have some_ : ∃ m, greatest (seenL ∩ seenR) = some m := by
      cases newest : greatest (seenL ∩ seenR) with
      | none =>
        rw [greatest_none, Finset.eq_empty_iff_forall_notMem] at newest
        exact absurd (Finset.mem_inter.mpr ⟨left, right⟩) (newest n)
      | some m => exact ⟨m, rfl⟩
    obtain ⟨m, newest⟩ := some_
    have below : n ≤ m := (greatest_some.mp newest).2 n (Finset.mem_inter.mpr ⟨left, right⟩)
    cases outcome : (p.step l r).2 with
    | none =>
      obtain ⟨settled, same⟩ := step_none outcome
      have stale : ¬ p.Fresh m := by
        intro fresh
        obtain ⟨doneLeft, doneRight⟩ := kept m newest fresh
        exact settled m ((marks m fresh).1.mpr doneLeft) ((marks m fresh).2.mpr doneRight) fresh
      simp only [Pair.Fresh, not_forall, not_lt] at stale
      obtain ⟨j, last, bound⟩ := stale
      rw [same]
      exact ⟨j, last, le_trans below bound⟩
    | some k =>
      obtain ⟨ready, same⟩ := step_some outcome
      rw [same]
      refine ⟨k, rfl, le_trans below ?_⟩
      by_cases fresh : p.Fresh m
      · obtain ⟨doneLeft, doneRight⟩ := kept m newest fresh
        exact (ready_some.mp ready).2 m ((marks m fresh).1.mpr doneLeft)
          ((marks m fresh).2.mpr doneRight) fresh
      · simp only [Pair.Fresh, not_forall, not_lt] at fresh
        obtain ⟨j, last, bound⟩ := fresh
        exact le_trans bound (le_of_lt ((ready_some.mp ready).1.2.2 j last))

end Pairing
