import Mathlib

/- Streams of tokens that each begin with a delimiter, cut while the stream arrives.
   A token runs from its delimiter up to the next one, so the last token of a buffer
   stays in it until a later delimiter or the end of the stream closes it. -/
namespace Delimited

variable {α : Type}

/-- `mark xs` is the length of the delimiter at the head of `xs`, 0 for none.
    `settled` bounds the lookahead: an earlier position without a delimiter is decided
    once a later delimiter is complete. `overlap` says that a delimiter which begins
    inside another ends where that one ends. -/
structure Delimiter (α : Type) where
  mark : List α → Nat
  mark_le_length : ∀ xs, mark xs ≤ xs.length
  stable : ∀ xs ys, mark xs ≠ 0 → mark (xs ++ ys) = mark xs
  settled : ∀ pre xs ys, pre ≠ [] → mark (pre ++ xs) = 0 → mark xs ≠ 0 →
    mark (pre ++ (xs ++ ys)) = 0
  overlap : ∀ pre xs, pre.length < mark (pre ++ xs) → mark xs ≠ 0 →
    pre.length + mark xs = mark (pre ++ xs)

def Delimiter.seek (d : Delimiter α) : List α → Option (List α × List α)
  | [] => none
  | x :: xs =>
    if d.mark (x :: xs) ≠ 0 then some ([], x :: xs)
    else (d.seek xs).map fun c => (x :: c.1, c.2)

def Delimiter.cut (d : Delimiter α) (xs : List α) : Option (List α × List α) :=
  (d.seek (xs.drop (d.mark xs))).map fun c => (xs.take (d.mark xs) ++ c.1, c.2)

def Delimiter.drainFuel (d : Delimiter α) : Nat → List α → List (List α) × List α
  | 0, xs => ([], xs)
  | fuel + 1, xs =>
    match d.cut xs with
    | none => ([], xs)
    | some (token, rest) =>
      let more := d.drainFuel fuel rest
      (token :: more.1, more.2)

def Delimiter.drain (d : Delimiter α) (xs : List α) : List (List α) × List α := d.drainFuel xs.length xs

def Delimiter.tokens (d : Delimiter α) (xs : List α) : List (List α) := (d.drain xs).1 ++ [(d.drain xs).2]

variable (d : Delimiter α)

theorem mark_nil : d.mark [] = 0 := Nat.le_zero.mp (d.mark_le_length [])

theorem seek_of_mark {xs : List α} (marked : d.mark xs ≠ 0) : d.seek xs = some ([], xs) := by
  cases xs with
  | nil => exact absurd (mark_nil d) marked
  | cons x xs => simp [Delimiter.seek, marked]

theorem seek_cons_of_unmarked {x : α} {xs : List α} (plain : d.mark (x :: xs) = 0) :
    d.seek (x :: xs) = (d.seek xs).map fun c => (x :: c.1, c.2) := by
  simp [Delimiter.seek, plain]

theorem seek_some {xs pre rest : List α} (found : d.seek xs = some (pre, rest)) :
    xs = pre ++ rest ∧ d.mark rest ≠ 0 ∧
      ∀ a b, pre = a ++ b → b ≠ [] → d.mark (b ++ rest) = 0 := by
  induction xs generalizing pre with
  | nil => simp [Delimiter.seek] at found
  | cons x xs ih =>
    by_cases marked : d.mark (x :: xs) = 0
    · rw [seek_cons_of_unmarked d marked, Option.map_eq_some_iff] at found
      obtain ⟨⟨p, r⟩, tail, same⟩ := found
      simp only [Prod.mk.injEq] at same
      obtain ⟨rfl, rfl⟩ := same
      obtain ⟨split, here, earlier⟩ := ih tail
      refine ⟨by rw [List.cons_append, ← split], here, ?_⟩
      intro a b parts nonempty
      cases a with
      | nil =>
        rw [List.nil_append] at parts
        rw [← parts, List.cons_append, ← split]
        exact marked
      | cons y a =>
        exact earlier a b (List.cons.inj parts).2 nonempty
    · rw [seek_of_mark d marked] at found
      obtain ⟨rfl, rfl⟩ := Prod.mk.inj (Option.some.inj found)
      refine ⟨rfl, marked, ?_⟩
      intro a b parts nonempty
      exact absurd (List.append_eq_nil_iff.mp parts.symm).2 nonempty

theorem seek_none_iff {xs : List α} :
    d.seek xs = none ↔ ∀ pre suf, xs = pre ++ suf → d.mark suf = 0 := by
  induction xs with
  | nil =>
    refine ⟨fun _ pre suf parts => ?_, fun _ => rfl⟩
    rw [(List.append_eq_nil_iff.mp parts.symm).2]
    exact mark_nil d
  | cons x xs ih =>
    by_cases marked : d.mark (x :: xs) = 0
    · rw [seek_cons_of_unmarked d marked, Option.map_eq_none_iff, ih]
      constructor
      · intro tail pre suf parts
        cases pre with
        | nil =>
          rw [List.nil_append] at parts
          rw [← parts]
          exact marked
        | cons y pre => exact tail pre suf (List.cons.inj parts).2
      · intro all pre suf parts
        exact all (x :: pre) suf (by rw [parts, List.cons_append])
    · rw [seek_of_mark d marked]
      refine ⟨fun none => absurd none (by simp), fun all => ?_⟩
      exact absurd (all [] (x :: xs) rfl) marked

theorem seek_append {xs pre rest : List α} (ys : List α)
    (found : d.seek xs = some (pre, rest)) : d.seek (xs ++ ys) = some (pre, rest ++ ys) := by
  induction xs generalizing pre with
  | nil => simp [Delimiter.seek] at found
  | cons x xs ih =>
    by_cases marked : d.mark (x :: xs) = 0
    · rw [seek_cons_of_unmarked d marked, Option.map_eq_some_iff] at found
      obtain ⟨⟨p, r⟩, tail, same⟩ := found
      simp only [Prod.mk.injEq] at same
      obtain ⟨rfl, rfl⟩ := same
      obtain ⟨split, here, _⟩ := seek_some d tail
      have still : d.mark (x :: (xs ++ ys)) = 0 := by
        have plain : d.mark ((x :: p) ++ r) = 0 := by rw [List.cons_append, ← split]; exact marked
        have := d.settled (x :: p) r ys (by simp) plain here
        rwa [List.cons_append, ← List.append_assoc, ← split] at this
      rw [List.cons_append, seek_cons_of_unmarked d still, ih tail]
      rfl
    · rw [seek_of_mark d marked] at found
      obtain ⟨rfl, rfl⟩ := Prod.mk.inj (Option.some.inj found)
      exact seek_of_mark d (by rw [d.stable _ _ marked]; exact marked)

theorem seek_reaches (pre : List α) {suf : List α} (marked : d.mark suf ≠ 0) :
    ∃ p q, pre = p ++ q ∧ d.seek (pre ++ suf) = some (p, q ++ suf) := by
  cases found : d.seek (pre ++ suf) with
  | none => exact absurd ((seek_none_iff d).mp found pre suf rfl) marked
  | some c =>
    obtain ⟨p, rest⟩ := c
    obtain ⟨split, _, earlier⟩ := seek_some d found
    rcases List.append_eq_append_iff.mp split with ⟨gap, rfl, rfl⟩ | ⟨q, rfl, rfl⟩
    · -- the found delimiter lies at or after `suf`: only the first is possible
      by_cases empty : gap = []
      · subst empty
        exact ⟨pre, [], by simp, by simp⟩
      · exact absurd (earlier pre gap rfl empty) marked
    · exact ⟨p, q, rfl, rfl⟩

theorem cut_some {xs token rest : List α} (found : d.cut xs = some (token, rest)) :
    xs = token ++ rest ∧ d.mark rest ≠ 0 ∧ rest.length < xs.length := by
  unfold Delimiter.cut at found
  rw [Option.map_eq_some_iff] at found
  obtain ⟨⟨pre, r⟩, search, same⟩ := found
  simp only [Prod.mk.injEq] at same
  obtain ⟨rfl, rfl⟩ := same
  obtain ⟨split, here, earlier⟩ := seek_some d search
  have whole : xs = xs.take (d.mark xs) ++ pre ++ r := by
    rw [List.append_assoc, ← split, List.take_append_drop]
  refine ⟨whole, here, ?_⟩
  -- either the delimiter of this token or the bytes before the next one make progress
  by_cases headless : d.mark xs = 0
  · have search' : xs = pre ++ r := by rw [headless, List.drop_zero] at split; exact split
    have nonempty : pre ≠ [] := by
      rintro rfl
      rw [List.nil_append] at search'
      exact here (search' ▸ headless)
    have := List.length_pos_of_ne_nil nonempty
    have := congrArg List.length search'
    simp only [List.length_append] at this
    omega
  · have := d.mark_le_length xs
    have := congrArg List.length whole
    simp only [List.length_append, List.length_take] at this
    omega

theorem cut_append {xs token rest : List α} (ys : List α) (marked : d.mark xs ≠ 0)
    (found : d.cut xs = some (token, rest)) : d.cut (xs ++ ys) = some (token, rest ++ ys) := by
  unfold Delimiter.cut at found ⊢
  rw [Option.map_eq_some_iff] at found
  obtain ⟨⟨pre, r⟩, search, same⟩ := found
  simp only [Prod.mk.injEq] at same
  obtain ⟨rfl, rfl⟩ := same
  have bound := d.mark_le_length xs
  rw [d.stable _ _ marked, List.drop_append_of_le_length bound, List.take_append_of_le_length bound,
    seek_append d ys search]
  rfl

/-- A stream is reached from its last token by putting closed tokens before it. -/
theorem cut_induction {motive : List α → Prop}
    (last : ∀ xs, d.cut xs = none → motive xs)
    (more : ∀ xs token rest, d.cut xs = some (token, rest) → motive rest → motive xs)
    (xs : List α) : motive xs := by
  induction h : xs.length using Nat.strongRecOn generalizing xs with
  | ind n ih =>
    subst h
    cases found : d.cut xs with
    | none => exact last xs found
    | some c =>
      have smaller := (cut_some d found).2.2
      exact more xs c.1 c.2 found (ih c.2.length smaller c.2 rfl)

theorem drainFuel_enough {fuel : Nat} {xs : List α} (enough : xs.length ≤ fuel) :
    d.drainFuel fuel xs = d.drain xs := by
  induction h : xs.length using Nat.strongRecOn generalizing xs fuel with
  | ind n ih =>
    subst h
    unfold Delimiter.drain
    cases fuel with
    | zero => rw [Nat.le_zero.mp enough]
    | succ fuel =>
      cases size : xs.length with
      | zero =>
        have empty : xs = [] := List.length_eq_zero_iff.mp size
        subst empty
        simp [Delimiter.drainFuel, Delimiter.cut, Delimiter.seek]
      | succ n =>
        simp only [Delimiter.drainFuel]
        cases found : d.cut xs with
        | none => rfl
        | some c =>
          obtain ⟨token, rest⟩ := c
          have smaller := (cut_some d found).2.2
          simp only [ih rest.length smaller (by omega : rest.length ≤ fuel) rfl,
            ih rest.length smaller (by omega : rest.length ≤ n) rfl]

theorem drain_of_cut_none {xs : List α} (last : d.cut xs = none) : d.drain xs = ([], xs) := by
  rw [← drainFuel_enough d (Nat.le_succ xs.length)]
  simp [Delimiter.drainFuel, last]

theorem drain_of_cut_some {xs token rest : List α} (found : d.cut xs = some (token, rest)) :
    d.drain xs = (token :: (d.drain rest).1, (d.drain rest).2) := by
  rw [← drainFuel_enough d (Nat.le_succ xs.length)]
  have := (cut_some d found).2.2
  simp only [Delimiter.drainFuel, found, drainFuel_enough d (by omega : rest.length ≤ xs.length)]

theorem drain_flatten (xs : List α) : (d.drain xs).1.flatten ++ (d.drain xs).2 = xs := by
  induction xs using cut_induction d with
  | last xs last => simp [drain_of_cut_none d last]
  | more xs token rest found ih =>
    rw [drain_of_cut_some d found]
    simp only [List.flatten_cons, List.append_assoc, ih]
    exact (cut_some d found).1.symm

theorem tokens_flatten (xs : List α) : (d.tokens xs).flatten = xs := by
  simp only [Delimiter.tokens, List.flatten_append, List.flatten_singleton]
  exact drain_flatten d xs

theorem drain_rest_marked {xs : List α} (marked : d.mark xs ≠ 0) :
    d.mark (d.drain xs).2 ≠ 0 := by
  induction xs using cut_induction d with
  | last xs last =>
    rw [drain_of_cut_none d last]
    exact marked
  | more xs token rest found ih =>
    rw [drain_of_cut_some d found]
    exact ih (cut_some d found).2.1

theorem drain_append {xs : List α} (ys : List α) (marked : d.mark xs ≠ 0) :
    d.drain (xs ++ ys) =
      ((d.drain xs).1 ++ (d.drain ((d.drain xs).2 ++ ys)).1,
        (d.drain ((d.drain xs).2 ++ ys)).2) := by
  induction xs using cut_induction d with
  | last xs last => simp [drain_of_cut_none d last]
  | more xs token rest found ih =>
    rw [drain_of_cut_some d found, drain_of_cut_some d (cut_append d ys marked found),
      ih (cut_some d found).2.1]
    rfl

theorem tokens_of_cut_some {xs token rest : List α} (found : d.cut xs = some (token, rest)) :
    d.tokens xs = token :: d.tokens rest := by
  simp [Delimiter.tokens, drain_of_cut_some d found]

theorem tokens_of_cut_none {xs : List α} (last : d.cut xs = none) : d.tokens xs = [xs] := by
  simp [Delimiter.tokens, drain_of_cut_none d last]

/-- A reader that starts at a later delimiter sees the same tokens from there on. Only
    the first of them can differ: it lacks what `lead` holds of its own delimiter. -/
theorem tokens_from_later_mark {pre suf : List α} (marked : d.mark (pre ++ suf) ≠ 0)
    (later : d.mark suf ≠ 0) :
    ∃ before lead token after,
      d.tokens (pre ++ suf) = before ++ (lead ++ token) :: after ∧
      d.tokens suf = token :: after ∧ pre = before.flatten ++ lead ∧
      lead.length + d.mark suf = d.mark (lead ++ suf) := by
  induction h : pre.length using Nat.strongRecOn generalizing pre with
  | ind n ih =>
    subst h
    have bound := d.mark_le_length (pre ++ suf)
    by_cases inside : pre.length < d.mark (pre ++ suf)
    · -- both streams begin with delimiters that end together
      have together := d.overlap pre suf inside later
      have sameTail : (pre ++ suf).drop (d.mark (pre ++ suf)) = suf.drop (d.mark suf) := by
        rw [← together, List.drop_append, List.drop_of_length_le (by omega), List.nil_append]
        congr 1; omega
      have sameHead : (pre ++ suf).take (d.mark (pre ++ suf)) = pre ++ suf.take (d.mark suf) := by
        rw [← together, List.take_append, List.take_of_length_le (by omega)]
        congr 2; omega
      cases search : d.seek (suf.drop (d.mark suf)) with
      | none =>
        have cutSuf : d.cut suf = none := by simp [Delimiter.cut, search]
        have cutAll : d.cut (pre ++ suf) = none := by simp [Delimiter.cut, sameTail, search]
        exact ⟨[], pre, suf, [], by simp [tokens_of_cut_none d cutAll],
          tokens_of_cut_none d cutSuf, by simp, together⟩
      | some c =>
        have cutSuf : d.cut suf = some (suf.take (d.mark suf) ++ c.1, c.2) := by
          simp [Delimiter.cut, search]
        have cutAll : d.cut (pre ++ suf) = some (pre ++ (suf.take (d.mark suf) ++ c.1), c.2) := by
          simp [Delimiter.cut, sameTail, sameHead, search]
        exact ⟨[], pre, suf.take (d.mark suf) ++ c.1, d.tokens c.2,
          by rw [tokens_of_cut_some d cutAll, List.nil_append],
          tokens_of_cut_some d cutSuf, by simp, together⟩
    · -- the first token is closed before or at `suf`, so the search goes on from its rest
      have tail : (pre ++ suf).drop (d.mark (pre ++ suf)) =
          pre.drop (d.mark (pre ++ suf)) ++ suf :=
        List.drop_append_of_le_length (by omega)
      obtain ⟨p, q, parts, search⟩ := seek_reaches d (pre.drop (d.mark (pre ++ suf))) later
      have head : (pre ++ suf).take (d.mark (pre ++ suf)) = pre.take (d.mark (pre ++ suf)) :=
        List.take_append_of_le_length (by omega)
      have found : d.cut (pre ++ suf) =
          some (pre.take (d.mark (pre ++ suf)) ++ p, q ++ suf) := by
        simp [Delimiter.cut, tail, search, head]
      obtain ⟨_, here, smaller⟩ := cut_some d found
      simp only [List.length_append] at smaller
      obtain ⟨before, lead, token, after, all, some_, joined, same⟩ :=
        ih q.length (by omega) here rfl
      refine ⟨(pre.take (d.mark (pre ++ suf)) ++ p) :: before, lead, token, after, ?_, some_, ?_, same⟩
      · rw [tokens_of_cut_some d found, all, List.cons_append]
      · rw [List.flatten_cons, List.append_assoc, ← joined, List.append_assoc, ← parts,
          List.take_append_drop]

/-- A cut of a stream into tokens: each holds a whole delimiter at its head, and no
    other delimiter of the stream begins behind that inside the token. -/
def Delimiter.Blocks (d : Delimiter α) : List (List α) → Prop
  | [] => True
  | block :: rest =>
    d.mark (block ++ rest.flatten) ≠ 0 ∧ d.mark (block ++ rest.flatten) ≤ block.length ∧
      (∀ a b, block = a ++ b → d.mark (block ++ rest.flatten) ≤ a.length → b ≠ [] →
        d.mark (b ++ rest.flatten) = 0) ∧
      d.Blocks rest

theorem blocks_cut {block : List α} {rest : List (List α)} (blocks : d.Blocks (block :: rest))
    (more : rest ≠ []) : d.cut (block ++ rest.flatten) = some (block, rest.flatten) := by
  obtain ⟨_, inside, plain, tail⟩ := blocks
  have next : d.mark rest.flatten ≠ 0 := by
    cases rest with
    | nil => contradiction
    | cons b bs => exact tail.1
  have split : (block ++ rest.flatten).drop (d.mark (block ++ rest.flatten)) =
      block.drop (d.mark (block ++ rest.flatten)) ++ rest.flatten :=
    List.drop_append_of_le_length inside
  obtain ⟨p, q, parts, search⟩ :=
    seek_reaches d (block.drop (d.mark (block ++ rest.flatten))) next
  have none_ : q = [] := by
    by_contra some_
    obtain ⟨_, here, _⟩ := seek_some d search
    refine here (plain (block.take (d.mark (block ++ rest.flatten)) ++ p) q ?_ ?_ some_)
    · rw [List.append_assoc, ← parts, List.take_append_drop]
    · rw [List.length_append, List.length_take]; omega
  subst none_
  rw [List.append_nil] at parts
  simp only [Delimiter.cut, split, search, Option.map_some, List.nil_append,
    List.take_append_of_le_length inside, ← parts, List.take_append_drop]

theorem blocks_last_cut {block : List α} (blocks : d.Blocks [block]) : d.cut block = none := by
  obtain ⟨_, inside, plain, _⟩ := blocks
  simp only [List.flatten_nil, List.append_nil] at inside plain
  rw [Delimiter.cut, Option.map_eq_none_iff, seek_none_iff]
  intro pre suf parts
  by_cases empty : suf = []
  · rw [empty]; exact mark_nil d
  · refine plain (block.take (d.mark block) ++ pre) suf ?_ ?_ empty
    · rw [List.append_assoc, ← parts, List.take_append_drop]
    · rw [List.length_append, List.length_take]; omega

theorem tokens_of_blocks {blocks : List (List α)} (cut : d.Blocks blocks) (some_ : blocks ≠ []) :
    d.tokens blocks.flatten = blocks := by
  induction blocks with
  | nil => contradiction
  | cons block rest ih =>
    by_cases last : rest = []
    · subst last
      rw [List.flatten_singleton, tokens_of_cut_none d (blocks_last_cut d cut)]
    · rw [List.flatten_cons, tokens_of_cut_some d (blocks_cut d cut last),
        ih cut.2.2.2 last]

theorem blocks_tokens {xs : List α} (marked : d.mark xs ≠ 0) : d.Blocks (d.tokens xs) := by
  induction xs using cut_induction d with
  | last xs last =>
    rw [Delimiter.cut, Option.map_eq_none_iff] at last
    rw [tokens_of_cut_none d (by simp [Delimiter.cut, last])]
    simp only [Delimiter.Blocks, List.flatten_nil, List.append_nil]
    refine ⟨marked, d.mark_le_length xs, fun a b parts long _ => ?_, trivial⟩
    refine (seek_none_iff d).mp last (a.drop (d.mark xs)) b ?_
    rw [← List.drop_append_of_le_length long, ← parts]
  | more xs token rest found ih =>
    have bound := d.mark_le_length xs
    have here := (cut_some d found).2.1
    rw [tokens_of_cut_some d found]
    rw [Delimiter.cut, Option.map_eq_some_iff] at found
    obtain ⟨⟨pre, r⟩, search, same⟩ := found
    simp only [Prod.mk.injEq] at same
    obtain ⟨rfl, rfl⟩ := same
    obtain ⟨split, _, earlier⟩ := seek_some d search
    have whole : xs.take (d.mark xs) ++ pre ++ r = xs := by
      rw [List.append_assoc, ← split, List.take_append_drop]
    simp only [Delimiter.Blocks, tokens_flatten, whole]
    refine ⟨marked, ?_, fun a b parts long some_ => ?_, ih here⟩
    · rw [List.length_append, List.length_take]; omega
    · refine earlier (a.drop (d.mark xs)) b ?_ some_
      have := congrArg (List.drop (d.mark xs)) parts
      rw [List.drop_append_of_le_length long, List.drop_append, List.drop_of_length_le (by simp),
        List.nil_append, List.length_take, Nat.min_eq_left bound, Nat.sub_self,
        List.drop_zero] at this
      exact this

end Delimited
