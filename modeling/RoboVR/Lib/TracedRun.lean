import Mathlib

/- Runs of a machine that answers each input with a new state and some events. What holds at
   every step of a run, and at every event of its trace, follows from one step. -/
namespace TracedRun

variable {S I E : Type}

def run (step : S → I → S × List E) : S → List I → S × List E
  | s, [] => (s, [])
  | s, i :: is => ((run step (step s i).1 is).1, (step s i).2 ++ (run step (step s i).1 is).2)

theorem run_append (step : S → I → S × List E) (s : S) (as bs : List I) :
    run step s (as ++ bs) =
      ((run step (run step s as).1 bs).1,
        (run step s as).2 ++ (run step (run step s as).1 bs).2) := by
  induction as generalizing s with
  | nil => rfl
  | cons a as ih => simp only [List.cons_append, run, ih, List.append_assoc]

/-- What every step keeps is there after a run. -/
theorem run_invariant {step : S → I → S × List E} {Inv : S → List E → Prop}
    (kept : ∀ s past i, Inv s past → Inv (step s i).1 (past ++ (step s i).2))
    {s : S} {past : List E} (start : Inv s past) (inputs : List I) :
    Inv (run step s inputs).1 (past ++ (run step s inputs).2) := by
  induction inputs generalizing s past with
  | nil => simpa [run] using start
  | cons i is ih =>
    have later := ih (kept s past i start)
    rwa [List.append_assoc] at later

theorem run_invariant_good {step : S → I → S × List E} {Good : I → Prop}
    {Inv : S → List E → Prop}
    (kept : ∀ s past i, Good i → Inv s past → Inv (step s i).1 (past ++ (step s i).2))
    {s : S} {past : List E} (start : Inv s past) {inputs : List I} (good : ∀ i ∈ inputs, Good i) :
    Inv (run step s inputs).1 (past ++ (run step s inputs).2) := by
  induction inputs generalizing s past with
  | nil => simpa [run] using start
  | cons i is ih =>
    have later := ih (kept s past i (good i List.mem_cons_self) start)
      fun j mem => good j (List.mem_cons_of_mem i mem)
    rwa [List.append_assoc] at later

/-- `P` holds at each step, of the state before it, the trace so far and the input. -/
def AtSteps (step : S → I → S × List E) (P : S → List E → I → Prop) :
    S → List E → List I → Prop
  | _, _, [] => True
  | s, past, i :: is => P s past i ∧ AtSteps step P (step s i).1 (past ++ (step s i).2) is

/-- `P` holds at each event, of what came before it. -/
def AtEvents (P : List E → E → Prop) : List E → List E → Prop
  | _, [] => True
  | past, e :: es => P past e ∧ AtEvents P (past ++ [e]) es

instance decidableAtEvents (P : List E → E → Prop) [∀ past e, Decidable (P past e)] :
    (past es : List E) → Decidable (AtEvents P past es)
  | _, [] => isTrue trivial
  | past, e :: es =>
    have := decidableAtEvents P (past ++ [e]) es
    inferInstanceAs (Decidable (P past e ∧ AtEvents P (past ++ [e]) es))

instance decidableAtSteps (step : S → I → S × List E) (P : S → List E → I → Prop)
    [∀ s past i, Decidable (P s past i)] :
    (s : S) → (past : List E) → (inputs : List I) → Decidable (AtSteps step P s past inputs)
  | _, _, [] => isTrue trivial
  | s, past, i :: is =>
    have := decidableAtSteps step P (step s i).1 (past ++ (step s i).2) is
    inferInstanceAs (Decidable (P s past i ∧ AtSteps step P (step s i).1 (past ++ (step s i).2) is))

variable {step : S → I → S × List E}

theorem atSteps_append (P : S → List E → I → Prop) (s : S) (past : List E) (as bs : List I) :
    AtSteps step P s past (as ++ bs) ↔
      AtSteps step P s past as ∧ AtSteps step P (run step s as).1 (past ++ (run step s as).2) bs := by
  induction as generalizing s past with
  | nil => simp [AtSteps, run]
  | cons a as ih => simp only [List.cons_append, AtSteps, run, ih, and_assoc, List.append_assoc]

/-- Under an invariant, what follows at one step follows at every step. -/
theorem atSteps_mono {Inv : S → List E → Prop} {Cond P : S → List E → I → Prop}
    (kept : ∀ s past i, Inv s past → Cond s past i →
      Inv (step s i).1 (past ++ (step s i).2))
    (follows : ∀ s past i, Inv s past → Cond s past i → P s past i)
    {s : S} {past : List E} {inputs : List I} (start : Inv s past)
    (met : AtSteps step Cond s past inputs) : AtSteps step P s past inputs := by
  induction inputs generalizing s past with
  | nil => trivial
  | cons i is ih =>
    constructor
    · exact follows s past i start met.1
    · exact ih (kept s past i start met.1) met.2

theorem atSteps_of_invariant {Inv : S → List E → Prop} {P : S → List E → I → Prop}
    (kept : ∀ s past i, Inv s past → Inv (step s i).1 (past ++ (step s i).2))
    (follows : ∀ s past i, Inv s past → P s past i)
    {s : S} {past : List E} (start : Inv s past) (inputs : List I) :
    AtSteps step P s past inputs := by
  induction inputs generalizing s past with
  | nil => trivial
  | cons i is ih => exact ⟨follows s past i start, ih (kept s past i start)⟩

/-- What is the same at every step that an invariant reaches, and together with the invariant
    keeps it, is the same over a run. -/
theorem atSteps_iff (Inv : S → List E → Prop) {P Q : S → List E → I → Prop}
    (kept : ∀ s past i, Inv s past → P s past i → Inv (step s i).1 (past ++ (step s i).2))
    (same : ∀ s past i, Inv s past → (P s past i ↔ Q s past i))
    {s : S} {past : List E} {inputs : List I} (start : Inv s past) :
    AtSteps step P s past inputs ↔ AtSteps step Q s past inputs := by
  constructor
  · exact atSteps_mono kept (fun s past i inv => (same s past i inv).mp) start
  · apply atSteps_mono _ (fun s past i inv => (same s past i inv).mpr) start
    intro s past i inv holds
    exact kept s past i inv ((same s past i inv).mpr holds)

theorem atEvents_append (P : List E → E → Prop) (past as bs : List E) :
    AtEvents P past (as ++ bs) ↔ AtEvents P past as ∧ AtEvents P (past ++ as) bs := by
  induction as generalizing past with
  | nil => simp [AtEvents]
  | cons a as ih => simp [AtEvents, ih, and_assoc, List.append_assoc]

theorem atEvents_iff (P : List E → E → Prop) (past es : List E) :
    AtEvents P past es ↔ ∀ pre e post, es = pre ++ e :: post → P (past ++ pre) e := by
  constructor
  · intro holds pre e post split
    rw [split, atEvents_append] at holds
    exact holds.2.1
  · intro all
    induction es generalizing past with
    | nil => trivial
    | cons e es ih =>
      constructor
      · simpa using all [] e es rfl
      · apply ih
        intro pre f post split
        have here := all (e :: pre) f post (by rw [split, List.cons_append])
        simpa [List.append_assoc] using here

theorem atEvents_of_all {P : List E → E → Prop} {es : List E}
    (all : ∀ e ∈ es, ∀ past, P past e) (past : List E) : AtEvents P past es := by
  rw [atEvents_iff]
  rintro pre e post rfl
  exact all e (by simp) _

theorem atEvents_run (P : List E → E → Prop) (s : S) (past : List E) (inputs : List I) :
    AtEvents P past (run step s inputs).2 ↔
      AtSteps step (fun s past i => AtEvents P past (step s i).2) s past inputs := by
  induction inputs generalizing s past with
  | nil => simp [run, AtEvents, AtSteps]
  | cons i is ih => simp only [run, AtSteps, atEvents_append, ih]

/- The part of a trace behind the last event of a kind. -/
section Since
variable (mark : E → Bool)

def since (past : List E) : List E :=
  past.foldl (fun kept e => if mark e then [] else kept ++ [e]) []

theorem since_foldl (kept past : List E) :
    past.foldl (fun kept e => if mark e then [] else kept ++ [e]) kept =
      if past.any mark then since mark past else kept ++ past := by
  unfold since
  induction past generalizing kept with
  | nil => simp
  | cons e past ih =>
    cases marked : mark e with
    | true => simp [marked]
    | false =>
      simp only [List.foldl_cons, marked, Bool.false_eq_true, if_false, List.any_cons,
        Bool.false_or, List.nil_append]
      rw [ih (kept ++ [e]), ih [e]]
      split <;> simp

theorem since_append (past es : List E) :
    since mark (past ++ es) = if es.any mark then since mark es else since mark past ++ es := by
  rw [since, List.foldl_append, since_foldl]
  rfl

theorem since_append_plain (past : List E) {es : List E} (plain : ∀ e ∈ es, mark e = false) :
    since mark (past ++ es) = since mark past ++ es := by
  rw [since_append, if_neg]
  intro some_
  obtain ⟨e, mem, marked⟩ := List.any_eq_true.mp some_
  rw [plain e mem] at marked
  exact absurd marked (by decide)

theorem since_append_mark (past : List E) {e : E} {es : List E} (marked : mark e = true) :
    since mark (past ++ e :: es) = since mark es := by
  have begins : since mark (e :: es) = since mark es := by simp [since, marked]
  rw [since_append, if_pos (by simp [marked]), begins]

theorem mem_since {past : List E} {e : E} (mem : e ∈ since mark past) : e ∈ past := by
  induction past using List.reverseRecOn with
  | nil => simp [since] at mem
  | append_singleton past f ih =>
    cases marked : mark f with
    | true =>
      rw [since_append_mark mark past marked] at mem
      simp [since] at mem
    | false =>
      rw [since_append_plain mark past (by simpa using marked)] at mem
      rcases List.mem_append.mp mem with old | new
      · exact List.mem_append_left _ (ih old)
      · exact List.mem_append_right _ new

end Since

end TracedRun
