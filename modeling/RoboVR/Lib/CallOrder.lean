import RoboVR.Lib.TracedRun

/- Rules for the order of calls, as an automaton that says which call may come next. A machine
   keeps to them if each of its steps makes calls that are allowed. -/
namespace CallOrder
open TracedRun

variable {R C : Type}

def Accepts (next : R → C → R → Prop) : R → List C → R → Prop
  | r, [], after => after = r
  | r, c :: cs, after => ∃ mid, next r c mid ∧ Accepts next mid cs after

variable {next : R → C → R → Prop}

theorem accepts_one {r after : R} {c : C} (allowed : next r c after) :
    Accepts next r [c] after := ⟨after, allowed, rfl⟩

theorem accepts_append (r after : R) (as bs : List C) :
    Accepts next r (as ++ bs) after ↔
      ∃ mid, Accepts next r as mid ∧ Accepts next mid bs after := by
  induction as generalizing r with
  | nil => simp [Accepts]
  | cons a as ih =>
    simp only [List.cons_append, Accepts, ih]
    constructor
    · rintro ⟨first, allowed, mid, front, back⟩
      exact ⟨mid, ⟨first, allowed, front⟩, back⟩
    · rintro ⟨mid, ⟨first, allowed, front⟩, back⟩
      exact ⟨first, allowed, mid, front, back⟩

theorem accepts_trans {r mid after : R} {as bs : List C} (front : Accepts next r as mid)
    (back : Accepts next mid bs after) : Accepts next r (as ++ bs) after :=
  (accepts_append r after as bs).mpr ⟨mid, front, back⟩

/-- A machine whose steps keep to the rules keeps to them over a run. -/
theorem accepts_run {S I : Type} {step : S → I → S × List C} (Rel : S → R → Prop)
    (each : ∀ s r i, Rel s r → ∃ after, Accepts next r (step s i).2 after ∧ Rel (step s i).1 after)
    {s : S} {r : R} (start : Rel s r) (inputs : List I) :
    ∃ after, Accepts next r (run step s inputs).2 after ∧ Rel (run step s inputs).1 after := by
  induction inputs generalizing s r with
  | nil => exact ⟨r, rfl, start⟩
  | cons i is ih =>
    obtain ⟨mid, front, related⟩ := each s r i start
    obtain ⟨after, back, last⟩ := ih related
    exact ⟨after, accepts_trans front back, last⟩

/-- What each call adds to or takes from a count, all calls do. -/
theorem accepts_balance {weight : R → Nat} {plus minus : C → Bool}
    (each : ∀ r c after, next r c after →
      weight after + (minus c).toNat = weight r + (plus c).toNat)
    {r after : R} {cs : List C} (accepted : Accepts next r cs after) :
    weight after + cs.countP minus = weight r + cs.countP plus := by
  induction cs generalizing r with
  | nil =>
    rw [accepted]
    rfl
  | cons c cs ih =>
    obtain ⟨mid, allowed, rest⟩ := accepted
    have now := each r c mid allowed
    have later := ih rest
    rw [List.countP_cons, List.countP_cons]
    cases more : plus c <;> cases less : minus c <;> simp [more, less] at now ⊢ <;> omega

end CallOrder
