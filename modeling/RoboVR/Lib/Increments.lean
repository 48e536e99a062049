import Mathlib

/- A path followed by its increments, with some of them dropped. -/
namespace Increments
variable {G : Type*} [AddCommGroup G]

def increments : G → List G → List G
  | _, [] => []
  | a, b :: path => (b - a) :: increments b path

def arrived : G → List G → G
  | a, [] => a
  | _, b :: path => arrived b path

theorem sum_increments (a : G) (path : List G) :
    (increments a path).sum = arrived a path - a := by
  induction path generalizing a with
  | nil => simp [increments, arrived]
  | cons b path ih => simp [increments, arrived, ih]

theorem sum_dropped (p : G → Prop) [DecidablePred p] (vs : List G) :
    (vs.map fun v => if p v then 0 else v).sum = vs.sum - (vs.filter p).sum := by
  induction vs with
  | nil => simp
  | cons v vs ih =>
    by_cases dropped : p v
    · simp only [List.map_cons, List.sum_cons, List.filter_cons, dropped, decide_true, if_true, ih]
      abel
    · simp only [List.map_cons, List.sum_cons, List.filter_cons, dropped, decide_false,
        Bool.false_eq_true, if_false, ih]
      abel

/-- A follower that drops increments stays behind by their sum, however small each one is. -/
theorem followed_sub (p : G → Prop) [DecidablePred p] (a : G) (path : List G) :
    ((increments a path).map fun v => if p v then 0 else v).sum - (arrived a path - a) =
      -((increments a path).filter p).sum := by
  rw [sum_dropped, sum_increments]
  abel

end Increments
