import Mathlib

/- A level that one party stores and another polls: the rising edges that polling sees, against
   those that were stored. -/
namespace EdgePolling

inductive Signal where
  | store (high : Bool)
  | poll

def rise (before after : Bool) : Nat := if !before && after then 1 else 0

def rises : Bool → List Bool → Nat
  | _, [] => 0
  | before, after :: levels => rise before after + rises after levels

def levels : List Signal → List Bool :=
  List.filterMap fun
    | .store high => some high
    | .poll => none

/-- The level stored last, the one polled last, the rising edges seen between polls, and how often
    a change was taken back before a poll saw it. -/
structure Watch where
  current : Bool := false
  polled : Bool := false
  seen : Nat := 0
  missed : Nat := 0

def Watch.step (w : Watch) : Signal → Watch
  | .store high =>
    { w with
      current := high
      missed := w.missed + if w.current ≠ w.polled ∧ high = w.polled then 1 else 0 }
  | .poll => { w with polled := w.current, seen := w.seen + rise w.polled w.current }

def watch (signals : List Signal) : Watch := signals.foldl Watch.step {}

@[simp] theorem watch_nil : watch [] = {} := rfl

theorem watch_append (signals : List Signal) (s : Signal) :
    watch (signals ++ [s]) = (watch signals).step s := by
  simp [watch]

theorem step_accounts (w : Watch) (s : Signal) :
    (w.step s).seen + rise (w.step s).polled (w.step s).current + (w.step s).missed =
      w.seen + rise w.polled w.current + w.missed + rises w.current (levels [s]) := by
  obtain ⟨current, polled, seen, missed⟩ := w
  cases s with
  | store high =>
    cases current <;> cases polled <;> cases high <;>
      simp [Watch.step, rise, rises, levels] <;> omega
  | poll => cases current <;> cases polled <;> simp [Watch.step, rise, rises, levels]

theorem rises_cons (w : Watch) (s : Signal) (signals : List Signal) :
    rises w.current (levels (s :: signals)) =
      rises w.current (levels [s]) + rises (w.step s).current (levels signals) := by
  cases s with
  | store high => simp [levels, rises, Watch.step]
  | poll => simp [levels, rises, Watch.step]

theorem foldl_accounts (w : Watch) (signals : List Signal) :
    (signals.foldl Watch.step w).seen +
        rise (signals.foldl Watch.step w).polled (signals.foldl Watch.step w).current +
        (signals.foldl Watch.step w).missed =
      w.seen + rise w.polled w.current + w.missed + rises w.current (levels signals) := by
  induction signals generalizing w with
  | nil => simp [levels, rises]
  | cons s signals ih =>
    have later := ih (w.step s)
    have here := step_accounts w s
    have split := rises_cons w s signals
    rw [List.foldl_cons]
    omega

theorem rises_accounted (signals : List Signal) :
    rises false (levels signals) =
      (watch signals).seen + rise (watch signals).polled (watch signals).current +
        (watch signals).missed := by
  have accounts := foldl_accounts {} signals
  have none_ : rise false false = 0 := rfl
  simp only [none_, Nat.zero_add] at accounts
  exact accounts.symm

theorem rises_polled (signals : List Signal) :
    rises false (levels (signals ++ [Signal.poll])) =
      (watch (signals ++ [Signal.poll])).seen + (watch (signals ++ [Signal.poll])).missed := by
  have settled : rise (watch signals).current (watch signals).current = 0 := by
    cases (watch signals).current <;> rfl
  rw [rises_accounted, watch_append]
  simp only [Watch.step, settled, Nat.add_zero]

/-- A switch turned at every edge seen agrees with the edges stored as long as the missed ones are
    even in number. -/
theorem odd_seen_iff (signals : List Signal) :
    (Odd (watch (signals ++ [Signal.poll])).seen ↔ Odd (rises false (levels (signals ++ [Signal.poll])))) ↔
      Even (watch signals).missed := by
  have missed : (watch (signals ++ [Signal.poll])).missed = (watch signals).missed := by
    rw [watch_append]
    rfl
  rw [rises_polled, missed, Nat.odd_add]
  have parity := Nat.not_even_iff_odd (n := (watch (signals ++ [Signal.poll])).seen)
  tauto

end EdgePolling
