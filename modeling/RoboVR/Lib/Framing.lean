import Mathlib

/- Packets written one after another on a stream that may stop anywhere. The stream can be
   read packet by packet as long as nothing follows a packet that was cut. -/
namespace Framing

structure Attempt where
  packet : List UInt8
  written : List UInt8
  deriving DecidableEq

def Attempt.Cut (a : Attempt) : Prop := a.written ≠ [] ∧ a.written ≠ a.packet

/-- Whole packets, then at most one that was cut, and nothing behind it. -/
inductive Framed : List Attempt → Prop
  | done : Framed []
  | silent {a : Attempt} {rest : List Attempt} (nothing : a.written = []) (framed : Framed rest) :
    Framed (a :: rest)
  | whole {a : Attempt} {rest : List Attempt} (all : a.written = a.packet)
    (framed : Framed rest) : Framed (a :: rest)
  | cut {a : Attempt} {rest : List Attempt} (part : a.written <+: a.packet)
    (nothing : ∀ b ∈ rest, b.written = []) : Framed (a :: rest)

/-- A cut packet is the last one of which anything is written. -/
def NothingAfterCut (attempts : List Attempt) : Prop :=
  attempts.Pairwise fun a b => a.Cut → b.written = []

instance (a : Attempt) : Decidable a.Cut := by
  unfold Attempt.Cut
  exact inferInstance

theorem silent_nothingAfterCut {attempts : List Attempt}
    (nothing : ∀ b ∈ attempts, b.written = []) : NothingAfterCut attempts := by
  apply List.pairwise_of_forall_mem_list
  intro a _ b mem _
  exact nothing b mem

theorem framed_iff {attempts : List Attempt}
    (parts : ∀ a ∈ attempts, a.written <+: a.packet) :
    Framed attempts ↔ NothingAfterCut attempts := by
  induction attempts with
  | nil => exact ⟨fun _ => List.Pairwise.nil, fun _ => Framed.done⟩
  | cons a rest ih =>
    have later := ih fun b mem => parts b (List.mem_cons_of_mem a mem)
    constructor
    · intro framed
      apply List.pairwise_cons.mpr
      cases framed with
      | silent nothing framed =>
        exact ⟨fun _ _ cut => absurd nothing cut.1, later.mp framed⟩
      | whole all framed =>
        exact ⟨fun _ _ cut => absurd all cut.2, later.mp framed⟩
      | cut _ nothing =>
        exact ⟨fun b mem _ => nothing b mem, silent_nothingAfterCut nothing⟩
    · intro after
      obtain ⟨first, rest_⟩ := List.pairwise_cons.mp after
      by_cases nothing : a.written = []
      · exact Framed.silent nothing (later.mpr rest_)
      · by_cases all : a.written = a.packet
        · exact Framed.whole all (later.mpr rest_)
        · apply Framed.cut
          · exact parts a List.mem_cons_self
          · exact fun b mem => first b mem ⟨nothing, all⟩

/- The stream of framed attempts. -/

def isWhole (a : Attempt) : Bool := decide (a.written = a.packet)

def stream (attempts : List Attempt) : List UInt8 := attempts.flatMap Attempt.written

def wholeStream (attempts : List Attempt) : List UInt8 :=
  (attempts.filter isWhole).flatMap Attempt.packet

theorem silent_stream {attempts : List Attempt} (nothing : ∀ a ∈ attempts, a.written = []) :
    stream attempts = [] ∧ wholeStream attempts = [] := by
  constructor
  · exact List.flatMap_eq_nil_iff.mpr nothing
  · apply List.flatMap_eq_nil_iff.mpr
    intro a mem
    obtain ⟨there, whole⟩ := List.mem_filter.mp mem
    rw [← of_decide_eq_true whole]
    exact nothing a there

/-- The whole packets, and behind them at most a part of one. -/
theorem framed_stream {attempts : List Attempt} (framed : Framed attempts) :
    ∃ part, stream attempts = wholeStream attempts ++ part ∧
      (part = [] ∨ ∃ a ∈ attempts, part <+: a.packet ∧ part ≠ a.packet) := by
  induction framed with
  | done => exact ⟨[], rfl, .inl rfl⟩
  | @silent a rest nothing framed ih =>
    obtain ⟨part, split, short⟩ := ih
    refine ⟨part, ?_, short.imp_right fun ⟨b, mem, found⟩ => ⟨b, List.mem_cons_of_mem a mem, found⟩⟩
    have first : wholeStream (a :: rest) = wholeStream rest := by
      by_cases whole : isWhole a = true
      · have empty : a.packet = [] := by rw [← of_decide_eq_true whole, nothing]
        rw [wholeStream, List.filter_cons_of_pos whole, List.flatMap_cons, empty]
        rfl
      · rw [wholeStream, List.filter_cons_of_neg whole]
        rfl
    rw [first, ← split, stream, List.flatMap_cons, nothing]
    rfl
  | @whole a rest all framed ih =>
    obtain ⟨part, split, short⟩ := ih
    refine ⟨part, ?_, short.imp_right fun ⟨b, mem, found⟩ => ⟨b, List.mem_cons_of_mem a mem, found⟩⟩
    have there : isWhole a = true := decide_eq_true all
    have first : wholeStream (a :: rest) = a.packet ++ wholeStream rest := by
      rw [wholeStream, List.filter_cons_of_pos there]
      rfl
    change a.written ++ stream rest = _
    rw [first, split, all, List.append_assoc]
  | @cut a rest part nothing =>
    obtain ⟨silent, noWhole⟩ := silent_stream nothing
    have written : stream (a :: rest) = a.written := by
      change a.written ++ stream rest = a.written
      rw [silent, List.append_nil]
    rw [written]
    by_cases all : a.written = a.packet
    · refine ⟨[], ?_, .inl rfl⟩
      have there : isWhole a = true := decide_eq_true all
      rw [wholeStream, List.filter_cons_of_pos there, List.flatMap_cons, all]
      change a.packet = a.packet ++ wholeStream rest ++ []
      rw [noWhole, List.append_nil, List.append_nil]
    · refine ⟨a.written, ?_, .inr ⟨a, List.mem_cons_self, part, all⟩⟩
      have gone : ¬ isWhole a = true := fun there => all (of_decide_eq_true there)
      rw [wholeStream, List.filter_cons_of_neg gone]
      change a.written = wholeStream rest ++ a.written
      rw [noWhole, List.nil_append]

end Framing
