import RoboVR.Lib.TracedRun

/- A mailbox for one letter. Putting a letter in throws away the one that is there, taking the
   letter out leaves the box empty. -/
namespace Mailbox
open TracedRun

variable {A : Type}

inductive Mail (A : Type) where
  | put (letter : A)
  | took (letter : A)

def letterPut : Mail A → Option A
  | .put letter => some letter
  | .took _ => none

def letterTaken : Mail A → Option A
  | .put _ => none
  | .took letter => some letter

def puts (past : List (Mail A)) : List A := past.filterMap letterPut

def takes (past : List (Mail A)) : List A := past.filterMap letterTaken

def isTake (mail : Mail A) : Bool := (letterTaken mail).isSome

def content (past : List (Mail A)) : Option A := (puts (since isTake past)).getLast?

def Delivers (past : List (Mail A)) : Prop :=
  AtEvents (fun before mail => ∀ letter, mail = .took letter → content before = some letter) [] past

theorem content_put (past : List (Mail A)) (letter : A) :
    content (past ++ [.put letter]) = some letter := by
  have plain : ∀ mail ∈ [Mail.put letter], isTake mail = false := by simp [isTake, letterTaken]
  rw [content, since_append_plain isTake past plain, puts, List.filterMap_append]
  simp [letterPut]

theorem content_took (past : List (Mail A)) (letter : A) :
    content (past ++ [.took letter]) = none := by
  rw [content, since_append_mark isTake past (by rfl)]
  rfl

theorem delivers_put {past : List (Mail A)} (delivers : Delivers past) (letter : A) :
    Delivers (past ++ [.put letter]) := by
  rw [Delivers, atEvents_append]
  exact ⟨delivers, fun _ same => absurd same (by simp), trivial⟩

theorem delivers_took {past : List (Mail A)} (delivers : Delivers past) {letter : A}
    (inside : content past = some letter) : Delivers (past ++ [.took letter]) := by
  rw [Delivers, atEvents_append]
  refine ⟨delivers, fun other same => ?_, trivial⟩
  rw [List.nil_append, inside]
  cases same
  rfl

/-- Letters are taken at most once and in the order in which they were put in, the one in the box
    after those. -/
theorem takes_content_sublist {past : List (Mail A)} (delivers : Delivers past) :
    (takes past ++ (content past).toList).Sublist (puts past) := by
  induction past using List.reverseRecOn with
  | nil => exact List.Sublist.refl _
  | append_singleton past mail ih =>
    rw [Delivers, atEvents_append] at delivers
    obtain ⟨before, now, _⟩ := delivers
    have sub := ih before
    rw [List.nil_append] at now
    cases mail with
    | put letter =>
      have same : takes (past ++ [.put letter]) = takes past := by simp [takes, letterTaken]
      have more : puts (past ++ [.put letter]) = puts past ++ [letter] := by
        simp [puts, letterPut]
      rw [content_put, same, more]
      exact ((List.sublist_append_left _ _).trans sub).append (List.Sublist.refl [letter])
    | took letter =>
      have more : takes (past ++ [.took letter]) = takes past ++ [letter] := by
        simp [takes, letterTaken]
      have same : puts (past ++ [.took letter]) = puts past := by simp [puts, letterPut]
      rw [now letter rfl] at sub
      rw [content_took, more, same]
      simpa using sub

theorem takes_sublist {past : List (Mail A)} (delivers : Delivers past) :
    (takes past).Sublist (puts past) :=
  (List.sublist_append_left _ _).trans (takes_content_sublist delivers)

end Mailbox
