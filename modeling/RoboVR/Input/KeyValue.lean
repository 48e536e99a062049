import RoboVR.Lib.Utf8
import RoboVR.Wire.TeleopHeader

/- `parse_key_value_payload`: fields between semicolons and newlines, each a key and a value
   around its first equals sign. -/
namespace QuestKeyValue
open QuestTeleop (Bytes)

abbrev Str := List Char

/-- A Python dict of strings, in the order in which its keys came in. -/
abbrev Dict := List (Str × Str)

def Dict.get (d : Dict) (key : Str) : Option Str := List.lookup key d

def Dict.put (d : Dict) (key value : Str) : Dict :=
  if d.any (fun entry => entry.1 = key) then
    d.map fun entry => if entry.1 = key then (key, value) else entry
  else d ++ [(key, value)]

def Dict.update (d other : Dict) : Dict :=
  other.foldl (fun d entry => Dict.put d entry.1 entry.2) d

def isSpace (c : Char) : Bool :=
  let n := c.toNat
  (9 ≤ n && n ≤ 13) || (28 ≤ n && n ≤ 32) || n == 0x85 || n == 0xA0 || n == 0x1680 ||
    (0x2000 ≤ n && n ≤ 0x200A) || n == 0x2028 || n == 0x2029 || n == 0x202F || n == 0x205F ||
    n == 0x3000

def strip (text : Str) : Str := (text.dropWhile isSpace).rdropWhile isSpace

/-- `re.split` at each longest run of separators. -/
def splitRuns (separator : Char → Bool) : Str → List Str
  | [] => [[]]
  | c :: text =>
    if separator c then
      if (text.head?.map separator).getD false then splitRuns separator text
      else [] :: splitRuns separator text
    else
      match splitRuns separator text with
      | [] => [[c]]
      | field :: fields => (c :: field) :: fields

def isFieldEnd (c : Char) : Bool := c == ';' || c == '\n'

def putField (out : Dict) (field : Str) : Dict :=
  let field := strip field
  if field = [] ∨ '=' ∉ field then out
  else
    let key := strip (field.takeWhile (· ≠ '='))
    let value := (field.dropWhile (· ≠ '=')).tail
    if key = [] then out else Dict.put out key (strip value)

def parseKeyValuePayload (payload : Bytes) : Dict :=
  (splitRuns isFieldEnd (Utf8.decode payload)).foldl putField []

/- Text that is printed as such fields. -/

def fieldText (entry : Str × Str) : Str := entry.1 ++ '=' :: entry.2

def payloadText (entries : Dict) : Str := List.intercalate [';'] (entries.map fieldText)

def isPlain (c : Char) : Bool := c.isAlphanum || c == '_' || c == '-' || c == '.'

def Plain (text : Str) : Prop := ∀ c ∈ text, isPlain c = true

instance (text : Str) : Decidable (Plain text) :=
  decidable_of_iff (text.all isPlain = true) List.all_eq_true

theorem plain_code {c : Char} (plain : isPlain c = true) :
    45 ≤ c.toNat ∧ c.toNat ≤ 122 ∧ c.toNat ≠ 59 ∧ c.toNat ≠ 61 := by
  have codes : c.toNat = c.val.toNat := rfl
  simp only [isPlain, Char.isAlphanum, Char.isAlpha, Char.isUpper, Char.isLower, Char.isDigit,
    Bool.or_eq_true, Bool.and_eq_true, decide_eq_true_eq, ge_iff_le, UInt32.le_iff_toNat_le,
    beq_iff_eq] at plain
  rcases plain with ((((upper | lower) | digit) | rfl) | rfl) | rfl
  · have low : 'A'.val.toNat = 65 := rfl
    have high : 'Z'.val.toNat = 90 := rfl
    omega
  · have low : 'a'.val.toNat = 97 := rfl
    have high : 'z'.val.toNat = 122 := rfl
    omega
  · have low : '0'.val.toNat = 48 := rfl
    have high : '9'.val.toNat = 57 := rfl
    omega
  · decide
  · decide
  · decide

theorem plain_notSpace {c : Char} (plain : isPlain c = true) : isSpace c = false := by
  obtain ⟨low, high, _, _⟩ := plain_code plain
  simp only [isSpace, Bool.or_eq_false_iff, Bool.and_eq_false_iff, decide_eq_false_iff_not,
    beq_eq_false_iff_ne]
  omega

theorem plain_notEnd {c : Char} (plain : isPlain c = true) : isFieldEnd c = false := by
  obtain ⟨low, _, semicolon, _⟩ := plain_code plain
  simp only [isFieldEnd, Bool.or_eq_false_iff, beq_eq_false_iff_ne]
  constructor
  · rintro rfl
    exact semicolon rfl
  · rintro rfl
    exact absurd low (by decide)

theorem plain_notEquals {c : Char} (plain : isPlain c = true) : c ≠ '=' := by
  rintro rfl
  exact (plain_code plain).2.2.2 rfl

theorem trim_none {drops : Char → Bool} {text : Str} (kept : ∀ c ∈ text, drops c = false) :
    (text.dropWhile drops).rdropWhile drops = text := by
  have front : text.dropWhile drops = text := by
    cases text with
    | nil => rfl
    | cons c text =>
      rw [List.dropWhile_cons, if_neg]
      rw [kept c List.mem_cons_self]
      exact Bool.false_ne_true
  rw [front]
  cases text using List.reverseRecOn with
  | nil => rfl
  | append_singleton text c =>
    rw [List.rdropWhile_concat_neg]
    rw [kept c (by simp)]
    exact Bool.false_ne_true

theorem strip_plain {text : Str} (plain : ∀ c ∈ text, isSpace c = false) : strip text = text :=
  trim_none plain

theorem splitRuns_field {separator : Char → Bool} {field : Str}
    (whole : ∀ c ∈ field, separator c = false) : splitRuns separator field = [field] := by
  induction field with
  | nil => rfl
  | cons c field ih =>
    rw [splitRuns, if_neg (by simp [whole c List.mem_cons_self]),
      ih fun d mem => whole d (List.mem_cons_of_mem c mem)]

theorem splitRuns_append {separator : Char → Bool} {field rest : Str} {c d : Char}
    (whole : ∀ c ∈ field, separator c = false) (ends : separator c = true)
    (begins : separator d = false) :
    splitRuns separator (field ++ c :: d :: rest) = field :: splitRuns separator (d :: rest) := by
  induction field with
  | nil => simp [splitRuns, ends, begins]
  | cons e field ih =>
    rw [List.cons_append, splitRuns, if_neg (by simp [whole e List.mem_cons_self]),
      ih fun d mem => whole d (List.mem_cons_of_mem e mem)]

/-- A key that is not empty and has no equals sign, and no space or field end in either part. -/
structure FieldEntry (entry : Str × Str) : Prop where
  nonempty : entry.1 ≠ []
  noEquals : '=' ∉ entry.1
  whole : ∀ c ∈ fieldText entry, isFieldEnd c = false ∧ isSpace c = false

theorem FieldEntry.begins {entry : Str × Str} (field : FieldEntry entry) :
    ∃ d rest, fieldText entry = d :: rest := by
  obtain ⟨d, rest, same⟩ := List.exists_cons_of_ne_nil field.nonempty
  exact ⟨d, rest ++ '=' :: entry.2, by rw [fieldText, same, List.cons_append]⟩

def PlainEntry (entry : Str × Str) : Prop := entry.1 ≠ [] ∧ Plain entry.1 ∧ Plain entry.2

theorem fieldText_plain {entry : Str × Str} (plain : PlainEntry entry) :
    ∀ c ∈ fieldText entry, isPlain c = true ∨ c = '=' := by
  intro c mem
  rcases List.mem_append.mp mem with inKey | inValue
  · exact .inl (plain.2.1 c inKey)
  · rcases List.mem_cons.mp inValue with equals | inside
    · exact .inr equals
    · exact .inl (plain.2.2 c inside)

theorem plainEntry_field {entry : Str × Str} (plain : PlainEntry entry) : FieldEntry entry where
  nonempty := plain.1
  noEquals := fun mem => plain_notEquals (plain.2.1 _ mem) rfl
  whole := by
    intro c mem
    rcases fieldText_plain plain c mem with inside | rfl
    · exact ⟨plain_notEnd inside, plain_notSpace inside⟩
    · decide

theorem splitRuns_fields (first : Str × Str) {more : List (Char × Str × Str)}
    (field : FieldEntry first) (fields : ∀ p ∈ more, FieldEntry p.2)
    (ends : ∀ p ∈ more, isFieldEnd p.1 = true) :
    splitRuns isFieldEnd (fieldText first ++ more.flatMap fun p => p.1 :: fieldText p.2) =
      fieldText first :: more.map fun p => fieldText p.2 := by
  induction more generalizing first with
  | nil =>
    rw [List.flatMap_nil, List.append_nil, splitRuns_field fun c mem => (field.whole c mem).1]
    rfl
  | cons p more ih =>
    have next := fields p List.mem_cons_self
    have later := ih p.2 next (fun q mem => fields q (List.mem_cons_of_mem p mem))
      (fun q mem => ends q (List.mem_cons_of_mem p mem))
    obtain ⟨d, rest, begins⟩ := next.begins
    have head : isFieldEnd d = false := (next.whole d (by simp [begins])).1
    rw [begins, List.cons_append] at later
    rw [List.flatMap_cons, List.cons_append, begins, List.cons_append,
      splitRuns_append (fun c mem => (field.whole c mem).1) (ends p List.mem_cons_self) head, later,
      List.map_cons, begins]

theorem payloadText_cons (entry other : Str × Str) (entries : Dict) :
    payloadText (entry :: other :: entries) =
      fieldText entry ++ ';' :: payloadText (other :: entries) := by
  simp [payloadText, List.intercalate]

theorem payloadText_single (entry : Str × Str) : payloadText [entry] = fieldText entry := by
  simp [payloadText, List.intercalate]

theorem payloadText_flatMap (entry : Str × Str) (entries : Dict) :
    payloadText (entry :: entries) =
      fieldText entry ++ entries.flatMap fun other => ';' :: fieldText other := by
  induction entries generalizing entry with
  | nil => simp [payloadText_single]
  | cons other entries ih => rw [payloadText_cons, ih other, List.flatMap_cons, List.cons_append]

theorem fieldText_ascii {entry : Str × Str} (plain : PlainEntry entry) :
    ∀ c ∈ fieldText entry, 0 < c.toNat ∧ c.toNat < 0x80 := by
  intro c mem
  rcases fieldText_plain plain c mem with inside | rfl
  · have bounds := plain_code inside
    omega
  · decide

theorem payloadText_ascii {entries : Dict} (plain : ∀ entry ∈ entries, PlainEntry entry) :
    ∀ c ∈ payloadText entries, 0 < c.toNat ∧ c.toNat < 0x80 := by
  cases entries with
  | nil => simp [payloadText, List.intercalate]
  | cons entry entries =>
    rw [payloadText_flatMap]
    intro c mem
    rcases List.mem_append.mp mem with first | behind
    · exact fieldText_ascii (plain entry List.mem_cons_self) c first
    · obtain ⟨other, there, inside⟩ := List.mem_flatMap.mp behind
      rcases List.mem_cons.mp inside with rfl | further
      · decide
      · exact fieldText_ascii (plain other (List.mem_cons_of_mem entry there)) c further

theorem takeWhile_key {entry : Str × Str} (noEquals : '=' ∉ entry.1) :
    (fieldText entry).takeWhile (· ≠ '=') = entry.1 ∧
      (fieldText entry).dropWhile (· ≠ '=') = '=' :: entry.2 := by
  have key : ∀ c ∈ entry.1, decide (c ≠ '=') = true := by
    intro c mem
    exact decide_eq_true fun same => noEquals (same ▸ mem)
  constructor
  · rw [fieldText, List.takeWhile_append_of_pos key]
    simp
  · rw [fieldText, List.dropWhile_append_of_pos key]
    simp

theorem putField_entry {entry : Str × Str} (field : FieldEntry entry) (out : Dict) :
    putField out (fieldText entry) = Dict.put out entry.1 entry.2 := by
  obtain ⟨d, rest, begins⟩ := field.begins
  obtain ⟨taken, dropped⟩ := takeWhile_key field.noEquals
  have parsed : ¬ (fieldText entry = [] ∨ '=' ∉ fieldText entry) := by
    rw [not_or, not_not]
    exact ⟨by simp [begins], by simp [fieldText]⟩
  have key : ∀ c ∈ entry.1, isSpace c = false := by
    intro c mem
    exact (field.whole c (by simp [fieldText, mem])).2
  have value : ∀ c ∈ entry.2, isSpace c = false := by
    intro c mem
    exact (field.whole c (by simp [fieldText, mem])).2
  unfold putField
  rw [strip_plain fun c mem => (field.whole c mem).2]
  simp only
  rw [if_neg parsed, taken, dropped, List.tail_cons, strip_plain key, strip_plain value,
    if_neg field.nonempty]

theorem put_fresh {d : Dict} {key : Str} (fresh : key ∉ d.map Prod.fst) (value : Str) :
    Dict.put d key value = d ++ [(key, value)] := by
  rw [Dict.put, if_neg]
  intro found
  obtain ⟨entry, mem, same⟩ := List.any_eq_true.mp found
  rw [decide_eq_true_eq] at same
  exact fresh (same ▸ List.mem_map_of_mem mem)

theorem put_entries {entries : Dict} (out : Dict)
    (fields : ∀ entry ∈ entries, FieldEntry entry)
    (distinct : ((out ++ entries).map Prod.fst).Nodup) :
    (entries.map fieldText).foldl putField out = out ++ entries := by
  induction entries generalizing out with
  | nil => simp
  | cons entry entries ih =>
    have fresh : entry.1 ∉ out.map Prod.fst := by
      rw [List.map_append, List.nodup_append] at distinct
      intro inside
      exact distinct.2.2 _ inside entry.1 (by simp) rfl
    rw [List.append_cons] at distinct
    have later := ih (out ++ [entry]) (fun e mem => fields e (List.mem_cons_of_mem entry mem)) distinct
    rw [List.append_assoc] at later
    rw [List.map_cons, List.foldl_cons, putField_entry (fields entry List.mem_cons_self),
      put_fresh fresh]
    exact later

theorem parse_fields {payload : Bytes} (first : Str × Str) (more : List (Char × Str × Str))
    (text : Utf8.decode payload =
      fieldText first ++ more.flatMap fun p => p.1 :: fieldText p.2)
    (field : FieldEntry first) (fields : ∀ p ∈ more, FieldEntry p.2)
    (ends : ∀ p ∈ more, isFieldEnd p.1 = true)
    (distinct : ((first :: more.map Prod.snd).map Prod.fst).Nodup) :
    parseKeyValuePayload payload = first :: more.map Prod.snd := by
  have each : ∀ entry ∈ first :: more.map Prod.snd, FieldEntry entry := by
    intro entry mem
    rcases List.mem_cons.mp mem with rfl | behind
    · exact field
    · obtain ⟨p, there, rfl⟩ := List.mem_map.mp behind
      exact fields p there
  have entries := put_entries [] each (by simpa using distinct)
  rw [List.map_cons, List.map_map] at entries
  rw [parseKeyValuePayload, text, splitRuns_fields first field fields ends]
  exact entries

theorem parse_payloadText {entries : Dict} (plain : ∀ entry ∈ entries, PlainEntry entry)
    (some_ : entries ≠ []) (distinct : (entries.map Prod.fst).Nodup) :
    parseKeyValuePayload (Utf8.ascii (payloadText entries)) = entries := by
  cases entries with
  | nil => exact absurd rfl some_
  | cons first entries =>
    have text := Utf8.decode_ascii fun c mem => (payloadText_ascii plain c mem).2
    have back : (entries.map fun entry => (';', entry)).map Prod.snd = entries := by
      simp [Function.comp_def]
    have fields : ∀ p ∈ entries.map fun entry => (';', entry), FieldEntry p.2 := by
      intro p mem
      obtain ⟨entry, there, rfl⟩ := List.mem_map.mp mem
      exact plainEntry_field (plain entry (List.mem_cons_of_mem first there))
    have ends : ∀ p ∈ entries.map fun entry => (';', entry), isFieldEnd p.1 = true := by
      intro p mem
      obtain ⟨entry, _, rfl⟩ := List.mem_map.mp mem
      rfl
    have read := parse_fields first (entries.map fun entry => (';', entry))
      (by rw [text, payloadText_flatMap, List.flatMap_map])
      (plainEntry_field (plain first List.mem_cons_self)) fields ends (by rw [back]; exact distinct)
    rw [read, back]

theorem get_zip {keys values : List Str} (distinct : keys.Nodup) {i : Nat} {key value : Str}
    (there : keys[i]? = some key) (given : values[i]? = some value) :
    Dict.get (keys.zip values) key = some value := by
  induction keys generalizing values i with
  | nil => exact absurd there (by simp)
  | cons first keys ih =>
    rw [List.nodup_cons] at distinct
    cases values with
    | nil => exact absurd given (by simp)
    | cons head values =>
      cases i with
      | zero =>
        simp only [List.getElem?_cons_zero, Option.some.injEq] at there given
        rw [there, given, List.zip_cons_cons, Dict.get, List.lookup_cons_self]
      | succ i =>
        simp only [List.getElem?_cons_succ] at there given
        have other : (key == first) = false := by
          rw [beq_eq_false_iff_ne]
          rintro rfl
          exact distinct.1 (List.mem_of_getElem? there)
        rw [List.zip_cons_cons, Dict.get, List.lookup_cons, other]
        exact ih distinct.2 there given

end QuestKeyValue
