import RoboVR.Input.KeyValue

/- The two C++ readers of key-value payloads next to the Python one: the host bridge's, which cuts
   fields at semicolons, and `findKeyValue`, which cuts them at newlines too. -/
namespace HostKeyValue
open QuestTeleop (Bytes)
open QuestKeyValue (Str Dict isSpace isFieldEnd fieldText FieldEntry)

def byteOf (c : Char) : UInt8 := UInt8.ofNat c.toNat

def fieldsOf (isEnd : UInt8 → Bool) : Bytes → List Bytes
  | [] => []
  | b :: bs =>
    if isEnd b then [] :: fieldsOf isEnd bs
    else
      match fieldsOf isEnd bs with
      | [] => [[b]]
      | field :: fields => (b :: field) :: fields

def keyOf (field : Bytes) : Bytes := field.takeWhile (· ≠ byteOf '=')
def valueOf (field : Bytes) : Bytes := (field.dropWhile (· ≠ byteOf '=')).tail

/-- `unordered_map::emplace`: a key that is there keeps its value. -/
def emplace (values : List (Bytes × Bytes)) (key value : Bytes) : List (Bytes × Bytes) :=
  if (values.lookup key).isSome then values else values ++ [(key, value)]

def putField (values : List (Bytes × Bytes)) (field : Bytes) : List (Bytes × Bytes) :=
  if byteOf '=' ∈ field then emplace values (keyOf field) (valueOf field) else values

def parseKeyValuePayload (payload : Bytes) : List (Bytes × Bytes) :=
  (fieldsOf (· = byteOf ';') payload).foldl putField []

def getValue (values : List (Bytes × Bytes)) (key fallback : Bytes) : Bytes :=
  (values.lookup key).getD fallback

def valueFor (key field : Bytes) : Option Bytes :=
  if byteOf '=' ∈ field ∧ keyOf field = key then some (valueOf field) else none

def findKeyValue (payload key : Bytes) : Bytes :=
  ((fieldsOf (fun b => b = byteOf ';' || b = byteOf '\n') payload).findSome? (valueFor key)).getD []

/- Both find the first field of a key. -/

theorem lookup_putField (values : List (Bytes × Bytes)) (field key : Bytes) :
    (putField values field).lookup key = (values.lookup key).or (valueFor key field) := by
  unfold putField valueFor emplace
  by_cases parsed : byteOf '=' ∈ field
  · by_cases same : keyOf field = key
    · subst same
      cases held : values.lookup (keyOf field) with
      | none => simp [parsed, held, List.lookup_append]
      | some value => simp [parsed, held]
    · have other : ¬ key = keyOf field := fun equal => same equal.symm
      cases held : values.lookup (keyOf field) with
      | none => simp [parsed, same, other, List.lookup_append]
      | some value => simp [parsed, same]
  · simp [parsed]

theorem lookup_fields (fields : List Bytes) (values : List (Bytes × Bytes)) (key : Bytes) :
    (fields.foldl putField values).lookup key =
      (values.lookup key).or (fields.findSome? (valueFor key)) := by
  induction fields generalizing values with
  | nil => simp
  | cons field fields ih =>
    rw [List.foldl_cons, ih, lookup_putField, List.findSome?_cons]
    cases values.lookup key <;> cases valueFor key field <;> rfl

theorem lookup_payload (payload key : Bytes) :
    (parseKeyValuePayload payload).lookup key =
      (fieldsOf (· = byteOf ';') payload).findSome? (valueFor key) := by
  rw [parseKeyValuePayload, lookup_fields]
  rfl

theorem fieldsOf_field {isEnd : UInt8 → Bool} {field : Bytes} (some_ : field ≠ [])
    (whole : ∀ b ∈ field, isEnd b = false) : fieldsOf isEnd field = [field] := by
  induction field with
  | nil => exact absurd rfl some_
  | cons b field ih =>
    rw [fieldsOf, if_neg (by simp [whole b List.mem_cons_self])]
    cases field with
    | nil => rfl
    | cons c field => rw [ih (by simp) fun d mem => whole d (List.mem_cons_of_mem b mem)]

theorem fieldsOf_append {isEnd : UInt8 → Bool} {field : Bytes} {b : UInt8} (rest : Bytes)
    (whole : ∀ b ∈ field, isEnd b = false) (ends : isEnd b = true) :
    fieldsOf isEnd (field ++ b :: rest) = field :: fieldsOf isEnd rest := by
  induction field with
  | nil => rw [List.nil_append, fieldsOf, if_pos ends]
  | cons c field ih =>
    rw [List.cons_append, fieldsOf, if_neg (by simp [whole c List.mem_cons_self]),
      ih fun d mem => whole d (List.mem_cons_of_mem c mem)]

theorem fieldsOf_begins {isEnd : UInt8 → Bool} {start : Bytes} (rest : Bytes) (some_ : start ≠ [])
    (whole : ∀ b ∈ start, isEnd b = false) :
    ∃ more fields, fieldsOf isEnd (start ++ rest) = (start ++ more) :: fields := by
  induction start with
  | nil => exact absurd rfl some_
  | cons b start ih =>
    rw [List.cons_append, fieldsOf, if_neg (by simp [whole b List.mem_cons_self])]
    by_cases last : start = []
    · subst last
      cases later : fieldsOf isEnd rest with
      | nil => exact ⟨[], [], by simp [later]⟩
      | cons field fields => exact ⟨field, fields, by simp [later]⟩
    · obtain ⟨more, fields, same⟩ := ih last fun d mem => whole d (List.mem_cons_of_mem b mem)
      rw [same]
      exact ⟨more, fields, rfl⟩

/- Payloads that all three readers should agree on. -/

inductive Separator where
  | semicolon
  | newline

def Separator.char : Separator → Char
  | .semicolon => ';'
  | .newline => '\n'

structure CanonicalField where
  key : Str
  value : Str
  keySome : key ≠ []
  valueSome : value ≠ []
  keyFree : ∀ c ∈ key, isSpace c = false ∧ c ≠ ';' ∧ c ≠ '='
  valueFree : ∀ c ∈ value, isSpace c = false ∧ c ≠ ';'

def CanonicalField.entry (field : CanonicalField) : Str × Str := (field.key, field.value)

structure CanonicalPayload where
  fields : List (Separator × CanonicalField)
  distinct : (fields.map fun p => p.2.key).Nodup

def behind (more : List (Separator × CanonicalField)) : Str :=
  more.flatMap fun p => p.1.char :: fieldText p.2.entry

def CanonicalPayload.text (payload : CanonicalPayload) : Str :=
  match payload.fields with
  | [] => []
  | first :: more => fieldText first.2.entry ++ behind more

def CanonicalPayload.bytes (payload : CanonicalPayload) : Bytes := Utf8.encode payload.text

def CanonicalPayload.entries (payload : CanonicalPayload) : Dict :=
  payload.fields.map fun p => p.2.entry

/-- The readers give the same value for every key, or none of them does. -/
def Agree (payload : CanonicalPayload) : Prop :=
  ∀ key : Str,
    let value := (Dict.get (QuestKeyValue.parseKeyValuePayload payload.bytes) key).map Utf8.encode
    (∀ fallback, getValue (parseKeyValuePayload payload.bytes) (Utf8.encode key) fallback =
      value.getD fallback) ∧
    findKeyValue payload.bytes (Utf8.encode key) = value.getD [] ∧
    (findKeyValue payload.bytes (Utf8.encode key) = [] ↔ value = none)

theorem CanonicalField.fieldEntry (field : CanonicalField) : FieldEntry field.entry where
  nonempty := field.keySome
  noEquals := fun mem => (field.keyFree _ mem).2.2 rfl
  whole := by
    have free : ∀ c, isSpace c = false → c ≠ ';' → isFieldEnd c = false ∧ isSpace c = false := by
      intro c space semicolon
      refine ⟨?_, space⟩
      simp only [isFieldEnd, Bool.or_eq_false_iff, beq_eq_false_iff_ne]
      refine ⟨semicolon, ?_⟩
      rintro rfl
      exact absurd space (by decide)
    intro c mem
    rcases List.mem_append.mp mem with inKey | inValue
    · exact free c (field.keyFree c inKey).1 (field.keyFree c inKey).2.1
    · rcases List.mem_cons.mp inValue with rfl | inside
      · decide
      · exact free c (field.valueFree c inside).1 (field.valueFree c inside).2

theorem encode_append (a b : Str) : Utf8.encode (a ++ b) = Utf8.encode a ++ Utf8.encode b := by
  simp [Utf8.encode]

theorem encode_ascii {c : Char} (small : c.toNat < 0x80) (text : Str) :
    Utf8.encode (c :: text) = byteOf c :: Utf8.encode text := by
  rw [Utf8.encode, List.flatMap_cons, Utf8.encodeChar_ascii small]
  rfl

def fieldBytes (field : CanonicalField) : Bytes := Utf8.encode (fieldText field.entry)

theorem fieldBytes_eq (field : CanonicalField) :
    fieldBytes field = Utf8.encode field.key ++ byteOf '=' :: Utf8.encode field.value := by
  rw [fieldBytes, fieldText, encode_append, encode_ascii (by decide)]
  rfl

theorem fieldBytes_some (field : CanonicalField) : fieldBytes field ≠ [] := by
  rw [fieldBytes_eq]
  simp

theorem fieldBytes_free (field : CanonicalField) {a : Char} (ends : isFieldEnd a = true)
    (small : a.toNat < 0x80) : byteOf a ∉ fieldBytes field := by
  rw [fieldBytes, byteOf, Utf8.mem_encode small]
  intro mem
  rw [(field.fieldEntry.whole a mem).1] at ends
  exact absurd ends (by decide)

theorem valueFor_field (field : CanonicalField) (key more : Bytes) :
    valueFor key (fieldBytes field ++ more) =
      if Utf8.encode field.key = key then some (Utf8.encode field.value ++ more) else none := by
  have equals : byteOf '=' ∉ Utf8.encode field.key := by
    rw [byteOf, Utf8.mem_encode (by decide)]
    exact field.fieldEntry.noEquals
  have before : ∀ b ∈ Utf8.encode field.key, decide (b ≠ byteOf '=') = true := by
    intro b mem
    exact decide_eq_true fun same => equals (same ▸ mem)
  have whole : fieldBytes field ++ more =
      Utf8.encode field.key ++ byteOf '=' :: (Utf8.encode field.value ++ more) := by
    rw [fieldBytes_eq, List.append_assoc, List.cons_append]
  have read : keyOf (fieldBytes field ++ more) = Utf8.encode field.key := by
    rw [keyOf, whole, List.takeWhile_append_of_pos before]
    simp
  have rest : valueOf (fieldBytes field ++ more) = Utf8.encode field.value ++ more := by
    rw [valueOf, whole, List.dropWhile_append_of_pos before]
    simp
  have parsed : byteOf '=' ∈ fieldBytes field ++ more := by simp [whole]
  simp only [valueFor, read, rest, parsed, true_and]

theorem encode_behind (p : Separator × CanonicalField) (more : List (Separator × CanonicalField)) :
    Utf8.encode (behind (p :: more)) =
      byteOf p.1.char :: (fieldBytes p.2 ++ Utf8.encode (behind more)) := by
  rw [behind, List.flatMap_cons, List.cons_append, encode_ascii, encode_append]
  · rfl
  · cases p.1 <;> decide

theorem fieldsOf_payload (isEnd : UInt8 → Bool) (first : CanonicalField)
    (more : List (Separator × CanonicalField))
    (free : ∀ field, ∀ b ∈ fieldBytes field, isEnd b = false)
    (ends : ∀ p ∈ more, isEnd (byteOf p.1.char) = true) :
    fieldsOf isEnd (fieldBytes first ++ Utf8.encode (behind more)) =
      fieldBytes first :: more.map fun p => fieldBytes p.2 := by
  induction more generalizing first with
  | nil =>
    have nothing : Utf8.encode (behind []) = [] := rfl
    rw [nothing, List.append_nil, fieldsOf_field (fieldBytes_some first) (free first)]
    rfl
  | cons p more ih =>
    rw [encode_behind, fieldsOf_append _ (free first) (ends p List.mem_cons_self),
      ih p.2 fun q mem => ends q (List.mem_cons_of_mem p mem)]
    rfl

theorem first_value (fields : List CanonicalField) (key : Str) :
    (fields.map fieldBytes).findSome? (valueFor (Utf8.encode key)) =
      (Dict.get (fields.map CanonicalField.entry) key).map Utf8.encode := by
  induction fields with
  | nil => rfl
  | cons field fields ih =>
    have here := valueFor_field field (Utf8.encode key) []
    rw [List.append_nil, List.append_nil] at here
    rw [List.map_cons, List.findSome?_cons, here, List.map_cons, Dict.get, List.lookup_cons]
    by_cases same : field.key = key
    · subst same
      simp [CanonicalField.entry]
    · have other : Utf8.encode field.key ≠ Utf8.encode key := fun equal =>
        same (Utf8.encode_injective equal)
      have apart : (key == field.entry.1) = false := by
        rw [beq_eq_false_iff_ne]
        exact fun equal => same equal.symm
      rw [if_neg other, apart]
      exact ih

theorem separator_end (p : Separator) : isFieldEnd p.char = true := by cases p <;> rfl

theorem bytes_cons (first : Separator × CanonicalField) (more : List (Separator × CanonicalField))
    (distinct : ((first :: more).map fun p => p.2.key).Nodup) :
    CanonicalPayload.bytes ⟨first :: more, distinct⟩ =
      fieldBytes first.2 ++ Utf8.encode (behind more) :=
  encode_append _ _

theorem parse_canonical (payload : CanonicalPayload) :
    QuestKeyValue.parseKeyValuePayload payload.bytes = payload.entries := by
  obtain ⟨fields, distinct⟩ := payload
  cases fields with
  | nil => rfl
  | cons first more =>
    have text : Utf8.decode (CanonicalPayload.bytes ⟨first :: more, distinct⟩) =
        fieldText first.2.entry ++
          (more.map fun p => (p.1.char, p.2.entry)).flatMap fun p => p.1 :: fieldText p.2 := by
      rw [CanonicalPayload.bytes, Utf8.decode_encode, List.flatMap_map]
      rfl
    have fields : ∀ p ∈ more.map fun p => (p.1.char, p.2.entry), FieldEntry p.2 := by
      intro p mem
      obtain ⟨q, _, rfl⟩ := List.mem_map.mp mem
      exact q.2.fieldEntry
    have ends : ∀ p ∈ more.map fun p => (p.1.char, p.2.entry), isFieldEnd p.1 = true := by
      intro p mem
      obtain ⟨q, _, rfl⟩ := List.mem_map.mp mem
      exact separator_end q.1
    have read := QuestKeyValue.parse_fields first.2.entry _ text first.2.fieldEntry fields ends
      (by simpa [Function.comp_def, CanonicalField.entry] using distinct)
    rw [read]
    simp [CanonicalPayload.entries, Function.comp_def]

theorem free_of_ends (field : CanonicalField) {b : UInt8} (mem : b ∈ fieldBytes field) :
    b ≠ byteOf ';' ∧ b ≠ byteOf '\n' := by
  constructor
  · rintro rfl
    exact fieldBytes_free field (a := ';') rfl (by decide) mem
  · rintro rfl
    exact fieldBytes_free field (a := '\n') rfl (by decide) mem

theorem value_of_ends (isEnd : UInt8 → Bool) (payload : CanonicalPayload) (key : Str)
    (free : ∀ field, ∀ b ∈ fieldBytes field, isEnd b = false)
    (ends : ∀ p ∈ payload.fields.tail, isEnd (byteOf p.1.char) = true) :
    (fieldsOf isEnd payload.bytes).findSome? (valueFor (Utf8.encode key)) =
      (Dict.get payload.entries key).map Utf8.encode := by
  obtain ⟨fields, distinct⟩ := payload
  cases fields with
  | nil => rfl
  | cons first more =>
    have values := first_value ((first :: more).map Prod.snd) key
    rw [bytes_cons, fieldsOf_payload isEnd first.2 more free ends]
    simpa [CanonicalPayload.entries, Function.comp_def] using values

/-- `findKeyValue` agrees with the Python reader whatever the separators. -/
theorem findKeyValue_canonical (payload : CanonicalPayload) (key : Str) :
    findKeyValue payload.bytes (Utf8.encode key) =
      ((Dict.get payload.entries key).map Utf8.encode).getD [] := by
  rw [findKeyValue, value_of_ends]
  · intro field b mem
    obtain ⟨semicolon, newline⟩ := free_of_ends field mem
    simp [semicolon, newline]
  · intro p _
    cases p.1 <;> rfl

theorem get_field {payload : CanonicalPayload} {key value : Str}
    (given : Dict.get payload.entries key = some value) :
    ∃ field : CanonicalField, field.value = value := by
  obtain ⟨before, after, split, _⟩ := List.lookup_eq_some_iff.mp given
  have mem : (key, value) ∈ payload.entries := by simp [split]
  obtain ⟨p, _, same⟩ := List.mem_map.mp mem
  exact ⟨p.2, congrArg Prod.snd same⟩

theorem encode_some {text : Str} (some_ : text ≠ []) : Utf8.encode text ≠ [] := fun empty =>
  some_ (Utf8.encode_injective empty)

theorem value_noNewline (field : CanonicalField) : byteOf '\n' ∉ Utf8.encode field.value := by
  rw [byteOf, Utf8.mem_encode (by decide)]
  intro mem
  exact absurd (field.valueFree _ mem).1 (by decide)

theorem semicolon_free (field : CanonicalField) :
    ∀ b ∈ fieldBytes field, decide (b = byteOf ';') = false := by
  intro b mem
  exact decide_eq_false (free_of_ends field mem).1

theorem value_over_newline (field : CanonicalField) (rest : Bytes) :
    ∃ value, (fieldsOf (· = byteOf ';') (fieldBytes field ++ byteOf '\n' :: rest)).findSome?
        (valueFor (Utf8.encode field.key)) = some value ∧ byteOf '\n' ∈ value := by
  have start : ∀ b ∈ fieldBytes field ++ [byteOf '\n'], decide (b = byteOf ';') = false := by
    intro b mem
    rcases List.mem_append.mp mem with inside | last
    · exact semicolon_free field b inside
    · rw [List.mem_singleton.mp last]
      rfl
  obtain ⟨more, fields, cut⟩ := fieldsOf_begins rest (by simp) start
  rw [List.append_assoc, List.append_assoc, List.singleton_append, List.singleton_append] at cut
  refine ⟨Utf8.encode field.value ++ byteOf '\n' :: more, ?_, by simp⟩
  rw [cut, List.findSome?_cons, valueFor_field, if_pos rfl]

theorem value_over_semicolon {field : CanonicalField} {key : Str} (other : field.key ≠ key)
    (rest : Bytes) :
    (fieldsOf (· = byteOf ';') (fieldBytes field ++ byteOf ';' :: rest)).findSome?
        (valueFor (Utf8.encode key)) =
      (fieldsOf (· = byteOf ';') rest).findSome? (valueFor (Utf8.encode key)) := by
  have apart : Utf8.encode field.key ≠ Utf8.encode key := by
    intro same
    exact other (Utf8.encode_injective same)
  have here := valueFor_field field (Utf8.encode key) []
  rw [List.append_nil, if_neg apart] at here
  rw [fieldsOf_append _ (semicolon_free field) (by rfl), List.findSome?_cons, here]

/-- Up to the first newline the fields are read alone, and the one before it has it in its value. -/
theorem newline_in_value (first : CanonicalField) {more : List (Separator × CanonicalField)}
    (distinct : (first.key :: more.map fun p => p.2.key).Nodup)
    (newline : ∃ p ∈ more, p.1 = .newline) :
    ∃ field ∈ first :: more.map Prod.snd, ∃ value,
      (fieldsOf (· = byteOf ';') (fieldBytes first ++ Utf8.encode (behind more))).findSome?
        (valueFor (Utf8.encode field.key)) = some value ∧ byteOf '\n' ∈ value := by
  induction more generalizing first with
  | nil => simp at newline
  | cons p more ih =>
    rw [encode_behind]
    cases separator : p.1 with
    | newline =>
      obtain ⟨value, found, inside⟩ :=
        value_over_newline first (fieldBytes p.2 ++ Utf8.encode (behind more))
      exact ⟨first, List.mem_cons_self, value, found, inside⟩
    | semicolon =>
      rw [List.map_cons, List.nodup_cons] at distinct
      have later : ∃ q ∈ more, q.1 = .newline := by
        obtain ⟨q, mem, here⟩ := newline
        rcases List.mem_cons.mp mem with rfl | behind
        · rw [separator] at here
          exact absurd here (by simp)
        · exact ⟨q, behind, here⟩
      obtain ⟨field, mem, value, found, inside⟩ := ih p.2 distinct.2 later
      have other : first.key ≠ field.key := by
        intro same
        apply distinct.1
        rw [same]
        have keys : field.key ∈ (p.2 :: more.map Prod.snd).map CanonicalField.key :=
          List.mem_map_of_mem mem
        simpa [Function.comp_def] using keys
      have skips := value_over_semicolon other (fieldBytes p.2 ++ Utf8.encode (behind more))
      exact ⟨field, List.mem_cons_of_mem _ mem, value, skips.trans found, inside⟩

/-- The three readers agree on a payload if and only if no two of its fields are separated by a
    newline. -/
theorem parsers_agree_iff (payload : CanonicalPayload) :
    Agree payload ↔ ∀ p ∈ payload.fields.tail, p.1 = .semicolon := by
  constructor
  · intro agree
    obtain ⟨fields, distinct⟩ := payload
    cases fields with
    | nil => simp
    | cons first more =>
      by_contra mixed
      simp only [List.tail_cons, not_forall] at mixed
      obtain ⟨p, mem, other⟩ := mixed
      have newline : ∃ p ∈ more, p.1 = .newline := by
        refine ⟨p, mem, ?_⟩
        cases separator : p.1 with
        | semicolon => exact absurd separator other
        | newline => rfl
      obtain ⟨field, _, value, found, inside⟩ := newline_in_value first.2 distinct newline
      have same := (agree field.key).1 []
      rw [getValue, lookup_payload, bytes_cons, found, ← bytes_cons first more distinct,
        parse_canonical] at same
      cases given : Dict.get (CanonicalPayload.entries ⟨first :: more, distinct⟩) field.key with
      | none =>
        simp only [given, Option.getD_some, Option.map_none, Option.getD_none] at same
        simp [same] at inside
      | some text =>
        obtain ⟨holder, rfl⟩ := get_field given
        simp only [given, Option.getD_some, Option.map_some] at same
        rw [same] at inside
        exact value_noNewline holder inside
  · intro semicolons key
    have host : (parseKeyValuePayload payload.bytes).lookup (Utf8.encode key) =
        (Dict.get payload.entries key).map Utf8.encode := by
      rw [lookup_payload, value_of_ends]
      · exact semicolon_free
      · intro p mem
        rw [semicolons p mem]
        rfl
    rw [parse_canonical, findKeyValue_canonical]
    refine ⟨?_, rfl, ?_⟩
    · intro fallback
      rw [getValue, host]
    · cases given : Dict.get payload.entries key with
      | none => simp
      | some value =>
        obtain ⟨field, rfl⟩ := get_field given
        simp [encode_some field.valueSome]

def shortField (key value : Char) (keyPlain : QuestKeyValue.isPlain key = true)
    (valuePlain : QuestKeyValue.isPlain value = true) : CanonicalField where
  key := [key]
  value := [value]
  keySome := by simp
  valueSome := by simp
  keyFree := by
    intro c mem
    rw [List.mem_singleton.mp mem]
    refine ⟨QuestKeyValue.plain_notSpace keyPlain, ?_, QuestKeyValue.plain_notEquals keyPlain⟩
    rintro rfl
    exact absurd keyPlain (by decide)
  valueFree := by
    intro c mem
    rw [List.mem_singleton.mp mem]
    refine ⟨QuestKeyValue.plain_notSpace valuePlain, ?_⟩
    rintro rfl
    exact absurd valuePlain (by decide)

def twoLines : CanonicalPayload where
  fields :=
    [(.semicolon, shortField 'a' '1' (by decide) (by decide)),
      (.newline, shortField 'b' '2' (by decide) (by decide))]
  distinct := by decide

theorem second_line_missed : ¬ ∀ payload, Agree payload := by
  intro agree
  have same := (agree twoLines ['b']).1 []
  exact absurd same (by decide)

end HostKeyValue
