import RoboVR.Lib.Printf
import RoboVR.Host.KeyValue
import RoboVR.Host.VideoThread
import RoboVR.Server.Quest3Server

/- The ack of a published frame: the text that the headset prints into its buffer, and what the
   Python server and the host bridge read in it. -/
namespace QuestAckPayload
open QuestTeleop (Bytes)
open QuestKeyValue QuestNumber
open Printf BinaryFloat DecimalText
open HostKeyValue (getValue)
open HostVideoThread (StatsPayload)

/-- `static_cast<double>(ns) / 1.0e6`. -/
def latencyMs (ns : Int64) : Binary :=
  match nearest binary64 (decide (ns.toInt < 0)) ns.toInt.natAbs 1 with
  | .finite negative mantissa exponent =>
    nearest binary64 negative (mantissa * 2 ^ exponent.toNat)
      (10 ^ 6 * 2 ^ (-exponent).toNat)
  | other => other

def surfaceText (surface : Bool) : Str := intText (if surface then 1 else 0)

def payloadSize : Nat := 256

def ackText (signedNan : Bool) (frameIndex : UInt64) (latencyNs : Int64) (surface : Bool) : Str :=
  let text := literal "kind=video_ack;frame_index=" ++ Nat.toDigits 10 frameIndex.toNat ++
    literal ";quest_receive_to_publish_ms=" ++ printFixed signedNan 3 (latencyMs latencyNs) ++
    literal ";surface=" ++ surfaceText surface
  (text.take (payloadSize - 1)).takeWhile fun c => c ≠ Char.ofNat 0

def ackPayload (signedNan : Bool) (frameIndex : UInt64) (latencyNs : Int64) (surface : Bool) :
    Bytes :=
  Utf8.ascii (ackText signedNan frameIndex latencyNs surface)

/- The host bridge's side. -/

def isSpaceByte (b : UInt8) : Bool := (9 ≤ b.toNat && b.toNat ≤ 13) || b.toNat == 32

def isDigitByte (b : UInt8) : Bool := 48 ≤ b.toNat && b.toNat ≤ 57

def takeSign : Bytes → Bool × Bytes
  | 43 :: text => (false, text)
  | 45 :: text => (true, text)
  | text => (false, text)

def digitsValue (digits : Bytes) : Nat := digits.foldl (fun n b => 10 * n + (b.toNat - 48)) 0

/-- `strtoull(text, nullptr, 10)`: too large a number is the largest one, and a minus sign wraps. -/
def strtoull (text : Bytes) : UInt64 :=
  let signed := takeSign (text.dropWhile isSpaceByte)
  let n := digitsValue (signed.2.takeWhile isDigitByte)
  if 2 ^ 64 ≤ n then UInt64.ofNat (2 ^ 64 - 1)
  else if signed.1 then -UInt64.ofNat n else UInt64.ofNat n

def readStatsPayload (payload : Bytes) : StatsPayload :=
  let values := HostKeyValue.parseKeyValuePayload payload
  if getValue values (Utf8.ascii "kind".toList) [] ≠ Utf8.ascii "video_ack".toList then .other
  else .videoAck ((values.lookup (Utf8.ascii "frame_index".toList)).map strtoull)

/- The text as a list of fields. -/

def ackEntries (signedNan : Bool) (frameIndex : UInt64) (latencyNs : Int64) (surface : Bool) :
    Dict :=
  [(literal "kind", literal "video_ack"),
    (literal "frame_index", Nat.toDigits 10 frameIndex.toNat),
    (literal "quest_receive_to_publish_ms", printFixed signedNan 3 (latencyMs latencyNs)),
    (literal "surface", surfaceText surface)]

theorem ackEntry_plain {key : String} {value : Str} (some_ : literal key ≠ [])
    (word : Plain (literal key)) (plain : Plain value) : PlainEntry (literal key, value) :=
  ⟨some_, word, plain⟩

section Fields
variable (signedNan : Bool) (frameIndex : UInt64) (latencyNs : Int64) (surface : Bool)

theorem ackEntries_plain :
    ∀ entry ∈ ackEntries signedNan frameIndex latencyNs surface, PlainEntry entry := by
  intro entry mem
  simp only [ackEntries, List.mem_cons, List.not_mem_nil, or_false] at mem
  rcases mem with rfl | rfl | rfl | rfl
  · exact ackEntry_plain (by decide) (by decide) (by decide)
  · apply ackEntry_plain (by decide) (by decide)
    exact fun c digit => digit_plain (toDigits_digits _ c digit)
  · exact ackEntry_plain (by decide) (by decide) (printFixed_plain signedNan 3 _)
  · apply ackEntry_plain (by decide) (by decide)
    cases surface <;> decide

theorem ackKeys_distinct :
    ((ackEntries signedNan frameIndex latencyNs surface).map Prod.fst).Nodup := by
  simp only [ackEntries, List.map_cons, List.map_nil]
  decide

end Fields

/- The text fits. -/

theorem scaled_le (mantissa factor : Nat) (exponent : Int) :
    scaled mantissa exponent factor ≤ mantissa * factor * 2 ^ exponent.toNat + 1 := by
  unfold scaled
  exact (roundHalfEven_le _ _).trans (Nat.add_le_add_right (Nat.div_le_self _ _) 1)

theorem printFixed_short {value : Binary} {bound : Nat} (signedNan : Bool) (some_ : 0 < bound)
    (small : ∀ negative mantissa exponent, value = .finite negative mantissa exponent →
      mantissa * 1000 * 2 ^ exponent.toNat + 1 < 10 ^ bound * 1000) :
    (printFixed signedNan 3 value).length ≤ bound + 5 := by
  cases value with
  | nan negative =>
    have sign := signText_length (negative && signedNan)
    simp only [printFixed, List.length_append, List.length_cons, List.length_nil]
    omega
  | infinite negative =>
    have sign := signText_length negative
    simp only [printFixed, List.length_append, List.length_cons, List.length_nil]
    omega
  | finite negative mantissa exponent =>
    have sign := signText_length negative
    have units := small negative mantissa exponent rfl
    have less := scaled_le mantissa 1000 exponent
    have whole : scaled mantissa exponent (10 ^ 3) / 10 ^ 3 < 10 ^ bound := by
      rw [Nat.div_lt_iff_lt_mul (by decide)]
      exact Nat.lt_of_le_of_lt less units
    have number := fixedPoint_length (by decide : 0 < 3) some_ whole
    simp only [printFixed, List.length_append]
    omega

theorem nearest_times {negative sign : Bool} {num den mantissa k : Nat} {exponent : Int}
    (some_ : den ≠ 0) (wide : 53 ≤ k) (small : num < 2 ^ k)
    (finite : nearest binary64 negative num den = .finite sign mantissa exponent) :
    mantissa * 2 ^ exponent.toNat ≤ 2 ^ k := by
  obtain ⟨bits, top⟩ := nearest_finite some_ finite
  have log : num.log2 < k := by
    by_cases zero : num = 0
    · rw [zero, Nat.log2_zero]
      omega
    · exact (Nat.log2_lt zero).mpr small
  have power : 2 ^ exponent.toNat ≤ 2 ^ (k - 53) := by
    apply Nat.pow_le_pow_right (by decide)
    simp only [binary64] at top
    omega
  calc
    mantissa * 2 ^ exponent.toNat ≤ 2 ^ 53 * 2 ^ (k - 53) := Nat.mul_le_mul bits power
    _ = 2 ^ k := by rw [← Nat.pow_add, Nat.add_sub_cancel' wide]

theorem latency_short (signedNan : Bool) (latencyNs : Int64) :
    (printFixed signedNan 3 (latencyMs latencyNs)).length ≤ 30 := by
  have low := latencyNs.le_toInt
  have high := latencyNs.toInt_lt
  apply printFixed_short signedNan (by decide : 0 < 25)
  intro negative mantissa exponent value
  unfold latencyMs at value
  cases whole : nearest binary64 (decide (latencyNs.toInt < 0)) latencyNs.toInt.natAbs 1 with
  | finite sign m e =>
    rw [whole] at value
    have first := nearest_times (by decide) (by decide : 53 ≤ 64) (by omega) whole
    have second := nearest_times (by positivity) (by decide : 53 ≤ 65) (by omega) value
    have units : mantissa * 1000 * 2 ^ exponent.toNat ≤ 2 ^ 65 * 1000 := by nlinarith
    omega
  | _ =>
    rw [whole] at value
    exact absurd value (by simp)

theorem printFixed_some (signedNan : Bool) (value : Binary) :
    printFixed signedNan 3 value ≠ [] := by
  cases value <;> simp [printFixed, fixedPoint]

section Text
variable (signedNan : Bool) (frameIndex : UInt64) (latencyNs : Int64) (surface : Bool)

theorem surfaceText_length : (surfaceText surface).length = 1 := by cases surface <;> decide

theorem ackText_eq :
    ackText signedNan frameIndex latencyNs surface =
      payloadText (ackEntries signedNan frameIndex latencyNs surface) := by
  have chars := payloadText_ascii (ackEntries_plain signedNan frameIndex latencyNs surface)
  have index := toDigits_short (by decide : 0 < 20)
    (by have := frameIndex.toNat_lt; omega : frameIndex.toNat < 10 ^ 20)
  have latency := latency_short signedNan latencyNs
  have one := surfaceText_length surface
  have fields : literal "kind=video_ack;frame_index=" ++ Nat.toDigits 10 frameIndex.toNat ++
      literal ";quest_receive_to_publish_ms=" ++ printFixed signedNan 3 (latencyMs latencyNs) ++
      literal ";surface=" ++ surfaceText surface =
      payloadText (ackEntries signedNan frameIndex latencyNs surface) := by
    have first : literal "kind=video_ack;frame_index=" =
      fieldText (literal "kind", literal "video_ack") ++ ';' :: literal "frame_index" ++ ['='] := by
        decide
    have second : literal ";quest_receive_to_publish_ms=" =
      ';' :: literal "quest_receive_to_publish_ms" ++ ['='] := by decide
    have third : literal ";surface=" = ';' :: literal "surface" ++ ['='] := by decide
    rw [ackEntries, payloadText_flatMap, first, second, third]
    simp [fieldText]
  have lengths : (literal "kind=video_ack;frame_index=").length = 27 ∧
      (literal ";quest_receive_to_publish_ms=").length = 29 ∧
      (literal ";surface=").length = 9 := by decide
  rw [ackText, List.take_of_length_le, fields, List.takeWhile_eq_self_iff.mpr]
  · intro c mem
    have positive := (chars c mem).1
    rw [decide_eq_true_eq]
    rintro rfl
    exact absurd positive (by decide)
  · simp only [List.length_append, payloadSize]
    omega

theorem parse_ack :
    parseKeyValuePayload (ackPayload signedNan frameIndex latencyNs surface) =
      ackEntries signedNan frameIndex latencyNs surface := by
  rw [ackPayload, ackText_eq]
  apply parse_payloadText (ackEntries_plain _ _ _ _) (List.cons_ne_nil _ _)
  exact ackKeys_distinct _ _ _ _

end Text

/- The host bridge reads the same fields. -/

theorem encode_small {text : Str} (small : ∀ c ∈ text, c.toNat < 0x80) :
    Utf8.encode text = Utf8.ascii text := by
  induction text with
  | nil => rfl
  | cons c text ih =>
    rw [HostKeyValue.encode_ascii (small c List.mem_cons_self),
      ih fun d mem => small d (List.mem_cons_of_mem c mem)]
    rfl

theorem plain_small {text : Str} (plain : Plain text) : ∀ c ∈ text, c.toNat < 0x80 := by
  intro c mem
  have bounds := plain_code (plain c mem)
  omega

def canonicalField (entry : Str × Str) (plain : PlainEntry entry) (some_ : entry.2 ≠ []) :
    HostKeyValue.CanonicalField where
  key := entry.1
  value := entry.2
  keySome := plain.1
  valueSome := some_
  keyFree := fun c mem =>
    ⟨plain_notSpace (plain.2.1 c mem), by
      rintro rfl
      exact absurd (plain.2.1 _ mem) (by decide), plain_notEquals (plain.2.1 c mem)⟩
  valueFree := fun c mem =>
    ⟨plain_notSpace (plain.2.2 c mem), by
      rintro rfl
      exact absurd (plain.2.2 _ mem) (by decide)⟩

theorem digit_bytes {text : Str} (digits : AllDigits text) :
    ∀ b ∈ Utf8.ascii text, 48 ≤ b.toNat ∧ b.toNat ≤ 57 := by
  intro b mem
  obtain ⟨c, inside, rfl⟩ := List.mem_map.mp mem
  have bounds := digit_code (digits c inside)
  rw [Utf8.toNat_byte (by omega)]
  exact bounds

theorem digits_value {text : Str} (digits : AllDigits text) (n : Nat) :
    (Utf8.ascii text).foldl (fun n b => 10 * n + (b.toNat - 48)) n = Nat.ofDigitChars 10 text n := by
  induction text generalizing n with
  | nil => simp [Utf8.ascii]
  | cons c text ih =>
    have bounds := digit_code (digits c List.mem_cons_self)
    have later := ih (fun d mem => digits d (List.mem_cons_of_mem c mem)) (10 * n + (c.toNat - 48))
    rw [Nat.ofDigitChars_cons, Utf8.ascii, List.map_cons, List.foldl_cons,
      Utf8.toNat_byte (by omega)]
    exact later

theorem takeSign_digits {text : Bytes} (digits : ∀ b ∈ text, 48 ≤ b.toNat ∧ b.toNat ≤ 57) :
    takeSign text = (false, text) := by
  unfold takeSign
  split
  · exact absurd (digits _ List.mem_cons_self).1 (by decide)
  · exact absurd (digits _ List.mem_cons_self).1 (by decide)
  · rfl

theorem strtoull_printed (n : UInt64) : strtoull (Utf8.ascii (Nat.toDigits 10 n.toNat)) = n := by
  have digits := toDigits_digits n.toNat
  have bytes := digit_bytes digits
  have noSpace : (Utf8.ascii (Nat.toDigits 10 n.toNat)).dropWhile isSpaceByte =
      Utf8.ascii (Nat.toDigits 10 n.toNat) := by
    rw [List.dropWhile_eq_self_iff]
    intro some_
    have bounds := bytes _ (List.getElem_mem some_)
    simp only [isSpaceByte, Bool.or_eq_true, Bool.and_eq_true, decide_eq_true_eq, beq_iff_eq]
    omega
  have all : (Utf8.ascii (Nat.toDigits 10 n.toNat)).takeWhile isDigitByte =
      Utf8.ascii (Nat.toDigits 10 n.toNat) := by
    rw [List.takeWhile_eq_self_iff]
    intro b mem
    simpa [isDigitByte] using bytes b mem
  have value : digitsValue (Utf8.ascii (Nat.toDigits 10 n.toNat)) = n.toNat := by
    rw [digitsValue, digits_value digits, Nat.ofDigitChars_toDigits (by decide) (by decide)]
  have small := n.toNat_lt
  rw [strtoull, noSpace, takeSign_digits bytes]
  simp only [all, value]
  rw [if_neg (by omega)]
  simp

theorem handlePacket_ack (server : QuestServer.Quest3Server) (timestampNs : Int) {payload : Bytes}
    {raw : Dict} (parsed : parseKeyValuePayload payload = raw)
    (isAck : Dict.get raw "kind".toList = some "video_ack".toList) :
    QuestServer.handlePacket server
        { packetType := QuestProtocol.PT_STATS, timestampNs := timestampNs, payload := payload } =
      .ok (QuestServer.setVideoAck (QuestServer.updateRaw
        (QuestServer.bump (QuestServer.bump server .packets) .stats) timestampNs raw true)
        timestampNs) := by
  unfold QuestServer.handlePacket
  simp only [parsed, isAck]
  rw [if_neg (by decide), if_neg (by decide), if_neg (by decide), if_pos trivial, if_pos trivial]

section Readers
variable (signedNan : Bool) (frameIndex : UInt64) (latencyNs : Int64) (surface : Bool)

theorem ackEntries_some :
    ∀ entry ∈ ackEntries signedNan frameIndex latencyNs surface, entry.2 ≠ [] := by
  intro entry mem
  simp only [ackEntries, List.mem_cons, List.not_mem_nil, or_false] at mem
  rcases mem with rfl | rfl | rfl | rfl
  · decide
  · exact Nat.toDigits_ne_nil
  · exact printFixed_some signedNan _
  · cases surface <;> decide

def canonicalAck : HostKeyValue.CanonicalPayload where
  fields := (ackEntries signedNan frameIndex latencyNs surface).attach.map fun entry =>
    (.semicolon, canonicalField entry.1 (ackEntries_plain _ _ _ _ entry.1 entry.2)
      (ackEntries_some _ _ _ _ entry.1 entry.2))
  distinct := by
    have keys := ackKeys_distinct signedNan frameIndex latencyNs surface
    rw [← List.attach_map_subtype_val (ackEntries signedNan frameIndex latencyNs surface),
      List.map_map] at keys
    rw [List.map_map]
    exact keys

theorem canonicalAck_entries :
    (canonicalAck signedNan frameIndex latencyNs surface).entries =
      ackEntries signedNan frameIndex latencyNs surface := by
  rw [HostKeyValue.CanonicalPayload.entries, canonicalAck, List.map_map]
  exact List.attach_map_subtype_val _

theorem canonicalAck_bytes :
    (canonicalAck signedNan frameIndex latencyNs surface).bytes =
      ackPayload signedNan frameIndex latencyNs surface := by
  have plain := ackEntries_plain signedNan frameIndex latencyNs surface
  have text : (canonicalAck signedNan frameIndex latencyNs surface).text =
      payloadText (ackEntries signedNan frameIndex latencyNs surface) := by
    rw [ackEntries, payloadText_flatMap]
    rfl
  rw [HostKeyValue.CanonicalPayload.bytes, text, ackPayload, ackText_eq]
  apply encode_small
  exact fun c mem => (payloadText_ascii plain c mem).2

theorem bridge_lookup (key : Str) :
    (HostKeyValue.parseKeyValuePayload (ackPayload signedNan frameIndex latencyNs surface)).lookup
        (Utf8.encode key) =
      (Dict.get (ackEntries signedNan frameIndex latencyNs surface) key).map Utf8.encode := by
  rw [HostKeyValue.lookup_payload, ← canonicalAck_bytes, ← canonicalAck_entries]
  apply HostKeyValue.value_of_ends
  · exact HostKeyValue.semicolon_free
  · intro p mem
    obtain ⟨entry, _, rfl⟩ := List.mem_map.mp (List.mem_of_mem_tail mem)
    rfl

theorem readStats_ack :
    readStatsPayload (ackPayload signedNan frameIndex latencyNs surface) =
      .videoAck (some frameIndex) := by
  have kind := bridge_lookup signedNan frameIndex latencyNs surface "kind".toList
  have index := bridge_lookup signedNan frameIndex latencyNs surface "frame_index".toList
  have digits : Utf8.encode (Nat.toDigits 10 frameIndex.toNat) =
      Utf8.ascii (Nat.toDigits 10 frameIndex.toNat) := by
    apply encode_small
    intro c mem
    have bounds := digit_code (toDigits_digits _ c mem)
    omega
  have isKind : Dict.get (ackEntries signedNan frameIndex latencyNs surface) "kind".toList =
      some "video_ack".toList := rfl
  have isIndex : Dict.get (ackEntries signedNan frameIndex latencyNs surface)
      "frame_index".toList = some (Nat.toDigits 10 frameIndex.toNat) := rfl
  have word (text : String) (plain : Plain text.toList) :
      Utf8.encode text.toList = Utf8.ascii text.toList := encode_small (plain_small plain)
  rw [isKind, Option.map_some, word "kind" (by decide), word "video_ack" (by decide)] at kind
  rw [isIndex, Option.map_some, word "frame_index" (by decide), digits] at index
  rw [readStatsPayload]
  simp only [getValue, kind, index, Option.getD_some, ne_eq, not_true_eq_false, if_false,
    Option.map_some, strtoull_printed]

/-- What a host makes of an ack: the Python server's state has its time and its fields and
    otherwise stays as it is, the host bridge gets its frame index. -/
theorem ack_round_trip (server : QuestServer.Quest3Server) (timestampNs : Int) :
    ackText signedNan frameIndex latencyNs surface =
        payloadText (ackEntries signedNan frameIndex latencyNs surface) ∧
      readStatsPayload (ackPayload signedNan frameIndex latencyNs surface) =
        .videoAck (some frameIndex) ∧
      ∃ next, QuestServer.handlePacket server
          { packetType := QuestProtocol.PT_STATS, timestampNs := timestampNs,
            payload := ackPayload signedNan frameIndex latencyNs surface } = .ok next ∧
        next.latest = some
          { QuestServer.stateOrEmpty server timestampNs true with
            timestampNs := timestampNs
            connected := true
            lastVideoAckNs := some timestampNs
            raw := Dict.update (QuestServer.stateOrEmpty server timestampNs true).raw
              (ackEntries signedNan frameIndex latencyNs surface) } := by
  have handled := handlePacket_ack server timestampNs
    (parse_ack signedNan frameIndex latencyNs surface) rfl
  exact ⟨ackText_eq _ _ _ _, readStats_ack _ _ _ _, _, handled, rfl⟩

end Readers

end QuestAckPayload
