import TelemetryNode.Esp32.MqttPublisher
import TelemetryNode.Library.FlatJson

/-!
# The published JSON text

What the publisher task formats is a JSON object with the five fields of the payload. It always fits
the buffer, and a subscriber can read the payload back from it.

## Main definitions

* `MqttPublisher.members`: the fields as members of a JSON object.
* `MqttPublisher.readBack`: the payload in a published text, as a subscriber reads it.

## Main results

* `MqttPublisher.jsonText_eq`: the format string writes the object as `FlatJson.print` does.
* `MqttPublisher.json_round_trip`: the text is never truncated, is well formed, and determines the
  payload.
-/

namespace TelemetryNode.MqttPublisher

/-- The fields of a payload, under the keys of the format string. -/
def members (data : TelemetryPayload) : List FlatJson.Member :=
  [("ts".toList, data.timestampMs.toNat), ("batt_mv".toList, data.batteryMv.toNat),
    ("temp".toList, data.tempSensor.toNat), ("adc".toList, data.adcCh1.toNat),
    ("status".toList, data.statusFlags.toNat)]

/-- The format string writes the members as an object. -/
theorem jsonText_eq (data : TelemetryPayload) : jsonText data = FlatJson.print (members data) := by
  -- the equation lemma that `rw` would use is slow to generate
  delta jsonText
  simp [decimal, FlatJson.print, FlatJson.printMembers, FlatJson.printMember, members]

/-- The keys need no escapes. -/
theorem isPlain_members (data : TelemetryPayload) :
    ∀ m ∈ members data, ∀ c ∈ m.1, FlatJson.isPlain c = true := by
  intro m hm c hc
  have hkeys : ["ts".toList, "batt_mv".toList, "temp".toList, "adc".toList,
      "status".toList].all (fun key => key.all FlatJson.isPlain) = true := by decide
  have hkey : m.1 ∈ (members data).map Prod.fst := List.mem_map_of_mem hm
  exact List.all_eq_true.mp (List.all_eq_true.mp hkeys m.1 hkey) c hc

/-! ## The buffer -/

theorem length_decimal_le {w k : ℕ} (x : BitVec w) (hk : 0 < k)
    (hw : Nat.pow 2 w ≤ Nat.pow 10 k) : (decimal x).length ≤ k :=
  (Nat.length_toDigits_le_iff (by decide) hk).mpr (Nat.lt_of_lt_of_le x.isLt hw)

/-- Besides the numbers, the format string has 43 characters. -/
theorem length_jsonText (data : TelemetryPayload) :
    (jsonText data).length = 43 + (decimal data.timestampMs).length +
      (decimal data.batteryMv).length + (decimal data.tempSensor).length +
      (decimal data.adcCh1).length + (decimal data.statusFlags).length := by
  delta jsonText
  simp
  omega

/-- The text has at most 71 characters. -/
theorem length_jsonText_le (data : TelemetryPayload) : (jsonText data).length ≤ 71 := by
  have htimestamp := length_decimal_le (k := 10) data.timestampMs (by decide) (by decide)
  have hbattery := length_decimal_le (k := 5) data.batteryMv (by decide) (by decide)
  have htemp := length_decimal_le (k := 5) data.tempSensor (by decide) (by decide)
  have hadc := length_decimal_le (k := 5) data.adcCh1 (by decide) (by decide)
  have hstatus := length_decimal_le (k := 3) data.statusFlags (by decide) (by decide)
  rw [length_jsonText]
  omega

/-- A text that leaves room for the terminating NUL is not truncated. -/
theorem snprintf_of_lt {size : ℕ} {text : List Char} (h : text.length < size) :
    snprintf size text = text :=
  List.take_of_length_le (Nat.le_sub_one_of_lt h)

theorem jsonPayload_eq (data : TelemetryPayload) : jsonPayload data = jsonText data :=
  snprintf_of_lt (Nat.lt_of_le_of_lt (length_jsonText_le data) (by decide))

/-! ## Reading it back -/

/-- The payload in a published text: each field is looked up under its key. -/
def readBack (text : List Char) : Option TelemetryPayload := do
  let ms ← FlatJson.parse text
  let ts ← ms.lookup "ts".toList
  let battMv ← ms.lookup "batt_mv".toList
  let temp ← ms.lookup "temp".toList
  let adc ← ms.lookup "adc".toList
  let status ← ms.lookup "status".toList
  return {
    timestampMs := BitVec.ofNat 32 ts
    batteryMv := BitVec.ofNat 16 battMv
    tempSensor := BitVec.ofNat 16 temp
    adcCh1 := BitVec.ofNat 16 adc
    statusFlags := BitVec.ofNat 8 status }

theorem parse_jsonPayload (data : TelemetryPayload) :
    FlatJson.parse (jsonPayload data) = some (members data) := by
  rw [jsonPayload_eq, jsonText_eq]
  exact FlatJson.parse_print (isPlain_members data)

theorem readBack_jsonPayload (data : TelemetryPayload) :
    readBack (jsonPayload data) = some data := by
  rw [readBack, parse_jsonPayload]
  simp [members, List.lookup_cons]

/-- The text that is published for a payload is never truncated. It is the text of a JSON object
with the five fields, and reading it gives back exactly their values; so different payloads never
have the same text. -/
theorem json_round_trip (data : TelemetryPayload) :
    (jsonText data).length < jsonPayloadSize ∧
      (publishCall data).data = jsonText data ∧
      FlatJson.IsObject (members data) (publishCall data).data ∧
      FlatJson.parse (publishCall data).data = some (members data) ∧
      readBack (publishCall data).data = some data ∧
      ∀ data', (publishCall data').data = (publishCall data).data ↔ data' = data := by
  refine ⟨Nat.lt_of_le_of_lt (length_jsonText_le data) (by decide), jsonPayload_eq data,
    FlatJson.isObject_of_parse (parse_jsonPayload data), parse_jsonPayload data,
    readBack_jsonPayload data, ?_⟩
  intro data'
  constructor
  · intro h
    have hread := congrArg readBack h
    exact Option.some_inj.mp ((readBack_jsonPayload data').symm.trans
      (hread.trans (readBack_jsonPayload data)))
  · intro h
    rw [h]

end TelemetryNode.MqttPublisher
