import HybridPqc.Lib.Proofs.PyJsonProofs
import HybridPqc.Device.Telemetry

/-!
# The telemetry packet as JSON

What `snprintf` formats fits its buffer, and the server's `json.loads` reads it as the object with the
five fields of a telemetry packet.
-/

namespace HybridPqc

/-- The object that a telemetry packet spells. -/
def telemetryFields (t : TelemetryData) : List (PyStr × Json) :=
  [(PyStr.lit "temperature", .float (formatHundredths t.temperature)),
    (PyStr.lit "humidity", .float (formatHundredths t.humidity)),
    (PyStr.lit "timestamp", .int t.timestamp.toNat),
    (PyStr.lit "sequence", .int t.sequence.toNat),
    (PyStr.lit "device_id", .str (PyStr.lit "ESP32-Edge"))]

/-- Temperature and humidity have at most two digits before the point. -/
structure TelemetryData.Small (t : TelemetryData) : Prop where
  temperature : t.temperature < 10000
  humidity : t.humidity < 10000

theorem generateTelemetry_small (rand timestamp telemetrySeq : UInt32) :
    (generateTelemetry rand timestamp telemetrySeq).Small := by
  constructor <;> simp only [generateTelemetry] <;> omega

/-- The members of a telemetry packet: key, text and value. -/
def telemetryMembers (t : TelemetryData) : List (PyStr × PyStr × Json) :=
  [(PyStr.lit "temperature", formatHundredths t.temperature,
      .float (formatHundredths t.temperature)),
    (PyStr.lit "humidity", formatHundredths t.humidity, .float (formatHundredths t.humidity)),
    (PyStr.lit "timestamp", PyStr.decimal t.timestamp.toNat, .int t.timestamp.toNat),
    (PyStr.lit "sequence", PyStr.decimal t.sequence.toNat, .int t.sequence.toNat),
    (PyStr.lit "device_id", 34 :: PyStr.lit "ESP32-Edge" ++ [34], .str (PyStr.lit "ESP32-Edge"))]

theorem telemetryMembers_isPlain (t : TelemetryData) : ∀ m ∈ telemetryMembers t, Json.IsPlain m.1 := by
  have hkeys : ∀ key ∈ ["temperature", "humidity", "timestamp", "sequence", "device_id"],
      Json.IsPlain (PyStr.lit key) := by decide
  intro m hm
  simp only [telemetryMembers, List.mem_cons, List.not_mem_nil, or_false] at hm
  rcases hm with rfl | rfl | rfl | rfl | rfl
  all_goals exact hkeys _ (by simp)

theorem decimal_toNat_length_le (v : UInt32) : (PyStr.decimal v.toNat).length ≤ 10 :=
  PyStr.decimal_length_le (by omega) (by have := v.toNat_lt; omega)

theorem telemetryMembers_reads {limits : Json.Limits} (hlimits : ∀ n ≤ 10, limits.Converts n)
    (t : TelemetryData) :
    ∀ m ∈ telemetryMembers t, Json.IsPlain m.1 ∧ Json.Reads limits m.2.2 m.2.1 := by
  intro m hm
  refine ⟨telemetryMembers_isPlain t m hm, ?_⟩
  simp only [telemetryMembers, List.mem_cons, List.not_mem_nil, or_false] at hm
  rcases hm with rfl | rfl | rfl | rfl | rfl
  · exact Json.Reads.fixed _ 1 _
  · exact Json.Reads.fixed _ 1 _
  · exact Json.Reads.nat (hlimits _ (decimal_toNat_length_le _))
  · exact Json.Reads.nat (hlimits _ (decimal_toNat_length_le _))
  · exact Json.Reads.str (by decide)

/-- The format string of the firmware writes these members without white space. -/
theorem jsonText_eq (t : TelemetryData) :
    jsonText t = 123 :: Json.compactMembers ((telemetryMembers t).map fun m => (m.1, m.2.1)) := by
  have h1 : PyStr.lit "\x7b\"temperature\":" = 123 :: 34 :: (PyStr.lit "temperature" ++ [34, 58]) := rfl
  have h2 : PyStr.lit ",\"humidity\":" = 44 :: 34 :: (PyStr.lit "humidity" ++ [34, 58]) := rfl
  have h3 : PyStr.lit ",\"timestamp\":" = 44 :: 34 :: (PyStr.lit "timestamp" ++ [34, 58]) := rfl
  have h4 : PyStr.lit ",\"sequence\":" = 44 :: 34 :: (PyStr.lit "sequence" ++ [34, 58]) := rfl
  have h5 : PyStr.lit ",\"device_id\":\"ESP32-Edge\"\x7d" =
      44 :: 34 :: (PyStr.lit "device_id" ++ [34, 58] ++ 34 :: PyStr.lit "ESP32-Edge" ++ [34, 125]) :=
    rfl
  rw [jsonText, h1, h2, h3, h4, h5]
  simp only [telemetryMembers, List.map_cons, List.map_nil, Json.compactMembers, List.cons_append,
    List.append_assoc, List.nil_append]

theorem formatHundredths_eq (h : Nat) : formatHundredths h = PyStr.fixed 2 h := rfl

theorem jsonText_isAscii (t : TelemetryData) : (jsonText t).IsAscii := by
  rw [jsonText_eq]
  apply Json.compactText_isAscii
  intro m hm
  refine ⟨telemetryMembers_isPlain t m hm, ?_⟩
  simp only [telemetryMembers, List.mem_cons, List.not_mem_nil, or_false] at hm
  rcases hm with rfl | rfl | rfl | rfl | rfl
  · exact PyStr.fixed_isAscii 2 _
  · exact PyStr.fixed_isAscii 2 _
  · exact PyStr.decimal_isAscii _
  · exact PyStr.decimal_isAscii _
  · exact (by decide : PyStr.IsAscii (34 :: PyStr.lit "ESP32-Edge" ++ [34]))

theorem jsonText_length_le {t : TelemetryData} (ht : t.Small) : (jsonText t).length ≤ 108 := by
  have h1 : (PyStr.lit "\x7b\"temperature\":").length = 15 := rfl
  have h2 : (PyStr.lit ",\"humidity\":").length = 12 := rfl
  have h3 : (PyStr.lit ",\"timestamp\":").length = 13 := rfl
  have h4 : (PyStr.lit ",\"sequence\":").length = 12 := rfl
  have h5 : (PyStr.lit ",\"device_id\":\"ESP32-Edge\"\x7d").length = 26 := rfl
  have ht1 := PyStr.fixed_length_le (by omega) (show t.temperature < 10 ^ (2 + 2) from ht.temperature)
  have ht2 := PyStr.fixed_length_le (by omega) (show t.humidity < 10 ^ (2 + 2) from ht.humidity)
  have ht3 := decimal_toNat_length_le t.timestamp
  have ht4 := decimal_toNat_length_le t.sequence
  simp only [jsonText, formatHundredths_eq, List.length_append, h1, h2, h3, h4, h5]
  omega

/-- The text fits the buffer, so nothing is cut off. -/
theorem jsonPayload_eq {t : TelemetryData} (ht : t.Small) :
    jsonPayload t = PyStr.encodeAscii (jsonText t) := by
  have hlen := jsonText_length_le ht
  rw [jsonPayload, List.take_of_length_le (by omega)]

theorem jsonPayload_length_le {t : TelemetryData} (ht : t.Small) : (jsonPayload t).length ≤ 108 := by
  rw [jsonPayload_eq ht, PyStr.encodeAscii_length]
  exact jsonText_length_le ht

/-- The server reads the packet as the object with its five fields. -/
theorem loads_jsonPayload (nesting : Json.Nesting) {t : TelemetryData} (ht : t.Small) :
    Json.loads (Json.loadsLimits nesting) (jsonPayload t) = .ok (.obj (telemetryFields t)) := by
  have hascii := jsonText_isAscii t
  have hlimits : ∀ n ≤ 10, (Json.loadsLimits nesting).inner.Converts n := fun n hn =>
    Json.loadsLimits_converts nesting (hn.trans (by decide))
  rw [jsonPayload_eq ht, jsonText_eq] at *
  rw [Json.loads_compact (Json.loadsLimits_opens nesting) (telemetryMembers_reads hlimits t)
    (by simp [telemetryMembers]) hascii]
  rfl

theorem jsonPayload_head {t : TelemetryData} (ht : t.Small) :
    ∃ l, jsonPayload t = 123 :: 34 :: 116 :: l := by
  rw [jsonPayload_eq ht, jsonText]
  exact ⟨_, rfl⟩

end HybridPqc
