import HybridPqc.Device.Proofs.PayloadProofs
import HybridPqc.Server.Proofs.TelemetryProofs

/-!
# Logging and acknowledging a client's packet

The record of a packet is its object with the two fields that the server adds; it carries no error, so
it is acknowledged, with the sequence number of the packet and in a packet that fits the client's
buffer.
-/

namespace HybridPqc

/-- The record that the server logs for a telemetry packet. -/
def telemetryRecord (receivedAt : DateTime) (t : TelemetryData) : List (PyStr × Json) :=
  telemetryFields t ++ [(PyStr.lit "verified", .bool true),
    (PyStr.lit "received_at", .str receivedAt.isoformat)]

theorem logRecord_telemetryFields (receivedAt : DateTime) (t : TelemetryData) :
    logRecord receivedAt (.obj (telemetryFields t)) = .ok (telemetryRecord receivedAt t) := rfl

theorem telemetryRecord_noError (receivedAt : DateTime) (t : TelemetryData) :
    PyStr.lit "error" ∉ (telemetryRecord receivedAt t).map Prod.fst := by
  have hkeys : (telemetryRecord receivedAt t).map Prod.fst =
      [PyStr.lit "temperature", PyStr.lit "humidity", PyStr.lit "timestamp", PyStr.lit "sequence",
        PyStr.lit "device_id", PyStr.lit "verified", PyStr.lit "received_at"] := rfl
  rw [hkeys]
  decide

theorem telemetryLoads_jsonPayload (X : Externals) {t : TelemetryData} (ht : t.Small) :
    telemetryLoads X (jsonPayload t) = .ok (.obj (telemetryFields t)) := loads_jsonPayload _ ht

/-- The values of a client's packet are neither lists nor objects. -/
theorem telemetryRecord_acknowledged (X : Externals) (receivedAt : DateTime) (t : TelemetryData) :
    Acknowledged X (telemetryRecord receivedAt t) := by
  refine ⟨telemetryRecord_noError receivedAt t, ?_, ?_⟩
  · have hshown : shownValues (telemetryRecord receivedAt t) =
        [.float (formatHundredths t.temperature), .float (formatHundredths t.humidity)] := rfl
    intro v hv
    rw [hshown] at hv
    apply X.format.returns_of_depth
    simp only [List.mem_cons, List.not_mem_nil, or_false] at hv
    rcases hv with rfl | rfl <;> simp [Json.depth]
  · have hseq : (telemetryRecord receivedAt t).lookup (PyStr.lit "sequence") =
        some (.int t.sequence.toNat) := rfl
    have hnesting := X.dumpsNesting.property
    rw [hseq, Option.getD_some, Json.depth]
    omega

theorem ackFields_telemetryRecord (serverTime receivedAt : DateTime) (t : TelemetryData) :
    ackFields serverTime (telemetryRecord receivedAt t) =
      [(PyStr.lit "status", .str (PyStr.lit "acknowledged")),
        (PyStr.lit "command", .str (PyStr.lit "KEEP_ALIVE")),
        (PyStr.lit "server_time", .str serverTime.isoformat),
        (PyStr.lit "received_seq", .int t.sequence.toNat)] := rfl

theorem ack_head (X : Externals) (serverTime : DateTime) (record : List (PyStr × Json)) :
    ∃ l, jsonBody X (ackFields serverTime record) = 123 :: 34 :: 115 :: l := by
  have hkey : Json.dumpStr (PyStr.lit "status") = [34, 115, 116, 97, 116, 117, 115, 34] := rfl
  rw [jsonBody, Json.dumps, ackFields, Json.dumpFields, hkey]
  exact ⟨_, rfl⟩

/-- No acknowledgement is a telemetry packet. -/
theorem ack_ne_payload (X : Externals) (serverTime : DateTime) (record : List (PyStr × Json))
    {t : TelemetryData} (ht : t.Small) : jsonBody X (ackFields serverTime record) ≠ jsonPayload t := by
  obtain ⟨l, hl⟩ := ack_head X serverTime record
  obtain ⟨l', hl'⟩ := jsonPayload_head ht
  rw [hl, hl']
  simp

theorem decimalInt_natCast (n : Nat) : PyStr.decimalInt n = PyStr.decimal n := by
  rw [PyStr.decimalInt, if_neg (by omega), Int.natAbs_natCast]

/-- The acknowledgement of a packet fits the client's buffer of 256 bytes. -/
theorem ack_length_le (X : Externals) (serverTime receivedAt : DateTime) (t : TelemetryData) :
    (jsonBody X (ackFields serverTime (telemetryRecord receivedAt t))).length ≤ 228 := by
  have hseq : (PyStr.decimal t.sequence.toNat).length ≤ 10 :=
    PyStr.decimal_length_le (by omega) (by have := t.sequence.toNat_lt; omega)
  have htime := serverTime.isoformat_length_le
  have hdump : (Json.dumpStr serverTime.isoformat).length = serverTime.isoformat.length + 2 := by
    rw [Json.dumpStr_of_isPlain serverTime.isoformat_isPlain]
    simp
  have h1 : (Json.dumpStr (PyStr.lit "status")).length = 8 := rfl
  have h2 : (Json.dumpStr (PyStr.lit "acknowledged")).length = 14 := rfl
  have h3 : (Json.dumpStr (PyStr.lit "command")).length = 9 := rfl
  have h4 : (Json.dumpStr (PyStr.lit "KEEP_ALIVE")).length = 12 := rfl
  have h5 : (Json.dumpStr (PyStr.lit "server_time")).length = 13 := rfl
  have h6 : (Json.dumpStr (PyStr.lit "received_seq")).length = 14 := rfl
  have hsep : (PyStr.lit ": ").length = 2 ∧ (PyStr.lit ", ").length = 2 ∧
      (PyStr.lit "\x7b").length = 1 ∧ (PyStr.lit "\x7d").length = 1 := ⟨rfl, rfl, rfl, rfl⟩
  rw [jsonBody, ackFields_telemetryRecord, PyStr.encodeAscii_length]
  simp only [Json.dumps, Json.dumpFields, List.length_append, decimalInt_natCast, h1, h2, h3, h4, h5,
    h6, hdump, hsep]
  omega

/-- A packet of a client that passes the checks is logged and acknowledged. -/
theorem telemetryRoute_of_payload {X : Externals} {s : Server} {body : Bytes} {key : ByteArr 32}
    {t : TelemetryData} (ht : t.Small) (env : TelemetryEnv) (h : Opens X s body key (jsonPayload t)) :
    telemetryRoute X env s body =
      ⟨⟨200, (ackOf X env key body (telemetryRecord env.receivedAt t)).packet X⟩,
        logged s body (telemetryRecord env.receivedAt t), telemetryRecord env.receivedAt t,
        some (ackOf X env key body (telemetryRecord env.receivedAt t))⟩ := by
  refine telemetryRoute_of_logged env h ?_ (telemetryRecord_acknowledged X _ _)
  rw [handleTelemetry_of_opens h, telemetryLoads_jsonPayload X ht]
  simp only [logRecord_telemetryFields]

end HybridPqc
