import HybridPqc.Lib.GuardedRuns
import HybridPqc.Server.Proofs.TelemetryProofs
import HybridPqc.Server.Run

/-!
# Which telemetry requests take effect as a whole

The handler stores the counter before it touches the parsed value, and the route reads an `error` key in
that value as a failure of its own; a value nested too deeply for the log line or for the acknowledgement
fails after it was logged. Every other packet that decrypts to JSON therefore changes the state and is
answered with an error.
-/

open GuardedRuns

namespace HybridPqc

variable {X : Externals} {env : TelemetryEnv} {s : Server} {body : Bytes}

/-- An acknowledged request appends one record and stores the packet's counter; any other leaves the log
and both dictionaries as they were. -/
structure AllOrNothing (X : Externals) (env : TelemetryEnv) (s : Server) (body : Bytes) : Prop where
  acknowledged : (telemetryRoute X env s body).reply.status = 200 →
    (∃ record, (telemetryRoute X env s body).server.telemetryLog = s.telemetryLog ++ [.obj record]) ∧
      (telemetryRoute X env s body).server.sessionCounters.get? (body.take 16) =
        some (packetCounter (body.drop 16) : Int)
  refused : (telemetryRoute X env s body).reply.status ≠ 200 →
    (telemetryRoute X env s body).server.telemetryLog = s.telemetryLog ∧
      (telemetryRoute X env s body).server.sessions = s.sessions ∧
      (telemetryRoute X env s body).server.sessionCounters = s.sessionCounters

/-- The value is an object that is acknowledged. -/
def Acceptable (X : Externals) (data : Json) : Prop := ∃ fields, data = .obj fields ∧ Acknowledged X fields

/-- The two keys that are set are none of those the acknowledgement depends on. -/
theorem acknowledged_logRecord {receivedAt : DateTime} {data : Json} {record : List (PyStr × Json)}
    (h : logRecord receivedAt data = .ok record) :
    ∃ fields, data = .obj fields ∧ (Acknowledged X record ↔ Acknowledged X fields) := by
  cases data with
  | obj fields =>
    refine ⟨fields, rfl, ?_⟩
    have hrecord : record = Assoc.set (PyStr.lit "received_at") (.str receivedAt.isoformat)
        (Assoc.set (PyStr.lit "verified") (.bool true) fields) := (Except.ok.inj h).symm
    have hlookup : ∀ key ∈ ["temperature", "humidity", "sequence"],
        record.lookup (PyStr.lit key) = fields.lookup (PyStr.lit key) := by
      intro key hkey
      have hne : PyStr.lit key ≠ PyStr.lit "received_at" ∧ PyStr.lit key ≠ PyStr.lit "verified" := by
        revert key
        decide
      rw [hrecord, Assoc.lookup_set, if_neg hne.1, Assoc.lookup_set, if_neg hne.2]
    have herror : PyStr.lit "error" ∈ record.map Prod.fst ↔
        PyStr.lit "error" ∈ fields.map Prod.fst := by
      have hne : PyStr.lit "error" ≠ PyStr.lit "verified" ∧
          PyStr.lit "error" ≠ PyStr.lit "received_at" := by decide
      rw [hrecord, Assoc.mem_map_fst_set, Assoc.mem_map_fst_set]
      simp [hne]
    have hshown : shownValues record = shownValues fields := by
      rw [shownValues, hlookup "temperature" (by simp), hlookup "humidity" (by simp)]
      rfl
    constructor
    · rintro ⟨h1, h2, h3⟩
      rw [herror] at h1
      rw [hshown] at h2
      rw [hlookup "sequence" (by simp)] at h3
      exact ⟨h1, h2, h3⟩
    · rintro ⟨h1, h2, h3⟩
      refine ⟨herror.not.mpr h1, hshown ▸ h2, ?_⟩
      rw [hlookup "sequence" (by simp)]
      exact h3
  | null => cases h
  | bool _ => cases h
  | int _ => cases h
  | float _ => cases h
  | str _ => cases h
  | arr _ => cases h

/-- The counter of a packet that passes the checks was not stored before. -/
theorem Opens.counted_ne {key : ByteArr 32} {plaintext : Bytes} (h : Opens X s body key plaintext) :
    (counted s body).sessionCounters ≠ s.sessionCounters := by
  intro heq
  have hctr := h.counter
  have hself := counted_counter_self s body
  rw [heq] at hself
  rw [Server.lastCounter, hself] at hctr
  exact absurd hctr (lt_irrefl _)

theorem AllOrNothing.of_ok {key : ByteArr 32} {record : List (PyStr × Json)}
    (h : telemetryRoute X env s body =
      ⟨⟨200, (ackOf X env key body record).packet X⟩, logged s body record, record,
        some (ackOf X env key body record)⟩) : AllOrNothing X env s body := by
  constructor
  · intro _
    rw [h]
    exact ⟨⟨record, rfl⟩, counted_counter_self s body⟩
  · intro hstatus
    rw [h] at hstatus
    exact absurd rfl hstatus

/-- A packet that was counted or logged without being acknowledged breaks the rule. -/
theorem AllOrNothing.of_reply (hall : AllOrNothing X env s body) {reply : HttpReply} {s' : Server}
    {dict : List (PyStr × Json)} (h : telemetryRoute X env s body = ⟨reply, s', dict, none⟩)
    (hstatus : reply.status ≠ 200) :
    s'.telemetryLog = s.telemetryLog ∧ s'.sessionCounters = s.sessionCounters := by
  have hsame := hall.refused (by rw [h]; exact hstatus)
  rw [h] at hsame
  exact ⟨hsame.1, hsame.2.2⟩

theorem AllOrNothing.acceptable (hall : AllOrNothing X env s body) {key : ByteArr 32}
    {plaintext : Bytes} {data : Json} (hopens : Opens X s body key plaintext)
    (hdata : telemetryLoads X plaintext = .ok data) : Acceptable X data := by
  have hhandle : handleTelemetry X env.receivedAt s body = _ := handleTelemetry_of_opens hopens
  rw [hdata] at hhandle
  simp only at hhandle
  cases hrec : logRecord env.receivedAt data with
  | error text =>
    rw [hrec] at hhandle
    have hroute := telemetryRoute_of_errorDict env hhandle
    exact absurd (hall.of_reply hroute (by simp)).2 hopens.counted_ne
  | ok record =>
    rw [hrec] at hhandle
    obtain ⟨fields, hobj, hacknowledged⟩ := acknowledged_logRecord (X := X) hrec
    refine ⟨fields, hobj, hacknowledged.mp ?_⟩
    rcases telemetryRoute_of_record env hopens hhandle with ⟨hack, -⟩ | ⟨-, reply, dict, hstatus, hroute⟩
    · exact hack
    · exact absurd (hall.of_reply hroute hstatus).2 hopens.counted_ne

/-- A telemetry request is all or nothing exactly when its packet, if it passes the checks and decrypts
to JSON that can be read, decrypts to an object that is acknowledged. -/
theorem telemetry_atomic_iff (X : Externals) (env : TelemetryEnv) (s : Server) (body : Bytes) :
    AllOrNothing X env s body ↔
      ∀ key plaintext data, Opens X s body key plaintext → telemetryLoads X plaintext = .ok data →
        Acceptable X data := by
  constructor
  · intro hall key plaintext data hopens hdata
    exact hall.acceptable hopens hdata
  intro h
  rcases telemetryRoute_cases X env s body with
    ⟨dict, he⟩ | ⟨key, plaintext, data, hopens, hdata, hcase⟩
  · constructor
    · intro hstatus
      rw [he] at hstatus
      simp at hstatus
    · intro _
      rw [he]
      exact ⟨rfl, rfl, rfl⟩
  obtain ⟨fields, rfl, hack⟩ := h key plaintext data hopens hdata
  rcases hcase with ⟨text, hrec, -⟩ | ⟨record, hrec, ⟨-, he⟩ | ⟨hno, -⟩⟩
  · cases hrec
  · exact AllOrNothing.of_ok he
  · obtain ⟨fields', hobj, hacknowledged⟩ := acknowledged_logRecord (X := X) hrec
    rw [Json.obj.inj hobj] at hack
    exact absurd (hacknowledged.mpr hack) hno

/-- The body of a packet with counter 0 that the session key opens to `plaintext`. -/
def forgedBody (plaintext : Bytes) : Bytes :=
  Reference.sessionId.toList ++ List.replicate 12 0 ++ plaintext ++ List.replicate 16 0

/-- After a handshake, a packet of the empty list and one of an object with an `error` key are answered
with 400; the first has advanced the counter, the second has been logged as well. -/
theorem refused_telemetry_stored :
    let s := run (Server.step Reference.externals) Server.init (Reference.requests.take 1)
    let list := telemetryRoute Reference.externals Reference.telemetryEnv s
      (forgedBody [0x5b, 0x5d])
    let error := telemetryRoute Reference.externals Reference.telemetryEnv s
      (forgedBody (PyStr.encodeAscii (PyStr.lit "\x7b\"error\":0\x7d")))
    (list.reply.status = 400 ∧
        s.sessionCounters.get? Reference.sessionId.toList = some (-1) ∧
        list.server.sessionCounters.get? Reference.sessionId.toList = some 0) ∧
      error.reply.status = 400 ∧ s.telemetryLog.length = 0 ∧ error.server.telemetryLog.length = 1 := by
  decide +kernel

end HybridPqc
