import HybridPqc.Device.Proofs.PacketProofs
import HybridPqc.Server.Proofs.StateProofs
import HybridPqc.Server.Telemetry

/-!
# What `handle_telemetry` accepts and answers

`Opens` is the condition under which a request passes the checks of the handler: it belongs to a
session, its counter exceeds the stored one and its packet opens under the session key. The
specification lemmas say what the handler and its route do in either case.
-/

namespace HybridPqc

/-- The counter that a session's packets have to exceed. -/
def Server.lastCounter (s : Server) (sid : Bytes) : Int := (s.sessionCounters.get? sid).getD (-1)

/-- The request passes the checks: its session has key `key`, and its packet opens to `plaintext`. -/
structure Opens (X : Externals) (s : Server) (body : Bytes) (key : ByteArr 32) (plaintext : Bytes) :
    Prop where
  length : 44 ≤ body.length
  session : s.sessions.get? (body.take 16) = some key
  counter : s.lastCounter (body.take 16) < packetCounter (body.drop 16)
  opens : openPacket X key (body.drop 16) = some plaintext

/-- The state after the counter of an accepted packet was stored. -/
def counted (s : Server) (body : Bytes) : Server :=
  { s with
    sessionCounters := s.sessionCounters.set (body.take 16) (packetCounter (body.drop 16)) }

/-- The state after the record of an accepted packet was logged as well. -/
def logged (s : Server) (body : Bytes) (record : List (PyStr × Json)) : Server :=
  { counted s body with telemetryLog := s.telemetryLog ++ [.obj record] }

variable {X : Externals} {s : Server} {body : Bytes} {key : ByteArr 32} {plaintext : Bytes}
  {receivedAt : DateTime}

/-- The handler cuts a body into the session id and the parts of a packet. -/
theorem body_packet (h : 44 ≤ body.length) :
    X.gcmDecrypt key (ByteArr.ofBytes 12 (body.drop 16)) ((body.drop (16 + 12)).rdrop 16)
      (ByteArr.ofBytes 16 (body.rtake 16)) = openPacket X key (body.drop 16) := by
  have htag : (body.drop 16).rtake 16 = body.rtake 16 := by
    rw [List.rtake, List.rtake, List.drop_drop, List.length_drop]
    congr 1
    omega
  rw [openPacket, htag, List.drop_drop]

theorem body_counter (h : 44 ≤ body.length) :
    Bytes.ofBigEndian ((ByteArr.ofBytes 12 (body.drop 16)).toList.take 4) =
      packetCounter (body.drop 16) := by
  have hiv : (ByteArr.ofBytes 12 (body.drop 16)).toList = (body.drop 16).take 12 := by
    show (body.drop 16).takeD 12 0 = _
    exact List.takeD_eq_take _ (by rw [List.length_drop]; omega)
  rw [hiv, packetCounter, List.take_take]
  rfl

theorem take_session {sid : Bytes} (hlen : sid.length = 16) (packet : Bytes) :
    (sid ++ packet).take 16 = sid := List.take_left' hlen

theorem drop_session {sid : Bytes} (hlen : sid.length = 16) (packet : Bytes) :
    (sid ++ packet).drop 16 = packet := List.drop_left' hlen

/-- A packet encrypted under the session key with a counter above the stored one passes the checks. -/
theorem opens_packet (hgcm : X.GcmCorrect) {sid : Bytes} (hlen : sid.length = 16) {e : Sealing}
    (hkey : s.sessions.get? sid = some e.key) (hctr : s.lastCounter sid < e.counter) :
    Opens X s (sid ++ e.packet X) e.key e.plaintext := by
  refine ⟨?_, ?_, ?_, ?_⟩
  · rw [List.length_append, hlen, Sealing.packet_length]
    omega
  · rw [take_session hlen]
    exact hkey
  · rw [take_session hlen, drop_session hlen, Sealing.packet_counter]
    exact hctr
  · rw [drop_session hlen]
    exact Sealing.openPacket_packet X e hgcm

/-- A request that does not pass the checks is answered with an error and changes nothing. -/
theorem handleTelemetry_of_refused (h : ∀ key plaintext, ¬ Opens X s body key plaintext) :
    ∃ text, handleTelemetry X receivedAt s body = (errorDict text, s) := by
  unfold handleTelemetry
  by_cases hshort : body.length < 16 + 12 + 16
  · exact ⟨_, if_pos hshort⟩
  rw [if_neg hshort]
  have hlen : 44 ≤ body.length := by omega
  cases hkey : s.sessions.get? (body.take 16) with
  | none =>
    refine ⟨PyStr.lit "No session key", ?_⟩
    simp only [hkey]
  | some key =>
    simp only [hkey, body_counter hlen, body_packet hlen]
    by_cases hctr : (packetCounter (body.drop 16) : Int) ≤
        (s.sessionCounters.get? (body.take 16)).getD (-1)
    · exact ⟨_, if_pos hctr⟩
    rw [if_neg hctr]
    cases hopen : openPacket X key (body.drop 16) with
    | none => exact ⟨_, rfl⟩
    | some plaintext => exact absurd ⟨hlen, hkey, not_le.mp hctr, hopen⟩ (h key plaintext)

/-- A request that passes the checks: its plaintext decides what is stored. -/
theorem handleTelemetry_of_opens (h : Opens X s body key plaintext) :
    handleTelemetry X receivedAt s body =
      match telemetryLoads X plaintext with
      | .error _ => (errorDict (X.jsonErrorText plaintext), s)
      | .ok data =>
        match logRecord receivedAt data with
        | .error text => (errorDict text, counted s body)
        | .ok record => ((formatError X (shownValues record)).elim record errorDict,
            logged s body record) := by
  have hctr := h.counter
  unfold handleTelemetry
  rw [if_neg (by have := h.length; omega)]
  simp only [h.session, body_counter h.length, body_packet h.length, h.opens]
  rw [if_neg (by unfold Server.lastCounter at hctr; omega)]
  cases telemetryLoads X plaintext with
  | error _ => rfl
  | ok data =>
    simp only
    cases logRecord receivedAt data with
    | error text => rfl
    | ok record =>
      simp only
      cases formatError X (shownValues record) <;> rfl

theorem handleTelemetry_cases (X : Externals) (receivedAt : DateTime) (s : Server) (body : Bytes) :
    (∃ text, handleTelemetry X receivedAt s body = (errorDict text, s)) ∨
      ∃ key plaintext data, Opens X s body key plaintext ∧ telemetryLoads X plaintext = .ok data ∧
        ((∃ text, logRecord receivedAt data = .error text ∧
            handleTelemetry X receivedAt s body = (errorDict text, counted s body)) ∨
          ∃ record, logRecord receivedAt data = .ok record ∧
            handleTelemetry X receivedAt s body =
              ((formatError X (shownValues record)).elim record errorDict, logged s body record)) := by
  by_cases hopens : ∃ key plaintext, Opens X s body key plaintext
  · obtain ⟨key, plaintext, h⟩ := hopens
    rw [handleTelemetry_of_opens h]
    cases hdata : telemetryLoads X plaintext with
    | error _ => exact .inl ⟨_, rfl⟩
    | ok data =>
      refine .inr ⟨key, plaintext, data, h, hdata, ?_⟩
      cases hrec : logRecord receivedAt data with
      | error text => exact .inl ⟨text, rfl, by simp only [hrec]⟩
      | ok record => exact .inr ⟨record, rfl, by simp only [hrec]⟩
  · exact .inl (handleTelemetry_of_refused fun key plaintext h => hopens ⟨key, plaintext, h⟩)

/-! ## The table and the log -/

@[simp] theorem counted_telemetryLog : (counted s body).telemetryLog = s.telemetryLog := rfl

@[simp] theorem logged_sessions (record : List (PyStr × Json)) :
    (logged s body record).sessions = s.sessions := rfl

@[simp] theorem logged_sessionCounters (record : List (PyStr × Json)) :
    (logged s body record).sessionCounters = (counted s body).sessionCounters := rfl

@[simp] theorem appended_self (s : Server) : appended s s = [] := by simp [appended]

@[simp] theorem appended_counted (s : Server) (body : Bytes) : appended s (counted s body) = [] := by
  simp [appended]

@[simp] theorem appended_logged (s : Server) (body : Bytes) (record : List (PyStr × Json)) :
    appended s (logged s body record) = [Json.obj record] := by
  simp [appended, logged]

theorem counted_counter_self (s : Server) (body : Bytes) :
    (counted s body).sessionCounters.get? (body.take 16) = some (packetCounter (body.drop 16) : Int) :=
  Dict.get?_set_self _ _ _

theorem counted_counter_ne {sid : Bytes} (h : sid ≠ body.take 16) :
    (counted s body).sessionCounters.get? sid = s.sessionCounters.get? sid :=
  Dict.get?_set_ne _ _ h

theorem Opens.counted_tableInv (h : Opens X s body key plaintext) (hs : s.TableInv) :
    (counted s body).TableInv := by
  refine ⟨?_, hs.size⟩
  have hmem : body.take 16 ∈ s.sessionCounters.keys := by
    rw [hs.keys]
    exact Dict.mem_keys_of_get? h.session
  show (s.sessionCounters.set (body.take 16) _).keys = s.sessions.keys
  rw [Dict.keys_set_of_mem _ hmem, hs.keys]

theorem handleTelemetry_tableInv (hs : s.TableInv) :
    (handleTelemetry X receivedAt s body).2.TableInv := by
  rcases handleTelemetry_cases X receivedAt s body with
    ⟨text, he⟩ | ⟨key, plaintext, data, hopens, -, ⟨text, -, he⟩ | ⟨record, -, he⟩⟩
  · rw [he]
    exact hs
  · rw [he]
    exact hopens.counted_tableInv hs
  · rw [he]
    have hc := hopens.counted_tableInv hs
    exact ⟨hc.keys, hc.size⟩

/-! ## Writing JSON -/

theorem dumpsBody_of_depth {fields : List (PyStr × Json)} (h : (Json.obj fields).depth ≤ 16) :
    dumpsBody X fields = .ok (jsonBody X fields) := if_pos (h.trans X.dumpsNesting.property)

theorem jsonReply_of_depth {fields : List (PyStr × Json)} (h : (Json.obj fields).depth ≤ 16)
    (status : Nat) : jsonReply X status fields = ⟨status, jsonBody X fields⟩ := by
  rw [jsonReply, dumpsBody_of_depth h]

/-- A reply whose body cannot be written is answered 500. -/
theorem jsonReply_status (X : Externals) (status : Nat) (fields : List (PyStr × Json)) :
    (jsonReply X status fields).status = status ∨ (jsonReply X status fields).status = 500 := by
  unfold jsonReply
  split
  · exact .inr rfl
  · exact .inl rfl

theorem errorDict_depth (text : PyStr) : (Json.obj (errorDict text)).depth ≤ 16 := by
  simp [errorDict, Json.depth, Json.depthFields]

theorem formatError_eq_none {values : List Json} :
    formatError X values = none ↔ ∀ v ∈ values, X.format.returns v = true := by
  simp [formatError]

/-! ## The route -/

theorem errorDict_hasError (text : PyStr) :
    PyStr.lit "error" ∈ (errorDict text).map Prod.fst := by simp [errorDict]

theorem telemetryRoute_server (env : TelemetryEnv) :
    (telemetryRoute X env s body).server = (handleTelemetry X env.receivedAt s body).2 := by
  unfold telemetryRoute
  simp only
  split
  · rfl
  · split <;> rfl

theorem telemetryRoute_of_error (env : TelemetryEnv) {dict : List (PyStr × Json)} {s' : Server}
    (h : handleTelemetry X env.receivedAt s body = (dict, s'))
    (herr : PyStr.lit "error" ∈ dict.map Prod.fst) :
    telemetryRoute X env s body = ⟨jsonReply X 400 dict, s', dict, none⟩ := by
  unfold telemetryRoute
  rw [h]
  exact if_pos herr

theorem telemetryRoute_of_errorDict (env : TelemetryEnv) {text : PyStr} {s' : Server}
    (h : handleTelemetry X env.receivedAt s body = (errorDict text, s')) :
    telemetryRoute X env s body = ⟨⟨400, jsonBody X (errorDict text)⟩, s', errorDict text, none⟩ := by
  rw [telemetryRoute_of_error env h (errorDict_hasError text), jsonReply_of_depth (errorDict_depth text)]

/-- The reply to a record whose acknowledgement is encrypted. -/
theorem telemetryRoute_of_sealed (env : TelemetryEnv) {record : List (PyStr × Json)} {s' : Server}
    {ack : Sealing} (h : handleTelemetry X env.receivedAt s body = (record, s'))
    (herr : PyStr.lit "error" ∉ record.map Prod.fst)
    (hseal : sealAck X env s' (body.take 16) record = .ok ack) :
    telemetryRoute X env s body = ⟨⟨200, ack.packet X⟩, s', record, some ack⟩ := by
  unfold telemetryRoute
  rw [h]
  simp only [if_neg herr, hseal]

/-- The reply to a record whose acknowledgement is not. -/
theorem telemetryRoute_of_unsealed (env : TelemetryEnv) {record : List (PyStr × Json)} {s' : Server}
    {text : PyStr} (h : handleTelemetry X env.receivedAt s body = (record, s'))
    (herr : PyStr.lit "error" ∉ record.map Prod.fst)
    (hseal : sealAck X env s' (body.take 16) record = .error text) :
    telemetryRoute X env s body = ⟨internalError X text, s', record, none⟩ := by
  unfold telemetryRoute
  rw [h]
  simp only [if_neg herr, hseal]

theorem toBytes4_of_lt {n : Nat} (h : n < 256 ^ 4) :
    toBytes4 (n : Int) = .ok (Bytes.toBigEndian 4 n) := by
  unfold toBytes4
  rw [if_neg (by omega), if_neg (by omega)]
  rfl

theorem packetCounter_lt (packet : Bytes) : packetCounter packet < 256 ^ 4 := by
  refine lt_of_lt_of_le (Bytes.ofBigEndian_lt _) (Nat.pow_le_pow_right (by omega) ?_)
  rw [List.length_take]
  omega

/-- The acknowledgement of a logged record: the session key, and the counter just accepted. -/
def ackOf (X : Externals) (env : TelemetryEnv) (key : ByteArr 32) (body : Bytes)
    (record : List (PyStr × Json)) : Sealing where
  key := key
  iv := ByteArr.ofBytes 12 (Bytes.toBigEndian 4 (packetCounter (body.drop 16)) ++ env.random.toList)
  plaintext := jsonBody X (ackFields env.serverTime record)

/-- The counter of an acknowledgement is that of the packet it acknowledges. -/
theorem ackOf_counter (env : TelemetryEnv) (record : List (PyStr × Json)) :
    (ackOf X env key body record).counter = packetCounter (body.drop 16) := by
  have hlen : (Bytes.toBigEndian 4 (packetCounter (body.drop 16)) ++ env.random.toList).length = 12 := by
    simp
  show Bytes.ofBigEndian ((ByteArr.ofBytes 12 _).toList.take 4) = _
  rw [ByteArr.toList_ofBytes hlen, List.take_append_of_le_length (by simp),
    List.take_of_length_le (by simp), Bytes.ofBigEndian_toBigEndian _ _ (packetCounter_lt _)]

/-- What a record is acknowledged for: it has no `error` key, its readings can be formatted, and its
sequence number can be written into the acknowledgement. -/
structure Acknowledged (X : Externals) (record : List (PyStr × Json)) : Prop where
  noError : PyStr.lit "error" ∉ record.map Prod.fst
  shown : ∀ v ∈ shownValues record, X.format.returns v = true
  sent : ((record.lookup (PyStr.lit "sequence")).getD (.int 0)).depth + 1 ≤ X.dumpsNesting.val

theorem ackFields_depth (serverTime : DateTime) (record : List (PyStr × Json)) :
    (Json.obj (ackFields serverTime record)).depth =
      ((record.lookup (PyStr.lit "sequence")).getD (.int 0)).depth + 1 := by
  simp [ackFields, Json.depth, Json.depthFields]

/-- The acknowledgement is encrypted when its text can be written. -/
theorem sealAck_of_logged (env : TelemetryEnv) (hopens : Opens X s body key plaintext)
    (record : List (PyStr × Json)) :
    sealAck X env (logged s body record) (body.take 16) record =
      match dumpsBody X (ackFields env.serverTime record) with
      | .error text => .error text
      | .ok _ => .ok (ackOf X env key body record) := by
  unfold sealAck
  rw [logged_sessions, hopens.session, logged_sessionCounters, counted_counter_self]
  simp only [Option.getD_some, toBytes4_of_lt (packetCounter_lt _)]
  unfold dumpsBody
  by_cases hdepth : (Json.obj (ackFields env.serverTime record)).depth ≤ X.dumpsNesting.val
  · simp only [if_pos hdepth]
    rfl
  · simp only [if_neg hdepth]

/-- The reply to a logged record. -/
theorem telemetryRoute_of_record (env : TelemetryEnv) {record : List (PyStr × Json)}
    (hopens : Opens X s body key plaintext)
    (h : handleTelemetry X env.receivedAt s body =
      ((formatError X (shownValues record)).elim record errorDict, logged s body record)) :
    (Acknowledged X record ∧ telemetryRoute X env s body =
        ⟨⟨200, (ackOf X env key body record).packet X⟩, logged s body record, record,
          some (ackOf X env key body record)⟩) ∨
      ¬ Acknowledged X record ∧ ∃ reply dict, reply.status ≠ 200 ∧
        telemetryRoute X env s body = ⟨reply, logged s body record, dict, none⟩ := by
  cases hformat : formatError X (shownValues record) with
  | some text =>
    rw [hformat] at h
    refine .inr ⟨?_, _, _, by simp, telemetryRoute_of_errorDict env h⟩
    intro hack
    rw [formatError_eq_none.mpr hack.shown] at hformat
    cases hformat
  | none =>
    rw [hformat] at h
    have hshown := formatError_eq_none.mp hformat
    by_cases herr : PyStr.lit "error" ∈ record.map Prod.fst
    · refine .inr ⟨fun hack => hack.noError herr, _, _, ?_, telemetryRoute_of_error env h herr⟩
      rcases jsonReply_status X 400 record with hstatus | hstatus <;> rw [Option.elim_none, hstatus] <;>
        decide
    have hseal := sealAck_of_logged env hopens record
    rw [dumpsBody, ackFields_depth] at hseal
    by_cases hsent : ((record.lookup (PyStr.lit "sequence")).getD (.int 0)).depth + 1 ≤
        X.dumpsNesting.val
    · rw [if_pos hsent] at hseal
      exact .inl ⟨⟨herr, hshown, hsent⟩, telemetryRoute_of_sealed env h herr hseal⟩
    · rw [if_neg hsent] at hseal
      exact .inr ⟨fun hack => hsent hack.sent, _, _, by simp [internalError],
        telemetryRoute_of_unsealed env h herr hseal⟩

theorem telemetryRoute_of_logged (env : TelemetryEnv) {record : List (PyStr × Json)}
    (hopens : Opens X s body key plaintext)
    (h : handleTelemetry X env.receivedAt s body =
      ((formatError X (shownValues record)).elim record errorDict, logged s body record))
    (hack : Acknowledged X record) :
    telemetryRoute X env s body =
      ⟨⟨200, (ackOf X env key body record).packet X⟩, logged s body record, record,
        some (ackOf X env key body record)⟩ := by
  rcases telemetryRoute_of_record env hopens h with ⟨-, he⟩ | ⟨hno, -⟩
  · exact he
  · exact absurd hack hno

theorem telemetryRoute_cases (X : Externals) (env : TelemetryEnv) (s : Server) (body : Bytes) :
    (∃ dict, telemetryRoute X env s body = ⟨⟨400, jsonBody X dict⟩, s, dict, none⟩) ∨
      ∃ key plaintext data, Opens X s body key plaintext ∧ telemetryLoads X plaintext = .ok data ∧
        ((∃ text, logRecord env.receivedAt data = .error text ∧
            telemetryRoute X env s body =
              ⟨⟨400, jsonBody X (errorDict text)⟩, counted s body, errorDict text, none⟩) ∨
          ∃ record, logRecord env.receivedAt data = .ok record ∧
            ((Acknowledged X record ∧ telemetryRoute X env s body =
                ⟨⟨200, (ackOf X env key body record).packet X⟩, logged s body record, record,
                  some (ackOf X env key body record)⟩) ∨
              ¬ Acknowledged X record ∧ ∃ reply dict, reply.status ≠ 200 ∧
                telemetryRoute X env s body = ⟨reply, logged s body record, dict, none⟩)) := by
  rcases handleTelemetry_cases X env.receivedAt s body with
    ⟨text, he⟩ | ⟨key, plaintext, data, hopens, hdata, ⟨text, hrec, he⟩ | ⟨record, hrec, he⟩⟩
  · exact .inl ⟨_, telemetryRoute_of_errorDict env he⟩
  · exact .inr ⟨key, plaintext, data, hopens, hdata,
      .inl ⟨text, hrec, telemetryRoute_of_errorDict env he⟩⟩
  · exact .inr ⟨key, plaintext, data, hopens, hdata,
      .inr ⟨record, hrec, telemetryRoute_of_record env hopens he⟩⟩

end HybridPqc
