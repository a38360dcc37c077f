import HybridPqc.Network.World

/-!
# What one event can do

One specification lemma for each kind of event, in terms of the conditions under which the parties
accept what they receive, and the effect of an event on the views of the history.
-/

namespace HybridPqc

namespace World

variable {X : Externals}

/-! ## The events -/

/-- The client that a start adds. -/
def newClient (X : Externals) (mode : Mode) (keys : KeyPairs) (telemetrySeq : UInt32) : Client where
  mode := mode
  keys := keys
  request := helloOf X (keyedCtx mode keys)
  task := Device.start (keyedCtx mode keys) telemetrySeq
  agreed := none
  posted := []

theorem onStart_eq (mode : Mode) (keys : KeyPairs) (telemetrySeq : UInt32) (hmacRet : Int)
    (w : World) :
    w.onStart X mode keys telemetrySeq hmacRet =
      if hmacRet = 0 then
        { w with
          clients := w.clients ++ [newClient X mode keys telemetrySeq]
          signed := w.signed ++ [clientData (keyedCtx mode keys)] }
      else w := by
  simp only [onStart, hybridPackPubkeys_eq]
  by_cases hret : hmacRet = 0
  · simp only [if_pos hret, helloOf_rdrop]
    rfl
  · simp only [if_neg hret]

/-- The session that a completed handshake creates. -/
def newSession (X : Externals) (env : HandshakeEnv) (m : Mode) (body : Bytes) : Session where
  request := body
  sid := env.sessionId.toList
  key := replyKey X env m (body.rdrop 32)
  response := handshakeReply X env m body

theorem handshakeReply_rdrop (env : HandshakeEnv) (m : Mode) (body : Bytes) :
    (handshakeReply X env m body).rdrop 32 = replyData X env m (body.rdrop 32) := by
  rw [handshakeReply, List.rdrop]
  exact List.take_left' (by simp)

theorem handshakeReply_take (X : Externals) (env : HandshakeEnv) (m : Mode) (body : Bytes) :
    (handshakeReply X env m body).take 16 = env.sessionId.toList := by
  rw [handshakeReply, replyData, List.append_assoc]
  exact List.take_left' env.sessionId.toList_length

theorem onHandshake_of_accepts {env : HandshakeEnv} {m : Mode} {body : Bytes}
    (h : Accepts X env m body) (w : World) :
    w.onHandshake X env body =
      { w with
        server := established X env m w.server body
        signed := w.signed ++ [body.rdrop 32 ++ replyData X env m (body.rdrop 32)]
        sessions := w.sessions ++ [newSession X env m body]
        current := fun sid =>
          if sid = env.sessionId.toList then w.sessions.length else w.current sid } := by
  unfold onHandshake newSession
  rw [handleHandshake_of_accepts h]
  simp only
  have hkey : (established X env m w.server body).sessions.get? env.sessionId.toList =
      some (replyKey X env m (body.rdrop 32)) := Server.createSession_get?_self _ _ _
  rw [hkey, ← handshakeReply_rdrop]
  cases hr : handshakeReply X env m body with
  | nil => exact absurd hr (handshakeReply_ne_nil m body)
  | cons b rest => rfl

theorem onHandshake_of_refused {env : HandshakeEnv} {body : Bytes}
    (h : ∀ m, ¬ Accepts X env m body) (w : World) : w.onHandshake X env body = w := by
  obtain ⟨r, he, rfl | ⟨text, rfl⟩⟩ := handleHandshake_of_refused h w.server <;>
    simp only [onHandshake, he]

/-- Everything that a handshake request can do to the world: nothing, or it creates a session. -/
theorem onHandshake_cases (X : Externals) (env : HandshakeEnv) (body : Bytes) (w : World) :
    ((∀ m, ¬ Accepts X env m body) ∧ w.onHandshake X env body = w) ∨
      ∃ m, Accepts X env m body ∧ w.onHandshake X env body =
        { w with
          server := established X env m w.server body
          signed := w.signed ++ [body.rdrop 32 ++ replyData X env m (body.rdrop 32)]
          sessions := w.sessions ++ [newSession X env m body]
          current := fun sid =>
            if sid = env.sessionId.toList then w.sessions.length else w.current sid } := by
  by_cases hacc : ∃ m, Accepts X env m body
  · obtain ⟨m, hacc⟩ := hacc
    exact .inr ⟨m, hacc, onHandshake_of_accepts hacc w⟩
  · have hno : ∀ m, ¬ Accepts X env m body := fun m hm => hacc ⟨m, hm⟩
    exact .inl ⟨hno, onHandshake_of_refused hno w⟩

/-- Later events leave a session and its number alone. -/
theorem sessions_step (w : World) (e : Event) : w.sessions <+: (step X w e).sessions := by
  cases e with
  | start mode keys seq hmacRet =>
    show w.sessions <+: (w.onStart X mode keys seq hmacRet).sessions
    rw [onStart_eq]
    split <;> exact List.prefix_rfl
  | handshake env body =>
    show w.sessions <+: (w.onHandshake X env body).sessions
    rcases onHandshake_cases X env body w with ⟨-, he⟩ | ⟨m, -, he⟩
    · rw [he]
    · rw [he]
      exact List.prefix_append _ _
  | telemetry env body => exact List.prefix_rfl
  | client i e =>
    show w.sessions <+: (w.onClient X i e).sessions
    unfold onClient
    cases w.clients[i]? <;> exact List.prefix_rfl

/-- Everything that a telemetry request can do to the world. -/
inductive TelemetryStep (X : Externals) (w : World) (env : TelemetryEnv) (body : Bytes) :
    World → Prop
  /-- An error reply, and nothing else. -/
  | refused : TelemetryStep X w env body w
  /-- The counter of an authentic packet is stored, but its content cannot be logged. -/
  | counted (key : ByteArr 32) (plaintext : Bytes) (data : Json)
      (hopens : Opens X w.server body key plaintext) (hdata : telemetryLoads X plaintext = .ok data)
      (hrecord : ∃ text, logRecord env.receivedAt data = .error text) :
      TelemetryStep X w env body { w with server := counted w.server body }
  /-- The record is logged, and acknowledged if nothing stands against that. -/
  | logged (key : ByteArr 32) (plaintext : Bytes) (data : Json) (record : List (PyStr × Json))
      (ack : Option Sealing) (hopens : Opens X w.server body key plaintext)
      (hdata : telemetryLoads X plaintext = .ok data)
      (hrecord : logRecord env.receivedAt data = .ok record)
      (hack : ∀ a, ack = some a ↔ Acknowledged X record ∧ ackOf X env key body record = a) :
      TelemetryStep X w env body
        { w with
          server := logged w.server body record
          sealings := w.sealings ++
            (ack.map fun ack => (.server (w.current (body.take 16)), ack)).toList
          accepted := w.accepted ++
            [⟨w.current (body.take 16), body.drop 16, record, ack⟩] }

theorem onTelemetry_step (env : TelemetryEnv) (body : Bytes) (w : World) :
    TelemetryStep X w env body (w.onTelemetry X env body) := by
  rcases telemetryRoute_cases X env w.server body with
    ⟨dict, he⟩ | ⟨key, plaintext, data, hopens, hdata,
      ⟨text, hrec, he⟩ | ⟨record, hrec, ⟨hack, he⟩ | ⟨hack, reply, dict, -, he⟩⟩⟩
  · have hw : w.onTelemetry X env body = w := by simp [onTelemetry, he]
    rw [hw]
    exact .refused
  · have hw : w.onTelemetry X env body = { w with server := HybridPqc.counted w.server body } := by
      simp [onTelemetry, he]
    rw [hw]
    exact .counted key plaintext data hopens hdata ⟨text, hrec⟩
  · simp only [onTelemetry, he, appended_logged]
    exact .logged key plaintext data record (some _) hopens hdata hrec (by simp [hack])
  · simp only [onTelemetry, he, appended_logged]
    exact .logged key plaintext data record none hopens hdata hrec (by simp [hack])

/-- A client's packet that passes the checks is logged and acknowledged. -/
theorem onTelemetry_of_payload {w : World} {body : Bytes} {key : ByteArr 32} {t : TelemetryData}
    (ht : t.Small) (env : TelemetryEnv) (h : Opens X w.server body key (jsonPayload t)) :
    let record := telemetryRecord env.receivedAt t
    let ack := ackOf X env key body record
    w.onTelemetry X env body =
      { w with
        server := HybridPqc.logged w.server body record
        sealings := w.sealings ++ [(.server (w.current (body.take 16)), ack)]
        accepted := w.accepted ++ [⟨w.current (body.take 16), body.drop 16, record, some ack⟩] } := by
  intro record ack
  simp only [onTelemetry, telemetryRoute_of_payload ht env h, appended_logged]
  rfl

/-! ## The views -/

theorem sealingsOf_append (w : World) {w' : World} {l : List (Sender × Sealing)}
    (h : w'.sealings = w.sealings ++ l) (sender : Sender) :
    w'.sealingsOf sender = w.sealingsOf sender ++ (l.filter fun p => p.1 = sender).map Prod.snd := by
  simp [sealingsOf, h]

theorem mem_sealingsOf {w : World} {sender : Sender} {e : Sealing} :
    e ∈ w.sealingsOf sender ↔ (sender, e) ∈ w.sealings := by
  simp [sealingsOf]

theorem acceptedOf_concat (w : World) {w' : World} {a : Acceptance}
    (h : w'.accepted = w.accepted ++ [a]) (k : Nat) :
    w'.acceptedOf k = w.acceptedOf k ++ if a.session = k then [a] else [] := by
  rw [acceptedOf, h, List.filter_append]
  congr 1
  by_cases hk : a.session = k <;> simp [hk]

theorem mem_acceptedOf {w : World} {k : Nat} {a : Acceptance} :
    a ∈ w.acceptedOf k ↔ a ∈ w.accepted ∧ a.session = k := by
  simp [acceptedOf]

end World

end HybridPqc
