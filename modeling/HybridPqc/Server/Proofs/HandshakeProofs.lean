import HybridPqc.Server.Proofs.StateProofs
import HybridPqc.Server.Handshake
import HybridPqc.Device.Context

/-!
# What `handle_handshake` accepts and answers

`Accepts` is the condition under which the handler creates a session, in terms of the request and of
the ephemeral X25519 key. The two specification lemmas say what the handler returns and which state it
leaves in either case.
-/

namespace HybridPqc

/-- The 32 bytes that the server reads as the client's X25519 public key. -/
def clientX25519 (data : Bytes) : ByteArr 32 := ByteArr.ofBytes 32 (data.drop 1)

/-- The 1184 bytes that the server reads as the client's ML-KEM public key. -/
def clientMlkem (m : Mode) (data : Bytes) : ByteArr 1184 :=
  ByteArr.ofBytes 1184 (data.drop (1 + if m.usesX25519 then 32 else 0))

/-- The key material of the server's response. -/
def replyKeys (X : Externals) (env : HandshakeEnv) (m : Mode) (data : Bytes) : Bytes :=
  (if m.usesX25519 then (X.x25519Base env.x25519Privkey).toList else []) ++
    (if m.usesMlkem then (performMlkemEncaps X env (clientMlkem m data)).1.toList else [])

/-- The shared secrets that the server derives the session key from. -/
def replySecrets (X : Externals) (env : HandshakeEnv) (m : Mode) (data : Bytes) :
    List (ByteArr 32) :=
  (if m.usesX25519 then [X.x25519 env.x25519Privkey (clientX25519 data)] else []) ++
    (if m.usesMlkem then [(performMlkemEncaps X env (clientMlkem m data)).2] else [])

/-- The session key of a completed handshake. -/
def replyKey (X : Externals) (env : HandshakeEnv) (m : Mode) (data : Bytes) : ByteArr 32 :=
  deriveSessionKey X (replySecrets X env m data)

/-- The part of the response that the transcript covers. -/
def replyData (X : Externals) (env : HandshakeEnv) (m : Mode) (data : Bytes) : Bytes :=
  env.sessionId.toList ++ replyKeys X env m data

/-- The request carries a valid tag and the public keys of mode `m`, possibly followed by more, and
X25519 does not give the all-zero secret. -/
structure Accepts (X : Externals) (env : HandshakeEnv) (m : Mode) (body : Bytes) : Prop where
  tag : body.rtake 32 = (X.hmacSha256 serverPsk (body.rdrop 32)).toList
  mode : (body.rdrop 32).head? = some m.toByte
  length : m.helloLength ≤ (body.rdrop 32).length
  secret : m.usesX25519 = true →
    (X.x25519 env.x25519Privkey (clientX25519 (body.rdrop 32))).isZero = false

instance (X : Externals) (env : HandshakeEnv) (m : Mode) (body : Bytes) :
    Decidable (Accepts X env m body) :=
  decidable_of_iff
    (body.rtake 32 = (X.hmacSha256 serverPsk (body.rdrop 32)).toList ∧
      (body.rdrop 32).head? = some m.toByte ∧ m.helloLength ≤ (body.rdrop 32).length ∧
      (m.usesX25519 = true →
        (X.x25519 env.x25519Privkey (clientX25519 (body.rdrop 32))).isZero = false))
    ⟨fun h => ⟨h.1, h.2.1, h.2.2.1, h.2.2.2⟩, fun h => ⟨h.1, h.2, h.3, h.4⟩⟩

instance (X : Externals) (env : HandshakeEnv) (body : Bytes) :
    Decidable (∃ m, Accepts X env m body) :=
  decidable_of_iff
    (Accepts X env .classical body ∨ Accepts X env .pqc body ∨ Accepts X env .hybrid body)
    ⟨fun h => h.elim (fun h => ⟨_, h⟩) fun h => h.elim (fun h => ⟨_, h⟩) fun h => ⟨_, h⟩,
      fun ⟨m, h⟩ => match m, h with
        | .classical, h => .inl h
        | .pqc, h => .inr (.inl h)
        | .hybrid, h => .inr (.inr h)⟩

variable {X : Externals} {env : HandshakeEnv}

theorem rdrop_append_rtake (l : Bytes) (n : Nat) : l.rdrop n ++ l.rtake n = l := by
  rw [List.rdrop, List.rtake]
  exact List.take_append_drop _ _

theorem Accepts.body_eq {m : Mode} {body : Bytes} (h : Accepts X env m body) :
    body = body.rdrop 32 ++ (X.hmacSha256 serverPsk (body.rdrop 32)).toList := by
  rw [← h.tag, rdrop_append_rtake]

theorem Accepts.length_body {m : Mode} {body : Bytes} (h : Accepts X env m body) :
    body.length = (body.rdrop 32).length + 32 := by
  conv_lhs => rw [h.body_eq]
  simp

theorem replyKeys_length (m : Mode) (data : Bytes) :
    (replyKeys X env m data).length = m.replyLength := by
  cases m <;> simp [replyKeys, Mode.usesX25519, Mode.usesMlkem, Mode.replyLength]

theorem replySecrets_ne_nil (m : Mode) (data : Bytes) : replySecrets X env m data ≠ [] := by
  cases m <;> simp [replySecrets, Mode.usesX25519, Mode.usesMlkem]

theorem toByte_x25519 (m : Mode) : (m.toByte = 0 ∨ m.toByte = 2) ↔ m.usesX25519 = true := by
  cases m <;> decide

theorem toByte_mlkem (m : Mode) : (m.toByte = 1 ∨ m.toByte = 2) ↔ m.usesMlkem = true := by
  cases m <;> decide

theorem x25519Component_of_mode (m : Mode) (data : Bytes) :
    x25519Component X env m.toByte data ⟨1, [], []⟩ =
      if m.usesX25519 = true then
        if data.length < 33 then .error .empty
        else if (X.x25519 env.x25519Privkey (clientX25519 data)).isZero = true then
          .error (.raised (PyStr.lit "RFC 7748 violation: X25519 shared secret is all zeros"))
        else .ok ⟨33, (X.x25519Base env.x25519Privkey).toList,
          [X.x25519 env.x25519Privkey (clientX25519 data)]⟩
      else .ok ⟨1, [], []⟩ := by
  simp only [x25519Component, toByte_x25519]
  by_cases hx : m.usesX25519 = true
  · rw [if_pos hx, if_pos hx]
    by_cases hlen : data.length < 33
    · rw [if_pos hlen, if_pos (show 1 + 32 > data.length by omega)]
    · rw [if_neg hlen, if_neg (show ¬ 1 + 32 > data.length by omega)]
      by_cases hzero : (X.x25519 env.x25519Privkey (clientX25519 data)).isZero = true
      · rw [if_pos hzero]
        simp only [clientX25519] at hzero
        simp only [performX25519, hzero, if_true]
      · rw [if_neg hzero]
        simp only [clientX25519] at hzero ⊢
        simp only [performX25519, hzero, Bool.false_eq_true, if_false]
        rfl
  · rw [if_neg hx, if_neg hx]

/-- The components succeed exactly on enough bytes and a non-zero X25519 secret. -/
theorem keyMaterial_of_mode (m : Mode) (data : Bytes) :
    keyMaterial X env m.toByte data =
      if m.usesX25519 = true ∧ data.length < 33 then .error .empty
      else if m.usesX25519 = true ∧
          (X.x25519 env.x25519Privkey (clientX25519 data)).isZero = true then
        .error (.raised (PyStr.lit "RFC 7748 violation: X25519 shared secret is all zeros"))
      else if m.usesMlkem = true ∧ data.length < m.helloLength then .error .empty
      else .ok ⟨m.helloLength, replyKeys X env m data, replySecrets X env m data⟩ := by
  rw [keyMaterial, x25519Component_of_mode]
  have hoff : ∀ (r : Bytes) (ss : List (ByteArr 32)),
      mlkemComponent X env m.toByte data ⟨if m.usesX25519 then 33 else 1, r, ss⟩ =
        if m.usesMlkem = true ∧ data.length < m.helloLength then .error .empty
        else .ok ⟨m.helloLength,
          r ++ (if m.usesMlkem then (performMlkemEncaps X env (clientMlkem m data)).1.toList else []),
          ss ++ (if m.usesMlkem then [(performMlkemEncaps X env (clientMlkem m data)).2] else [])⟩ := by
    intro r ss
    simp only [mlkemComponent, toByte_mlkem]
    cases m with
    | classical => simp [Mode.usesX25519, Mode.usesMlkem, Mode.helloLength]
    | pqc => simp [Mode.usesX25519, Mode.usesMlkem, Mode.helloLength, clientMlkem]
    | hybrid => simp [Mode.usesX25519, Mode.usesMlkem, Mode.helloLength, clientMlkem]
  by_cases hx : m.usesX25519 = true
  · simp only [hx, true_and, if_true]
    by_cases hlen : data.length < 33
    · rw [if_pos hlen, if_pos hlen]
      rfl
    · rw [if_neg hlen, if_neg hlen]
      by_cases hzero : (X.x25519 env.x25519Privkey (clientX25519 data)).isZero = true
      · rw [if_pos hzero, if_pos hzero]
        rfl
      · rw [if_neg hzero, if_neg hzero]
        have h33 := hoff (X.x25519Base env.x25519Privkey).toList
          [X.x25519 env.x25519Privkey (clientX25519 data)]
        simp only [hx, if_true] at h33
        simp only [Except.bind, h33, replyKeys, replySecrets, hx, if_true]
  · simp only [hx, false_and, if_false, Bool.false_eq_true]
    have h1 := hoff [] []
    simp only [hx, Bool.false_eq_true, if_false] at h1
    simp only [Except.bind, h1, replyKeys, replySecrets, hx, Bool.false_eq_true, if_false]

theorem keyMaterial_of_unknown {mode : UInt8} (h : ∀ m : Mode, mode ≠ m.toByte) (data : Bytes) :
    keyMaterial X env mode data = .ok ⟨1, [], []⟩ := by
  have h0 : mode ≠ 0 := h .classical
  have h1 : mode ≠ 1 := h .pqc
  have h2 : mode ≠ 2 := h .hybrid
  simp [keyMaterial, x25519Component, mlkemComponent, h0, h1, h2, Except.bind]

/-- The state after a completed handshake. -/
def established (X : Externals) (env : HandshakeEnv) (m : Mode) (s : Server) (body : Bytes) :
    Server :=
  { s with handshakeCount := s.handshakeCount + 1 }.createSession env.sessionId.toList
    (replyKey X env m (body.rdrop 32))

/-- The response of a completed handshake: session id, key material, and the tag of the transcript. -/
def handshakeReply (X : Externals) (env : HandshakeEnv) (m : Mode) (body : Bytes) : Bytes :=
  replyData X env m (body.rdrop 32) ++
    (X.hmacSha256 serverPsk (body.rdrop 32 ++ replyData X env m (body.rdrop 32))).toList

/-- An acceptable request creates a session and is answered. -/
theorem handleHandshake_of_accepts {m : Mode} {body : Bytes} (h : Accepts X env m body)
    (s : Server) :
    handleHandshake X env s body =
      (.ok (handshakeReply X env m body), established X env m s body) := by
  have hlen := h.length_body
  have hdata := h.mode
  have hkm : keyMaterial X env m.toByte (body.rdrop 32) = .ok ⟨m.helloLength,
      replyKeys X env m (body.rdrop 32), replySecrets X env m (body.rdrop 32)⟩ := by
    have hl := h.length
    rw [keyMaterial_of_mode, if_neg, if_neg, if_neg]
    · rintro ⟨-, hlt⟩
      omega
    · rintro ⟨hx, hzero⟩
      rw [h.secret hx] at hzero
      cases hzero
    · rintro ⟨hx, hlt⟩
      have : 33 ≤ m.helloLength := by cases m <;> simp_all [Mode.helloLength, Mode.usesX25519]
      omega
  unfold handleHandshake
  rw [if_neg (by omega)]
  simp only [h.tag, ne_eq, not_true_eq_false, if_false]
  cases hd : body.rdrop 32 with
  | nil => rw [hd] at hdata; cases hdata
  | cons b rest =>
    rw [hd] at hdata hkm
    simp only [List.head?_cons, Option.some.injEq] at hdata
    subst hdata
    simp only [hkm, replySecrets_ne_nil, if_false]
    simp only [handshakeReply, established, replyData, replyKey, hd]

/-- Any other request leaves the state as it was, and is answered with nothing or an exception. -/
theorem handleHandshake_of_refused {body : Bytes} (h : ∀ m, ¬ Accepts X env m body) (s : Server) :
    ∃ r, handleHandshake X env s body = (r, s) ∧ (r = .ok [] ∨ ∃ text, r = .error text) := by
  unfold handleHandshake
  by_cases hshort : body.length < 32
  · exact ⟨_, if_pos hshort, .inl rfl⟩
  rw [if_neg hshort]
  by_cases htag : body.rtake 32 = (X.hmacSha256 serverPsk (body.rdrop 32)).toList
  swap
  · exact ⟨_, if_pos htag, .inl rfl⟩
  simp only [htag, ne_eq, not_true_eq_false, if_false]
  cases hd : body.rdrop 32 with
  | nil => exact ⟨_, rfl, .inl rfl⟩
  | cons b rest =>
    simp only
    by_cases hmode : ∃ m : Mode, b = m.toByte
    · obtain ⟨m, rfl⟩ := hmode
      have hnot := h m
      rw [← hd]
      rw [keyMaterial_of_mode]
      by_cases h1 : m.usesX25519 = true ∧ (body.rdrop 32).length < 33
      · rw [if_pos h1]
        exact ⟨_, rfl, .inl rfl⟩
      rw [if_neg h1]
      by_cases h2 : m.usesX25519 = true ∧
          (X.x25519 env.x25519Privkey (clientX25519 (body.rdrop 32))).isZero = true
      · rw [if_pos h2]
        exact ⟨_, rfl, .inr ⟨_, rfl⟩⟩
      rw [if_neg h2]
      by_cases h3 : m.usesMlkem = true ∧ (body.rdrop 32).length < m.helloLength
      · rw [if_pos h3]
        exact ⟨_, rfl, .inl rfl⟩
      exfalso
      refine hnot ⟨htag, by rw [hd]; rfl, ?_, ?_⟩
      · have hpos : 1 ≤ (body.rdrop 32).length := by rw [hd]; simp
        cases m with
        | classical =>
          simp only [Mode.usesX25519, true_and, not_lt] at h1
          exact h1
        | pqc =>
          simp only [Mode.usesMlkem, true_and, not_lt] at h3
          exact h3
        | hybrid =>
          simp only [Mode.usesMlkem, true_and, not_lt] at h3
          exact h3
      · intro hx
        simpa [hx] using h2
    · rw [keyMaterial_of_unknown (fun m hm => hmode ⟨m, hm⟩)]
      exact ⟨_, rfl, .inl rfl⟩

end HybridPqc
