import HybridPqc.Device.Proofs.HandshakeProofs
import HybridPqc.Server.Proofs.TableProofs
import HybridPqc.Network.World

/-!
# What the two handshake parsers accept

Both parsers check a lower bound at each field and nothing after the last one. A message that is not
longer than the format of its mode is accepted only when it has that format, byte for byte; a longer
one with a valid tag is accepted as well, unless a library step happens to fail.
-/

namespace HybridPqc

variable {X : Externals}

/-! ## Requests -/

/-- A context that holds the mode and the public keys which the server reads from a request. -/
def parsedCtx (m : Mode) (data : Bytes) : HybridCtx :=
  { hybridInit m with x25519Pubkey := clientX25519 data, mlkemPk := clientMlkem m data }

/-- The request has the length of a mode's message and is what `hybrid_pack_pubkeys` writes for the keys
that the server reads from it. -/
def RequestExact (X : Externals) (body : Bytes) : Prop :=
  ∃ m : Mode, body.length = m.helloLength + 32 ∧
    hybridPackPubkeys X 0 (parsedCtx m (body.rdrop 32)) pubkeyBufSize = some body

/-- A request that is longer than the message of its mode carries a public key that X25519 refuses. -/
def LongRequestRefused (X : Externals) (env : HandshakeEnv) (body : Bytes) : Prop :=
  ∀ m : Mode, (body.rdrop 32).head? = some m.toByte → m.helloLength + 32 < body.length →
    m.usesX25519 = true ∧
      (X.x25519 env.x25519Privkey (clientX25519 (body.rdrop 32))).isZero = true

theorem head_of_length {data : Bytes} {b : UInt8} (h : data.head? = some b) :
    data = b :: data.drop 1 := by
  cases data with
  | nil => cases h
  | cons c l =>
    simp only [List.head?_cons, Option.some.injEq] at h
    rw [h]
    rfl

/-- Handshake data of exactly the length of its mode is made of the mode and the keys read from it. -/
theorem clientData_parsedCtx {m : Mode} {data : Bytes} (hmode : data.head? = some m.toByte)
    (hlen : data.length = m.helloLength) : clientData (parsedCtx m data) = data := by
  have hcut : data = m.toByte :: data.drop 1 := head_of_length hmode
  have hx : ∀ n, 33 + n = data.length → (clientX25519 data).toList = (data.drop 1).take 32 := by
    intro n hn
    show (data.drop 1).takeD 32 0 = _
    rw [List.takeD_eq_take _ (by rw [List.length_drop]; omega)]
  have hm : ∀ k, k + 1184 = data.length →
      (ByteArr.ofBytes 1184 (data.drop k)).toList = data.drop k := by
    intro k hk
    exact ByteArr.toList_ofBytes (by rw [List.length_drop]; omega)
  conv_rhs => rw [hcut]
  cases m with
  | classical =>
    have hlen33 : data.length = 33 := hlen
    show [Mode.classical.toByte] ++ (clientX25519 data).toList ++ [] = _
    rw [hx 0 (by omega), List.take_of_length_le (by rw [List.length_drop]; omega)]
    simp
  | pqc =>
    have hlen1185 : data.length = 1185 := hlen
    show [Mode.pqc.toByte] ++ [] ++ (ByteArr.ofBytes 1184 (data.drop 1)).toList = _
    rw [hm 1 (by omega)]
    rfl
  | hybrid =>
    have hlen1217 : data.length = 1217 := hlen
    show [Mode.hybrid.toByte] ++ (clientX25519 data).toList ++
      (ByteArr.ofBytes 1184 (data.drop 33)).toList = _
    have hdrop : data.drop 33 = (data.drop 1).drop 32 := by rw [List.drop_drop]
    rw [hx 1184 (by omega), hm 33 (by omega), hdrop, List.append_assoc, List.take_append_drop]
    rfl

theorem requestExact_of_length {m : Mode} {body : Bytes}
    (htag : body.rtake 32 = (X.hmacSha256 serverPsk (body.rdrop 32)).toList)
    (hmode : (body.rdrop 32).head? = some m.toByte) (hlen : (body.rdrop 32).length = m.helloLength) :
    RequestExact X body := by
  have hbody : body.rdrop 32 ++ body.rtake 32 = body := rdrop_append_rtake body 32
  refine ⟨m, ?_, ?_⟩
  · conv_lhs => rw [← hbody]
    rw [List.length_append, hlen, htag, List.Vector.toList_length]
  · rw [hybridPackPubkeys_eq, if_pos rfl, helloOf, clientData_parsedCtx hmode hlen, ← serverPsk_eq,
      ← htag, hbody]

/-- The mode of an exact request is the one its first byte names. -/
theorem RequestExact.length_eq {m : Mode} {body : Bytes} (h : RequestExact X body)
    (hmode : (body.rdrop 32).head? = some m.toByte) : body.length = m.helloLength + 32 := by
  obtain ⟨m', hlen, hpack⟩ := h
  rw [hybridPackPubkeys_eq, if_pos rfl] at hpack
  have hdata : body.rdrop 32 = clientData (parsedCtx m' (body.rdrop 32)) := by
    conv_lhs => rw [← Option.some.inj hpack]
    exact helloOf_rdrop _
  have hbyte : m'.toByte = m.toByte := by
    rw [hdata] at hmode
    exact Option.some.inj hmode
  rw [← Mode.toByte_injective hbyte]
  exact hlen

theorem created_ne_nil {env : HandshakeEnv} {s : Server} {body : Bytes} :
    Server.created X s (.handshake env body) ≠ [] ↔ ∃ m, Accepts X env m body := by
  constructor
  · intro h
    by_contra hnone
    exact h (Server.created_of_refused (fun m hm => hnone ⟨m, hm⟩) s)
  · rintro ⟨m, hm⟩
    rw [Server.created_of_accepts hm]
    simp

/-- The server accepts exact requests only, precisely when it refuses the longer ones. -/
theorem request_exact_iff {env : HandshakeEnv} (s : Server) {body : Bytes}
    (htag : body.rtake 32 = (X.hmacSha256 serverPsk (body.rdrop 32)).toList) :
    (Server.created X s (.handshake env body) ≠ [] → RequestExact X body) ↔
      LongRequestRefused X env body := by
  rw [created_ne_nil]
  constructor
  · intro h m hmode hlong
    by_contra hnot
    have hlen : m.helloLength ≤ (body.rdrop 32).length := by
      rw [List.rdrop, List.length_take]
      omega
    have hacc : Accepts X env m body := by
      refine ⟨htag, hmode, hlen, ?_⟩
      intro hx
      by_contra hzero
      exact hnot ⟨hx, by simpa using hzero⟩
    have hexact := (h ⟨m, hacc⟩).length_eq hmode
    omega
  · rintro h ⟨m, hacc⟩
    by_cases hlong : m.helloLength + 32 < body.length
    · obtain ⟨hx, hzero⟩ := h m hacc.mode hlong
      rw [hacc.secret hx] at hzero
      cases hzero
    · have hbody := hacc.length_body
      have hlen := hacc.length
      exact requestExact_of_length htag hacc.mode (by omega)

/-! ## Responses -/

/-- The response is a session id, the key material of the mode and a tag, and nothing else. -/
def ResponseExact (m : Mode) (response : Bytes) : Prop :=
  response.length = 16 + m.replyLength + 32

/-- A library step of the response's mode fails. -/
def LibraryFails (X : Externals) (env : ResponseEnv) (ctx : HybridCtx) (response : Bytes) : Prop :=
  env.hmacRet ≠ 0 ∨
    (ctx.mode.usesX25519 = true ∧ (env.sharedRet ≠ 0 ∨
      (X.x25519 ctx.x25519Privkey (serverX25519 response)).isZero = true)) ∨
    (ctx.mode.usesMlkem = true ∧ env.decapsRet ≠ 0) ∨ env.hkdfRet ≠ 0

theorem not_libraryFails {env : ResponseEnv} {ctx : HybridCtx} {response : Bytes}
    (h : Agrees X env ctx response) : ¬ LibraryFails X env ctx response := by
  rintro (hhmac | ⟨hx, hshared | hzero⟩ | ⟨hm, hdecaps⟩ | hhkdf)
  · exact hhmac h.hmac
  · exact hshared (h.x25519 hx).shared
  · rw [(h.x25519 hx).secret] at hzero
    cases hzero
  · exact hdecaps (h.mlkem hm).decaps
  · exact hhkdf h.hkdf

theorem agrees_of_long {env : ResponseEnv} {ctx : HybridCtx} {response : Bytes}
    (htag : (X.hmacSha256 handshakePsk (clientData ctx ++ response.rdrop 32)).toList =
      response.rtake 32)
    (hlen : 16 + ctx.mode.replyLength + 32 ≤ response.length)
    (h : ¬ LibraryFails X env ctx response) : Agrees X env ctx response := by
  simp only [LibraryFails, not_or, not_and, ne_eq, not_not, Bool.not_eq_true] at h
  obtain ⟨hhmac, hx, hm, hhkdf⟩ := h
  refine ⟨by omega, hhmac, htag, ?_, ?_, hhkdf⟩
  · intro hu
    have hreply : 32 ≤ ctx.mode.replyLength := by
      rw [Mode.replyLength, if_pos hu]
      omega
    exact ⟨by omega, (hx hu).1, (hx hu).2⟩
  · intro hu
    exact ⟨by omega, hm hu⟩

theorem Agrees.replyLength_le {env : ResponseEnv} {ctx : HybridCtx} {response : Bytes}
    (h : Agrees X env ctx response) : 16 + ctx.mode.replyLength + 32 ≤ response.length := by
  have hlen := h.length
  by_cases hm : ctx.mode.usesMlkem = true
  · have hml := (h.mlkem hm).length
    omega
  · have hmode : ctx.mode = .classical := by
      cases hc : ctx.mode <;> simp_all [Mode.usesMlkem]
    have hxl := (h.x25519 (by rw [hmode]; rfl)).length
    rw [hmode]
    show 16 + 32 + 32 ≤ response.length
    omega

/-- The client accepts exact responses only, precisely when a library step fails on the longer ones. -/
theorem response_exact_iff {env : ResponseEnv} {ctx : HybridCtx} {response : Bytes}
    (htag : (X.hmacSha256 handshakePsk (clientData ctx ++ response.rdrop 32)).toList =
      response.rtake 32) :
    ((hybridProcessServerResponse X env ctx response).ret = 0 →
        ResponseExact ctx.mode response) ↔
      (16 + ctx.mode.replyLength + 32 < response.length → LibraryFails X env ctx response) := by
  constructor
  · intro h hlong
    by_contra hnot
    have hret : (hybridProcessServerResponse X env ctx response).ret = 0 := by
      rw [hybridProcessServerResponse_of_agrees (agrees_of_long htag (by omega) hnot)]
    have hexact : response.length = 16 + ctx.mode.replyLength + 32 := h hret
    omega
  · intro h hret
    have hag : Agrees X env ctx response := by
      by_contra hnot
      rw [hybridProcessServerResponse_of_refused hnot] at hret
      cases hret
    have hle := hag.replyLength_le
    by_cases hlong : 16 + ctx.mode.replyLength + 32 < response.length
    · exact absurd (h hlong) (not_libraryFails hag)
    · show response.length = _
      omega

/-! ## Both parsers -/

/-- On strings with a valid tag the parsers accept exactly their formats, if and only if a longer string
does not get through: on the server because X25519 refuses its key, on the client because a library
step fails. -/
theorem handshake_formats_iff (X : Externals) (env : HandshakeEnv) (s : Server) (body : Bytes)
    (hbody : body.rtake 32 = (X.hmacSha256 serverPsk (body.rdrop 32)).toList)
    (cenv : ResponseEnv) (ctx : HybridCtx) (response : Bytes)
    (hresponse : (X.hmacSha256 handshakePsk (clientData ctx ++ response.rdrop 32)).toList =
      response.rtake 32) :
    ((Server.created X s (.handshake env body) ≠ [] → RequestExact X body) ↔
        LongRequestRefused X env body) ∧
      (((hybridProcessServerResponse X cenv ctx response).ret = 0 →
          ResponseExact ctx.mode response) ↔
        (16 + ctx.mode.replyLength + 32 < response.length →
          LibraryFails X cenv ctx response)) :=
  ⟨request_exact_iff s hbody, response_exact_iff hresponse⟩

theorem handshake_formats_iff_reference :
    RequestExact Reference.externals Reference.request ∧
      ResponseExact .classical Reference.response := by
  have hctx : (keyedCtx .classical Reference.keys).mode = .classical := rfl
  obtain ⟨hrequest, hresponse⟩ := handshake_formats_iff Reference.externals Reference.serverEnv
    Server.init Reference.request (by decide +kernel) Reference.clientEnv
    (keyedCtx .classical Reference.keys) Reference.response (by decide +kernel)
  constructor
  · refine hrequest.mpr ?_ (by decide +kernel)
    intro m hmode hlong
    have hlen : Reference.request.length = 65 := by decide +kernel
    have hbyte : (Reference.request.rdrop 32).head? = some Mode.classical.toByte := by decide +kernel
    have hm : m = .classical := Mode.toByte_injective (Option.some.inj (hmode.symm.trans hbyte))
    rw [hm, hlen] at hlong
    exact absurd hlong (by decide)
  · rw [← hctx]
    refine hresponse.mpr ?_ (by decide +kernel)
    intro hlong
    exact absurd hlong (by decide +kernel)

/-- The client's handshake data in front of the server's response is a valid request of 113 bytes; the
response to it, less the session id and key of the first, is a valid response of 128 bytes. -/
theorem long_messages_accepted :
    let request := Reference.hello ++ Reference.response
    let response := Reference.laterTranscript.drop 33 ++
      (Reference.externals.hmacSha256 handshakePsk Reference.laterTranscript).toList
    let ctx := keyedCtx .classical Reference.keys
    (request.rtake 32 = (Reference.externals.hmacSha256 serverPsk (request.rdrop 32)).toList ∧
        Server.created Reference.externals Server.init (.handshake Reference.laterEnv request) ≠ [] ∧
        ¬ RequestExact Reference.externals request) ∧
      (Reference.externals.hmacSha256 handshakePsk (clientData ctx ++ response.rdrop 32)).toList =
        response.rtake 32 ∧
      (hybridProcessServerResponse Reference.externals Reference.clientEnv ctx response).ret = 0 ∧
      ¬ ResponseExact ctx.mode response := by
  intro request response ctx
  have hmode : (request.rdrop 32).head? = some Mode.classical.toByte := by decide +kernel
  have hlen : request.length = 113 := by decide +kernel
  have hlen' : response.length = 128 := by decide +kernel
  refine ⟨⟨by decide +kernel, by decide +kernel, ?_⟩, by decide +kernel, by decide +kernel, ?_⟩
  · intro h
    have hexact := h.length_eq hmode
    rw [hlen] at hexact
    exact absurd hexact (by decide)
  · intro h
    have hexact : response.length = 16 + 32 + 32 := h
    rw [hlen'] at hexact
    exact absurd hexact (by decide)

end HybridPqc
