import HybridPqc.Network.Proofs.SignedProofs

/-!
# Agreement

When a client accepts a response, the server has created a session on exactly that client's request,
with the session id of the response and the client's session key; with fresh keys no session belongs to
two clients. Towards the server the authentication is weaker: the tag of a response is as good as that
of a request, so a signed transcript passes as a request of its own.
-/

open GuardedRuns

namespace HybridPqc

variable {X : Externals}

/-! ## Equal session keys -/

/-- The client derives its key from the secrets that the server encapsulated and computed, whatever
follows the key material in the response. -/
theorem clientKey_reply (hcomm : X.X25519Comm) (hkem : X.KemCorrect) (hlib : X.libmlkem = true)
    {mode : Mode} {keys : KeyPairs} (hkeys : keys.Matched X mode) (env : HandshakeEnv) (rest : Bytes) :
    clientKey X (keyedCtx mode keys)
        (replyData X env mode (clientData (keyedCtx mode keys)) ++ rest) =
      replyKey X env mode (clientData (keyedCtx mode keys)) := by
  have hx : mode.usesX25519 = true →
      X.x25519 keys.x25519Privkey
          (serverX25519 (replyData X env mode (clientData (keyedCtx mode keys)) ++ rest)) =
        X.x25519 env.x25519Privkey (clientX25519 (clientData (keyedCtx mode keys))) := by
    intro hu
    have hpub : clientX25519 (clientData (keyedCtx mode keys)) = keys.x25519Pubkey :=
      clientX25519_clientData _ hu
    rw [serverX25519_reply hu, hpub, hkeys.x25519 hu]
    exact hcomm _ _
  have hm : mode.usesMlkem = true →
      X.kemDec
          (serverCiphertext mode (replyData X env mode (clientData (keyedCtx mode keys)) ++ rest))
          keys.mlkemSk =
        (performMlkemEncaps X env (clientMlkem mode (clientData (keyedCtx mode keys)))).2 := by
    intro hu
    obtain ⟨seed, hpk, hsk⟩ := hkeys.mlkem hu
    have hpub : clientMlkem mode (clientData (keyedCtx mode keys)) = keys.mlkemPk :=
      clientMlkem_clientData (keyedCtx mode keys) hu
    rw [serverCiphertext_reply hu, hpub, hpk, hsk]
    simp only [performMlkemEncaps, hlib, if_true]
    exact hkem seed _
  have hsecrets : clientSecrets X (keyedCtx mode keys)
      (replyData X env mode (clientData (keyedCtx mode keys)) ++ rest) =
        replySecrets X env mode (clientData (keyedCtx mode keys)) := by
    unfold clientSecrets replySecrets
    show (if mode.usesX25519 then [X.x25519 keys.x25519Privkey _] else []) ++
      (if mode.usesMlkem then [X.kemDec (serverCiphertext mode _) keys.mlkemSk] else []) = _
    congr 1
    · split
      · rw [hx ‹_›]
      · rfl
    · split
      · rw [hm ‹_›]
      · rfl
  rw [clientKey, replyKey, deriveSessionKey, hsecrets]

namespace World

/-! ## Fresh keys -/

/-- The clients' keys are matched, and their handshake data are pairwise different. -/
structure FreshInv (X : Externals) (w : World) : Prop where
  matched : ∀ c ∈ w.clients, c.keys.Matched X c.mode
  distinct : (w.clients.map Client.hello).Nodup

theorem FreshInv.init : FreshInv X World.init where
  matched := by simp [World.init]
  distinct := List.nodup_nil

theorem hello_ne {mode mode' : Mode} {keys keys' : KeyPairs}
    (hx : mode.usesX25519 = true → mode'.usesX25519 = true → keys.x25519Pubkey ≠ keys'.x25519Pubkey)
    (hm : mode.usesMlkem = true → mode'.usesMlkem = true → keys.mlkemPk ≠ keys'.mlkemPk) :
    clientData (keyedCtx mode keys) ≠ clientData (keyedCtx mode' keys') := by
  intro h
  obtain ⟨hmode, hpub, hpk⟩ := clientData_inj h
  simp only [keyedCtx, hybridInit] at hmode hpub hpk
  subst hmode
  cases mode with
  | classical => exact hx rfl rfl (hpub rfl)
  | pqc => exact hm rfl rfl (hpk rfl)
  | hybrid => exact hx rfl rfl (hpub rfl)

theorem FreshInv.step {w : World} (h : w.FreshInv X) {e : Event} (hg : FreshKeys X w e) :
    (step X w e).FreshInv X := by
  cases e with
  | start mode keys seq hmacRet =>
    show (w.onStart X mode keys seq hmacRet).FreshInv X
    rw [onStart_eq]
    split
    swap
    · exact h
    constructor
    · intro c hc
      rcases List.mem_append.mp hc with hc | hc
      · exact h.matched c hc
      · rw [List.mem_singleton.mp hc]
        exact hg.1
    · apply Growing.nodup_map_concat h.distinct
      intro c hc
      obtain ⟨hx, hm⟩ := hg.2 c hc
      exact hello_ne hx hm
  | handshake env body =>
    have hclients := (onHandshake_clients (X := X) env body w).1
    refine ⟨fun c hc => h.matched c (hclients ▸ hc), ?_⟩
    show ((w.onHandshake X env body).clients.map Client.hello).Nodup
    rw [hclients]
    exact h.distinct
  | telemetry env body => exact ⟨h.matched, h.distinct⟩
  | client i e =>
    show (w.onClient X i e).FreshInv X
    unfold onClient
    cases hc : w.clients[i]? with
    | none => exact h
    | some c =>
      have hmem : c ∈ w.clients := List.mem_of_getElem? hc
      constructor
      · intro c' hc'
        rcases List.mem_or_eq_of_mem_set hc' with hc' | rfl
        · exact h.matched c' hc'
        · exact h.matched c hmem
      · have hsame : (w.clients.set i (c.next X e)).map Client.hello =
            w.clients.map Client.hello := by
          rw [List.map_set]
          apply List.ext_getElem?
          intro j
          rw [List.getElem?_set]
          split
          · subst j
            have hi : i < w.clients.length := (List.getElem?_eq_some_iff.mp hc).1
            rw [List.getElem?_map, hc, if_pos (by rwa [List.length_map])]
            rfl
          · rfl
        rw [hsame]
        exact h.distinct

theorem FreshInv.client_unique {w : World} (h : w.FreshInv X) {i j : Nat} {c c' : Client}
    (hc : w.clients[i]? = some c) (hc' : w.clients[j]? = some c') (heq : c.hello = c'.hello) :
    i = j :=
  Growing.eq_of_nodup_map h.distinct hc hc' heq

/-! ## The client's view -/

/-- Session number `k` was created on the client's request, with the session id of the response and
this key. -/
def Partner (w : World) (c : Client) (response : Bytes) (key : ByteArr 32) (k : Nat) : Prop :=
  ∃ s, w.sessions[k]? = some s ∧ s.request = c.request ∧ s.sid = response.take 16 ∧ s.key = key

theorem request_rdrop {c : Client} {es : List Sealing} (h : ClientInv X c es) :
    c.request.rdrop 32 = c.hello := by
  rw [h.request, helloOf_rdrop]
  rfl

/-- What the assumptions give: the invariants of the handshake. -/
structure HandshakeInv (X : Externals) (w : World) : Prop where
  clients : w.ClientsInv X
  signed : w.SignedInv X
  fresh : w.FreshInv X

/-- Ideal tags and fresh keys. -/
def IdealHandshakes (X : Externals) (w : World) (e : Event) : Prop :=
  MacIdeal X w e ∧ FreshKeys X w e

theorem run_handshakes {es : List Event}
    (hg : Guarded (World.step X) (IdealHandshakes X) init es) :
    (run (World.step X) init es).HandshakeInv X :=
  hg.invariant (fun _ e h hP => ⟨h.clients.step e, h.signed.step h.clients hP.1, h.fresh.step hP.2⟩)
    ⟨ClientsInv.init, SignedInv.init, FreshInv.init⟩

/-- A signed transcript of a client's handshake data and at least one more byte goes back to a session
on this client's request, whose response it starts with. -/
theorem HandshakeInv.session_of_signed {w : World} (h : w.HandshakeInv X) {i : Nat} {c : Client}
    (hc : w.clients[i]? = some c) {data : Bytes} (hne : data ≠ []) (hsigned : c.hello ++ data ∈ w.signed) :
    ∃ s ∈ w.sessions, s.request = c.request ∧ ∃ rest, data = s.response.rdrop 32 ++ rest := by
  obtain ⟨j, c', hc', hcase⟩ := h.signed.signed _ hsigned
  rcases hcase with heq | ⟨s, hs, rest, hreq, heq⟩
  · have hsplit : c.hello ++ data = c'.hello ++ [] := by rw [heq, List.append_nil]
    exact absurd (clientData_append_inj hsplit).2 hne
  · rw [List.append_assoc] at heq
    obtain ⟨hhello, hdata⟩ := clientData_append_inj heq
    have hij : i = j := h.fresh.client_unique hc hc' hhello
    subst hij
    rw [hc, Option.some.injEq] at hc'
    subst hc'
    exact ⟨s, hs, hreq, rest, hdata⟩

/-- The response that a client accepts is that of a session on its request. -/
theorem HandshakeInv.partner {w : World} (h : w.HandshakeInv X) (hcomm : X.X25519Comm)
    (hkem : X.KemCorrect) (hlib : X.libmlkem = true) {i : Nat} {c : Client}
    (hc : w.clients[i]? = some c) (hphase : c.task.phase = .handshake) {env : ResponseEnv}
    {response : Bytes} (hag : Agrees X env c.task.ctx response)
    (hmac : MacIdeal X w (.client i (.response env (some response)))) :
    ∃ k, w.Partner c response (clientKey X c.task.ctx response) k := by
  have hinv := h.clients.client i c hc
  obtain ⟨hctx, -, -⟩ := hinv.before hphase
  have hlen := hag.length
  have hcut : (response.rdrop 32).length = response.length - 32 := by simp [List.rdrop]
  have hne : response.rdrop 32 ≠ [] := by
    intro hnil
    rw [hnil, List.length_nil] at hcut
    omega
  have hsigned := hmac c hc hag.tag
  rw [hctx] at hsigned
  obtain ⟨s, hs, hreq, rest, hdata⟩ := h.session_of_signed hc hne hsigned
  obtain ⟨env', m, hacc, hnew⟩ := h.signed.session s hs
  have hhello : s.request.rdrop 32 = c.hello := by rw [hreq, request_rdrop hinv]
  have hmode : m = c.mode := by
    have hhead := hacc.mode
    rw [hhello] at hhead
    exact (Mode.toByte_injective (Option.some.inj hhead)).symm
  subst hmode
  -- The accepted response starts with the server's session id and key material.
  have hresponse : response = replyData X env' c.mode c.hello ++ (rest ++ response.rtake 32) := by
    have hs : s.response.rdrop 32 = replyData X env' c.mode c.hello := by
      rw [hnew, ← hhello]
      exact handshakeReply_rdrop env' c.mode s.request
    rw [← List.append_assoc, ← hs, ← hdata, rdrop_append_rtake]
  obtain ⟨k, hk, hget⟩ := List.getElem_of_mem hs
  refine ⟨k, s, by rw [List.getElem?_eq_getElem hk, hget], hreq, ?_, ?_⟩
  · have hsid : s.sid = env'.sessionId.toList := by rw [hnew]; rfl
    rw [hsid, hresponse, replyData, List.append_assoc]
    exact (List.take_left' env'.sessionId.toList_length).symm
  · have hkey : s.key = replyKey X env' c.mode c.hello := by rw [← hhello, hnew]; rfl
    rw [hkey, hctx, hresponse]
    exact (clientKey_reply hcomm hkem hlib (h.fresh.matched c (List.mem_of_getElem? hc)) env' _).symm

theorem HandshakeInv.partner_unique {w : World} (h : w.HandshakeInv X) {i j k : Nat} {c c' : Client}
    (hc : w.clients[i]? = some c) (hc' : w.clients[j]? = some c') {response response' : Bytes}
    {key key' : ByteArr 32} (hp : w.Partner c response key k) (hp' : w.Partner c' response' key' k) :
    i = j := by
  obtain ⟨s, hs, hreq, -⟩ := hp
  obtain ⟨s', hs', hreq', -⟩ := hp'
  rw [hs, Option.some.injEq] at hs'
  subst hs'
  apply h.fresh.client_unique hc hc'
  rw [← request_rdrop (h.clients.client i c hc), ← request_rdrop (h.clients.client j c' hc'), ← hreq,
    ← hreq']

/-- Later events leave a client's request and a session alone. -/
theorem run_mono (w : World) (es : List Event) :
    w.sessions <+: (run (World.step X) w es).sessions ∧
      ∀ (i : Nat) (c : Client), w.clients[i]? = some c →
        ∃ c', (run (World.step X) w es).clients[i]? = some c' ∧ c'.request = c.request := by
  induction es generalizing w with
  | nil => exact ⟨List.prefix_rfl, fun i c hc => ⟨c, hc, rfl⟩⟩
  | cons e es ih =>
    obtain ⟨hsessions, hclients⟩ := ih (step X w e)
    refine ⟨(sessions_step w e).trans hsessions, ?_⟩
    intro i c hc
    obtain ⟨c₁, hc₁, -, -, hreq₁⟩ := clients_step (X := X) w e hc
    obtain ⟨c₂, hc₂, hreq₂⟩ := hclients i c₁ hc₁
    exact ⟨c₂, hc₂, hreq₂.trans hreq₁⟩

/-- In every run against ideal tags with fresh keys, when a client accepts a response: the server has
created a session on exactly this client's request, with the session id of the response and the
client's session key; and up to the end of the run this session is no other client's. -/
theorem handshake_agreement (X : Externals) (hcomm : X.X25519Comm) (hkem : X.KemCorrect)
    (hlib : X.libmlkem = true) (es es' : List Event) (i : Nat) (env : ResponseEnv) (response : Bytes)
    (hg : Guarded (World.step X) (IdealHandshakes X) init
      (es ++ .client i (.response env (some response)) :: es')) :
    let w := run (World.step X) init es
    let w' := run (World.step X) init (es ++ .client i (.response env (some response)) :: es')
    ∀ c, w.clients[i]? = some c → c.task.phase = .handshake →
      let result := hybridProcessServerResponse X env c.task.ctx response
      result.ret = 0 → ∃ k, w.Partner c response result.ctx.sessionKey k ∧
        ∀ j c' response' key', w'.clients[j]? = some c' → w'.Partner c' response' key' k → j = i := by
  intro w w' c hc hphase result hret
  obtain ⟨hes, hrest⟩ := guarded_append.mp hg
  have h : w.HandshakeInv X := run_handshakes hes
  have h' : w'.HandshakeInv X := run_handshakes hg
  have hag : Agrees X env c.task.ctx response := by
    by_contra hno
    have hret' : (hybridProcessServerResponse X env c.task.ctx response).ret = 0 := hret
    rw [hybridProcessServerResponse_of_refused hno] at hret'
    cases hret'
  have hkey : result.ctx.sessionKey = clientKey X c.task.ctx response := by
    simp only [result, hybridProcessServerResponse_of_agrees hag, agreedCtx]
  rw [hkey]
  obtain ⟨k, hp⟩ := h.partner hcomm hkem hlib hc hphase hag hrest.1.1
  refine ⟨k, hp, ?_⟩
  intro j c' response' key' hc' hp'
  -- The client and its session are still there at the end of the run.
  have hw' : w' = run (World.step X) w (.client i (.response env (some response)) :: es') :=
    run_append ..
  obtain ⟨hsessions, hclients⟩ := run_mono (X := X) w (.client i (.response env (some response)) :: es')
  rw [← hw'] at hsessions hclients
  obtain ⟨c₁, hc₁, hreq⟩ := hclients i c hc
  obtain ⟨s, hs, hsreq, hsid, hskey⟩ := hp
  exact h'.partner_unique hc' hc₁ hp'
    ⟨s, Growing.getElem?_prefix hsessions hs, hsreq.trans hreq.symm, hsid, hskey⟩

theorem handshake_agreement_reference :
    ∃ c ∈ (Reference.world 2).clients[0]?, ∃ k,
      (Reference.world 2).Partner c Reference.response Reference.sessionKey k := by
  have hfresh : FreshKeys Reference.externals init (.start .classical Reference.keys 0 0) :=
    ⟨⟨fun _ => by decide +kernel, fun hm => by cases hm⟩, by simp [init]⟩
  obtain ⟨-, hmac₁, hmac₂, -⟩ := reference_macIdeal
  have hg : Guarded (World.step Reference.externals) (IdealHandshakes Reference.externals) init
      (Reference.events.take 3) :=
    ⟨⟨trivial, hfresh⟩, ⟨hmac₁, trivial⟩, ⟨hmac₂, trivial⟩, trivial⟩
  obtain ⟨c, hc, hphase, hret, hkey⟩ : ∃ c ∈ (Reference.world 2).clients[0]?,
      c.task.phase = .handshake ∧
        (hybridProcessServerResponse Reference.externals Reference.clientEnv c.task.ctx
          Reference.response).ret = 0 ∧
        (hybridProcessServerResponse Reference.externals Reference.clientEnv c.task.ctx
          Reference.response).ctx.sessionKey = Reference.sessionKey := by decide +kernel
  obtain ⟨k, hp, -⟩ := handshake_agreement Reference.externals Reference.x25519Comm
    Reference.kemCorrect rfl (Reference.events.take 2) [] 0 Reference.clientEnv Reference.response hg c
    hc hphase hret
  rw [hkey] at hp
  exact ⟨c, hc, k, hp⟩

/-! ## The server's view -/

/-- Among the accepted requests those of exactly the length of their mode are the clients' own; a
longer one is a transcript that was signed as a response. -/
theorem SignedInv.request_iff {w : World} (h : w.SignedInv X) (hcl : w.ClientsInv X)
    {env : HandshakeEnv} {m : Mode} {body : Bytes} (hacc : Accepts X env m body)
    (hmac : MacIdeal X w (.handshake env body)) :
    (∃ c ∈ w.clients, c.request = body) ↔ body.length = m.helloLength + 32 := by
  have hhello : ∀ c : Client, c.hello.length = c.mode.helloLength := fun c => clientData_length _
  constructor
  · rintro ⟨c, hc, rfl⟩
    obtain ⟨i, hi, hget⟩ := List.getElem_of_mem hc
    have hinv := hcl.client i c (by rw [List.getElem?_eq_getElem hi, hget])
    have hhead := hacc.mode
    rw [request_rdrop hinv] at hhead
    have hmode : c.mode = m := Mode.toByte_injective (Option.some.inj hhead)
    rw [hacc.length_body, request_rdrop hinv, hhello, hmode]
  · intro hlen
    obtain ⟨i, c, hc, hcase⟩ := h.signed _ (hmac hacc.tag)
    rcases hcase with hdata | ⟨s, hs, rest, hreq, hdata⟩
    · exact ⟨c, List.mem_of_getElem? hc, (request_of_hello hacc (hcl.client i c hc) hdata).symm⟩
    · -- A transcript is longer than the handshake data that it starts with.
      exfalso
      obtain ⟨env', m', hacc', hnew⟩ := h.session s hs
      have hresponse : s.response.rdrop 32 = replyData X env' m' (s.request.rdrop 32) := by
        rw [hnew]
        exact handshakeReply_rdrop env' m' s.request
      have hhead := hacc.mode
      rw [hdata, List.append_assoc] at hhead
      have hmode : c.mode = m := by
        rw [Client.hello, List.head?_append_of_ne_nil _ (clientData_ne_nil _), clientData_head] at hhead
        exact Mode.toByte_injective (Option.some.inj hhead)
      have hbody := hacc.length_body
      rw [hdata, hresponse, List.append_assoc, List.length_append, hhello, hmode, List.length_append,
        replyData, List.length_append, List.Vector.toList_length] at hbody
      omega

/-- In every run against ideal tags, a request that makes the server create a session is the request of
a client exactly when it is as long as the requests of its mode are. -/
theorem request_authentic_iff (X : Externals) (es : List Event) (env : HandshakeEnv) (body : Bytes)
    (hg : Guarded (World.step X) (MacIdeal X) init (es ++ [.handshake env body])) :
    let w := run (World.step X) init es
    ∀ response, (handleHandshake X env w.server body).1 = .ok response → response ≠ [] →
      ∃ m : Mode, body.head? = some m.toByte ∧
        ((∃ c ∈ w.clients, c.request = body) ↔ body.length = m.helloLength + 32) := by
  intro w response hok hne
  obtain ⟨hes, hlast⟩ := guarded_append.mp hg
  obtain ⟨m, hacc⟩ : ∃ m, Accepts X env m body := by
    by_contra hno
    obtain ⟨r, he, hr⟩ := handleHandshake_of_refused (fun m hm => hno ⟨m, hm⟩) w.server
    rw [he] at hok
    simp only at hok
    subst hok
    rcases hr with hr | ⟨text, hr⟩
    · exact hne (by simpa using hr)
    · cases hr
  have hcl : w.ClientsInv X := Guarded.invariant (fun _ e h _ => h.step e) ClientsInv.init hes
  have hsigned : w.SignedInv X := run_signed hes
  refine ⟨m, ?_, hsigned.request_iff hcl hacc hlast.1⟩
  have hbody := hacc.body_eq
  have hpos : body.rdrop 32 ≠ [] := by
    intro hnil
    have := hacc.mode
    rw [hnil] at this
    cases this
  rw [hbody, List.head?_append_of_ne_nil _ hpos]
  exact hacc.mode

theorem request_authentic_iff_reference :
    ∃ m : Mode, Reference.request.head? = some m.toByte ∧
      ((∃ c ∈ (Reference.world 1).clients, c.request = Reference.request) ↔
        Reference.request.length = m.helloLength + 32) := by
  have hg : Guarded (World.step Reference.externals) (MacIdeal Reference.externals) init
      (Reference.events.take 2) := ⟨reference_macIdeal.1, reference_macIdeal.2.1, trivial⟩
  have hok : (handleHandshake Reference.externals Reference.serverEnv (Reference.world 1).server
      Reference.request).1 = .ok Reference.response := by decide +kernel
  exact request_authentic_iff Reference.externals (Reference.events.take 1) Reference.serverEnv
    Reference.request hg Reference.response hok (by decide +kernel)

/-- The attacker puts the client's handshake data in front of the server's response: the tag of the
response makes it a request that the server accepts and no client has sent. -/
theorem transcript_accepted :
    Guarded (World.step Reference.externals) (MacIdeal Reference.externals) init
        (Reference.events.take 2 ++
          [.handshake Reference.laterEnv (Reference.hello ++ Reference.response)]) ∧
      (∃ response, (handleHandshake Reference.externals Reference.laterEnv (Reference.world 2).server
        (Reference.hello ++ Reference.response)).1 = .ok response ∧ response ≠ []) ∧
      ¬ ∃ c ∈ (Reference.world 2).clients, c.request = Reference.hello ++ Reference.response := by
  have hg : Guarded (World.step Reference.externals) (MacIdeal Reference.externals) init
      (Reference.events.take 2) := ⟨reference_macIdeal.1, reference_macIdeal.2.1, trivial⟩
  have hsigned : (Reference.hello ++ Reference.response).rdrop 32 ∈ (Reference.world 2).signed := by
    decide +kernel
  have hok : ∃ response ∈ (handleHandshake Reference.externals Reference.laterEnv
      (Reference.world 2).server (Reference.hello ++ Reference.response)).1.toOption,
      response ≠ [] := by decide +kernel
  refine ⟨guarded_append.mpr ⟨hg, fun _ => hsigned, trivial⟩, ?_, by decide +kernel⟩
  obtain ⟨response, hr, hne⟩ := hok
  refine ⟨response, ?_, hne⟩
  revert hr
  cases (handleHandshake Reference.externals Reference.laterEnv (Reference.world 2).server
    (Reference.hello ++ Reference.response)).1 with
  | error text => rintro ⟨⟩
  | ok response' => exact fun hr => congrArg Except.ok (Option.some.inj hr)

end World

end HybridPqc
