import HybridPqc.Network.Proofs.LinkProofs

/-!
# An honest exchange succeeds

The server accepts an honest request, the client accepts the response, both hold the same key; from
there on the link delivers.
-/

open GuardedRuns

namespace HybridPqc

variable {X : Externals}

/-! ## The handshake -/

theorem accepts_helloOf {env : HandshakeEnv} {mode : Mode} {keys : KeyPairs}
    (hsecret : mode.usesX25519 = true →
      (X.x25519 env.x25519Privkey keys.x25519Pubkey).isZero = false) :
    Accepts X env mode (helloOf X (keyedCtx mode keys)) := by
  have hcut := helloOf_rdrop (X := X) (keyedCtx mode keys)
  refine ⟨?_, ?_, ?_, ?_⟩
  · rw [helloOf_rtake, hcut, serverPsk_eq]
  · rw [hcut]
    exact clientData_head _
  · rw [hcut, clientData_length]
    exact le_refl _
  · intro hx
    rw [hcut, clientX25519_clientData (keyedCtx mode keys) hx]
    exact hsecret hx

theorem agrees_handshakeReply (hcomm : X.X25519Comm) {env : HandshakeEnv} {mode : Mode}
    {keys : KeyPairs} (hkeys : keys.Matched X mode)
    (hsecret : mode.usesX25519 = true →
      (X.x25519 env.x25519Privkey keys.x25519Pubkey).isZero = false)
    {cenv : ResponseEnv} (hlibrary : cenv.hmacRet = 0 ∧ cenv.sharedRet = 0 ∧ cenv.decapsRet = 0 ∧
      cenv.hkdfRet = 0) :
    Agrees X cenv (keyedCtx mode keys)
      (handshakeReply X env mode (helloOf X (keyedCtx mode keys))) := by
  obtain ⟨hhmac, hshared, hdecaps, hhkdf⟩ := hlibrary
  have hlen := handshakeReply_length X env mode (helloOf X (keyedCtx mode keys))
  have hcut := World.handshakeReply_rdrop (X := X) env mode (helloOf X (keyedCtx mode keys))
  rw [helloOf_rdrop] at hcut
  refine ⟨by omega, hhmac, ?_, fun hx => ⟨?_, hshared, ?_⟩, fun hm => ⟨?_, hdecaps⟩, hhkdf⟩
  · rw [hcut, handshakeReply, helloOf_rdrop, serverPsk_eq, List.rtake]
    exact (List.drop_left' (by simp)).symm
  · have : 32 ≤ mode.replyLength := by
      have hmode : (keyedCtx mode keys).mode = mode := rfl
      rw [hmode] at hx
      rw [Mode.replyLength, if_pos hx]
      omega
    omega
  · have hx' : mode.usesX25519 = true := hx
    rw [handshakeReply, serverX25519_reply hx']
    show (X.x25519 keys.x25519Privkey (X.x25519Base env.x25519Privkey)).isZero = false
    rw [hcomm, ← hkeys.x25519 hx']
    exact hsecret hx'
  · show 16 + mode.replyLength ≤ _
    omega

theorem clientKey_handshakeReply (hcomm : X.X25519Comm) (hkem : X.KemCorrect)
    (hlib : X.libmlkem = true) {mode : Mode} {keys : KeyPairs} (hkeys : keys.Matched X mode)
    (env : HandshakeEnv) :
    clientKey X (keyedCtx mode keys)
        (handshakeReply X env mode (helloOf X (keyedCtx mode keys))) =
      replyKey X env mode (clientData (keyedCtx mode keys)) := by
  rw [handshakeReply, helloOf_rdrop]
  exact clientKey_reply hcomm hkem hlib hkeys env _

/-! ## A new session in the traffic of others -/

namespace World

/-- While others keep to themselves and at most 100 of their handshakes complete, a new session stays
as it was created. -/
theorem run_foreign {w : World} (hw : w.SessionsInv X) {env : HandshakeEnv} {m : Mode} {body : Bytes}
    (hacc : Accepts X env m body) (hfresh : FreshIds w (.handshake env body)) {i : Nat}
    {es : List Event} (hfew : (completedRequests X es).length ≤ 100)
    (hf : Guarded (World.step X) (Exchange.Foreign i env.sessionId.toList) (w.onHandshake X env body)
      es) :
    let w' := run (World.step X) (w.onHandshake X env body) es
    w'.server.lastCounter env.sessionId.toList = -1 ∧
      w'.current env.sessionId.toList = w.sessions.length ∧ w'.acceptedOf w.sessions.length = [] := by
  intro w'
  induction es using List.reverseRecOn with
  | nil =>
    have hw' : w' = w.onHandshake X env body := rfl
    rw [hw', onHandshake_of_accepts hacc]
    refine ⟨?_, if_pos rfl, acceptedOf_length_eq_nil hw⟩
    show (Dict.get? (established X env m w.server body).sessionCounters _).getD (-1) = -1
    rw [established, Server.createSession_counter_self]
    rfl
  | append_singleton es e ih =>
    have hwhole := hf
    obtain ⟨hf, hlast, -⟩ := guarded_append.mp hf
    have hids : ∀ {es'}, Guarded (World.step X) (Exchange.Foreign i env.sessionId.toList)
        (w.onHandshake X env body) es' →
        Guarded (World.step X) FreshIds w (.handshake env body :: es') := fun h =>
      ⟨hfresh, h.mono fun _ _ hP => Link.foreign_freshIds hP⟩
    have hfew' := hfew
    rw [completedRequests_append, List.length_append] at hfew'
    have hthere := (session_survives hw hacc (hids hf)).mpr (by omega)
    have hthere' := (session_survives hw hacc (hids hwhole)).mpr hfew
    obtain ⟨h1, h2, h3⟩ := ih (by omega) hf
    have hinv : (run (World.step X) (w.onHandshake X env body) es).SessionsInv X :=
      (hw.handshake env body).run es
    have hw' : w' = World.step X (run (World.step X) (w.onHandshake X env body) es) e := by
      show run (World.step X) (w.onHandshake X env body) (es ++ [e]) = _
      rw [run_append]
      rfl
    rw [run_append] at hthere'
    obtain ⟨k1, k2, k3⟩ := foreign_session hinv hthere hlast (Dict.mem_keys_of_get? hthere')
    rw [hw']
    rw [h2] at k2 k3
    exact ⟨k1.trans h1, k2, k3.trans h3⟩

end World

/-! ## The exchange -/

namespace Exchange

variable {x : Exchange}

theorem request_eq (X : Externals) (x : Exchange) :
    x.request X = some (helloOf X (keyedCtx x.mode x.keys)) := by
  rw [request, hybridPackPubkeys_eq, if_pos rfl]

theorem answered_eq (X : Externals) (x : Exchange) : x.answered X =
    (x.requested X).onHandshake X x.serverEnv (helloOf X (keyedCtx x.mode x.keys)) := by
  rw [answered, request_eq]
  rfl

/-- The response reaches the client whole. -/
theorem Honest.response_eq (hx : x.Honest X) : x.response X =
    some (handshakeReply X x.serverEnv x.mode (helloOf X (keyedCtx x.mode x.keys))) := by
  have hlen := handshakeReply_length X x.serverEnv x.mode
    (helloOf X (keyedCtx x.mode x.keys))
  have hreply : x.mode.replyLength ≤ 32 + 1088 := by cases x.mode <;> decide
  have hroute : x.reply X =
      ⟨200, handshakeReply X x.serverEnv x.mode (helloOf X (keyedCtx x.mode x.keys))⟩ := by
    rw [reply, request_eq, handshakeRoute, Option.getD_some,
      handleHandshake_of_accepts (accepts_helloOf hx.secret)]
  have hfits : (handshakeReply X x.serverEnv x.mode (helloOf X (keyedCtx x.mode x.keys))).length ≤
      responseBufSize := by
    unfold responseBufSize
    omega
  rw [response, hroute, sendHttpPost, if_neg (by simp), List.take_of_length_le hfits]

theorem Honest.client_responded (hx : x.Honest X) : (x.responded X).clients[x.client X]? =
    some (World.newClient X x.mode x.keys x.telemetrySeq) := by
  have hstart : (World.step X (run (World.step X) World.init x.before)
      (.start x.mode x.keys x.telemetrySeq 0)).clients[x.client X]? =
        some (World.newClient X x.mode x.keys x.telemetrySeq) := by
    show (World.onStart X x.mode x.keys x.telemetrySeq 0 _).clients[x.client X]? = _
    rw [World.onStart_eq, if_pos rfl]
    exact List.getElem?_concat_length
  have hrequested : (x.requested X).clients[x.client X]? =
      some (World.newClient X x.mode x.keys x.telemetrySeq) := by
    rw [requested, run_append]
    exact World.run_client hx.requesting hstart
  exact World.run_client (hx.responding.forall_mem fun _ _ hf => Link.foreign_ne hf)
    (World.step_client (by simp) hrequested)

theorem responded_eq (X : Externals) (x : Exchange) : x.responded X = run (World.step X)
    ((x.requested X).onHandshake X x.serverEnv (helloOf X (keyedCtx x.mode x.keys))) x.responding := by
  rw [responded, answered_eq]

theorem responded_inv (X : Externals) (x : Exchange) :
    (x.responded X).ClientsInv X ∧ (x.responded X).SessionsInv X := by
  obtain ⟨hclients, hsessions⟩ : (x.requested X).ClientsInv X ∧ (x.requested X).SessionsInv X :=
    World.run_inv X _
  rw [responded_eq]
  exact ⟨(hclients.step (.handshake _ _)).run _, (hsessions.step (.handshake _ _)).run _⟩

theorem Honest.accepts (hx : x.Honest X) :
    Accepts X x.serverEnv x.mode (helloOf X (keyedCtx x.mode x.keys)) :=
  accepts_helloOf hx.secret

theorem Honest.responding_foreign (hx : x.Honest X) :
    Guarded (World.step X) (Foreign (x.client X) x.serverEnv.sessionId.toList)
      ((x.requested X).onHandshake X x.serverEnv (helloOf X (keyedCtx x.mode x.keys)))
      x.responding := by
  have hresponding := hx.responding
  rwa [answered_eq] at hresponding

/-- No id is drawn twice from the request to the response. -/
theorem Honest.freshIds (hx : x.Honest X) : Guarded (World.step X) World.FreshIds (x.requested X)
    (.handshake x.serverEnv (helloOf X (keyedCtx x.mode x.keys)) :: x.responding) := by
  have hfresh := hx.fresh
  rw [request_eq, Option.getD_some] at hfresh
  exact ⟨hfresh, hx.responding_foreign.mono fun _ _ hf => Link.foreign_freshIds hf⟩

theorem Honest.session_responded (hx : x.Honest X) :
    (x.responded X).sessions[(x.requested X).sessions.length]? =
      some (World.newSession X x.serverEnv x.mode (helloOf X (keyedCtx x.mode x.keys))) := by
  refine Growing.getElem?_prefix (World.run_mono (X := X) (x.answered X) x.responding).1 ?_
  rw [answered_eq, World.onHandshake_of_accepts hx.accepts]
  exact List.getElem?_concat_length

theorem Honest.step_response (hx : x.Honest X) (hcomm : X.X25519Comm) :
    (World.newClient X x.mode x.keys x.telemetrySeq).task.step X
        (.response x.clientEnv (x.response X)) =
      { (World.newClient X x.mode x.keys x.telemetrySeq).task with
        ctx := agreedCtx X (keyedCtx x.mode x.keys)
          (handshakeReply X x.serverEnv x.mode (helloOf X (keyedCtx x.mode x.keys)))
        sessionId := x.serverEnv.sessionId.toList
        telemetryErrors := 0
        packetsSent := 0
        phase := .loop } := by
  rw [hx.response_eq, ← World.handshakeReply_take X x.serverEnv x.mode]
  exact Device.onResponse_of_agrees (d := (World.newClient X x.mode x.keys x.telemetrySeq).task)
    (agrees_handshakeReply hcomm hx.keys hx.secret hx.library)

/-- Once the client has processed the response, the link is as it should be. -/
theorem Honest.connected_inv (hx : x.Honest X) (hcomm : X.X25519Comm) (hkem : X.KemCorrect)
    (hlib : X.libmlkem = true) (hfew : (World.completedRequests X x.responding).length ≤ 100) :
    (x.connected X).Inv X (x.client X) (x.requested X).sessions.length
      (World.newSession X x.serverEnv x.mode (helloOf X (keyedCtx x.mode x.keys))) := by
  have hinv : (x.requested X).SessionsInv X := (World.run_inv X _).2
  obtain ⟨hclients, hsessions⟩ := responded_inv X x
  -- The session is as it was created.
  obtain ⟨hlast, hcurrent, haccepted⟩ :=
    World.run_foreign hinv hx.accepts hx.freshIds.1 hfew hx.responding_foreign
  have htable := (World.session_survives hinv hx.accepts hx.freshIds).mpr hfew
  rw [← responded_eq] at hlast hcurrent haccepted htable
  -- The response changes nothing but the client.
  have hc := hx.client_responded
  have htask := hx.step_response hcomm
  have hworld := World.onClient_eq (X := X) hc (.response x.clientEnv (x.response X))
  have hconnected : (x.connected X).world =
    (x.responded X).onClient X (x.client X) (.response x.clientEnv (x.response X)) := rfl
  refine ⟨hclients.event _ _, hsessions.event _ _, ?_, ?_, ?_,
    ⟨_, World.onClient_client hc _, ?_, ?_⟩, List.Sublist.refl [], ?_⟩
  · rw [hconnected, hworld]
    exact hx.session_responded
  · rw [hconnected, hworld]
    exact hcurrent
  · rw [hconnected, hworld]
    exact htable
  · show Link.Connected _ ((x.connected X).world.server.lastCounter x.serverEnv.sessionId.toList)
      ((World.newClient X x.mode x.keys x.telemetrySeq).task.step X
        (.response x.clientEnv (x.response X)))
    rw [htask, hconnected, hworld]
    simp only [hlast]
    refine ⟨by simp, fun _ => ⟨?_, rfl⟩, fun _ => by omega⟩
    show clientKey X _ _ = replyKey X x.serverEnv x.mode _
    rw [clientKey_handshakeReply hcomm hkem hlib hx.keys, helloOf_rdrop]
  · show Link.InFlight X _ _ ((World.newClient X x.mode x.keys x.telemetrySeq).task.step X
      (.response x.clientEnv (x.response X))) none none
    rw [htask]
    exact .nothing (by simp)
  · rw [hconnected, hworld]
    show List.Forall₂ (LoggedAs X) [] ((x.responded X).acceptedOf (x.requested X).sessions.length)
    rw [haccepted]
    exact .nil

theorem Honest.final_inv (hx : x.Honest X) (hcomm : X.X25519Comm) (hkem : X.KemCorrect)
    (hgcm : X.GcmCorrect) (hlib : X.libmlkem = true)
    (hfew : (World.completedRequests X (x.responding ++ x.events.flatMap others)).length ≤ 100) :
    (x.final X).Inv X (x.client X) (x.requested X).sessions.length
      (World.newSession X x.serverEnv x.mode (helloOf X (keyedCtx x.mode x.keys))) := by
  have hfew' := hfew
  rw [World.completedRequests_append, List.length_append] at hfew'
  have hinv : (x.requested X).SessionsInv X := (World.run_inv X _).2
  have hown : World.completedRequests X
      [.client (x.client X) (.response x.clientEnv (x.response X))] = [] :=
    World.completedRequests_eq_nil (by simp)
  have hl : (x.connected X).world = run (World.step X)
      ((x.requested X).onHandshake X x.serverEnv (helloOf X (keyedCtx x.mode x.keys)))
      (x.responding ++ [.client (x.client X) (.response x.clientEnv (x.response X))]) := by
    rw [run_append, ← answered_eq]
    rfl
  obtain ⟨hfresh, hresponding⟩ := hx.freshIds
  refine Link.run_inv hgcm hinv hx.accepts hl
    ⟨hfresh, guarded_append.mpr ⟨hresponding, trivial, trivial⟩⟩
    (hx.connected_inv hcomm hkem hlib (by omega)) x.events ?_ hx.events
  rw [World.completedRequests_append] at hfew ⊢
  rwa [World.completedRequests_append, hown, List.append_nil]

/-- Over every honest but lossy link, as long as at most 100 other handshakes complete: the client
accepts the server's response and both hold the same key; each packet delivered is logged once, in the
order of sending; and each reply has status 200, fits the client's buffer, and decrypts to the
acknowledgement with the sequence number of the packet that it answers. -/
theorem lossy_exchange_correct (X : Externals) (hcomm : X.X25519Comm) (hkem : X.KemCorrect)
    (hgcm : X.GcmCorrect) (hlib : X.libmlkem = true) (x : Exchange) (hx : x.Honest X)
    (hfew : (World.completedRequests X (x.responding ++ x.events.flatMap others)).length ≤ 100) :
    let sid := x.serverEnv.sessionId.toList
    let l := x.final X
    (∃ c response key, (x.responded X).clients[x.client X]? = some c ∧ x.response X = some response ∧
        response.take 16 = sid ∧
        (hybridProcessServerResponse X x.clientEnv c.task.ctx response).ret = 0 ∧
        (hybridProcessServerResponse X x.clientEnv c.task.ctx response).ctx.sessionKey = key ∧
        (x.connected X).world.server.sessions.get? sid = some key) ∧
      (l.world.server.telemetryLog = l.world.accepted.map (fun a => Json.obj a.record) ∧
        List.Forall₂ (LoggedAs X) l.delivered (l.world.acceptedOf (l.world.current sid)) ∧
        (l.delivered.map Prod.snd).Sublist l.sent) ∧
      ∀ reply t, l.reply = some (reply, t) → reply.status = 200 ∧
        reply.body.length ≤ telemetryBufSize ∧ ∃ c serverTime,
          l.world.clients[x.client X]? = some c ∧ ∀ env : DecryptEnv, env.setkeyRet = 0 →
            env.decryptRet = 0 → hybridDecryptResponse X env c.task.ctx reply.body =
              some (jsonBody X [(PyStr.lit "status", .str (PyStr.lit "acknowledged")),
                (PyStr.lit "command", .str (PyStr.lit "KEEP_ALIVE")),
                (PyStr.lit "server_time", .str serverTime),
                (PyStr.lit "received_seq", .int t.sequence.toNat)]) := by
  intro sid l
  have hfew' := hfew
  rw [World.completedRequests_append, List.length_append] at hfew'
  have h₀ := hx.connected_inv hcomm hkem hlib (by omega)
  have h := hx.final_inv hcomm hkem hgcm hlib hfew
  refine ⟨?_, ⟨h.sessions.log, ?_, ?_⟩, fun reply t hreply => ?_⟩
  · have hag := agrees_handshakeReply hcomm hx.keys hx.secret hx.library
    have hproc := hybridProcessServerResponse_of_agrees hag
    refine ⟨_, _, _, hx.client_responded, hx.response_eq, ?_, ?_, ?_, h₀.table⟩
    · exact World.handshakeReply_take X x.serverEnv x.mode _
    · exact congrArg ResponseResult.ret hproc
    · refine (congrArg (fun r => r.ctx.sessionKey) hproc).trans ?_
      show clientKey X _ _ = replyKey X x.serverEnv x.mode _
      rw [clientKey_handshakeReply hcomm hkem hlib hx.keys, helloOf_rdrop]
  · have hcurrent : l.world.current sid = (x.requested X).sessions.length := h.current
    rw [hcurrent]
    exact h.log
  · exact (List.sublist_append_left _ _).trans h.order
  · obtain ⟨c, hc, hconn, hflight⟩ := h.client
    change Link.InFlight X _ _ _ l.request l.reply at hflight
    rw [hreply] at hflight
    generalize l.request = request at hflight
    cases hflight with
    | reply ack t receivedAt serverTime hphase hkey hplain hctr =>
      have hloop := (h.clients.client _ c hc).loop
      refine ⟨rfl, Link.ack_fits hplain, c, serverTime.isoformat, hc, ?_⟩
      intro env hset hdec
      rw [Link.decrypts_ack hgcm (hloop.complete (.inr hphase)) (hconn.key (by rw [hphase]; simp)).1
        hkey hctr hset hdec, hplain, ackFields_telemetryRecord]

theorem lossy_exchange_correct_reference :
    let l := Reference.exchange.final Reference.externals
    l.delivered.length = 1 ∧
      List.Forall₂ (LoggedAs Reference.externals) l.delivered
        (l.world.acceptedOf (l.world.current Reference.exchange.serverEnv.sessionId.toList)) ∧
      ∃ p ∈ l.reply, p.1.status = 200 ∧ p.1.body.length ≤ telemetryBufSize := by
  have hnone : (Reference.exchange.requested Reference.externals).sessions.length = 0 := by
    decide +kernel
  have hx : Reference.exchange.Honest Reference.externals := by
    refine ⟨⟨fun _ => by decide +kernel, fun hm => by cases hm⟩, fun _ => by decide +kernel,
      ⟨rfl, rfl, rfl, rfl⟩, ?_, by simp [Reference.exchange], trivial, ?_⟩
    · intro s hs
      rw [List.eq_nil_of_length_eq_zero hnone] at hs
      cases hs
    · exact ⟨fun e he => absurd he List.not_mem_nil, fun e he => absurd he List.not_mem_nil, trivial⟩
  obtain ⟨-, ⟨-, hlog, -⟩, hreply⟩ := lossy_exchange_correct Reference.externals Reference.x25519Comm
    Reference.kemCorrect Reference.gcmCorrect rfl Reference.exchange hx (Nat.zero_le 100)
  obtain ⟨⟨reply, t⟩, hp⟩ : ∃ p, (Reference.exchange.final Reference.externals).reply = some p :=
    Option.isSome_iff_exists.mp (by decide +kernel)
  have hcarried := hreply reply t hp
  exact ⟨by decide +kernel, hlog, (reply, t), hp, hcarried.1, hcarried.2.1⟩

end Exchange

end HybridPqc
