import HybridPqc.Network.Proofs.MlkemExchangeProofs

/-!
# Agreement without a perfect key encapsulation

In every run the client that accepts a response has the server as its partner, whatever decapsulation gives. What
the two keys are derived from is known exactly: they can differ only by a decryption failure, and nobody notices.
-/

open GuardedRuns

namespace HybridPqc

open Mlkem

namespace World

/-! ## The handshake behind a session -/

section Sessions

variable {X : Externals}

theorem step_sessions_of_event (w : World) (e : Event) : ∀ s ∈ (step X w e).sessions, s ∈ w.sessions ∨
    ∃ env m, e = .handshake env s.request ∧ Accepts X env m s.request ∧ s = newSession X env m s.request := by
  intro s hs
  by_cases he : ∃ env body, e = .handshake env body
  · rcases he with ⟨env, body, rfl⟩
    change s ∈ (w.onHandshake X env body).sessions at hs
    rcases onHandshake_cases X env body w with ⟨-, hw⟩ | ⟨m, hacc, hw⟩
    · rw [hw] at hs
      exact .inl hs
    · rw [hw] at hs
      rcases List.mem_append.mp hs with hs | hs
      · exact .inl hs
      · rw [List.mem_singleton.mp hs]
        exact .inr ⟨env, m, rfl, hacc, rfl⟩
  · rw [(signed_step (X := X) w e fun env body h => he ⟨env, body, h⟩).1] at hs
    exact .inl hs

/-- Every session of a run was created by a request of the run. -/
theorem run_session_of_event (es : List Event) : ∀ s ∈ (run (World.step X) init es).sessions, ∃ env m,
    Event.handshake env s.request ∈ es ∧ Accepts X env m s.request ∧ s = newSession X env m s.request := by
  induction es using List.reverseRecOn with
  | nil => exact fun s hs => absurd hs List.not_mem_nil
  | append_singleton es e ih =>
    intro s hs
    rw [run_append] at hs
    rcases step_sessions_of_event _ e s hs with hs | ⟨env, m, rfl, hacc, hnew⟩
    · rcases ih s hs with ⟨env, m, hmem, hrest⟩
      exact ⟨env, m, List.mem_append_left _ hmem, hrest⟩
    · exact ⟨env, m, List.mem_append_right _ (List.mem_singleton_self _), hacc, hnew⟩

/-- The response that a client accepts continues the reply of a handshake of the run to its request. -/
theorem HandshakeInv.reply_of_agrees {es : List Event} (h : (run (World.step X) init es).HandshakeInv X)
    {i : Nat} {c : Client} (hc : (run (World.step X) init es).clients[i]? = some c)
    (hphase : c.task.phase = .handshake) {env : ResponseEnv} {response : Bytes}
    (hag : Agrees X env c.task.ctx response)
    (hmac : MacIdeal X (run (World.step X) init es) (.client i (.response env (some response)))) :
    ∃ env' rest, Event.handshake env' c.request ∈ es ∧
      newSession X env' c.mode c.request ∈ (run (World.step X) init es).sessions ∧
      response = replyData X env' c.mode c.hello ++ rest := by
  have hinv := h.clients.client i c hc
  rcases hinv.before hphase with ⟨hctx, -, -⟩
  have hne : response.rdrop 32 ≠ [] := by
    have hlen := hag.length
    intro hnil
    have hcut : (response.rdrop 32).length = response.length - 32 := by simp [List.rdrop]
    rw [hnil, List.length_nil] at hcut
    omega
  have hsigned := hmac c hc hag.tag
  rw [hctx] at hsigned
  rcases h.session_of_signed hc hne hsigned with ⟨s, hs, hreq, rest, hdata⟩
  rcases run_session_of_event es s hs with ⟨env', m, hmem, hacc, hnew⟩
  rw [hreq] at hmem hacc hnew
  have hhello : c.request.rdrop 32 = c.hello := request_rdrop hinv
  have hmode : m = c.mode := by
    have hhead := hacc.mode
    rw [hhello] at hhead
    exact (Mode.toByte_injective (Option.some.inj hhead)).symm
  rw [hmode] at hnew
  have hstart : s.response.rdrop 32 = replyData X env' c.mode c.hello := by
    rw [hnew, ← hhello]
    exact handshakeReply_rdrop env' c.mode c.request
  refine ⟨env', rest ++ response.rtake 32, hmem, hnew ▸ hs, ?_⟩
  rw [← List.append_assoc, ← hstart, ← hdata, rdrop_append_rtake]

end Sessions

/-! ## The keys of a run -/

/-- In every run against ideal tags with fresh keys, when a client with a generated key pair accepts a response, a
handshake of the run with exactly its request has created a session with the session id of the response. The session
key comes from the encapsulated key and the client's key from the decapsulated one; they are equal if the noise of
this encryption is small. -/
theorem mlkem_agreement (X : Externals) (S : Symmetric) (fuel : Nat) (hcomm : X.X25519Comm) (es : List Event)
    (i : Nat) (env : ResponseEnv) (response : Bytes)
    (hg : Guarded (World.step (X.withMlkem S fuel)) (IdealHandshakes (X.withMlkem S fuel)) init
      (es ++ [.client i (.response env (some response))])) :
    let X' := X.withMlkem S fuel
    let w := run (World.step X') init es
    ∀ c seed a, w.clients[i]? = some c → c.task.phase = .handshake → c.mode.usesMlkem = true →
      mlkem768Keypair S fuel seed = some (c.keys.mlkemPk, c.keys.mlkemSk) →
      genMatrix S fuel (publicSeed S seed.toList) false = some a →
      let result := hybridProcessServerResponse X' env c.task.ctx response
      result.ret = 0 → ∃ env', Event.handshake env' c.request ∈ es ∧
        let m := randombytes env'.stack env'.urandom
        ∃ s ∈ w.sessions, s.request = c.request ∧ s.sid = response.take 16 ∧
          s.key = deriveSessionKey X
            (x25519Secrets X c.mode c.keys env' ++ [messageKey S a seed.toList m.toList]) ∧
          result.ctx.sessionKey = deriveSessionKey X
            (x25519Secrets X c.mode c.keys env' ++ [answer S a seed.toList m.toList]) ∧
          ((exchange S a seed.toList m.toList).SmallNoise → s.key = result.ctx.sessionKey) := by
  intro X' w c seed a hc hphase hmode hkeypair ha result hret
  rcases guarded_append.mp hg with ⟨hes, hlast⟩
  have h : w.HandshakeInv X' := run_handshakes hes
  have hag : Agrees X' env c.task.ctx response := by
    by_contra hno
    have hret' : (hybridProcessServerResponse X' env c.task.ctx response).ret = 0 := hret
    rw [hybridProcessServerResponse_of_refused hno] at hret'
    cases hret'
  have hinv := h.clients.client i c hc
  rcases hinv.before hphase with ⟨hctx, -, -⟩
  have hmatched := h.fresh.matched c (List.mem_of_getElem? hc)
  have hkeys : c.keys.Generated X S fuel c.mode seed := ⟨hmatched.x25519, hkeypair⟩
  rcases h.reply_of_agrees hc hphase hag hlast.1.1 with ⟨env', rest, hmem, hs, hresponse⟩
  rcases secrets_withMlkem hcomm hmode hkeys ha env' rest with ⟨hserver, hclient⟩
  have hkey : (newSession X' env' c.mode c.request).key = deriveSessionKey X (x25519Secrets X c.mode c.keys env' ++
      [messageKey S a seed.toList (randombytes env'.stack env'.urandom).toList]) := by
    show replyKey X' env' c.mode (c.request.rdrop 32) = _
    rw [request_rdrop hinv, replyKey, Client.hello, hserver]
    rfl
  have hresult : result.ctx.sessionKey = deriveSessionKey X (x25519Secrets X c.mode c.keys env' ++
      [answer S a seed.toList (randombytes env'.stack env'.urandom).toList]) := by
    simp only [result, hybridProcessServerResponse_of_agrees hag, agreedCtx]
    rw [hctx, hresponse, Client.hello, clientKey, hclient]
    rfl
  refine ⟨env', hmem, newSession X' env' c.mode c.request, hs, rfl, ?_, hkey, hresult, fun hnoise => ?_⟩
  · show env'.sessionId.toList = _
    rw [hresponse, replyData, List.append_assoc]
    exact (List.take_left' env'.sessionId.toList_length).symm
  · rw [hkey, hresult, answer_eq S (randombytes env'.stack env'.urandom).toList_length hnoise]

/-- An honest handshake is a run of this kind. -/
theorem honest_run {X : Externals} (hcomm : X.X25519Comm) {mode : Mode} {keys : KeyPairs}
    (hkeys : keys.Matched X mode) {env : HandshakeEnv}
    (hsecret : mode.usesX25519 = true → (X.x25519 env.x25519Privkey keys.x25519Pubkey).isZero = false)
    {cenv : ResponseEnv}
    (hlibrary : cenv.hmacRet = 0 ∧ cenv.sharedRet = 0 ∧ cenv.decapsRet = 0 ∧ cenv.hkdfRet = 0) :
    let hello := helloOf X (keyedCtx mode keys)
    let es := [Event.start mode keys 0 0, .handshake env hello]
    let response := handshakeReply X env mode hello
    (run (World.step X) init es).clients[0]? = some (newClient X mode keys 0) ∧
      Guarded (World.step X) (IdealHandshakes X) init (es ++ [.client 0 (.response cenv (some response))]) ∧
      (hybridProcessServerResponse X cenv (keyedCtx mode keys) response).ret = 0 := by
  intro hello es response
  have hacc : Accepts X env mode hello := accepts_helloOf hsecret
  have hstart := (onStart_eq (X := X) mode keys 0 0 init).trans (if_pos rfl)
  have hw : run (World.step X) init es = (init.onStart X mode keys 0 0).onHandshake X env hello := rfl
  rw [onHandshake_of_accepts hacc, hstart] at hw
  have hclient : (run (World.step X) init es).clients[0]? = some (newClient X mode keys 0) := by
    rw [hw]
    rfl
  have hsigned : clientData (keyedCtx mode keys) ++ response.rdrop 32 ∈ (run (World.step X) init es).signed := by
    rw [hw, handshakeReply_rdrop, helloOf_rdrop]
    exact List.mem_append_right _ (List.mem_singleton_self _)
  have hfresh : FreshKeys X init (.start mode keys 0 0) := ⟨hkeys, fun c hc => absurd hc List.not_mem_nil⟩
  have hrequest : MacIdeal X (init.onStart X mode keys 0 0) (.handshake env hello) := fun _ => by
    rw [hstart, helloOf_rdrop]
    exact List.mem_append_right _ (List.mem_singleton_self _)
  have hresponse : MacIdeal X (run (World.step X) init es) (.client 0 (.response cenv (some response))) :=
    fun c hc _ => by
      rw [hclient, Option.some.injEq] at hc
      rw [← hc]
      exact hsigned
  have hagree := hybridProcessServerResponse_of_agrees (agrees_handshakeReply hcomm hkeys hsecret hlibrary)
  exact ⟨hclient, ⟨⟨trivial, hfresh⟩, ⟨hrequest, trivial⟩, ⟨hresponse, trivial⟩, trivial⟩,
    congrArg ResponseResult.ret hagree⟩

/-- The run of an honest handshake with the ML-KEM core. -/
theorem honest_run_withMlkem {X : Externals} {S : Symmetric} {fuel : Nat} (hcomm : X.X25519Comm) {mode : Mode}
    {keys : KeyPairs} {seed : ByteArr 64} (hkeys : keys.Generated X S fuel mode seed) {env : HandshakeEnv}
    (hsecret : mode.usesX25519 = true → (X.x25519 env.x25519Privkey keys.x25519Pubkey).isZero = false)
    {cenv : ResponseEnv}
    (hlibrary : cenv.hmacRet = 0 ∧ cenv.sharedRet = 0 ∧ cenv.decapsRet = 0 ∧ cenv.hkdfRet = 0) :
    let X' := X.withMlkem S fuel
    let hello := helloOf X' (keyedCtx mode keys)
    let es := [Event.start mode keys 0 0, .handshake env hello]
    let response := handshakeReply X' env mode hello
    (run (World.step X') init es).clients[0]? = some (newClient X' mode keys 0) ∧
      Guarded (World.step X') (IdealHandshakes X') init (es ++ [.client 0 (.response cenv (some response))]) ∧
      (hybridProcessServerResponse X' cenv (keyedCtx mode keys) response).ret = 0 :=
  honest_run (show (X.withMlkem S fuel).X25519Comm from hcomm) hkeys.matched hsecret hlibrary

theorem mlkem_agreement_reference : ∃ keys,
    let hello := helloOf (Reference.externals.withMlkem silent 1) (keyedCtx .hybrid keys)
    let w := run (World.step (Reference.externals.withMlkem silent 1)) init
      [.start .hybrid keys 0 0, .handshake Reference.serverEnv hello]
    ∃ c s response, w.clients[0]? = some c ∧ s ∈ w.sessions ∧ s.request = c.request ∧
      s.key = (hybridProcessServerResponse (Reference.externals.withMlkem silent 1) Reference.clientEnv c.task.ctx
        response).ctx.sessionKey := by
  rcases Reference.exists_keys with ⟨keys, hkeys, hsecret⟩
  refine ⟨keys, ?_⟩
  intro hello w
  rcases honest_run_withMlkem Reference.x25519Comm hkeys (fun _ => hsecret)
    (show Reference.clientEnv.hmacRet = 0 ∧ _ from ⟨rfl, rfl, rfl, rfl⟩) with ⟨hclient, hg, hret⟩
  have hmatrix := genMatrix_silent (publicSeed silent (ByteArr.zero 64).toList) false
  rcases mlkem_agreement Reference.externals silent 1 Reference.x25519Comm
    [.start .hybrid keys 0 0, .handshake Reference.serverEnv hello] 0 Reference.clientEnv _ hg _
    (ByteArr.zero 64) zeroMatrix hclient rfl rfl hkeys.mlkem hmatrix hret with
    ⟨env', hmem, s, hs, hreq, -, -, -, hequal⟩
  have henv : env' = Reference.serverEnv := by
    rcases List.mem_cons.mp hmem with h | h
    · cases h
    · exact (Event.handshake.inj (List.mem_singleton.mp h)).1
  rw [henv] at hequal
  exact ⟨_, s, _, hclient, hs, hreq, hequal (smallNoise_silent _ (canonical_genMatrix hmatrix) _ _ _)⟩

end World

end HybridPqc
