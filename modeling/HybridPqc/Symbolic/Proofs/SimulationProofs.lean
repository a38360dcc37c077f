import HybridPqc.Network.Proofs.LinkProofs
import HybridPqc.Symbolic.Proofs.InterpretationProofs

/-!
# The two programs run the symbolic protocol

Every run of the network in which the parties handle the byte strings of terms ends in the state that the
symbolic run stands for.
-/

namespace HybridPqc.Symbolic

open Messages GuardedRuns

variable {X : Externals} {d : Draws}

namespace Draws

/-! ## What was sent stays sent -/

theorem agreed_next {c : HybridPqc.Client} {es : List Sealing} (h : ClientInv X c es) {p : Bytes × ByteArr 32}
    (hp : c.agreed = some p) (e : DeviceEvent) : (c.next X e).agreed = some p := by
  have hphase : c.task.phase ≠ .handshake := by
    intro hphase
    obtain ⟨-, hnone, -⟩ := h.before hphase
    rw [hnone] at hp
    cases hp
  show (completed c.task (c.task.step X e) e).or c.agreed = some p
  rw [completed_of_phase e fun h => absurd h hphase, Option.none_or, hp]

/-- A client keeps its request and what it has agreed on. -/
theorem client_step {w : World} (h : w.ClientsInv X) (e : World.Event) {i : Nat} {c : HybridPqc.Client}
    (hc : w.clients[i]? = some c) : ∃ c', (World.step X w e).clients[i]? = some c' ∧ c'.request = c.request ∧
      ∀ p, c.agreed = some p → c'.agreed = some p := by
  cases e with
  | start mode keys seq hmacRet =>
    show ∃ c', (w.onStart X mode keys seq hmacRet).clients[i]? = some c' ∧ _
    rw [World.onStart_eq]
    split
    · exact ⟨c, Growing.getElem?_append hc _, rfl, fun _ hp => hp⟩
    · exact ⟨c, hc, rfl, fun _ hp => hp⟩
  | handshake env body =>
    refine ⟨c, ?_, rfl, fun _ hp => hp⟩
    show (w.onHandshake X env body).clients[i]? = some c
    rw [(World.onHandshake_clients env body w).1, hc]
  | telemetry env body => exact ⟨c, hc, rfl, fun _ hp => hp⟩
  | client j e =>
    by_cases hij : j = i
    · subst hij
      exact ⟨c.next X e, World.onClient_client hc e, rfl, fun _ hp => agreed_next (h.client j c hc) hp e⟩
    · exact ⟨c, World.step_client (fun e' he => hij (World.Event.client.inj he).1) hc, rfl, fun _ hp => hp⟩

theorem sealings_step (w : World) (e : World.Event) : w.sealings <+: (World.step X w e).sealings := by
  cases e with
  | start mode keys seq hmacRet =>
    show w.sealings <+: (w.onStart X mode keys seq hmacRet).sealings
    rw [World.onStart_eq]
    split <;> exact List.prefix_rfl
  | handshake env body =>
    show w.sealings <+: (w.onHandshake X env body).sealings
    rw [(World.onHandshake_clients env body w).2]
  | telemetry env body => exact List.prefix_append _ _
  | client i e =>
    show w.sealings <+: (w.onClient X i e).sealings
    unfold World.onClient
    split
    · exact List.prefix_rfl
    · exact List.prefix_append _ _

theorem Sent.step {w : World} (hw : w.ClientsInv X) (e : World.Event) {m : Bytes} (h : Sent X w m) :
    Sent X (World.step X w e) m := by
  cases h with
  | psk => exact .psk
  | request hc =>
    obtain ⟨c', hc', hrequest, -⟩ := client_step hw e hc
    rw [← hrequest]
    exact .request hc'
  | response ht => exact .response ((World.sessions_step w e).subset ht)
  | telemetry hsealing hagreed =>
    obtain ⟨c, response, k, hc, hk, rfl⟩ := hagreed
    obtain ⟨c', hc', -, hkept⟩ := client_step hw e hc
    exact .telemetry ((sealings_step w e).subset hsealing) ⟨c', response, k, hc', hkept _ hk, rfl⟩
  | ack hsealing => exact .ack ((sealings_step w e).subset hsealing)

/-! ## Clients -/

/-- A client that waits for no response ignores one. -/
theorem next_response {c : HybridPqc.Client} (hphase : c.task.phase ≠ .handshake) (env : ResponseEnv)
    (response : Option Bytes) : c.next X (.response env response) = c := by
  have hstep : c.task.step X (.response env response) = c.task := if_neg hphase
  show HybridPqc.Client.mk _ _ _ (c.task.step X (.response env response))
    ((completed c.task (c.task.step X (.response env response)) _).or c.agreed) _ = c
  rw [hstep, completed_of_phase _ fun h => absurd h hphase]
  rfl

/-- The pass does not go back to its handshake. -/
theorem phase_step {t : Device} (h : t.phase ≠ .handshake) (e : DeviceEvent) :
    (t.step X e).phase ≠ .handshake := by
  have ht := Device.step_transition X t e
  generalize t.step X e = t' at ht
  generalize t.sealing? X e = sealing at ht
  generalize t.posted? X e = body at ht
  cases ht with
  | idle => exact h
  | stop _ _ hphase => rw [hphase]; nofun
  | agree => nofun
  | skip => exact h
  | spoil => exact h
  | post => nofun
  | refuse => nofun
  | accept => nofun

/-- What is not a response leaves a client where it stands. -/
theorem StatusAs.next {c : HybridPqc.Client} {status : ClientStatus} (h : d.StatusAs X c status)
    {e : DeviceEvent} (he : ∀ env response, e ≠ .response env response) : d.StatusAs X (c.next X e) status := by
  have hidle : c.task.phase = .handshake ∨ c.task.phase = .done → c.task.step X e = c.task := by
    intro hphase
    cases e with
    | response env response => exact absurd rfl (he env response)
    | send env => exact if_neg (by rcases hphase with h | h <;> rw [h] <;> nofun)
    | reply env reply => exact if_neg (by rcases hphase with h | h <;> rw [h] <;> nofun)
  have hagreed : (c.next X e).agreed = c.agreed := by
    cases e with
    | response env response => exact absurd rfl (he env response)
    | send env => rfl
    | reply env reply => rfl
  cases h with
  | waiting hphase => exact .waiting ((congrArg Device.phase (hidle (Or.inl hphase))).trans hphase)
  | agreed hphase h hsid hkey => exact .agreed (phase_step hphase e) (hagreed.trans h) hsid hkey
  | failed hphase h =>
    exact .failed ((congrArg Device.phase (hidle (Or.inr hphase))).trans hphase) (hagreed.trans h)

theorem onResponse_of_refused {env : ResponseEnv} {response : Bytes} {t : Device}
    (h : ¬Agrees X env t.ctx response) : (t.onResponse X env (some response)).phase = .done := by
  unfold Device.onResponse
  dsimp only
  split_ifs with hlength hret
  · rfl
  · rfl
  · exact absurd (by rw [hybridProcessServerResponse_of_refused h]; decide) hret

/-- A waiting client does with a response what the symbolic client does. -/
theorem StatusAs.response (h : (d.messages X).Lawful) {c : HybridPqc.Client} {mode : Mode} {i : Nat}
    (hphase : c.task.phase = .handshake) (hctx : c.task.ctx = keyedCtx mode (d.keys X i))
    (hnone : c.agreed = none) {env : ResponseEnv} {m : Term} (hm : d.ResponseAs X env mode i m) :
    d.StatusAs X (c.next X (.response env (some (d.eval X m)))) (State.outcome mode i m) := by
  have hstep : c.task.step X (.response env (some (d.eval X m))) =
      c.task.onResponse X env (some (d.eval X m)) := if_pos hphase
  unfold State.outcome
  split
  · next hprocess =>
    have hdone := onResponse_of_refused (hctx ▸ hm.refused hprocess)
    rw [← hstep] at hdone
    refine .failed hdone ?_
    show (completed c.task (c.task.step X _) _).or c.agreed = none
    rw [completed_of_phase _ fun _ => by rw [hdone]; nofun, hnone]
    rfl
  · next sid key hprocess =>
    obtain ⟨keys, k, rfl, hsplit, rfl⟩ := process_eq_some hprocess
    obtain ⟨hsid, hsized⟩ := hm.sized sid keys k rfl hsplit
    have hagrees := agrees_eval h hsplit hsid hsized hm.library (hm.secret sid keys k rfl hsplit)
    rw [← hctx] at hagrees
    rw [Device.onResponse_of_agrees hagrees] at hstep
    set response := d.eval X (terms.response (terms.clientHello mode i) (.cons sid keys)) with hresponse
    have hloop : (c.next X (.response env (some response))).task.phase ≠ .handshake := by
      show (c.task.step X _).phase ≠ _
      rw [hstep]
      nofun
    have hagreed : (c.next X (.response env (some response))).agreed =
        some (response, HybridPqc.clientKey X c.task.ctx response) := by
      show (completed c.task (c.task.step X _) _).or c.agreed = _
      rw [hstep]
      show (if c.task.phase = .handshake ∧ _ then _ else none).or c.agreed = _
      rw [if_pos ⟨hphase, rfl⟩]
      rfl
    have hkey := clientKey_eval (i := i) h hsplit hsid hsized
    rw [← hctx] at hkey
    exact .agreed hloop hagreed (take_eval h hsplit hsid) hkey

/-! ## Steps -/

section Steps

variable {s : State} {w : World}

/-- An event at client `i`. -/
theorem Simulates.onClient (h : d.Simulates X s w) {i : Nat} {e : DeviceEvent} {s' : State}
    (hlength : s'.clients.length = s.clients.length) (hother : ∀ j, j ≠ i → s'.clients[j]? = s.clients[j]?)
    (hself : ∀ c c', s'.clients[i]? = some c → w.clients[i]? = some c' → d.ClientAs X i c (c'.next X e))
    (hsessions : s'.sessions = s.sessions) (hsigned : s'.signed = s.signed)
    (hnetwork : ∀ m ∈ s'.network, Sent X (w.onClient X i e) (d.eval X m)) :
    d.Simulates X s' (w.onClient X i e) := by
  cases hc : w.clients[i]? with
  | none =>
    have hw : w.onClient X i e = w := by rw [World.onClient, hc]
    have hi : s.clients.length ≤ i := h.clients ▸ List.getElem?_eq_none_iff.mp hc
    rw [hw] at hnetwork ⊢
    refine ⟨by rw [h.clients, hlength], fun j c hj => ?_, by rw [h.sessions, hsessions], ?_, h.ids, ?_,
      hnetwork⟩
    · have hlt := (List.getElem?_eq_some_iff.mp hj).1
      exact h.client j c (hother j (by omega) ▸ hj)
    · rw [hsessions]
      exact h.session
    · rw [hsigned]
      exact h.signed
  | some c₀ =>
    have hw := World.onClient_eq (X := X) hc e
    have hself' := World.onClient_client (X := X) hc e
    have hi : i < w.clients.length := (List.getElem?_eq_some_iff.mp hc).1
    refine ⟨?_, fun j c hj => ?_, ?_, ?_, ?_, ?_, hnetwork⟩
    · rw [hw, hlength, ← h.clients]
      exact List.length_set
    · by_cases hij : j = i
      · subst hij
        exact ⟨_, hself', hself c c₀ hj hc⟩
      · obtain ⟨c', hc', hclient⟩ := h.client j c (hother j hij ▸ hj)
        refine ⟨c', ?_, hclient⟩
        rw [hw]
        exact (List.getElem?_set_ne (Ne.symm hij)).trans hc'
    · rw [hw, hsessions]
      exact h.sessions
    · rw [hw, hsessions]
      exact h.session
    · rw [hw]
      exact h.ids
    · rw [hw, hsigned]
      exact h.signed

/-- What is not a response changes nothing but the network. -/
theorem Simulates.sends (h : d.Simulates X s w) {i : Nat} {e : DeviceEvent} {network : List Term}
    (he : ∀ env response, e ≠ .response env response)
    (hnetwork : ∀ m ∈ network, Sent X (w.onClient X i e) (d.eval X m)) :
    d.Simulates X { s with network := network } (w.onClient X i e) := by
  refine h.onClient rfl (fun _ _ => rfl) (fun c c' hc hc' => ?_) rfl rfl hnetwork
  obtain ⟨c₀, hc₀, hclient⟩ := h.client i c hc
  obtain rfl := Option.some.inj (hc'.symm.trans hc₀)
  exact ⟨hclient.mode_eq, hclient.keys_eq, hclient.status.next he⟩

theorem Simulates.start (h : d.Simulates X s w) (hlaw : (d.messages X).Lawful) (hw : w.ClientsInv X)
    (mode : Mode) (seq : UInt32) :
    d.Simulates X (s.onStart mode) (w.onStart X mode (d.keys X s.clients.length) seq 0) := by
  have hnetwork : ∀ m ∈ s.network, Sent X (w.onStart X mode (d.keys X s.clients.length) seq 0) (d.eval X m) :=
    fun m hm => (h.network m hm).step hw (.start mode (d.keys X s.clients.length) seq 0)
  rw [World.onStart_eq, if_pos rfl] at hnetwork ⊢
  set new := World.newClient X mode (d.keys X s.clients.length) seq with hnew
  have hlast : (w.clients ++ [new])[s.clients.length]? = some new := by
    rw [← h.clients]
    exact List.getElem?_concat_length
  refine ⟨?_, fun i c hi => ?_, h.sessions, h.session, h.ids, ?_, fun m hm => ?_⟩
  · simp [State.onStart, h.clients]
  · rcases Growing.getElem?_concat hi with hi | ⟨rfl, rfl⟩
    · obtain ⟨c', hc', hclient⟩ := h.client i c hi
      exact ⟨c', Growing.getElem?_append hc' _, hclient⟩
    · exact ⟨new, hlast, rfl, rfl, .waiting rfl⟩
  · show w.signed ++ _ = (s.signed ++ _).map _
    rw [h.signed, List.map_append, ← d.eval_clientHello]
    rfl
  · rcases List.mem_append.mp hm with hm | hm
    · exact hnetwork m hm
    · obtain rfl := List.mem_singleton.mp hm
      have hrequest : d.eval X (terms.request (terms.clientHello mode s.clients.length)) = new.request := by
        rw [Messages.request, d.eval_tagged hlaw, d.eval_clientHello]
        rfl
      rw [hrequest]
      exact .request hlast

theorem Simulates.response (h : d.Simulates X s w) (hlaw : (d.messages X).Lawful) (hw : w.ClientsInv X)
    {i : Nat} {m : Term} {env : ResponseEnv}
    (hm : ∀ mode, s.clients[i]? = some ⟨mode, .waiting⟩ → d.ResponseAs X env mode i m) :
    d.Simulates X (s.onResponse i m) (w.onClient X i (.response env (some (d.eval X m)))) := by
  have hnetwork := fun m' hm' => (h.network m' hm').step hw (.client i (.response env (some (d.eval X m))))
  unfold State.onResponse
  split
  · next mode hi =>
    obtain ⟨c₀, hc₀, hclient⟩ := h.client i _ hi
    have hset : (s.clients.set i ⟨mode, State.outcome mode i m⟩)[i]? = some ⟨mode, State.outcome mode i m⟩ :=
      List.getElem?_set_self (List.getElem?_eq_some_iff.mp hi).1
    refine h.onClient List.length_set (fun j hj => List.getElem?_set_ne (Ne.symm hj))
      (fun c c' hc hc' => ?_) rfl rfl hnetwork
    obtain rfl := Option.some.inj (hset.symm.trans hc)
    obtain rfl := Option.some.inj (hc'.symm.trans hc₀)
    cases hclient.status with
    | waiting hphase =>
      obtain ⟨hctx, hnone, -⟩ := (hw.client i c' hc').before hphase
      rw [hclient.mode_eq, hclient.keys_eq] at hctx
      exact ⟨hclient.mode_eq, hclient.keys_eq, .response hlaw hphase hctx hnone (hm mode hi)⟩
  · next hwaiting =>
    refine h.onClient rfl (fun _ _ => rfl) (fun c c' hc hc' => ?_) rfl rfl hnetwork
    obtain ⟨c₀, hc₀, hclient⟩ := h.client i c hc
    obtain rfl := Option.some.inj (hc'.symm.trans hc₀)
    have hphase : c'.task.phase ≠ .handshake := by
      obtain ⟨mode, status⟩ := c
      cases hclient.status with
      | waiting => exact absurd hc (hwaiting mode)
      | agreed hphase => exact hphase
      | failed hphase => rw [hphase]; nofun
    rw [next_response hphase]
    exact hclient

theorem Simulates.request (h : d.Simulates X s w) (hlaw : (d.messages X).Lawful) (hlib : X.libmlkem = true)
    (hw : w.ClientsInv X) {m : Term} (hm : d.RequestAs X s.sessions.length m)
    (hfresh : World.FreshIds w (.handshake (d.server s.sessions.length) (d.eval X m))) :
    d.Simulates X (s.onRequest m) (w.onHandshake X (d.server s.sessions.length) (d.eval X m)) := by
  have hnetwork : ∀ m' ∈ s.network,
      Sent X (w.onHandshake X (d.server s.sessions.length) (d.eval X m)) (d.eval X m') :=
    fun m' hm' => (h.network m' hm').step hw (.handshake (d.server s.sessions.length) (d.eval X m))
  unfold State.onRequest
  split
  · next hnone =>
    rw [World.onHandshake_of_refused (hm.refused hnone)]
    exact h
  · next session hanswer =>
    obtain ⟨rfl, hanswers⟩ := answer_eq_some hanswer
    have hsized := hm.sized session hanswer
    obtain ⟨hrdrop, haccepts⟩ := accepts_eval hanswers.parse hsized hlaw (hm.secret session hanswer)
    have hreply := replyData_eval (j := s.sessions.length) hanswers.parse hsized hlaw hlib
    rw [← hanswers.reply_eq] at hreply
    have hkey := replyKey_eval (j := s.sessions.length) hanswers.parse hsized hlaw hlib
    rw [← hanswers.key_eq] at hkey
    rw [World.onHandshake_of_accepts haccepts, hrdrop, hreply] at hnetwork ⊢
    set t := World.newSession X (d.server s.sessions.length) session.mode
      (d.eval X (terms.request session.data)) with ht
    have hresponse : t.response = d.eval X (terms.response session.data session.reply) := by
      rw [ht, World.newSession, handshakeReply, hrdrop, hreply, serverPsk_eq, Messages.response,
        d.eval_tagged hlaw, d.eval_append hlaw]
    have hlast : (w.sessions ++ [t])[s.sessions.length]? = some t := by
      rw [← h.sessions]
      exact List.getElem?_concat_length
    refine ⟨h.clients, h.client, ?_, fun j session' hj => ?_, Growing.nodup_map_concat h.ids hfresh, ?_,
      fun m' hm' => ?_⟩
    · simp only [List.length_append, h.sessions]
      rfl
    · rcases Growing.getElem?_concat hj with hj | ⟨rfl, rfl⟩
      · obtain ⟨t', ht', hsession⟩ := h.session j session' hj
        exact ⟨t', Growing.getElem?_append ht' _, hsession⟩
      · refine ⟨t, hlast, rfl, hrdrop, hresponse, ?_⟩
        rw [ht, World.newSession, hrdrop]
        exact hkey
    · show w.signed ++ _ = (s.signed ++ _).map _
      rw [h.signed, List.map_append, List.map_singleton, d.eval_append hlaw]
    · rcases List.mem_append.mp hm' with hm' | hm'
      · exact hnetwork m' hm'
      · obtain rfl := List.mem_singleton.mp hm'
        rw [← hresponse]
        exact .response (List.mem_append_right _ (List.mem_singleton_self _))

/-! ## Packets -/

/-- The byte string of an encrypted message. -/
theorem eval_gcm {e : Sealing} {key : Term} {iv n : Nat} (hkey : e.key.toList = d.eval X key)
    (hiv : e.iv = d.iv iv) (hpayload : e.plaintext = d.payload n) :
    d.eval X (.gcm key (.name (.iv iv)) (.name (.payload n))) = e.packet X := by
  show Sealing.packet X ⟨ByteArr.ofBytes 32 (d.eval X key), ByteArr.ofBytes 12 (d.iv iv).toList,
    d.payload n⟩ = _
  rw [← hkey, ByteArr.ofBytes_toList, ByteArr.ofBytes_toList, ← hiv, ← hpayload]

theorem sealing_of_posted {t : Device} {env : Device.SendEnv} {body : Bytes}
    (h : t.posted? X (.send env) = some body) :
    t.phase = .loop ∧ t.sealing? X (.send env) = some (t.nextSealing env) := by
  have ht := Device.step_transition X t (.send env)
  generalize t.step X (.send env) = t' at ht
  generalize t.sealing? X (.send env) = sealing at ht ⊢
  rw [h] at ht
  cases ht with
  | post _ hphase => exact ⟨hphase, rfl⟩

theorem Simulates.send (h : d.Simulates X s w) (hlaw : (d.messages X).Lawful) (hw : w.ClientsInv X)
    {i iv n : Nat} {env : Device.SendEnv}
    (hsend : ∀ mode sid key, s.Agreed i mode sid key → ∃ c body, w.clients[i]? = some c ∧
      c.task.posted? X (.send env) = some body ∧ (c.task.nextSealing env).iv = d.iv iv ∧
        (c.task.nextSealing env).plaintext = d.payload n) :
    d.Simulates X (s.onSend i iv n) (w.onClient X i (.send env)) := by
  have hnetwork := fun m hm => (h.network m hm).step hw (.client i (.send env))
  unfold State.onSend
  split
  · next mode sid key hi =>
    refine h.sends nofun fun m hm => ?_
    rcases List.mem_append.mp hm with hm | hm
    · exact hnetwork m hm
    obtain rfl := List.mem_singleton.mp hm
    obtain ⟨c, body, hc, hposted, hiv, hpayload⟩ := hsend mode sid key hi
    obtain ⟨hphase, hsealing⟩ := sealing_of_posted hposted
    obtain ⟨c', hc', hclient⟩ := h.client i _ hi
    obtain rfl := Option.some.inj (hc'.symm.trans hc)
    obtain ⟨response', hlive, -, -⟩ := (hw.client i c' hc).live (Or.inl hphase)
    cases hclient.status with
    | @agreed _ _ response k _ hagreed hsid hkey =>
      obtain ⟨rfl, rfl⟩ := Prod.mk.inj (Option.some.inj (hlive.symm.trans hagreed))
      rw [telemetry, d.eval_append hlaw, eval_gcm (e := c'.task.nextSealing env) hkey hiv hpayload, ← hsid]
      refine .telemetry (i := i) ?_ ⟨_, response', _, World.onClient_client hc (.send env),
        agreed_next (hw.client i c' hc) hagreed _, rfl⟩
      rw [World.onClient_eq hc, hsealing]
      exact List.mem_append_right _ (List.mem_singleton_self _)
  · exact h.sends nofun hnetwork

/-- The server acknowledges under the key that the table has for the session id. -/
theorem ack_key {env : TelemetryEnv} {server : Server} {body : Bytes} {ack : Sealing}
    (h : (telemetryRoute X env server body).ack = some ack) :
    server.sessions.get? (body.take 16) = some ack.key := by
  rcases telemetryRoute_cases X env server body with
    ⟨dict, he⟩ | ⟨key, plaintext, data, hopens, -, ⟨text, -, he⟩ |
      ⟨record, -, ⟨-, he⟩ | ⟨-, reply, dict, -, he⟩⟩⟩
  · rw [he] at h
    cases h
  · rw [he] at h
    cases h
  · rw [he] at h
    cases h
    exact hopens.session
  · rw [he] at h
    cases h

theorem Simulates.telemetry (h : d.Simulates X s w) (hw : w.ClientsInv X) (hsessions : w.SessionsInv X)
    {m : Term} {iv n : Nat} {env : TelemetryEnv}
    (hack : ∀ j key, opens s.sessions m = some (j, key) →
      ∃ ack, (telemetryRoute X env w.server (d.eval X m)).ack = some ack ∧ ack.iv = d.iv iv ∧
        ack.plaintext = d.payload n) :
    d.Simulates X (s.onTelemetry m iv n) (w.onTelemetry X env (d.eval X m)) := by
  have hnetwork := fun m' hm' => (h.network m' hm').step hw (.telemetry env (d.eval X m))
  unfold State.onTelemetry
  split
  · exact ⟨h.clients, h.client, h.sessions, h.session, h.ids, h.signed, hnetwork⟩
  · next j key hopens =>
    refine ⟨h.clients, h.client, h.sessions, h.session, h.ids, h.signed, fun m' hm' => ?_⟩
    rcases List.mem_append.mp hm' with hm' | hm'
    · exact hnetwork m' hm'
    obtain rfl := List.mem_singleton.mp hm'
    obtain ⟨ack, hsome, hiv, hpayload⟩ := hack j key hopens
    obtain ⟨c, session, rfl, hj, rfl⟩ := opens_eq_some hopens
    obtain ⟨t, ht, hsession⟩ := h.session j session hj
    obtain ⟨t', ht', hsid, hkey⟩ := hsessions.session _ _ (ack_key hsome)
    have htake : (d.eval X (.cons (.name (.sessionId j)) c)).take 16 = (d.server j).sessionId.toList :=
      List.take_left' (d.server j).sessionId.toList_length
    rw [htake] at ht' hsid
    -- Ids are not drawn twice, so that the table has the key of this session.
    have hcurrent := Growing.eq_of_nodup_map h.ids ht' ht (hsid.trans hsession.sid_eq.symm)
    rw [hcurrent] at ht'
    obtain rfl := Option.some.inj (ht'.symm.trans ht)
    have hack_key : ack.key.toList = d.eval X session.key := by rw [← hkey, hsession.key_eq]
    rw [eval_gcm hack_key hiv hpayload]
    refine .ack (j := w.current ((d.eval X (.cons (.name (.sessionId j)) c)).take 16)) ?_
    show _ ∈ w.sealings ++ _
    rw [hsome]
    exact List.mem_append_right _ (List.mem_singleton_self _)

/-- What happens in both protocols leads from states that belong together to such states. -/
theorem Simulates.step (h : d.Simulates X s w) (hlaw : (d.messages X).Lawful) (hlib : X.libmlkem = true)
    (hw : w.ClientsInv X) (hsessions : w.SessionsInv X) {e : Option Event × Option World.Event}
    (he : d.Realises X s w e) : d.Simulates X (step X (s, w) e).1 (step X (s, w) e).2 := by
  cases he with
  | start mode seq => exact h.start hlaw hw mode seq
  | request hm hfresh => exact h.request hlaw hlib hw hm hfresh
  | response hm => exact h.response hlaw hw hm
  | send hsend => exact h.send hlaw hw hsend
  | telemetry hack => exact h.telemetry hw hsessions hack
  | leak =>
    refine ⟨h.clients, h.client, h.sessions, h.session, h.ids, h.signed, fun m hm => ?_⟩
    rcases List.mem_append.mp hm with hm | hm
    · exact h.network m hm
    · obtain rfl := List.mem_singleton.mp hm
      exact .psk
  | sendAlone i env => exact h.sends nofun fun m hm => (h.network m hm).step hw (.client i (.send env))
  | replyAlone i env bytes =>
    exact h.sends nofun fun m hm => (h.network m hm).step hw (.client i (.reply env bytes))
  | telemetryAlone env body =>
    exact ⟨h.clients, h.client, h.sessions, h.session, h.ids, h.signed,
      fun m hm => (h.network m hm).step hw (.telemetry env body)⟩

end Steps

/-! ## Runs -/

theorem Simulates.init : d.Simulates X State.init World.init where
  clients := rfl
  client := fun _ _ => nofun
  sessions := rfl
  session := fun _ _ => nofun
  ids := List.nodup_nil
  signed := rfl
  network := nofun

/-- A run of both protocols is a run of each. -/
theorem run_step (s : State) (w : World) (es : List (Option Event × Option World.Event)) :
    run (step X) (s, w) es =
      (run State.step s (es.filterMap Prod.fst), run (World.step X) w (es.filterMap Prod.snd)) := by
  induction es generalizing s w with
  | nil => rfl
  | cons e es ih =>
    obtain ⟨e, e'⟩ := e
    rw [run_cons]
    cases e with
    | none =>
      cases e' with
      | none => exact ih s w
      | some e' => exact ih s (World.step X w e')
    | some e =>
      cases e' with
      | none => exact ih (s.step e) w
      | some e' => exact ih (s.step e) (World.step X w e')

theorem inv_run (hcomm : X.X25519Comm) (hkem : X.KemCorrect) (hlib : X.libmlkem = true)
    {es : List (Option Event × Option World.Event)}
    (h : Guarded (step X) (fun p => d.Realises X p.1 p.2) (State.init, World.init) es) :
    let w := run (World.step X) World.init (es.filterMap Prod.snd)
    d.Simulates X (run State.step State.init (es.filterMap Prod.fst)) w ∧ w.ClientsInv X ∧ w.SessionsInv X := by
  have hlaw := d.lawful hcomm hkem
  have hstep : ∀ (p : State × World) (e : Option Event × Option World.Event),
      d.Simulates X p.1 p.2 ∧ p.2.ClientsInv X ∧ p.2.SessionsInv X → d.Realises X p.1 p.2 e →
      d.Simulates X (step X p e).1 (step X p e).2 ∧ (step X p e).2.ClientsInv X ∧
        (step X p e).2.SessionsInv X := by
    rintro ⟨s, w⟩ ⟨e, e'⟩ ⟨hsim, hclients, hsessions⟩ he
    refine ⟨hsim.step hlaw hlib hclients hsessions he, ?_⟩
    cases e' with
    | none => exact ⟨hclients, hsessions⟩
    | some e' => exact ⟨hclients.step e', hsessions.step e'⟩
  have hrun := h.invariant (I := fun p => d.Simulates X p.1 p.2 ∧ p.2.ClientsInv X ∧ p.2.SessionsInv X)
    hstep ⟨Simulates.init, World.ClientsInv.init, World.SessionsInv.init⟩
  rw [run_step] at hrun
  exact hrun

/-- What a client of the network has agreed on is what the symbolic client has. -/
theorem Simulates.agreed {s : State} {w : World} (h : d.Simulates X s w) (hw : w.ClientsInv X) {i : Nat}
    {c : HybridPqc.Client} {response : Bytes} {k : ByteArr 32} (hc : w.clients[i]? = some c)
    (hagreed : c.agreed = some (response, k)) : ∃ sid key, s.Agreed i c.mode sid key ∧
      response.take 16 = d.eval X sid ∧ k.toList = d.eval X key ∧ c.keys = d.keys X i := by
  have hi : i < s.clients.length := h.clients ▸ (List.getElem?_eq_some_iff.mp hc).1
  obtain ⟨c', hc', hclient⟩ := h.client i _ (List.getElem?_eq_getElem hi)
  obtain rfl := Option.some.inj (hc.symm.trans hc')
  have hentry := List.getElem?_eq_getElem hi
  generalize s.clients[i] = c' at hclient hentry
  obtain ⟨mode, status⟩ := c'
  obtain ⟨rfl, hkeys, hstatus⟩ := hclient
  cases hstatus with
  | waiting hphase =>
    obtain ⟨-, hnone, -⟩ := (hw.client i c hc).before hphase
    rw [hnone] at hagreed
    cases hagreed
  | failed _ hnone =>
    rw [hnone] at hagreed
    cases hagreed
  | @agreed sid key _ _ _ h hsid hkey =>
    obtain ⟨rfl, rfl⟩ := Prod.mk.inj (Option.some.inj (hagreed.symm.trans h))
    exact ⟨sid, key, hentry, hsid, hkey, hkeys⟩

end Draws

end HybridPqc.Symbolic
