import HybridPqc.Symbolic.Proofs.AgreementProofs
import HybridPqc.Symbolic.Proofs.SimulationProofs

/-!
# The symbolic protocol on the network

What is proved of the symbolic protocol holds of the runs of the two programs that realise it.
-/

namespace HybridPqc.Symbolic

open Messages GuardedRuns

variable {X : Externals} {d : Draws}

/-! ## The reference handshake -/

/-- The draws of the reference exchange. -/
def Draws.reference : Draws where
  clientPrivkey _ := Reference.clientPrivkey
  mlkemSeed _ := ByteArr.zero 64
  server _ := Reference.serverEnv
  iv _ := ByteArr.zero 12
  payload _ := []
  guess _ := []

/-- The request and the response of a client in classical mode, in both protocols. -/
def referenceEvents : List (Option Event × Option World.Event) :=
  let hello := terms.clientHello .classical 0
  let request := terms.request hello
  let response := terms.response hello (terms.serverReply .classical 0 (.kemPk (.name (.mlkemSk 0))))
  [(some (.start .classical), some (.start .classical (Draws.reference.keys Reference.externals 0) 0 0)),
    (some (.request request),
      some (.handshake Reference.serverEnv (Draws.reference.eval Reference.externals request))),
    (some (.response 0 response),
      some (.client 0 (.response Reference.clientEnv
        (some (Draws.reference.eval Reference.externals response)))))]

theorem reference_secret : (Reference.externals.x25519 Reference.serverPrivkey
    (Reference.externals.x25519Base Reference.clientPrivkey)).isZero = false := by decide +kernel

/-- The reference request is what the symbolic client sends. -/
theorem reference_requestAs :
    Draws.reference.RequestAs Reference.externals 0 (terms.request (terms.clientHello .classical 0)) := by
  obtain ⟨session₀, hanswer₀, hdata⟩ := answer_request .classical 0 0
  have hsession : ∀ session, answer 0 (terms.request (terms.clientHello .classical 0)) = some session →
      session.mode = .classical ∧ session.x25519Pubkey = .x25519Base (.name (.clientPrivkey 0)) := by
    intro session hanswer
    obtain rfl := Option.some.inj (hanswer₀.symm.trans hanswer)
    obtain ⟨k, hparse, hk, -⟩ := parseHello_of_begins (Or.inl hdata)
    have heq := (answer_eq_some hanswer).2.parse.symm.trans hparse
    obtain ⟨hmode, hkeys⟩ := Prod.mk.inj (Option.some.inj heq)
    exact ⟨hmode, (congrArg Prod.fst hkeys).trans (hk rfl)⟩
  refine ⟨fun session hanswer => ?_, fun session hanswer _ => ?_, fun hnone => ?_⟩
  · obtain ⟨hmode, hx⟩ := hsession session hanswer
    rw [hmode, hx]
    exact ⟨fun _ => List.Vector.toList_length _, nofun⟩
  · obtain ⟨-, hx⟩ := hsession session hanswer
    have heval : Draws.reference.eval Reference.externals (.x25519Base (.name (.clientPrivkey 0))) =
        (Reference.externals.x25519Base Reference.clientPrivkey).toList := Draws.eval_x25519Base rfl
    rw [hx, heval, ByteArr.ofBytes_toList]
    exact reference_secret
  · rw [hanswer₀] at hnone
    cases hnone

/-- The reference response is what the symbolic client accepts. -/
theorem reference_responseAs : Draws.reference.ResponseAs Reference.externals Reference.clientEnv .classical 0
    (terms.response (terms.clientHello .classical 0)
      (terms.serverReply .classical 0 (.kemPk (.name (.mlkemSk 0))))) := by
  have hkeys : ∀ sid keys k, terms.response (terms.clientHello .classical 0)
      (terms.serverReply .classical 0 (.kemPk (.name (.mlkemSk 0)))) =
        terms.response (terms.clientHello .classical 0) (.cons sid keys) → split .classical keys = some k →
      sid = .name (.sessionId 0) ∧ k.1 = .x25519Base (.name (.serverPrivkey 0)) := by
    intro sid keys k hresponse hsplit
    obtain ⟨hsid, hrest⟩ := Term.cons.inj hresponse
    refine ⟨hsid.symm, ?_⟩
    cases hsplit
    cases keys with
    | cons a rest => exact (Term.cons.inj hrest).1.symm
    | _ => exact (Term.cons.inj hrest).1.symm
  refine ⟨⟨rfl, rfl, rfl, rfl⟩, fun sid keys k hresponse hsplit => ?_,
    fun sid keys k hresponse hsplit _ => ?_, fun hnone => ?_⟩
  · obtain ⟨hsid, hk⟩ := hkeys sid keys k hresponse hsplit
    rw [hsid]
    refine ⟨List.Vector.toList_length _, fun _ => ?_, nofun⟩
    rw [hk]
    exact List.Vector.toList_length _
  · obtain ⟨-, hk⟩ := hkeys sid keys k hresponse hsplit
    have heval : Draws.reference.eval Reference.externals (.x25519Base (.name (.serverPrivkey 0))) =
        (Reference.externals.x25519Base Reference.serverPrivkey).toList := Draws.eval_x25519Base rfl
    rw [hk, heval, ByteArr.ofBytes_toList, Reference.x25519Comm]
    exact reference_secret
  · rw [process_response] at hnone
    cases hnone

/-- The reference handshake is one of both protocols. -/
theorem reference_realises : Guarded (Draws.step Reference.externals)
    (fun p => Draws.reference.Realises Reference.externals p.1 p.2) (State.init, World.init)
    referenceEvents := by
  set start : State × World := Draws.step Reference.externals (State.init, World.init)
    (some (.start .classical), some (.start .classical (Draws.reference.keys Reference.externals 0) 0 0))
    with hstart
  have hwaiting : ∀ m, (start.1.step (.request m)).clients = [⟨.classical, .waiting⟩] := by
    intro m
    show (start.1.onRequest m).clients = _
    unfold State.onRequest
    split <;> rfl
  refine ⟨.start .classical 0, .request reference_requestAs nofun, .response fun mode hmode => ?_, trivial⟩
  have hclient : (start.1.step (.request (terms.request (terms.clientHello .classical 0)))).clients[0]? =
      some ⟨mode, .waiting⟩ := hmode
  rw [hwaiting] at hclient
  cases hclient
  exact reference_responseAs

/-! ## Runs of the two programs -/

/-- A run of the two programs on the byte strings of terms ends in the state that the symbolic run stands for. -/
theorem simulates_run (hcomm : X.X25519Comm) (hkem : X.KemCorrect) (hlib : X.libmlkem = true)
    {es : List (Option Event × Option World.Event)}
    (h : Guarded (Draws.step X) (fun p => d.Realises X p.1 p.2) (State.init, World.init) es) :
    d.Simulates X (run State.step State.init (es.filterMap Prod.fst))
      (run (World.step X) World.init (es.filterMap Prod.snd)) := by
  obtain ⟨hsim, -, -⟩ := Draws.inv_run hcomm hkem hlib h
  exact hsim

theorem simulates_run_reference :
    Guarded (Draws.step Reference.externals) (fun p => Draws.reference.Realises Reference.externals p.1 p.2)
        (State.init, World.init) referenceEvents ∧
      Draws.reference.Simulates Reference.externals
        (run State.step State.init (referenceEvents.filterMap Prod.fst))
        (run (World.step Reference.externals) World.init (referenceEvents.filterMap Prod.snd)) :=
  ⟨reference_realises, simulates_run Reference.x25519Comm Reference.kemCorrect rfl reference_realises⟩

/-- Agreement on the network, from the symbolic protocol: as long as the attacker delivers what it can derive and
the pre-shared key has not leaked, the response that a client accepted names a session of the server that was
created for this client's handshake data and has the client's key; and no two clients have the same session. -/
theorem network_agreement (A : Attacker) (hpsk : ¬A.knows .handshakePsk) (hcomm : X.X25519Comm)
    (hkem : X.KemCorrect) (hlib : X.libmlkem = true) (es : List (Option Event × Option World.Event))
    (h : Guarded (Draws.step X) (fun p => d.Realises X p.1 p.2) (State.init, World.init) es)
    (hg : Guarded State.step A.Delivers State.init (es.filterMap Prod.fst))
    (hleak : .leak ∉ es.filterMap Prod.fst) :
    let w := run (World.step X) World.init (es.filterMap Prod.snd)
    (∀ (i : Nat) (c : HybridPqc.Client) (response : Bytes) (k : ByteArr 32), w.clients[i]? = some c →
      c.agreed = some (response, k) → ∃ t ∈ w.sessions, t.sid = response.take 16 ∧
        t.request.rdrop 32 = clientData (keyedCtx c.mode c.keys) ∧ t.key = k) ∧
    ∀ (i i' : Nat) (c c' : HybridPqc.Client) (response response' : Bytes) (k k' : ByteArr 32),
      w.clients[i]? = some c → w.clients[i']? = some c' → c.agreed = some (response, k) →
      c'.agreed = some (response', k') → response.take 16 = response'.take 16 → i = i' := by
  intro w
  obtain ⟨hsim, hclients, -⟩ := Draws.inv_run hcomm hkem hlib h
  set s := run State.step State.init (es.filterMap Prod.fst) with hs
  -- The symbolic partner, and the session of the network that goes with it.
  have hpartner : ∀ (i : Nat) (c : HybridPqc.Client) (response : Bytes) (k : ByteArr 32),
      w.clients[i]? = some c → c.agreed = some (response, k) →
        ∃ (j : Nat) (session : Session) (t : HybridPqc.Session), s.sessions[j]? = some session ∧
          session.data = terms.clientHello c.mode i ∧ w.sessions[j]? = some t ∧ t.sid = response.take 16 ∧
            t.request.rdrop 32 = clientData (keyedCtx c.mode c.keys) ∧ t.key = k := by
    intro i c response k hc hagreed
    obtain ⟨sid, key, hi, hsid, hkey, hkeys⟩ := hsim.agreed hclients hc hagreed
    obtain ⟨j, session, hp⟩ := exists_partners hpsk hg hleak hi
    obtain ⟨t, ht, hsession⟩ := hsim.session j session hp.stored
    refine ⟨j, session, t, hp.stored, hp.data_eq, ht, ?_, ?_, ?_⟩
    · rw [hsid, hp.sid_eq]
      exact hsession.sid_eq
    · rw [hsession.data_eq, hp.data_eq, d.eval_clientHello, hkeys]
    · have hsame : key = session.key := hp.client.trans hp.server.symm
      exact ByteArr.toList_inj.mp (hsession.key_eq.trans (by rw [hkey, hsame]))
  refine ⟨fun i c response k hc hagreed => ?_,
    fun i i' c c' response response' k k' hc hc' ha ha' htake => ?_⟩
  · obtain ⟨j, session, t, -, -, ht, hrest⟩ := hpartner i c response k hc hagreed
    exact ⟨t, List.mem_of_getElem? ht, hrest⟩
  · obtain ⟨j, session, t, hj, hdata, ht, hsid, -⟩ := hpartner i c response k hc ha
    obtain ⟨j', session', t', hj', hdata', ht', hsid', -⟩ := hpartner i' c' response' k' hc' ha'
    obtain rfl := Growing.eq_of_nodup_map hsim.ids ht ht' (hsid.trans (htake.trans hsid'.symm))
    obtain rfl := Option.some.inj (hj.symm.trans hj')
    exact (clientHello_inj (hdata.symm.trans hdata')).2

theorem network_agreement_reference :
    let w := run (World.step Reference.externals) World.init (referenceEvents.filterMap Prod.snd)
    ∃ c ∈ w.clients[0]?, ∃ response k, c.agreed = some (response, k) ∧
      ∃ t ∈ w.sessions, t.sid = response.take 16 ∧ t.key = k := by
  intro w
  let A : Attacker := ⟨(· ≠ .handshakePsk), True, True⟩
  obtain ⟨hg, hi⟩ := run_handshake A .classical
  obtain ⟨hsim, -, -⟩ := Draws.inv_run Reference.x25519Comm Reference.kemCorrect rfl reference_realises
  obtain ⟨hpartner, -⟩ := network_agreement A (fun h => h rfl) Reference.x25519Comm Reference.kemCorrect rfl
    referenceEvents reference_realises hg (by simp [referenceEvents])
  obtain ⟨c, hc, -, -, hstatus⟩ := hsim.client 0 _ hi
  cases hstatus with
  | @agreed _ _ response k _ hagreed =>
    obtain ⟨t, ht, hsid, -, hkey⟩ := hpartner 0 c response k hc hagreed
    exact ⟨c, hc, response, k, hagreed, t, ht, hsid, hkey⟩

end HybridPqc.Symbolic
