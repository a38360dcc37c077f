import HybridPqc.Network.Link
import HybridPqc.Network.Proofs.AgreementProofs
import HybridPqc.Network.Proofs.EvictionProofs

/-!
# The link delivers

Whatever is lost, the server's stored counter stays below the client's, so each packet that arrives
passes the checks and is logged, and its acknowledgement carries the counter that the client expects.
Others change neither the client nor the session as long as it is not evicted.
-/

open GuardedRuns

namespace HybridPqc

variable {X : Externals}

/-! ## The traffic of others -/

namespace World

theorem step_client {w : World} {e : Event} {i : Nat} (he : ∀ e', e ≠ .client i e') {c : Client}
    (hc : w.clients[i]? = some c) : (step X w e).clients[i]? = some c := by
  have hi : i < w.clients.length := (List.getElem?_eq_some_iff.mp hc).1
  cases e with
  | start mode keys seq hmacRet =>
    show (w.onStart X mode keys seq hmacRet).clients[i]? = some c
    rw [onStart_eq]
    split
    · exact Growing.getElem?_append hc _
    · exact hc
  | handshake env body =>
    show (w.onHandshake X env body).clients[i]? = some c
    rw [(onHandshake_clients env body w).1]
    exact hc
  | telemetry env body => exact hc
  | client j e =>
    have hij : j ≠ i := fun hj => he e (by rw [hj])
    show (w.onClient X j e).clients[i]? = some c
    unfold onClient
    cases w.clients[j]? with
    | none => exact hc
    | some c' => exact (List.getElem?_set_ne hij).trans hc

theorem run_client {w : World} {es : List Event} {i : Nat} (hes : ∀ e ∈ es, ∀ e', e ≠ .client i e')
    {c : Client} (hc : w.clients[i]? = some c) :
    (run (World.step X) w es).clients[i]? = some c :=
  (guarded_of_forall hes w).invariant (I := fun w => w.clients[i]? = some c)
    (fun _ _ hc he => step_client he hc) hc

theorem onClient_eq {w : World} {i : Nat} {c : Client} (hc : w.clients[i]? = some c)
    (e : DeviceEvent) : w.onClient X i e = { w with
      clients := w.clients.set i (c.next X e)
      sealings := w.sealings ++
        ((c.task.sealing? X e).map fun sealing => (Sender.client i, sealing)).toList } := by
  rw [onClient, hc]

theorem onClient_client {w : World} {i : Nat} {c : Client} (hc : w.clients[i]? = some c)
    (e : DeviceEvent) : (w.onClient X i e).clients[i]? = some (c.next X e) := by
  have hi : i < w.clients.length := (List.getElem?_eq_some_iff.mp hc).1
  rw [onClient_eq hc]
  exact List.getElem?_set_self hi

/-- What a foreign event leaves alone of a session in the table: its counter, its number, and the
records accepted for it. -/
theorem foreign_session {w : World} (h : w.SessionsInv X) {i : Nat} {sid : Bytes} {key : ByteArr 32}
    (hsid : w.server.sessions.get? sid = some key) {e : Event} (hf : Exchange.Foreign i sid w e)
    (hthere : sid ∈ (step X w e).server.sessions.keys) :
    (step X w e).server.lastCounter sid = w.server.lastCounter sid ∧
      (step X w e).current sid = w.current sid ∧
      (step X w e).acceptedOf (w.current sid) = w.acceptedOf (w.current sid) := by
  obtain ⟨s, hs, hssid, -⟩ := h.session sid key hsid
  cases e with
  | start mode keys seq hmacRet =>
    show (w.onStart X mode keys seq hmacRet).server.lastCounter sid = _ ∧
      (w.onStart X mode keys seq hmacRet).current sid = _ ∧
      (w.onStart X mode keys seq hmacRet).acceptedOf _ = _
    rw [onStart_eq]
    split <;> exact ⟨rfl, rfl, rfl⟩
  | handshake env body =>
    change sid ∈ (w.onHandshake X env body).server.sessions.keys at hthere
    show (w.onHandshake X env body).server.lastCounter sid = _ ∧
      (w.onHandshake X env body).current sid = _ ∧ (w.onHandshake X env body).acceptedOf _ = _
    rcases onHandshake_cases X env body w with ⟨-, he⟩ | ⟨m, -, he⟩
    · rw [he]
      exact ⟨rfl, rfl, rfl⟩
    · have hne : sid ≠ env.sessionId.toList := by
        rw [← hssid]
        exact (hf s (List.mem_of_getElem? hs)).symm
      rw [he] at hthere ⊢
      refine ⟨?_, if_neg hne, rfl⟩
      unfold Server.lastCounter
      congr 1
      exact Server.createSession_counter_ne hne hthere
  | telemetry env body =>
    have hne : sid ≠ body.take 16 := fun heq => hf heq.symm
    show (w.onTelemetry X env body).server.lastCounter sid = _ ∧
      (w.onTelemetry X env body).current sid = _ ∧ (w.onTelemetry X env body).acceptedOf _ = _
    have ht := onTelemetry_step (X := X) env body w
    generalize w.onTelemetry X env body = w' at ht ⊢
    cases ht with
    | refused => exact ⟨rfl, rfl, rfl⟩
    | counted key' plaintext data hopens hdata hrecord =>
      refine ⟨?_, rfl, rfl⟩
      unfold Server.lastCounter
      rw [counted_counter_ne hne]
    | logged key' plaintext data record ack hopens hdata hrecord hack =>
      refine ⟨?_, rfl, ?_⟩
      · unfold Server.lastCounter
        rw [logged_sessionCounters, counted_counter_ne hne]
      · -- Sessions of different ids have different numbers.
        have hcur : w.current (body.take 16) ≠ w.current sid := fun heq =>
          hne (h.current_inj hsid hopens.session heq.symm)
        rw [acceptedOf_concat w rfl, if_neg hcur, List.append_nil]
  | client j e =>
    show (w.onClient X j e).server.lastCounter sid = _ ∧ (w.onClient X j e).current sid = _ ∧
      (w.onClient X j e).acceptedOf _ = _
    unfold onClient
    cases w.clients[j]? <;> exact ⟨rfl, rfl, rfl⟩

end World

/-! ## The invariant -/

/-- The record that the server logs when it receives a packet with this telemetry at this time. -/
def LoggedAs (X : Externals) (p : DateTime × TelemetryData) (a : Acceptance) : Prop :=
  ∃ fields, telemetryLoads X (jsonPayload p.2) = .ok (.obj fields) ∧
    logRecord p.1 (.obj fields) = .ok a.record

namespace Link

/-- What is in flight between the task of a client and its session: nothing unless the task waits for a
reply; a packet with the counter consumed last, which the server has not seen; or the acknowledgement
of a packet with this counter. -/
inductive InFlight (X : Externals) (s : Session) (last : Int) (d : Device) :
    Option (Bytes × TelemetryData) → Option (HttpReply × TelemetryData) → Prop
  | nothing (hphase : d.phase ≠ .posted) : InFlight X s last d none none
  | request (e : Sealing) (t : TelemetryData) (hphase : d.phase = .posted) (hsmall : t.Small)
      (hkey : e.key = s.key) (hplain : e.plaintext = jsonPayload t)
      (hctr : e.counter + 1 = d.ctx.telemetryCounter.toNat) (hlast : last < e.counter) :
      InFlight X s last d (some (s.sid ++ e.packet X, t)) none
  | reply (ack : Sealing) (t : TelemetryData) (receivedAt serverTime : DateTime)
      (hphase : d.phase = .posted) (hkey : ack.key = s.key)
      (hplain : ack.plaintext = jsonBody X (ackFields serverTime (telemetryRecord receivedAt t)))
      (hctr : ack.counter + 1 = d.ctx.telemetryCounter.toNat) :
      InFlight X s last d none (some (⟨200, ack.packet X⟩, t))

/-- The task of a connected client: it holds the session, and its counter is ahead of the server's. -/
structure Connected (s : Session) (last : Int) (d : Device) : Prop where
  phase : d.phase ≠ .handshake
  key : d.phase ≠ .done → d.ctx.sessionKey = s.key ∧ d.sessionId = s.sid
  ahead : d.phase ≠ .done → last < d.ctx.telemetryCounter.toNat

/-- The state of the link of client `i` and its session, number `k`. -/
structure Inv (X : Externals) (i k : Nat) (s : Session) (l : Link) : Prop where
  clients : l.world.ClientsInv X
  sessions : l.world.SessionsInv X
  session : l.world.sessions[k]? = some s
  current : l.world.current s.sid = k
  table : l.world.server.sessions.get? s.sid = some s.key
  client : ∃ c, l.world.clients[i]? = some c ∧
    Connected s (l.world.server.lastCounter s.sid) c.task ∧
    InFlight X s (l.world.server.lastCounter s.sid) c.task l.request l.reply
  order : (l.delivered.map Prod.snd ++ (l.request.map Prod.snd).toList).Sublist l.sent
  log : List.Forall₂ (LoggedAs X) l.delivered (l.world.acceptedOf k)

theorem ack_fits {ack : Sealing} {t : TelemetryData} {receivedAt serverTime : DateTime}
    (hplain : ack.plaintext = jsonBody X (ackFields serverTime (telemetryRecord receivedAt t))) :
    (ack.packet X).length ≤ telemetryBufSize := by
  have hlen := ack_length_le X serverTime receivedAt t
  rw [Sealing.packet_length, hplain]
  unfold telemetryBufSize
  omega

theorem decrypts_ack (hgcm : X.GcmCorrect) {s : Session} {d : Device}
    (hcomplete : d.ctx.handshakeComplete = true)
    (hkey : d.ctx.sessionKey = s.key) {ack : Sealing} (hack : ack.key = s.key)
    (hctr : ack.counter + 1 = d.ctx.telemetryCounter.toNat) {env : DecryptEnv}
    (hset : env.setkeyRet = 0) (hdec : env.decryptRet = 0) :
    hybridDecryptResponse X env d.ctx (ack.packet X) = some ack.plaintext := by
  refine hybridDecryptResponse_eq_some.mpr ⟨hcomplete, ?_, hset, hdec, ?_, ?_⟩
  · rw [Sealing.packet_length]
    omega
  · have h1 : (1 : UInt32).toNat = 1 := rfl
    rw [Sealing.packet_counter, UInt32.toNat_sub_of_le _ _ (by rw [UInt32.le_iff_toNat_le]; omega), h1]
    omega
  · rw [hkey, ← hack]
    exact Sealing.openPacket_packet X ack hgcm

variable {i k : Nat} {s : Session} {l : Link}

/-- An iteration of the loop posts at most one packet, with the counter that it consumes. -/
theorem Connected.send {last : Int} {d : Device} (h : Connected s last d) (hphase : d.phase = .loop)
    (hle : d.ctx.telemetryCounter.toNat ≤ 150) (env : Device.SendEnv) :
    Connected s last (d.step X (.send env)) ∧
      InFlight X s last (d.step X (.send env))
        ((d.posted? X (.send env)).map fun body => (body, d.nextTelemetry env)) none := by
  have hdone : d.phase ≠ .done := by rw [hphase]; simp
  obtain ⟨hkey, hsid⟩ := h.key hdone
  have hahead := h.ahead hdone
  have hctr := Device.counter_succ hle
  have ht := Device.step_transition X d (.send env)
  generalize d.step X (.send env) = d' at ht ⊢
  generalize d.sealing? X (.send env) = sealing at ht
  generalize d.posted? X (.send env) = body at ht ⊢
  have hnext : Connected s last { d.sealedNext with phase := .posted } :=
    ⟨by simp, fun _ => ⟨hkey, hsid⟩, fun _ => by simp only [Device.sealedNext, hctr]; omega⟩
  cases ht with
  | idle => exact ⟨h, .nothing (by rw [hphase]; simp)⟩
  | stop _ _ hstop _ =>
    exact ⟨⟨by rw [hstop]; simp, fun hne => absurd hstop hne, fun hne => absurd hstop hne⟩,
      .nothing (by rw [hstop]; simp)⟩
  | skip => exact ⟨⟨h.phase, h.key, h.ahead⟩, .nothing (by simp [hphase])⟩
  | spoil =>
    exact ⟨⟨h.phase, h.key, fun _ => hnext.ahead (by simp)⟩,
      .nothing (by simp [Device.sealedNext, hphase])⟩
  | post =>
    refine ⟨hnext, ?_⟩
    rw [hsid]
    refine .request (d.nextSealing env) (d.nextTelemetry env) rfl (generateTelemetry_small _ _ _) hkey
      rfl ?_ ?_
    · rw [nextSealing_counter]
      exact hctr.symm
    · rw [nextSealing_counter]
      exact hahead

/-- Whatever comes back, the client goes on. -/
theorem Connected.reply {last : Int} {d : Device} (h : Connected s last d) (hphase : d.phase = .posted)
    (env : DecryptEnv) (reply : Option Bytes) :
    Connected s last (d.step X (.reply env reply)) ∧
      InFlight X s last (d.step X (.reply env reply)) none none := by
  have hdone : d.phase ≠ .done := by rw [hphase]; simp
  have hstep : d.step X (.reply env reply) = d.onReply X env reply := if_pos hphase
  rw [hstep]
  unfold Device.onReply
  split
  · exact ⟨⟨by simp, fun _ => h.key hdone, fun _ => h.ahead hdone⟩, .nothing (by simp)⟩
  · exact ⟨⟨by simp, fun _ => h.key hdone, fun _ => h.ahead hdone⟩, .nothing (by simp)⟩

/-- An event at the client changes nothing but its task. -/
theorem Inv.onClient (h : l.Inv X i k s) {c : Client} (hc : l.world.clients[i]? = some c)
    (e : DeviceEvent) {request : Option (Bytes × TelemetryData)} {sent : List TelemetryData}
    (hconn : Connected s (l.world.server.lastCounter s.sid) (c.task.step X e))
    (hflight : InFlight X s (l.world.server.lastCounter s.sid) (c.task.step X e) request none)
    (horder : (l.delivered.map Prod.snd ++ (request.map Prod.snd).toList).Sublist sent) :
    Inv X i k s ⟨l.world.onClient X i e, request, none, sent, l.delivered⟩ := by
  refine ⟨h.clients.event i e, h.sessions.event i e, ?_, ?_, ?_, ⟨c.next X e, ?_, ?_, ?_⟩, horder, ?_⟩
  · simp only [World.onClient_eq hc]
    exact h.session
  · simp only [World.onClient_eq hc]
    exact h.current
  · simp only [World.onClient_eq hc]
    exact h.table
  · exact World.onClient_client hc e
  · simp only [World.onClient_eq hc]
    exact hconn
  · simp only [World.onClient_eq hc]
    exact hflight
  · simp only [World.onClient_eq hc]
    exact h.log

theorem Inv.send (h : l.Inv X i k s) (env : Device.SendEnv) :
    (l.step X i (.send env)).Inv X i k s := by
  obtain ⟨c, hc, hconn, hflight⟩ := h.client
  simp only [step, hc]
  split
  swap
  · exact h
  next hphase =>
  -- Nothing is in flight at the head of the loop.
  obtain ⟨world, request, reply, sent, delivered⟩ := l
  simp only at hflight hc hconn ⊢
  cases hflight with
  | request e t hposted => rw [hphase] at hposted; cases hposted
  | reply ack t ra st hposted => rw [hphase] at hposted; cases hposted
  | nothing =>
    have horder : (delivered.map Prod.snd).Sublist sent := by simpa using h.order
    obtain ⟨hconn', hflight'⟩ := hconn.send (X := X) hphase (h.clients.client i c hc).loop.counter_le env
    exact h.onClient hc (.send env) hconn' hflight' (horder.append (List.Sublist.refl _))

theorem Inv.opens (h : l.Inv X i k s) (hgcm : X.GcmCorrect) {e : Sealing} {t : TelemetryData}
    (hkey : e.key = s.key) (hplain : e.plaintext = jsonPayload t)
    (hlast : l.world.server.lastCounter s.sid < e.counter) :
    Opens X l.world.server (s.sid ++ e.packet X) s.key (jsonPayload t) := by
  have hlen : s.sid.length = 16 := h.sessions.sidLength s (List.mem_of_getElem? h.session)
  have htable : l.world.server.sessions.get? s.sid = some e.key := by
    rw [hkey]
    exact h.table
  rw [← hkey, ← hplain]
  exact opens_packet hgcm hlen htable hlast

theorem Inv.deliver (h : l.Inv X i k s) (hgcm : X.GcmCorrect) (env : TelemetryEnv) :
    (l.step X i (.deliver env)).Inv X i k s := by
  obtain ⟨c, hc, hconn, hflight⟩ := h.client
  obtain ⟨world, request, reply, sent, delivered⟩ := l
  simp only at hflight hc hconn
  cases hflight with
  | nothing => exact h
  | reply => exact h
  | request e t hphase hsmall hkey hplain hctr hlast =>
    have hopens := h.opens hgcm hkey hplain hlast
    have hlen : s.sid.length = 16 := h.sessions.sidLength s (List.mem_of_getElem? h.session)
    have htake := take_session hlen (e.packet X)
    have hdrop := drop_session hlen (e.packet X)
    have hlast' : (logged world.server (s.sid ++ e.packet X)
        (telemetryRecord env.receivedAt t)).lastCounter s.sid = e.counter := by
      unfold Server.lastCounter
      rw [logged_sessionCounters]
      have hself := counted_counter_self world.server (s.sid ++ e.packet X)
      rw [htake, hdrop, Sealing.packet_counter] at hself
      rw [hself, Option.getD_some]
    have horder := h.order
    have hworld := World.onTelemetry_of_payload hsmall env hopens
    simp only [step, telemetryRoute_of_payload hsmall env hopens]
    let arrival : World.Event := .telemetry env (s.sid ++ e.packet X)
    refine ⟨h.clients.step arrival, h.sessions.step arrival, ?_, ?_, ?_, ⟨c, hc, ?_, ?_⟩, ?_, ?_⟩
    · exact h.session
    · exact h.current
    · show (world.onTelemetry X env (s.sid ++ e.packet X)).server.sessions.get? s.sid = _
      rw [hworld]
      exact h.table
    · show Connected s ((world.onTelemetry X env (s.sid ++ e.packet X)).server.lastCounter s.sid) c.task
      rw [hworld, hlast']
      exact ⟨hconn.phase, hconn.key, fun _ => by omega⟩
    · refine .reply _ t env.receivedAt env.serverTime hphase rfl rfl ?_
      rw [ackOf_counter, hdrop, Sealing.packet_counter]
      exact hctr
    · simpa using horder
    · show List.Forall₂ (LoggedAs X) (delivered ++ [(env.receivedAt, t)])
        ((world.onTelemetry X env (s.sid ++ e.packet X)).acceptedOf k)
      have hcur : world.current s.sid = k := h.current
      have hof : (world.onTelemetry X env (s.sid ++ e.packet X)).acceptedOf k =
          world.acceptedOf k ++ [⟨k, e.packet X, telemetryRecord env.receivedAt t,
            some (ackOf X env s.key (s.sid ++ e.packet X) (telemetryRecord env.receivedAt t))⟩] := by
        rw [hworld, World.acceptedOf_concat world rfl, htake, hdrop, hcur, if_pos rfl]
      rw [hof]
      exact List.rel_append h.log (.cons ⟨_, telemetryLoads_jsonPayload X hsmall, rfl⟩ .nil)

theorem Inv.answer (h : l.Inv X i k s) (env : DecryptEnv) :
    (l.step X i (.answer env)).Inv X i k s := by
  obtain ⟨c, hc, hconn, hflight⟩ := h.client
  obtain ⟨world, request, reply, sent, delivered⟩ := l
  simp only at hflight hc hconn
  cases hflight with
  | nothing => exact h
  | request => exact h
  | reply ack t receivedAt serverTime hphase =>
    obtain ⟨hconn', hflight'⟩ := hconn.reply (X := X) hphase env _
    exact h.onClient hc (.reply env _) hconn' hflight' h.order

theorem Inv.lose (h : l.Inv X i k s) (env : DecryptEnv) : (l.step X i (.lose env)).Inv X i k s := by
  obtain ⟨c, hc, hconn, hflight⟩ := h.client
  obtain ⟨world, request, reply, sent, delivered⟩ := l
  simp only at hflight hc hconn
  have horder : (delivered.map Prod.snd ++ []).Sublist sent := by
    rw [List.append_nil]
    exact (List.sublist_append_left _ _).trans h.order
  cases hflight with
  | nothing => exact h
  | request e t hphase =>
    obtain ⟨hconn', hflight'⟩ := hconn.reply (X := X) hphase env none
    exact h.onClient hc (.reply env none) hconn' hflight' horder
  | reply ack t receivedAt serverTime hphase =>
    obtain ⟨hconn', hflight'⟩ := hconn.reply (X := X) hphase env none
    exact h.onClient hc (.reply env none) hconn' hflight' horder

theorem foreign_ne {i : Nat} {sid : Bytes} {w : World} {e : World.Event}
    (hf : Exchange.Foreign i sid w e) (e' : DeviceEvent) : e ≠ .client i e' := by
  rintro rfl
  exact hf rfl

theorem Inv.other (h : l.Inv X i k s) {e : World.Event} (hf : Exchange.Foreign i s.sid l.world e)
    (hthere : (World.step X l.world e).server.sessions.get? s.sid = some s.key) :
    (l.step X i (.other e)).Inv X i k s := by
  obtain ⟨c, hc, hconn, hflight⟩ := h.client
  obtain ⟨hlast, hcurrent, haccepted⟩ := World.foreign_session h.sessions h.table hf
    (Dict.mem_keys_of_get? hthere)
  rw [h.current] at hcurrent haccepted
  refine ⟨h.clients.step e, h.sessions.step e, ?_, hcurrent, hthere,
    ⟨c, World.step_client (foreign_ne hf) hc, ?_, ?_⟩, h.order, ?_⟩
  · exact Growing.getElem?_prefix (World.sessions_step l.world e) h.session
  · show Connected s ((World.step X l.world e).server.lastCounter s.sid) c.task
    rw [hlast]
    exact hconn
  · show InFlight X s ((World.step X l.world e).server.lastCounter s.sid) c.task l.request l.reply
    rw [hlast]
    exact hflight
  · show List.Forall₂ (LoggedAs X) l.delivered ((World.step X l.world e).acceptedOf k)
    rw [haccepted]
    exact h.log

/-- Every event on the link keeps the invariant, as long as the session is not evicted. -/
theorem Inv.step (h : l.Inv X i k s) (hgcm : X.GcmCorrect) {e : LinkEvent}
    (hf : Exchange.ForeignOnLink i s.sid l e)
    (hthere : (l.step X i e).world.server.sessions.get? s.sid = some s.key) :
    (l.step X i e).Inv X i k s := by
  cases e with
  | send env => exact h.send env
  | deliver env => exact h.deliver hgcm env
  | answer env => exact h.answer env
  | lose env => exact h.lose env
  | other e => exact h.other (hf e (by simp [Exchange.others])) hthere

/-! ## Survival on the link -/

/-- The events of the world that an event on the link consists of. -/
def worldEvents (i : Nat) (l : Link) : LinkEvent → List World.Event
  | .send env =>
    match l.world.clients[i]? with
    | none => []
    | some c => if c.task.phase = .loop then [.client i (.send env)] else []
  | .deliver env =>
    match l.request with
    | none => []
    | some (body, _) => [.telemetry env body]
  | .answer env =>
    match l.reply with
    | none => []
    | some (reply, _) => [.client i (.reply env (sendHttpPost telemetryBufSize reply))]
  | .lose env => if l.request = none ∧ l.reply = none then [] else [.client i (.reply env none)]
  | .other e => [e]

theorem step_world (X : Externals) (i : Nat) (l : Link) (e : LinkEvent) :
    (l.step X i e).world = run (World.step X) l.world (l.worldEvents i e) := by
  cases e with
  | send env =>
    simp only [Link.step, worldEvents]
    cases l.world.clients[i]? with
    | none => rfl
    | some c =>
      simp only
      split <;> rfl
  | deliver env =>
    simp only [Link.step, worldEvents]
    cases l.request <;> rfl
  | answer env =>
    simp only [Link.step, worldEvents]
    cases l.reply <;> rfl
  | lose env =>
    simp only [Link.step, worldEvents]
    split <;> rfl
  | other e => rfl

theorem worldEvents_cases (i : Nat) (l : Link) (e : LinkEvent) :
    (∃ e', e = .other e') ∨ Exchange.others e = [] ∧
      ∀ e' ∈ l.worldEvents i e, ∀ env body, e' ≠ .handshake env body := by
  cases e with
  | send env =>
    refine .inr ⟨rfl, ?_⟩
    simp only [worldEvents]
    cases l.world.clients[i]? with
    | none => simp
    | some c =>
      simp only
      split <;> simp
  | deliver env =>
    refine .inr ⟨rfl, ?_⟩
    simp only [worldEvents]
    cases l.request <;> simp
  | answer env =>
    refine .inr ⟨rfl, ?_⟩
    simp only [worldEvents]
    cases l.reply <;> simp
  | lose env =>
    refine .inr ⟨rfl, ?_⟩
    simp only [worldEvents]
    split <;> simp
  | other e => exact .inl ⟨e, rfl⟩

theorem completedRequests_worldEvents (X : Externals) (i : Nat) (l : Link) (e : LinkEvent) :
    World.completedRequests X (l.worldEvents i e) =
      World.completedRequests X (Exchange.others e) := by
  rcases worldEvents_cases i l e with ⟨e', rfl⟩ | ⟨hothers, hno⟩
  · rfl
  · rw [hothers]
    exact World.completedRequests_eq_nil hno

theorem foreign_freshIds {i : Nat} {sid : Bytes} {w : World} {e : World.Event}
    (hf : Exchange.Foreign i sid w e) : World.FreshIds w e := by
  cases e with
  | handshake env body => exact hf
  | start mode keys seq hmacRet => trivial
  | telemetry env body => trivial
  | client j e => trivial

theorem guarded_worldEvents {X : Externals} {i : Nat} {sid : Bytes} {l : Link} {e : LinkEvent}
    (hf : Exchange.ForeignOnLink i sid l e) :
    Guarded (World.step X) World.FreshIds l.world (l.worldEvents i e) := by
  rcases worldEvents_cases i l e with ⟨e', rfl⟩ | ⟨-, hno⟩
  · exact ⟨foreign_freshIds (hf e' (by simp [Exchange.others])), trivial⟩
  · exact World.guarded_freshIds hno

theorem run_inv (hgcm : X.GcmCorrect) {w : World} (hw : w.SessionsInv X) {env : HandshakeEnv}
    {m : Mode} {body : Bytes} (hacc : Accepts X env m body) {es : List World.Event} {l : Link}
    (hl : l.world = run (World.step X) (w.onHandshake X env body) es)
    (hfresh : Guarded (World.step X) World.FreshIds w (.handshake env body :: es))
    (h : l.Inv X i k (World.newSession X env m body)) (events : List LinkEvent)
    (hfew : (World.completedRequests X (es ++ events.flatMap Exchange.others)).length ≤ 100)
    (hf : Guarded (Link.step X i) (Exchange.ForeignOnLink i env.sessionId.toList) l events) :
    (run (Link.step X i) l events).Inv X i k (World.newSession X env m body) := by
  induction events generalizing l es with
  | nil => exact h
  | cons e events ih =>
    have hl' : (l.step X i e).world =
        run (World.step X) (w.onHandshake X env body) (es ++ l.worldEvents i e) := by
      rw [step_world, hl, run_append]
    have hfresh' : Guarded (World.step X) World.FreshIds w
        (.handshake env body :: (es ++ l.worldEvents i e)) := by
      refine ⟨hfresh.1, guarded_append.mpr ⟨hfresh.2, ?_⟩⟩
      have hown := guarded_worldEvents (X := X) hf.1
      rw [hl] at hown
      exact hown
    have hcount : World.completedRequests X
          ((es ++ l.worldEvents i e) ++ events.flatMap Exchange.others) =
        World.completedRequests X (es ++ (e :: events).flatMap Exchange.others) := by
      rw [List.flatMap_cons, List.append_assoc]
      simp only [World.completedRequests_append, completedRequests_worldEvents]
    have hthere : (l.step X i e).world.server.sessions.get? env.sessionId.toList =
        some (replyKey X env m (body.rdrop 32)) := by
      rw [hl']
      refine (World.session_survives hw hacc hfresh').mpr ?_
      rw [← hcount, World.completedRequests_append, List.length_append] at hfew
      omega
    rw [run_cons]
    exact ih hl' hfresh' (h.step hgcm hf.1 hthere) (by rw [hcount]; exact hfew) hf.2

end Link

end HybridPqc
