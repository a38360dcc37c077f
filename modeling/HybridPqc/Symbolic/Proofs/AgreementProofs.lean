import HybridPqc.Symbolic.Proofs.ProtocolProofs
import HybridPqc.Symbolic.Proofs.SafeProofs

/-!
# Agreement of clients and sessions

As long as the pre-shared key is not known, a verified tag was put on by a party, also for an attacker who
knows every other secret of every party. A client that accepts a response therefore shares its key with the
session that answered to its own request.
-/

namespace HybridPqc.Symbolic

open Messages GuardedRuns State

/-! ## What a run exposes -/

/-- The names that an attacker may come to know in a run, whatever else is public. -/
structure Discloses (A : Attacker) (pub : Name → Prop) : Prop where
  knows : ∀ n, A.knows n → pub n
  mode : ∀ m, pub (.mode m)
  sessionId : ∀ j, pub (.sessionId j)
  iv : ∀ n, pub (.iv n)
  clientPrivkey : A.breaksX25519 → ∀ i, pub (.clientPrivkey i)
  serverPrivkey : A.breaksX25519 → ∀ j, pub (.serverPrivkey j)
  mlkemSk : A.breaksMlkem → ∀ i, pub (.mlkemSk i)
  coins : A.breaksMlkem → ∀ j, pub (.coins j)

section Exposed

variable {A : Attacker} {pub : Name → Prop} {signed : Term → Prop}

theorem safe_clientHello (hd : Discloses A pub) (mode : Mode) (i : Nat) :
    Safe A pub signed (terms.clientHello mode i) := by
  have hx : Safe A pub signed (.x25519Base (.name (.clientPrivkey i))) := fun h => hd.clientPrivkey h i
  have hm : Safe A pub signed (.kemPk (.name (.mlkemSk i))) := fun h => hd.mlkemSk h i
  cases mode
  · exact ⟨hd.mode _, hx⟩
  · exact ⟨hd.mode _, hm⟩
  · exact ⟨hd.mode _, hx, hm⟩

/-- A reply is safe for every key of the client: it shows no secret of the server. -/
theorem safe_serverReply (hd : Discloses A pub) (mode : Mode) (j : Nat) (mlkemPk : Term) :
    Safe A pub signed (terms.serverReply mode j mlkemPk) := by
  have hx : Safe A pub signed (.x25519Base (.name (.serverPrivkey j))) := fun h => hd.serverPrivkey h j
  have hm : Safe A pub signed (.kemCt mlkemPk (.name (.coins j))) := fun h => hd.coins h j
  cases mode
  · exact ⟨hd.sessionId j, hx⟩
  · exact ⟨hd.sessionId j, hm⟩
  · exact ⟨hd.sessionId j, hx, hm⟩

theorem safe_tagged {m t : Term} (hm : Safe A pub signed m) (ht : signed t) :
    Safe A pub signed (terms.tagged m t) := (safe_append _ _).mpr ⟨hm, Or.inr ⟨rfl, ht⟩⟩

variable (A pub signed)

/-- All that was sent is safe, and so is every session id that a client has accepted. -/
structure Exposed (s : State) : Prop where
  network : ∀ m ∈ s.network, Safe A pub signed m
  sid : ∀ i mode sid key, s.Agreed i mode sid key → Safe A pub signed sid

variable {A pub signed}

theorem Exposed.init : Exposed A pub signed State.init := ⟨by simp [State.init], by simp [State.init]⟩

/-- The safe terms are not left as long as a payload goes out under a safe key only if it is public. -/
theorem Exposed.step {s s' : State} {e : Event} (hd : Discloses A pub) (h : Exposed A pub signed s)
    (ht : s.Transition e s') (hreceived : ∀ m, e.received = some m → Safe A pub signed m)
    (hsigned : ∀ m ∈ s'.signed, signed m) (hleak : e = .leak → pub .handshakePsk)
    (hsend : ∀ i iv d mode sid key, e = .send i iv d → s.Agreed i mode sid key →
      Safe A pub signed key → pub (.payload d))
    (hack : ∀ m iv d j key, e = .telemetry m iv d → opens s.sessions m = some (j, key) →
      Safe A pub signed key → pub (.payload d)) : Exposed A pub signed s' := by
  have hsid : ∀ i mode sid key, s'.Agreed i mode sid key → Safe A pub signed sid := by
    intro i mode sid key hi
    rcases ht.agreed_of hi with hi | ⟨m, rfl, hprocess⟩
    · exact h.sid i mode sid key hi
    · obtain ⟨keys, k, rfl, -⟩ := process_eq_some hprocess
      exact (hreceived _ rfl).1
  have hnetwork : ∀ {t : Term}, Safe A pub signed t → ∀ m ∈ s.network ++ [t], Safe A pub signed m := by
    intro t ht m hm
    rcases List.mem_append.mp hm with hm | hm
    · exact h.network m hm
    · rw [List.mem_singleton.mp hm]
      exact ht
  refine ⟨?_, hsid⟩
  cases ht with
  | idle => exact h.network
  | receive => exact h.network
  | start mode =>
    exact hnetwork (safe_tagged (safe_clientHello hd _ _) (hsigned _ (List.mem_append_right _ (by simp))))
  | @answer m session hanswer =>
    refine hnetwork (safe_tagged ?_ (hsigned _ (List.mem_append_right _ (by simp))))
    rw [(answer_eq_some hanswer).2.reply_eq]
    exact safe_serverReply hd _ _ _
  | @packet i mode sid key hi iv d =>
    refine hnetwork ((safe_append _ _).mpr ⟨h.sid i mode sid key hi, ?_⟩)
    exact ⟨hd.iv iv, hsend i iv d mode sid key rfl hi⟩
  | @ack m key j hopens iv d => exact hnetwork ⟨hd.iv iv, hack m iv d j key rfl hopens⟩
  | leak => exact hnetwork (hleak rfl)

end Exposed

/-! ## Tags before the key leaks -/

section Agreement

variable {A : Attacker}

/-- An attacker who knows every name but the pre-shared key. -/
theorem discloses_but_psk (hpsk : ¬A.knows .handshakePsk) : Discloses A (· ≠ .handshakePsk) where
  knows n hn := by
    rintro rfl
    exact hpsk hn
  mode _ := nofun
  sessionId _ := nofun
  iv _ := nofun
  clientPrivkey _ _ := nofun
  serverPrivkey _ _ := nofun
  mlkemSk _ _ := nofun
  coins _ _ := nofun

variable {es : List Event}

theorem exposed_but_psk (hpsk : ¬A.knows .handshakePsk) (hg : Guarded State.step A.Delivers State.init es)
    (hleak : .leak ∉ es) :
    Exposed A (· ≠ .handshakePsk) (· ∈ (run State.step State.init es).signed)
      (run State.step State.init es) := by
  have hd := discloses_but_psk hpsk
  refine Deduction.run_closed (closed_safe hd.knows) (fun s h => h.network) Exposed.init hg ?_
  intro p e q heq hp hreceived
  refine hp.step hd (transition_step _ e) hreceived ?_ ?_ (fun _ _ _ _ _ _ _ _ _ => nofun)
    (fun _ _ _ _ _ _ _ _ => nofun)
  · intro m hm
    have hgrows := (grows_run ((run State.step State.init p).step e) q).2
    rw [heq, run_append, run_cons]
    exact hgrows.subset hm
  · rintro rfl
    exact absurd (by rw [heq]; simp) hleak

/-- A tag that the attacker delivers was put on by a party. -/
theorem signed_of_delivered (hpsk : ¬A.knows .handshakePsk)
    (hg : Guarded State.step A.Delivers State.init es) (hleak : .leak ∉ es) {m t : Term}
    (hm : A.Derives (run State.step State.init es) (terms.tagged m t)) :
    t ∈ (run State.step State.init es).signed := by
  have hsafe := hm.mem (closed_safe (discloses_but_psk hpsk).knows) (exposed_but_psk hpsk hg hleak).network
  rcases ((safe_append _ _).mp hsafe).2 with ⟨hkey, -⟩ | ⟨-, hsigned⟩
  · exact absurd rfl hkey
  · exact hsigned

/-! ## Partners -/

/-- What a party signs before the pre-shared key leaks: the handshake data of a client, or these with the reply of
the session that answered to them. More may follow, as the server also answers to a signed transcript. -/
def Genuine (s : State) (m : Term) : Prop :=
  ∃ mode i, m = terms.clientHello mode i ∨ ∃ (j : Nat) (session : Session) (t : Term),
    s.sessions[j]? = some session ∧ session.data = terms.clientHello mode i ∧ t.Begins session.reply ∧
      m = (terms.clientHello mode i).append t

theorem Genuine.begins {s : State} {m : Term} (h : Genuine s m) :
    ∃ mode i, m.Begins (terms.clientHello mode i) := by
  obtain ⟨mode, i, rfl | ⟨j, session, t, -, -, -, rfl⟩⟩ := h
  · exact ⟨mode, i, Or.inl rfl⟩
  · exact ⟨mode, i, Or.inr ⟨t, rfl⟩⟩

theorem Genuine.mono {s s' : State} {m : Term} (h : Genuine s m) (hgrows : s.sessions <+: s'.sessions) :
    Genuine s' m := by
  obtain ⟨mode, i, heq | ⟨j, session, t, hj, hrest⟩⟩ := h
  · exact ⟨mode, i, Or.inl heq⟩
  · exact ⟨mode, i, Or.inr ⟨j, session, t, Growing.getElem?_prefix hgrows hj, hrest⟩⟩

/-- The transcript of a new session is genuine if its data are. -/
theorem Genuine.transcript {s : State} {session : Session} {j : Nat} (h : Genuine s session.data)
    (hj : s.sessions[j]? = some session) : Genuine s (session.data.append session.reply) := by
  obtain ⟨mode, i, heq | ⟨j', session', t, hj', hdata, ht, heq⟩⟩ := h
  · exact ⟨mode, i, Or.inr ⟨j, session, session.reply, hj, heq, Or.inl rfl, by rw [heq]⟩⟩
  · refine ⟨mode, i, Or.inr ⟨j', session', t.append session.reply, hj', hdata, ht.append _, ?_⟩⟩
    rw [heq, Term.append_assoc]

/-- All that is signed before the pre-shared key leaks is genuine, and so are the data of every session. -/
theorem genuine_run (hpsk : ¬A.knows .handshakePsk)
    (hg : Guarded State.step A.Delivers State.init es) (hleak : .leak ∉ es) :
    (∀ m ∈ (run State.step State.init es).signed, Genuine (run State.step State.init es) m) ∧
      ∀ session ∈ (run State.step State.init es).sessions,
        Genuine (run State.step State.init es) session.data := by
  induction es using List.reverseRecOn with
  | nil => exact ⟨nofun, nofun⟩
  | append_singleton es e ih =>
    obtain ⟨hes, hlast⟩ := guarded_append.mp hg
    have hleak' : Event.leak ∉ es := fun h => hleak (List.mem_append_left _ h)
    obtain ⟨hsigned, hdata⟩ := ih hes hleak'
    have hdelivered : ∀ {m t}, e.received = some (terms.tagged m t) → Genuine (run State.step State.init es) t :=
      fun hm => hsigned _ (signed_of_delivered hpsk hes hleak' (hlast.1 _ hm))
    rw [run_append]
    generalize run State.step State.init es = s at hsigned hdata hdelivered
    have hmono : ∀ {m}, Genuine s m → Genuine (s.step e) m := fun h => h.mono (transition_step s e).grows.1
    have ht := transition_step s e
    show (∀ m ∈ (s.step e).signed, Genuine (s.step e) m) ∧ ∀ t ∈ (s.step e).sessions, Genuine (s.step e) t.data
    generalize s.step e = s' at ht hmono
    cases ht with
    | start mode =>
      refine ⟨fun m hm => ?_, fun session hs => hmono (hdata session hs)⟩
      rcases List.mem_append.mp hm with hm | hm
      · exact hmono (hsigned m hm)
      · exact ⟨mode, _, Or.inl (List.mem_singleton.mp hm)⟩
    | @answer m session hanswer =>
      obtain ⟨rfl, -⟩ := answer_eq_some hanswer
      have hnew := hmono (hdelivered rfl)
      refine ⟨fun m hm => ?_, fun session' hs => ?_⟩
      · rcases List.mem_append.mp hm with hm | hm
        · exact hmono (hsigned m hm)
        · rw [List.mem_singleton.mp hm]
          exact hnew.transcript (List.getElem?_concat_length ..)
      · rcases List.mem_append.mp hs with hs | hs
        · exact hmono (hdata session' hs)
        · rw [List.mem_singleton.mp hs]
          exact hnew
    | _ => exact ⟨fun m hm => hmono (hsigned m hm), fun session hs => hmono (hdata session hs)⟩

/-- Client `i` and session `j` are partners: the session answers to the client's request, in its mode, and they
have one key. -/
structure Partners (s : State) (i : Nat) (mode : Mode) (sid key : Term) (j : Nat) (session : Session) :
    Prop where
  stored : s.sessions[j]? = some session
  sid_eq : sid = .name (.sessionId j)
  mode_eq : session.mode = mode
  data_eq : session.data = terms.clientHello mode i
  reply_eq : session.reply = terms.serverReply mode j (.kemPk (.name (.mlkemSk i)))
  client : key = sharedKey mode i j
  server : session.key = sharedKey mode i j

/-- A client that accepts what the attacker delivers has a partner. -/
theorem partners_of_process (hpsk : ¬A.knows .handshakePsk)
    (hg : Guarded State.step A.Delivers State.init es) (hleak : .leak ∉ es) {i : Nat} {mode : Mode}
    {m sid key : Term} (hm : A.Derives (run State.step State.init es) m)
    (hprocess : process mode i m = some (sid, key)) :
    ∃ j session, Partners (run State.step State.init es) i mode sid key j session := by
  obtain ⟨keys, k, rfl, hsplit, rfl⟩ := process_eq_some hprocess
  have hsigned := signed_of_delivered hpsk hg hleak hm
  obtain ⟨mode', i', heq | ⟨j, session, t, hj, hdata, ht, heq⟩⟩ := (genuine_run hpsk hg hleak).1 _ hsigned
  · exact absurd heq.symm clientHello_ne_append
  · -- The transcript is the client's own data with the reply of the session that answered to them.
    obtain ⟨rfl, rfl, rfl⟩ := clientHello_append_inj heq
    obtain ⟨hmode, hreply, hkey⟩ := (answers_run es hj).of_begins (Or.inl hdata)
    obtain ⟨hsid, hclient⟩ := clientKey_of_begins (hreply ▸ ht) hsplit
    exact ⟨j, session, hj, hsid, hmode, hdata, hreply, hclient, hkey⟩

theorem Partners.mono {s s' : State} {i j : Nat} {mode : Mode} {sid key : Term} {session : Session}
    (h : Partners s i mode sid key j session) (hgrows : s.sessions <+: s'.sessions) :
    Partners s' i mode sid key j session :=
  ⟨Growing.getElem?_prefix hgrows h.stored, h.sid_eq, h.mode_eq, h.data_eq, h.reply_eq, h.client, h.server⟩

theorem exists_partners (hpsk : ¬A.knows .handshakePsk)
    (hg : Guarded State.step A.Delivers State.init es) (hleak : .leak ∉ es) {i : Nat} {mode : Mode}
    {sid key : Term} (hi : (run State.step State.init es).Agreed i mode sid key) :
    ∃ j session, Partners (run State.step State.init es) i mode sid key j session := by
  induction es using List.reverseRecOn with
  | nil => cases hi
  | append_singleton es e ih =>
    obtain ⟨hes, hlast⟩ := guarded_append.mp hg
    have hleak' : Event.leak ∉ es := fun h => hleak (List.mem_append_left _ h)
    rw [run_append] at hi ⊢
    have ht := transition_step (run State.step State.init es) e
    have hpartners : ∃ j session, Partners (run State.step State.init es) i mode sid key j session := by
      rcases ht.agreed_of hi with hold | ⟨m, rfl, hprocess⟩
      · exact ih hes hleak' hold
      · exact partners_of_process hpsk hes hleak' (hlast.1 m rfl) hprocess
    obtain ⟨j, session, h⟩ := hpartners
    exact ⟨j, session, h.mono ht.grows.1⟩

/-- Every session reads the mode and the keys of a client, and has the key that goes with them. -/
theorem exists_client (hpsk : ¬A.knows .handshakePsk)
    (hg : Guarded State.step A.Delivers State.init es) (hleak : .leak ∉ es) {j : Nat} {session : Session}
    (hj : (run State.step State.init es).sessions[j]? = some session) :
    ∃ i, session.data.Begins (terms.clientHello session.mode i) ∧ session.key = sharedKey session.mode i j := by
  obtain ⟨mode, i, hbegins⟩ := ((genuine_run hpsk hg hleak).2 session (List.mem_of_getElem? hj)).begins
  obtain ⟨rfl, -, hkey⟩ := (answers_run es hj).of_begins hbegins
  exact ⟨i, hbegins, hkey⟩

/-- Injective agreement. In every run before the pre-shared key leaks, with an attacker who may know every other
secret of every party and break both key exchanges: a client that has agreed on a key has a session of the
server that answered to its own request, in its mode, with the same key; no two clients share a session; and
every session has read the mode and the keys of a client. -/
theorem injective_agreement (A : Attacker) (hpsk : ¬A.knows .handshakePsk) (es : List Event)
    (hg : Guarded State.step A.Delivers State.init es) (hleak : .leak ∉ es) :
    let s := run State.step State.init es
    (∀ i mode sid key, s.Agreed i mode sid key → ∃ (j : Nat) (session : Session),
      s.sessions[j]? = some session ∧ sid = .name (.sessionId j) ∧ session.mode = mode ∧
        session.data = terms.clientHello mode i ∧ session.key = key) ∧
    (∀ i i' mode mode' sid key key', s.Agreed i mode sid key → s.Agreed i' mode' sid key' → i = i') ∧
    ∀ (j : Nat) (session : Session), s.sessions[j]? = some session →
      ∃ i, session.data.Begins (terms.clientHello session.mode i) ∧
        session.key = sharedKey session.mode i j := by
  intro s
  refine ⟨fun i mode sid key hi => ?_, fun i i' mode mode' sid key key' hi hi' => ?_, fun j session hj => ?_⟩
  · obtain ⟨j, session, h⟩ := exists_partners hpsk hg hleak hi
    exact ⟨j, session, h.stored, h.sid_eq, h.mode_eq, h.data_eq, h.server.trans h.client.symm⟩
  · obtain ⟨j, session, h⟩ := exists_partners hpsk hg hleak hi
    obtain ⟨j', session', h'⟩ := exists_partners hpsk hg hleak hi'
    obtain rfl : j = j' := by
      have hsid := h.sid_eq.symm.trans h'.sid_eq
      injection hsid with hname
      injection hname
    have hsame := Option.some.inj (h.stored.symm.trans h'.stored)
    exact (clientHello_inj (h.data_eq.symm.trans (hsame ▸ h'.data_eq))).2
  · exact exists_client hpsk hg hleak hj

theorem injective_agreement_handshake :
    let A : Attacker := ⟨(· ≠ .handshakePsk), True, True⟩
    let s := run State.step State.init (handshake .hybrid)
    Guarded State.step A.Delivers State.init (handshake .hybrid) ∧ ∃ (j : Nat) (session : Session),
      s.sessions[j]? = some session ∧ Term.name (.sessionId 0) = .name (.sessionId j) ∧ session.mode = .hybrid ∧
        session.data = terms.clientHello .hybrid 0 ∧ session.key = sharedKey .hybrid 0 0 := by
  intro A s
  obtain ⟨hg, hi⟩ := run_handshake A .hybrid
  exact ⟨hg, (injective_agreement A (fun h => h rfl) _ hg (by simp [handshake])).1 0 .hybrid _ _ hi⟩

end Agreement

end HybridPqc.Symbolic
