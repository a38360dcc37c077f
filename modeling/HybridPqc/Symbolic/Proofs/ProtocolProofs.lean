import HybridPqc.Lib.Growing
import HybridPqc.Symbolic.Protocol

/-!
# Steps of the symbolic protocol

What a party accepts, how one step can change the state, and what of a state stays for good.
-/

namespace HybridPqc.Symbolic

open Messages

/-! ## Parts of messages -/

/-- A term that is not a concatenation. -/
def Term.Part (t : Term) : Prop := ∀ a rest, t ≠ .cons a rest

/-- The message is `t`, or something follows `t` in it. -/
def Term.Begins (m t : Term) : Prop := m = t ∨ ∃ rest, m = t.append rest

theorem Term.Part.append {t : Term} (h : t.Part) (rest : Term) : t.append rest = .cons t rest := by
  cases t with
  | cons a rest => exact absurd rfl (h a rest)
  | _ => rfl

theorem Term.Part.first {t m : Term} (h : t.Part) (hm : m.Begins t) : m.first = t := by
  rcases hm with rfl | ⟨rest, rfl⟩
  · cases m with
    | cons a rest => exact absurd rfl (h a rest)
    | _ => rfl
  · rw [h.append]
    rfl

theorem Term.begins_cons {m a t : Term} (h : m.Begins (.cons a t)) : ∃ keys, m = .cons a keys ∧ keys.Begins t := by
  rcases h with rfl | ⟨rest, rfl⟩
  · exact ⟨t, rfl, Or.inl rfl⟩
  · exact ⟨t.append rest, rfl, Or.inr ⟨rest, rfl⟩⟩

theorem Term.Begins.append {m t : Term} (h : m.Begins t) (rest : Term) : (m.append rest).Begins t := by
  rcases h with rfl | ⟨rest', rfl⟩
  · exact Or.inr ⟨rest, rfl⟩
  · exact Or.inr ⟨rest'.append rest, Term.append_assoc _ _ _⟩

/-- The components that the mode uses are `a` and `b`. -/
def Holds (mode : Mode) (k : Term × Term) (a b : Term) : Prop :=
  (mode.usesX25519 = true → k.1 = a) ∧ (mode.usesMlkem = true → k.2 = b)

theorem Holds.combine {mode : Mode} {k : Term × Term} {a b : Term} (h : Holds mode k a b)
    (f g : Term → Term) : terms.combine mode (f k.1) (g k.2) = terms.combine mode (f a) (g b) := by
  obtain ⟨hx, hm⟩ := h
  cases mode with
  | classical => exact congrArg f (hx rfl)
  | pqc => exact congrArg g (hm rfl)
  | hybrid => rw [hx rfl, hm rfl]

/-- Key material is split into its components, whatever follows it. -/
theorem split_of_begins {mode : Mode} {a b keys : Term} (ha : a.Part) (hb : b.Part)
    (h : keys.Begins (terms.combine mode a b)) : ∃ k, split mode keys = some k ∧ Holds mode k a b := by
  cases mode with
  | classical => exact ⟨_, rfl, fun _ => ha.first h, nofun⟩
  | pqc => exact ⟨_, rfl, nofun, fun _ => hb.first h⟩
  | hybrid =>
    have hcons : keys.Begins (.cons a b) := ha.append b ▸ h
    obtain ⟨rest, rfl, hrest⟩ := Term.begins_cons hcons
    exact ⟨_, rfl, fun _ => rfl, fun _ => hb.first hrest⟩

theorem part_x25519Base (k : Term) : (Term.x25519Base k).Part := fun _ _ => nofun

theorem part_kemPk (sk : Term) : (Term.kemPk sk).Part := fun _ _ => nofun

theorem part_kemCt (pk coins : Term) : (Term.kemCt pk coins).Part := fun _ _ => nofun

/-! ## What the parties accept -/

theorem untag_eq_some {signed : Term → Term} {m t : Term} (h : untag signed m = some t) :
    m = terms.tagged t (signed t) := by
  unfold untag at h
  split at h
  · next t' tag hsplit =>
    rw [Option.ite_none_right_eq_some, Option.some.injEq] at h
    obtain ⟨rfl, rfl⟩ := h
    exact Term.append_of_splitLast hsplit
  · cases h

/-- What session `j` of the server holds: the keys at the front of the handshake data, and what follows from
them. -/
structure Answers (j : Nat) (session : Session) : Prop where
  parse : parseHello session.data = some (session.mode, session.x25519Pubkey, session.mlkemPk)
  reply_eq : session.reply = terms.serverReply session.mode j session.mlkemPk
  key_eq : session.key = terms.serverKey session.mode j session.x25519Pubkey session.mlkemPk

/-- The server answers to tagged handshake data. -/
theorem answer_eq_some {j : Nat} {m : Term} {session : Session} (h : answer j m = some session) :
    m = terms.request session.data ∧ Answers j session := by
  obtain ⟨data, htag, hrest⟩ := Option.bind_eq_some_iff.mp h
  obtain ⟨⟨mode, x, p⟩, hparse, heq⟩ := Option.bind_eq_some_iff.mp hrest
  cases heq
  exact ⟨untag_eq_some htag, hparse, rfl, rfl⟩

/-- A client accepts a tagged reply to its own handshake data. -/
theorem process_eq_some {mode : Mode} {i : Nat} {m sid key : Term} (h : process mode i m = some (sid, key)) :
    ∃ keys k, m = terms.response (terms.clientHello mode i) (.cons sid keys) ∧ split mode keys = some k ∧
      key = terms.clientKey mode i k.1 k.2 := by
  obtain ⟨reply, htag, hrest⟩ := Option.bind_eq_some_iff.mp h
  obtain rfl := untag_eq_some htag
  cases reply with
  | cons sid' keys =>
    obtain ⟨k, hsplit, heq⟩ := Option.map_eq_some_iff.mp hrest
    cases heq
    exact ⟨keys, k, rfl, hsplit, rfl⟩
  | _ => cases hrest

/-- The server acknowledges what is encrypted under the key of the session. -/
theorem opens_eq_some {sessions : List Session} {m key : Term} {j : Nat} (h : opens sessions m = some (j, key)) :
    ∃ c session, m = .cons (.name (.sessionId j)) c ∧ sessions[j]? = some session ∧ session.key = key := by
  unfold opens at h
  split at h
  · split at h
    · next session hstored =>
      split_ifs at h with hkey
      cases h
      exact ⟨_, session, rfl, hstored, hkey⟩
    · cases h
  · cases h

/-! ## Handshake data of clients -/

/-- The mode and the keys of a client are read off data that begin with its handshake data. -/
theorem parseHello_of_begins {data : Term} {mode : Mode} {i : Nat}
    (h : data.Begins (terms.clientHello mode i)) : ∃ k, parseHello data = some (mode, k) ∧
      Holds mode k (.x25519Base (.name (.clientPrivkey i))) (.kemPk (.name (.mlkemSk i))) := by
  obtain ⟨keys, rfl, hkeys⟩ := Term.begins_cons h
  obtain ⟨k, hsplit, hk⟩ := split_of_begins (part_x25519Base _) (part_kemPk _) hkeys
  refine ⟨k, ?_, hk⟩
  rw [parseHello, hsplit, Option.map_some]

/-- A session whose data begin with the handshake data of a client answers to that client. -/
theorem Answers.of_begins {j : Nat} {session : Session} (h : Answers j session) {mode : Mode} {i : Nat}
    (hdata : session.data.Begins (terms.clientHello mode i)) : session.mode = mode ∧
      session.reply = terms.serverReply mode j (.kemPk (.name (.mlkemSk i))) ∧ session.key = sharedKey mode i j := by
  obtain ⟨k, hparse, hk⟩ := parseHello_of_begins hdata
  obtain ⟨hmode, hkeys⟩ := Prod.mk.inj (Option.some.inj (h.parse.symm.trans hparse))
  obtain rfl := hkeys
  refine ⟨hmode, ?_, ?_⟩
  · rw [h.reply_eq, hmode]
    exact congrArg (Term.append _) (hk.combine (fun _ => _) fun p => .kemCt p _)
  · rw [h.key_eq, hmode]
    exact congrArg Term.hkdf (hk.combine (Term.x25519 _) fun p => .kemSs p _)

/-- A client that reads the reply of such a session has the session's key. -/
theorem clientKey_of_begins {mode : Mode} {i j : Nat} {sid keys : Term} {k : Term × Term}
    (hreply : (Term.cons sid keys).Begins (terms.serverReply mode j (.kemPk (.name (.mlkemSk i)))))
    (hsplit : split mode keys = some k) :
    sid = .name (.sessionId j) ∧ terms.clientKey mode i k.1 k.2 = sharedKey mode i j := by
  obtain ⟨keys', heq, hkeys⟩ := Term.begins_cons hreply
  obtain ⟨rfl, rfl⟩ := Term.cons.inj heq
  obtain ⟨k', hsplit', hk⟩ := split_of_begins (part_x25519Base _) (part_kemCt _ _) hkeys
  obtain rfl := Option.some.inj (hsplit.symm.trans hsplit')
  refine ⟨rfl, ?_⟩
  rw [sharedKey, ← lawful_terms.clientKey_eq mode i j]
  exact congrArg Term.hkdf (hk.combine (Term.x25519 _) fun p => Term.kemDec p _)

/-- The handshake data of a client determine it and what follows them. -/
theorem clientHello_append_inj {mode mode' : Mode} {i i' : Nat} {t t' : Term}
    (h : (terms.clientHello mode i).append t = (terms.clientHello mode' i').append t') :
    mode = mode' ∧ i = i' ∧ t = t' := by
  obtain ⟨hmode, hkeys⟩ := Term.cons.inj h
  obtain rfl := Name.mode.inj (Term.name.inj hmode)
  cases mode <;> simpa [combine, Term.append] using hkeys

theorem clientHello_inj {mode mode' : Mode} {i i' : Nat}
    (h : terms.clientHello mode i = terms.clientHello mode' i') : mode = mode' ∧ i = i' := by
  have happend : ∀ t, (terms.clientHello mode i).append t = (terms.clientHello mode' i').append t := by
    rw [h]
    exact fun _ => rfl
  obtain ⟨hmode, hi, -⟩ := clientHello_append_inj (happend (terms.clientHello mode i))
  exact ⟨hmode, hi⟩

/-- No handshake data of a client extend those of another. -/
theorem clientHello_ne_append {mode mode' : Mode} {i i' : Nat} {t : Term} :
    terms.clientHello mode' i' ≠ (terms.clientHello mode i).append t := by
  intro h
  obtain ⟨hmode, hkeys⟩ := Term.cons.inj h
  obtain rfl := Name.mode.inj (Term.name.inj hmode)
  cases mode' <;> simp [combine, Term.append] at hkeys

/-! ## What a step does -/

namespace State

/-- The steps: every way in which a state changes. -/
inductive Transition (s : State) : Event → State → Prop where
  | idle (e : Event) : s.Transition e s
  | start (mode : Mode) : s.Transition (.start mode) (s.onStart mode)
  | answer {m : Term} {session : Session} (h : answer s.sessions.length m = some session) :
    s.Transition (.request m) { s with
      sessions := s.sessions ++ [session]
      network := s.network ++ [terms.response session.data session.reply]
      signed := s.signed ++ [session.data.append session.reply] }
  | receive {i : Nat} {mode : Mode} (h : s.clients[i]? = some ⟨mode, .waiting⟩) (m : Term) :
    s.Transition (.response i m) { s with clients := s.clients.set i ⟨mode, outcome mode i m⟩ }
  | packet {i : Nat} {mode : Mode} {sid key : Term} (h : s.Agreed i mode sid key) (iv d : Nat) :
    s.Transition (.send i iv d) { s with
      network := s.network ++ [terms.telemetry sid key (.name (.iv iv)) (.name (.payload d))] }
  | ack {m key : Term} {j : Nat} (h : opens s.sessions m = some (j, key)) (iv d : Nat) :
    s.Transition (.telemetry m iv d) { s with
      network := s.network ++ [.gcm key (.name (.iv iv)) (.name (.payload d))] }
  | leak : s.Transition .leak { s with network := s.network ++ [.name .handshakePsk], leaked := true }

theorem transition_step (s : State) (e : Event) : s.Transition e (s.step e) := by
  cases e with
  | start mode => exact .start mode
  | leak => exact .leak
  | request m =>
    simp only [step, onRequest]
    split
    · exact .idle _
    · next h => exact .answer h
  | response i m =>
    simp only [step, onResponse]
    split
    · next h => exact .receive h m
    · exact .idle _
  | send i iv d =>
    simp only [step, onSend]
    split
    · next h => exact .packet h iv d
    · exact .idle _
  | telemetry m iv d =>
    simp only [step, onTelemetry]
    split
    · exact .idle _
    · next h => exact .ack h iv d

variable {s s' : State} {e : Event}

/-- The sessions of the server and the signed messages only grow. -/
theorem Transition.grows (h : s.Transition e s') : s.sessions <+: s'.sessions ∧ s.signed <+: s'.signed := by
  cases h with
  | start mode => exact ⟨List.prefix_rfl, List.prefix_append _ _⟩
  | answer h => exact ⟨List.prefix_append _ _, List.prefix_append _ _⟩
  | _ => exact ⟨List.prefix_rfl, List.prefix_rfl⟩

/-- A client that has agreed on a key keeps it. -/
theorem Transition.agreed (h : s.Transition e s') {i : Nat} {mode : Mode} {sid key : Term}
    (hi : s.Agreed i mode sid key) : s'.Agreed i mode sid key := by
  cases h with
  | start mode' => exact Growing.getElem?_append hi _
  | @receive j mode' hwaiting m =>
    have hij : j ≠ i := by
      rintro rfl
      rw [hi] at hwaiting
      cases hwaiting
    show (s.clients.set j _)[i]? = _
    rw [List.getElem?_set_ne hij, hi]
  | _ => exact hi

/-- A client that has agreed after a step agreed before it, or has accepted the message of the step. -/
theorem Transition.agreed_of (h : s.Transition e s') {i : Nat} {mode : Mode} {sid key : Term}
    (hi : s'.Agreed i mode sid key) :
    s.Agreed i mode sid key ∨ ∃ m, e = .response i m ∧ process mode i m = some (sid, key) := by
  cases h with
  | start mode' =>
    rcases Growing.getElem?_concat hi with hi | ⟨-, heq⟩
    · exact Or.inl hi
    · cases heq
  | @receive j mode' hwaiting m =>
    by_cases hij : j = i
    · subst hij
      have hlt := (List.getElem?_eq_some_iff.mp hwaiting).1
      have hset : (s.clients.set j ⟨mode', outcome mode' j m⟩)[j]? = some ⟨mode, .agreed sid key⟩ := hi
      rw [List.getElem?_set_self hlt, Option.some.injEq, Client.mk.injEq] at hset
      obtain ⟨rfl, hout⟩ := hset
      refine Or.inr ⟨m, rfl, ?_⟩
      unfold outcome at hout
      split at hout
      · cases hout
      · next hprocess =>
        cases hout
        exact hprocess
    · have hset : (s.clients.set j ⟨mode', outcome mode' j m⟩)[i]? = some ⟨mode, .agreed sid key⟩ := hi
      rw [List.getElem?_set_ne hij] at hset
      exact Or.inl hset
  | _ => exact Or.inl hi

end State

/-! ## Runs -/

open GuardedRuns State

theorem grows_run (s : State) (es : List Event) : s.sessions <+: (run State.step s es).sessions ∧
    s.signed <+: (run State.step s es).signed := by
  induction es generalizing s with
  | nil => exact ⟨List.prefix_rfl, List.prefix_rfl⟩
  | cons e es ih =>
    obtain ⟨hsessions, hsigned⟩ := (transition_step s e).grows
    obtain ⟨hsessions', hsigned'⟩ := ih (s.step e)
    exact ⟨hsessions.trans hsessions', hsigned.trans hsigned'⟩

theorem agreed_run {s : State} {i : Nat} {mode : Mode} {sid key : Term}
    (h : s.Agreed i mode sid key) (es : List Event) : (run State.step s es).Agreed i mode sid key := by
  induction es generalizing s with
  | nil => exact h
  | cons e es ih => exact ih ((transition_step s e).agreed h)

/-- Every session of a run answers to its handshake data. -/
theorem answers_run (es : List Event) {j : Nat} {session : Session}
    (hj : (run State.step State.init es).sessions[j]? = some session) : Answers j session := by
  have hstep : ∀ (s : State) (e : Event),
      (∀ (j : Nat) (session : Session), s.sessions[j]? = some session → Answers j session) →
      ∀ (j : Nat) (session : Session), (s.step e).sessions[j]? = some session → Answers j session := by
    intro s e hs j session hj
    have ht := transition_step s e
    generalize s.step e = s' at ht hj
    cases ht with
    | answer hanswer =>
      rcases Growing.getElem?_concat hj with hj | ⟨rfl, rfl⟩
      · exact hs j session hj
      · exact (answer_eq_some hanswer).2
    | _ => exact hs j session hj
  exact run_invariant hstep (s := State.init) (fun _ _ => nofun) es j session hj

/-- The handshake messages of clients and sessions are on the network. -/
structure Published (s : State) : Prop where
  request : ∀ (i : Nat) (c : Client), s.clients[i]? = some c →
    terms.request (terms.clientHello c.mode i) ∈ s.network
  response : ∀ (j : Nat) (session : Session), s.sessions[j]? = some session →
    terms.response session.data session.reply ∈ s.network

theorem Published.init : Published State.init := ⟨by simp [State.init], by simp [State.init]⟩

theorem Published.step {s s' : State} {e : Event} (h : Published s) (ht : s.Transition e s') : Published s' := by
  have hnetwork : ∀ {t m : Term}, m ∈ s.network → m ∈ s.network ++ [t] := fun hm => List.mem_append_left _ hm
  cases ht with
  | idle => exact h
  | start mode =>
    refine ⟨fun i c hi => ?_, fun j session hj => hnetwork (h.response j session hj)⟩
    rcases Growing.getElem?_concat hi with hi | ⟨rfl, rfl⟩
    · exact hnetwork (h.request i c hi)
    · exact List.mem_append_right _ (by simp)
  | answer hanswer =>
    refine ⟨fun i c hi => hnetwork (h.request i c hi), fun j session hj => ?_⟩
    rcases Growing.getElem?_concat hj with hj | ⟨-, rfl⟩
    · exact hnetwork (h.response j session hj)
    · exact List.mem_append_right _ (by simp)
  | @receive j mode hwaiting m =>
    refine ⟨fun i c hi => ?_, h.response⟩
    by_cases hij : j = i
    · subst hij
      have hset : (s.clients.set j ⟨mode, outcome mode j m⟩)[j]? = some c := hi
      rw [List.getElem?_set_self (List.getElem?_eq_some_iff.mp hwaiting).1] at hset
      cases hset
      exact h.request j ⟨mode, .waiting⟩ hwaiting
    · have hset : (s.clients.set j ⟨mode, outcome mode j m⟩)[i]? = some c := hi
      rw [List.getElem?_set_ne hij] at hset
      exact h.request i c hset
  | packet => exact ⟨fun i c hi => hnetwork (h.request i c hi), fun j t hj => hnetwork (h.response j t hj)⟩
  | ack => exact ⟨fun i c hi => hnetwork (h.request i c hi), fun j t hj => hnetwork (h.response j t hj)⟩
  | leak => exact ⟨fun i c hi => hnetwork (h.request i c hi), fun j t hj => hnetwork (h.response j t hj)⟩

theorem Published.run (es : List Event) : Published (run State.step State.init es) :=
  run_invariant (fun s e h => h.step (transition_step s e)) Published.init es

/-! ## An undisturbed handshake -/

theorem untag_tagged {signed : Term → Term} {t : Term}
    (h : Term.splitLast (terms.tagged t (signed t)) = some (t, .hmac (.name .handshakePsk) (signed t))) :
    untag signed (terms.tagged t (signed t)) = some t := by
  rw [untag, h]
  exact if_pos rfl

/-- The server answers to the request of a client. -/
theorem answer_request (mode : Mode) (i j : Nat) :
    ∃ session, answer j (terms.request (terms.clientHello mode i)) = some session ∧
      session.data = terms.clientHello mode i := by
  obtain ⟨⟨x, p⟩, hparse, -⟩ := parseHello_of_begins (Or.inl rfl : (terms.clientHello mode i).Begins _)
  have huntag : untag (fun data => data) (terms.request (terms.clientHello mode i)) =
      some (terms.clientHello mode i) := by
    refine untag_tagged ?_
    cases mode <;> rfl
  refine ⟨⟨terms.clientHello mode i, mode, x, p, terms.serverReply mode j p, terms.serverKey mode j x p⟩, ?_, rfl⟩
  rw [answer, huntag]
  simp only [Option.bind_eq_bind, Option.bind_some, hparse]

/-- The client accepts the reply of the server. -/
theorem process_response (mode : Mode) (i j : Nat) :
    process mode i (terms.response (terms.clientHello mode i)
      (terms.serverReply mode j (.kemPk (.name (.mlkemSk i))))) =
        some (.name (.sessionId j), sharedKey mode i j) := by
  set reply := terms.serverReply mode j (.kemPk (.name (.mlkemSk i))) with hreply
  have huntag : untag (fun reply => (terms.clientHello mode i).append reply)
      (terms.response (terms.clientHello mode i) reply) = some reply := by
    refine untag_tagged ?_
    rw [hreply]
    cases mode <;> rfl
  have hbegins : (terms.combine mode (.x25519Base (.name (.serverPrivkey j)))
      (.kemCt (.kemPk (.name (.mlkemSk i))) (.name (.coins j)))).Begins (terms.combine mode _ _) := Or.inl rfl
  obtain ⟨k, hsplit, -⟩ := split_of_begins (part_x25519Base _) (part_kemCt _ _) hbegins
  obtain ⟨-, hkey⟩ := clientKey_of_begins (Or.inl rfl) hsplit
  rw [process, huntag]
  simp only [Option.bind_eq_bind, Option.bind_some, hreply, serverReply, Term.append, hsplit, Option.map_some,
    hkey]

/-- A message that is on the network can be delivered. -/
theorem delivers_of_mem {A : Attacker} {s : State} {e : Event} (h : ∀ m, e.received = some m → m ∈ s.network) :
    A.Delivers s e := fun m hm => .known (h m hm)

/-- An undisturbed handshake ends in agreement. -/
theorem run_handshake (A : Attacker) (mode : Mode) :
    Guarded State.step A.Delivers State.init (handshake mode) ∧
      (run State.step State.init (handshake mode)).Agreed 0 mode (.name (.sessionId 0)) (sharedKey mode 0 0) := by
  obtain ⟨session, hanswer, hdata⟩ := answer_request mode 0 0
  obtain ⟨-, hreply, -⟩ := (answer_eq_some hanswer).2.of_begins (Or.inl hdata)
  set hello := terms.clientHello mode 0 with hhello
  set reply := terms.serverReply mode 0 (.kemPk (.name (.mlkemSk 0))) with hreply'
  have hstart : State.init.step (.start mode) =
      ⟨[⟨mode, .waiting⟩], [], [terms.request hello], [hello], false⟩ := rfl
  have hrequest : (State.init.step (.start mode)).step (.request (terms.request hello)) =
      ⟨[⟨mode, .waiting⟩], [session], [terms.request hello, terms.response hello reply],
        [hello, hello.append reply], false⟩ := by
    rw [hstart]
    simp only [State.step, onRequest, List.length_nil, hanswer, hdata, hreply, List.nil_append, List.cons_append]
  refine ⟨⟨delivers_of_mem nofun, delivers_of_mem ?_, delivers_of_mem ?_, trivial⟩, ?_⟩
  · rintro m ⟨⟩
    rw [hstart]
    exact List.mem_singleton_self _
  · rintro m ⟨⟩
    rw [hrequest]
    exact List.mem_cons_of_mem _ (List.mem_singleton_self _)
  · rw [handshake, run_cons, run_cons, run_cons, run_nil, hrequest]
    simp only [State.step, onResponse, List.getElem?_cons_zero, outcome, hreply', hhello, process_response,
      List.set_cons_zero]
    rfl

end HybridPqc.Symbolic
