import HybridPqc.Symbolic.Proofs.AgreementProofs

/-!
# Secrecy of session keys and payloads

A session key stays secret as long as one of the two key exchanges behind it holds, also after the pre-shared
key has leaked and however many other sessions are given away; so does what is sent under it.
-/

namespace HybridPqc.Symbolic

open Messages GuardedRuns State

variable {A : Attacker}

/-- One of the two components of the key of client `i` and session `j` is out of reach: the curve is not broken and
neither private key is known, or ML-KEM is not broken and neither secret is known. -/
def Attacker.Spares (A : Attacker) (mode : Mode) (i j : Nat) : Prop :=
  mode.usesX25519 = true ∧ ¬A.breaksX25519 ∧ ¬A.knows (.clientPrivkey i) ∧ ¬A.knows (.serverPrivkey j) ∨
    mode.usesMlkem = true ∧ ¬A.breaksMlkem ∧ ¬A.knows (.mlkemSk i) ∧ ¬A.knows (.coins j)

/-- Everything is public but the secrets that the attacker can neither know nor compute, and the payloads in
`secret`. -/
def disclosed (A : Attacker) (secret : Nat → Prop) : Name → Prop
  | .clientPrivkey i => A.breaksX25519 ∨ A.knows (.clientPrivkey i)
  | .serverPrivkey j => A.breaksX25519 ∨ A.knows (.serverPrivkey j)
  | .mlkemSk i => A.breaksMlkem ∨ A.knows (.mlkemSk i)
  | .coins j => A.breaksMlkem ∨ A.knows (.coins j)
  | .payload d => ¬secret d
  | _ => True

theorem discloses_disclosed {secret : Nat → Prop} (hsecret : ∀ d, secret d → ¬A.knows (.payload d)) :
    Discloses A (disclosed A secret) where
  knows n hn := by
    cases n with
    | clientPrivkey i => exact Or.inr hn
    | serverPrivkey j => exact Or.inr hn
    | mlkemSk i => exact Or.inr hn
    | coins j => exact Or.inr hn
    | payload d => exact fun hd => hsecret d hd hn
    | _ => trivial
  mode _ := trivial
  sessionId _ := trivial
  iv _ := trivial
  clientPrivkey h _ := Or.inl h
  serverPrivkey h _ := Or.inl h
  mlkemSk h _ := Or.inl h
  coins h _ := Or.inl h

theorem safe_combine {pub : Name → Prop} {signed : Term → Prop} {mode : Mode} {a b : Term}
    (h : Safe A pub signed (terms.combine mode a b)) :
    (mode.usesX25519 = true → Safe A pub signed a) ∧ (mode.usesMlkem = true → Safe A pub signed b) := by
  cases mode with
  | classical => exact ⟨fun _ => h, nofun⟩
  | pqc => exact ⟨nofun, fun _ => h⟩
  | hybrid =>
    obtain ⟨hx, hm⟩ := (safe_append a b).mp h
    exact ⟨fun _ => hx, fun _ => hm⟩

/-- A key with a component that is out of reach is not safe. -/
theorem not_safe_sharedKey {mode : Mode} {i j : Nat} (h : A.Spares mode i j) {secret : Nat → Prop}
    {signed : Term → Prop} : ¬Safe A (disclosed A secret) signed (sharedKey mode i j) := by
  intro hsafe
  rw [sharedKey, serverKey, Safe] at hsafe
  obtain ⟨hx, hm⟩ := safe_combine hsafe
  rcases h with ⟨hmode, hbreaks, hclient, hserver⟩ | ⟨hmode, hbreaks, hsk, hcoins⟩
  · have hsecret := hx hmode
    rw [safe_x25519] at hsecret
    rcases hsecret with ⟨hj | hj, -⟩ | ⟨hi | hi, -⟩
    · exact hbreaks hj
    · exact hserver hj
    · exact hbreaks hi
    · exact hclient hi
  · rcases hm hmode with (hj | hj) | (hi | hi)
    · exact hbreaks hj
    · exact hcoins hj
    · exact hbreaks hi
    · exact hsk hi

/-- All that is sent stays safe if a secret payload only goes out under keys that are not. -/
theorem exposed_disclosed {secret : Nat → Prop} (hsecret : ∀ d, secret d → ¬A.knows (.payload d))
    {es : List Event} (hg : Guarded State.step A.Delivers State.init es)
    (hsend : ∀ p q i iv d mode sid key, es = p ++ .send i iv d :: q → secret d →
      (run State.step State.init p).Agreed i mode sid key →
      ¬Safe A (disclosed A secret) (fun _ => True) key)
    (hack : ∀ p q m iv d j key, es = p ++ .telemetry m iv d :: q → secret d →
      opens (run State.step State.init p).sessions m = some (j, key) →
      ¬Safe A (disclosed A secret) (fun _ => True) key) :
    Exposed A (disclosed A secret) (fun _ => True) (run State.step State.init es) := by
  have hd := discloses_disclosed hsecret
  refine Deduction.run_closed (closed_safe hd.knows) (fun s h => h.network) Exposed.init hg ?_
  intro p e q heq hp hreceived
  refine hp.step hd (transition_step _ e) hreceived (fun _ _ => trivial) (fun _ => trivial) ?_ ?_
  · rintro i iv d mode sid key rfl hi hsafe hsec
    exact hsend p q i iv d mode sid key heq hsec hi hsafe
  · rintro m iv d j key rfl hopens hsafe hsec
    exact hack p q m iv d j key heq hsec hopens hsafe

/-! ## What an attacker computes who has both components -/

section Attack

variable {s : State} {i j : Nat} {session : Session}

theorem derives_one {K : Set Term} {p m : Term} (hp : Deduction.Derives A.Infers K p)
    (hr : A.Infers [p] m) : Deduction.Derives A.Infers K m := .infer hr (by simpa using hp)

theorem derives_two {K : Set Term} {p p' m : Term} (hp : Deduction.Derives A.Infers K p)
    (hp' : Deduction.Derives A.Infers K p') (hr : A.Infers [p, p'] m) : Deduction.Derives A.Infers K m :=
  .infer hr (by simpa using ⟨hp, hp'⟩)

theorem derives_name {K : Set Term} {n : Name} (h : A.knows n) : Deduction.Derives A.Infers K (.name n) :=
  .infer (.name h) (by simp)

theorem derives_append {K : Set Term} {a rest : Term} (ha : a.Part)
    (h : Deduction.Derives A.Infers K (a.append rest)) :
    Deduction.Derives A.Infers K a ∧ Deduction.Derives A.Infers K rest := by
  rw [ha.append] at h
  exact ⟨derives_one h (.first a rest), derives_one h (.rest a rest)⟩

/-- The components at the front of key material can be read off. -/
theorem derives_components {K : Set Term} {mode : Mode} {a b rest : Term} (ha : a.Part) (hb : b.Part)
    (h : Deduction.Derives A.Infers K ((terms.combine mode a b).append rest)) :
    (mode.usesX25519 = true → Deduction.Derives A.Infers K a) ∧
      (mode.usesMlkem = true → Deduction.Derives A.Infers K b) := by
  cases mode with
  | classical => exact ⟨fun _ => (derives_append ha h).1, nofun⟩
  | pqc => exact ⟨nofun, fun _ => (derives_append hb h).1⟩
  | hybrid =>
    rw [combine, Term.append_assoc] at h
    obtain ⟨hx, hkeys⟩ := derives_append ha h
    exact ⟨fun _ => hx, fun _ => (derives_append hb hkeys).1⟩

theorem derives_combine {K : Set Term} {mode : Mode} {a b : Term}
    (ha : mode.usesX25519 = true → Deduction.Derives A.Infers K a)
    (hb : mode.usesMlkem = true → Deduction.Derives A.Infers K b) :
    Deduction.Derives A.Infers K (terms.combine mode a b) := by
  cases mode with
  | classical => exact ha rfl
  | pqc => exact hb rfl
  | hybrid => exact derives_two (ha rfl) (hb rfl) (.append a b)

/-- The public keys of a client. -/
theorem derives_request {mode : Mode} {status : ClientStatus} (hpub : Published s)
    (hi : s.clients[i]? = some ⟨mode, status⟩) :
    (mode.usesX25519 = true → A.Derives s (.x25519Base (.name (.clientPrivkey i)))) ∧
      (mode.usesMlkem = true → A.Derives s (.kemPk (.name (.mlkemSk i)))) := by
  have hrequest : A.Derives s (terms.request (terms.clientHello mode i)) := .known (hpub.request i _ hi)
  exact derives_components (part_x25519Base _) (part_kemPk _) (derives_one hrequest (.rest _ _))

/-- The key material of the session that answers to it. -/
theorem derives_response {mode : Mode} {sid key : Term} (hpub : Published s)
    (h : Partners s i mode sid key j session) :
    (mode.usesX25519 = true → A.Derives s (.x25519Base (.name (.serverPrivkey j)))) ∧
      (mode.usesMlkem = true → A.Derives s (.kemCt (.kemPk (.name (.mlkemSk i))) (.name (.coins j)))) := by
  have hresponse : A.Derives s (terms.response session.data session.reply) :=
    .known (hpub.response j session h.stored)
  rw [h.reply_eq] at hresponse
  exact derives_components (part_x25519Base _) (part_kemCt _ _) (derives_one hresponse (.rest _ _))

/-- The X25519 secret, for an attacker who breaks the curve or knows a private key. -/
theorem derives_x25519 {K : Set Term}
    (hc : Deduction.Derives A.Infers K (.x25519Base (.name (.clientPrivkey i))))
    (hs : Deduction.Derives A.Infers K (.x25519Base (.name (.serverPrivkey j))))
    (h : A.breaksX25519 ∨ A.knows (.clientPrivkey i) ∨ A.knows (.serverPrivkey j)) :
    Deduction.Derives A.Infers K
      (Term.x25519 (.name (.serverPrivkey j)) (.x25519Base (.name (.clientPrivkey i)))) := by
  rcases h with h | h | h
  · exact derives_two (derives_one hs (.logBase h _)) hc (.x25519 _ _)
  · rw [Term.x25519_comm]
    exact derives_two (derives_name h) hs (.x25519 _ _)
  · exact derives_two (derives_name h) hc (.x25519 _ _)

/-- The ML-KEM secret, for an attacker who breaks the scheme or knows the secret key or the coins. -/
theorem derives_kemSs {K : Set Term} (hc : Deduction.Derives A.Infers K (.kemPk (.name (.mlkemSk i))))
    (hs : Deduction.Derives A.Infers K (.kemCt (.kemPk (.name (.mlkemSk i))) (.name (.coins j))))
    (h : A.breaksMlkem ∨ A.knows (.mlkemSk i) ∨ A.knows (.coins j)) :
    Deduction.Derives A.Infers K (.kemSs (.kemPk (.name (.mlkemSk i))) (.name (.coins j))) := by
  rcases h with h | h | h
  · exact derives_two hc (derives_one hs (.coins h _ _)) (.kemSs _ _)
  · rw [← Term.kemDec_kemCt]
    exact derives_two hs (derives_name h) (.kemDec _ _)
  · exact derives_two hc (derives_name h) (.kemSs _ _)

/-- If no component is out of reach, the key is not either. -/
theorem derives_sharedKey {mode : Mode} {sid key : Term} (hpub : Published s)
    (hi : s.Agreed i mode sid key) (h : Partners s i mode sid key j session) (hspares : ¬A.Spares mode i j) :
    A.Derives s (sharedKey mode i j) := by
  obtain ⟨hcx, hcm⟩ := derives_request (A := A) hpub hi
  obtain ⟨hsx, hsm⟩ := derives_response (A := A) hpub h
  have hx : mode.usesX25519 = true → A.Derives s
      (Term.x25519 (.name (.serverPrivkey j)) (.x25519Base (.name (.clientPrivkey i)))) := by
    intro hmode
    refine derives_x25519 (hcx hmode) (hsx hmode) ?_
    by_contra hno
    simp only [not_or] at hno
    exact hspares (Or.inl ⟨hmode, hno⟩)
  have hm : mode.usesMlkem = true → A.Derives s
      (.kemSs (.kemPk (.name (.mlkemSk i))) (.name (.coins j))) := by
    intro hmode
    refine derives_kemSs (hcm hmode) (hsm hmode) ?_
    by_contra hno
    simp only [not_or] at hno
    exact hspares (Or.inr ⟨hmode, hno⟩)
  rw [sharedKey, serverKey]
  exact derives_one (derives_combine hx hm) (.hkdf _)

end Attack

/-! ## The two results -/

theorem not_derives_sharedKey {es : List Event} (hg : Guarded State.step A.Delivers State.init es) {mode : Mode}
    {i j : Nat} (hspares : A.Spares mode i j) :
    ¬A.Derives (run State.step State.init es) (sharedKey mode i j) := by
  intro hderives
  -- No payload has to be kept secret here.
  have hnone : ∀ d : Nat, False → ¬A.knows (.payload d) := fun _ => nofun
  have hexposed := exposed_disclosed hnone hg (fun _ _ _ _ _ _ _ _ _ => nofun) (fun _ _ _ _ _ _ _ _ => nofun)
  have hsafe := hderives.mem (closed_safe (discloses_disclosed hnone).knows) hexposed.network
  exact not_safe_sharedKey hspares hsafe

/-- Session keys. When a client has agreed on a key before the pre-shared key leaked, the attacker can derive it, at
any time later and with the pre-shared key, if and only if no component of it is out of reach: in hybrid mode it has
to break both key exchanges of this very session. -/
theorem session_key_secret (A : Attacker) (hpsk : ¬A.knows .handshakePsk) (es es' : List Event)
    (hg : Guarded State.step A.Delivers State.init (es ++ es')) (hleak : .leak ∉ es) (i : Nat) (mode : Mode)
    (sid key : Term) (hi : (run State.step State.init es).Agreed i mode sid key) :
    ∃ j, sid = .name (.sessionId j) ∧
      (A.Derives (run State.step State.init (es ++ es')) key ↔ ¬A.Spares mode i j) := by
  obtain ⟨j, session, h⟩ := exists_partners hpsk (guarded_append.mp hg).1 hleak hi
  refine ⟨j, h.sid_eq, ?_⟩
  rw [h.client]
  constructor
  · exact fun hderives hspares => not_derives_sharedKey hg hspares hderives
  · intro hspares
    have hgrows := (grows_run (run State.step State.init es) es').1
    rw [← run_append] at hgrows
    have hi' := agreed_run hi es'
    rw [← run_append] at hi'
    exact derives_sharedKey (Published.run _) hi' (h.mono hgrows) hspares

/-- A later leak and broken X25519 do not reveal the key of a hybrid handshake. -/
theorem session_key_secret_leaked : let A : Attacker := ⟨fun _ => False, True, False⟩
    ¬A.Derives (run State.step State.init (handshake .hybrid ++ [.leak])) (sharedKey .hybrid 0 0) := by
  intro A
  obtain ⟨hg, hi⟩ := run_handshake A .hybrid
  have hg' : Guarded State.step A.Delivers State.init (handshake .hybrid ++ [.leak]) :=
    guarded_append.mpr ⟨hg, delivers_of_mem nofun, trivial⟩
  obtain ⟨j, -, hiff⟩ :=
    session_key_secret A id (handshake .hybrid) [.leak] hg' (by simp [handshake]) 0 .hybrid _ _ hi
  have hspares : A.Spares .hybrid 0 j := Or.inr ⟨rfl, id, id, id⟩
  exact fun hderives => hiff.mp hderives hspares

/-- Payloads. What clients and sessions only send if their key was agreed on before the pre-shared key leaked, and a
component of it is out of reach, is never derivable. -/
theorem payload_secret (A : Attacker) (hpsk : ¬A.knows .handshakePsk) (es es' : List Event)
    (hg : Guarded State.step A.Delivers State.init (es ++ es')) (hleak : .leak ∉ es) (d : Nat)
    (hd : ¬A.knows (.payload d))
    (hsend : ∀ i iv, Event.send i iv d ∈ es ++ es' →
      ∀ mode sid key, (run State.step State.init (es ++ es')).Agreed i mode sid key →
        (run State.step State.init es).Agreed i mode sid key ∧
          ∀ j, sid = .name (.sessionId j) → A.Spares mode i j)
    (hack : ∀ j c iv, Event.telemetry (.cons (.name (.sessionId j)) c) iv d ∈ es ++ es' →
      ∀ session : Session, (run State.step State.init (es ++ es')).sessions[j]? = some session →
        (run State.step State.init es).sessions[j]? = some session ∧
          ∀ i, session.data.Begins (terms.clientHello session.mode i) → A.Spares session.mode i j) :
    ¬A.Derives (run State.step State.init (es ++ es')) (.name (.payload d)) := by
  intro hderives
  have hes := (guarded_append.mp hg).1
  have hsecret : ∀ d', d' = d → ¬A.knows (.payload d') := fun d' h => h ▸ hd
  have hexposed : Exposed A (disclosed A (· = d)) (fun _ => True) (run State.step State.init (es ++ es')) := by
    refine exposed_disclosed hsecret hg ?_ ?_
    · rintro p q i iv d' mode sid key heq rfl hi hsafe
      -- The client keeps what it has agreed on until the end of the run.
      have hlast := agreed_run hi (.send i iv d' :: q)
      rw [← run_append, ← heq] at hlast
      obtain ⟨hagreed, hspares⟩ := hsend i iv (by rw [heq]; simp) mode sid key hlast
      obtain ⟨j, session, h⟩ := exists_partners hpsk hes hleak hagreed
      rw [h.client] at hsafe
      exact not_safe_sharedKey (hspares j h.sid_eq) hsafe
    · rintro p q m iv d' j key heq rfl hopens hsafe
      obtain ⟨c, session, hm, hstored, hkey⟩ := opens_eq_some hopens
      have hgrows := (grows_run (run State.step State.init p) (.telemetry m iv d' :: q)).1
      rw [← run_append, ← heq] at hgrows
      obtain ⟨hstored', hspares⟩ := hack j c iv (by rw [heq, hm]; simp) session
        (Growing.getElem?_prefix hgrows hstored)
      obtain ⟨i, hbegins, hshared⟩ := exists_client hpsk hes hleak hstored'
      rw [← hkey, hshared] at hsafe
      exact not_safe_sharedKey (hspares i hbegins) hsafe
  have hdis := discloses_disclosed hsecret
  exact (hderives.mem (closed_safe hdis.knows) hexposed.network : ¬d = d) rfl

theorem payload_secret_leaked : let A : Attacker := ⟨fun _ => False, True, False⟩
    ¬A.Derives (run State.step State.init (handshake .hybrid ++ [.leak, .send 0 0 0])) (.name (.payload 0)) := by
  intro A
  obtain ⟨hg, hi⟩ := run_handshake A .hybrid
  have hg' : Guarded State.step A.Delivers State.init (handshake .hybrid ++ [.leak, .send 0 0 0]) :=
    guarded_append.mpr ⟨hg, delivers_of_mem nofun, delivers_of_mem nofun, trivial⟩
  refine payload_secret A id (handshake .hybrid) _ hg' (by simp [handshake]) 0 id ?_ ?_
  · intro i iv hmem mode sid key hi'
    obtain ⟨rfl, rfl⟩ : i = 0 ∧ iv = 0 := by simpa [handshake] using hmem
    have hlast : (run State.step State.init (handshake .hybrid ++ [.leak, .send 0 0 0])).Agreed 0 .hybrid
        (.name (.sessionId 0)) (sharedKey .hybrid 0 0) := by
      rw [run_append]
      exact agreed_run hi _
    cases Option.some.inj (hi'.symm.trans hlast)
    exact ⟨hi, fun j _ => Or.inr ⟨rfl, id, id, id⟩⟩
  · intro j c iv hmem
    simp [handshake] at hmem

end HybridPqc.Symbolic
