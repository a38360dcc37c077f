import HybridPqc.Network.Proofs.HistoryProofs

/-!
# What a holder of the pre-shared key ever signs

Every signed string is some client's handshake data, or that data followed by the response of a
handshake on exactly this client's request and by further such extensions: the server signs whatever
extension of an earlier transcript it is sent. The mode byte at the front fixes all lengths, so a string
splits in one way only.
-/

open GuardedRuns

namespace HybridPqc

/-- The handshake data that a client sent. -/
def Client.hello (c : Client) : Bytes := clientData (keyedCtx c.mode c.keys)

variable {X : Externals}

/-! ## Parsing -/

theorem clientData_ne_nil (ctx : HybridCtx) : clientData ctx ≠ [] := by
  intro h
  have hhead := clientData_head ctx
  rw [h] at hhead
  cases hhead

theorem clientData_mode_of_append {ctx ctx' : HybridCtx} {l l' : Bytes}
    (h : clientData ctx ++ l = clientData ctx' ++ l') : ctx.mode = ctx'.mode := by
  have hhead := congrArg List.head? h
  rw [List.head?_append_of_ne_nil _ (clientData_ne_nil ctx),
    List.head?_append_of_ne_nil _ (clientData_ne_nil ctx'), clientData_head, clientData_head,
    Option.some.injEq] at hhead
  exact Mode.toByte_injective hhead

/-- Handshake data at the front of a string is determined, and so is the rest. -/
theorem clientData_append_inj {ctx ctx' : HybridCtx} {l l' : Bytes}
    (h : clientData ctx ++ l = clientData ctx' ++ l') : clientData ctx = clientData ctx' ∧ l = l' := by
  apply List.append_inj h
  rw [clientData_length, clientData_length, clientData_mode_of_append h]

/-- Handshake data determines the public keys that its mode uses. -/
theorem clientData_inj {ctx ctx' : HybridCtx} (h : clientData ctx = clientData ctx') :
    ctx.mode = ctx'.mode ∧ (ctx.mode.usesX25519 = true → ctx.x25519Pubkey = ctx'.x25519Pubkey) ∧
      (ctx.mode.usesMlkem = true → ctx.mlkemPk = ctx'.mlkemPk) := by
  have happend : clientData ctx ++ [] = clientData ctx' ++ [] := by rw [h]
  have hmode : ctx.mode = ctx'.mode := clientData_mode_of_append happend
  unfold clientData at h
  rw [← hmode] at h
  simp only [List.cons_append, List.nil_append, List.cons.injEq, true_and] at h
  have hsplit := List.append_inj h (by split <;> simp)
  refine ⟨hmode, ?_, ?_⟩
  · intro hx
    rw [if_pos hx, if_pos hx] at hsplit
    exact ByteArr.toList_inj.mp hsplit.1
  · intro hm
    rw [if_pos hm, if_pos hm] at hsplit
    exact ByteArr.toList_inj.mp hsplit.2

theorem clientX25519_clientData (ctx : HybridCtx) (hx : ctx.mode.usesX25519 = true) :
    clientX25519 (clientData ctx) = ctx.x25519Pubkey := by
  rw [clientX25519, clientData, if_pos hx, List.append_assoc]
  exact ByteArr.ofBytes_append _ _

theorem clientMlkem_clientData (ctx : HybridCtx) (hm : ctx.mode.usesMlkem = true) :
    clientMlkem ctx.mode (clientData ctx) = ctx.mlkemPk := by
  have hdrop : (clientData ctx).drop (1 + if ctx.mode.usesX25519 then 32 else 0) =
      ctx.mlkemPk.toList := by
    rw [clientData, if_pos hm]
    apply List.drop_left'
    split <;> simp
  rw [clientMlkem, hdrop, ByteArr.ofBytes_toList]

theorem serverX25519_reply {env : HandshakeEnv} {m : Mode} (hx : m.usesX25519 = true)
    (data rest : Bytes) :
    serverX25519 (replyData X env m data ++ rest) = X.x25519Base env.x25519Privkey := by
  have hdrop : (replyData X env m data ++ rest).drop 16 =
      (X.x25519Base env.x25519Privkey).toList ++
        ((if m.usesMlkem then (performMlkemEncaps X env (clientMlkem m data)).1.toList else []) ++
          rest) := by
    rw [replyData, replyKeys, if_pos hx, List.append_assoc, List.append_assoc]
    exact List.drop_left' (by simp)
  rw [serverX25519, hdrop]
  exact ByteArr.ofBytes_append _ _

theorem serverCiphertext_reply {env : HandshakeEnv} {m : Mode} (hm : m.usesMlkem = true)
    (data rest : Bytes) :
    serverCiphertext m (replyData X env m data ++ rest) =
      (performMlkemEncaps X env (clientMlkem m data)).1 := by
  have hdrop : (replyData X env m data ++ rest).drop (16 + if m.usesX25519 then 32 else 0) =
      (performMlkemEncaps X env (clientMlkem m data)).1.toList ++ rest := by
    rw [replyData, replyKeys, if_pos hm, ← List.append_assoc, List.append_assoc]
    apply List.drop_left'
    split <;> simp
  rw [serverCiphertext, hdrop]
  exact ByteArr.ofBytes_append _ _

namespace World

/-! ## The invariant -/

/-- What is known of the sessions and of the signed strings. -/
structure SignedInv (X : Externals) (w : World) : Prop where
  session : ∀ s ∈ w.sessions, ∃ env m, Accepts X env m s.request ∧ s = newSession X env m s.request
  signed : ∀ x ∈ w.signed, ∃ (i : Nat) (c : Client), w.clients[i]? = some c ∧
    (x = c.hello ∨ ∃ s ∈ w.sessions, ∃ rest, s.request = c.request ∧
      x = c.hello ++ s.response.rdrop 32 ++ rest)

theorem SignedInv.init : SignedInv X World.init where
  session := by simp [World.init]
  signed := by simp [World.init]

theorem clients_step (w : World) (e : Event) {i : Nat} {c : Client} (hc : w.clients[i]? = some c) :
    ∃ c', (step X w e).clients[i]? = some c' ∧ c'.mode = c.mode ∧ c'.keys = c.keys ∧
      c'.request = c.request := by
  have hi : i < w.clients.length := (List.getElem?_eq_some_iff.mp hc).1
  cases e with
  | start mode keys seq hmacRet =>
    show ∃ c', (w.onStart X mode keys seq hmacRet).clients[i]? = some c' ∧ _
    rw [onStart_eq]
    split
    · exact ⟨c, Growing.getElem?_append hc _, rfl, rfl, rfl⟩
    · exact ⟨c, hc, rfl, rfl, rfl⟩
  | handshake env body =>
    exact ⟨c, by rw [← hc]; exact congrArg (·[i]?) (onHandshake_clients env body w).1, rfl, rfl, rfl⟩
  | telemetry env body => exact ⟨c, hc, rfl, rfl, rfl⟩
  | client j e =>
    show ∃ c', (w.onClient X j e).clients[i]? = some c' ∧ _
    unfold onClient
    cases hj : w.clients[j]? with
    | none => exact ⟨c, hc, rfl, rfl, rfl⟩
    | some c₀ =>
      simp only [List.getElem?_set]
      by_cases hij : j = i
      · subst hij
        rw [hj, Option.some.injEq] at hc
        subst hc
        exact ⟨c₀.next X e, by simp [hi], rfl, rfl, rfl⟩
      · exact ⟨c, by rw [if_neg hij]; exact hc, rfl, rfl, rfl⟩

/-- Only a start and a handshake sign anything, and only a handshake creates a session. -/
theorem signed_step (w : World) (e : Event) :
    (∀ env body, e ≠ .handshake env body) → (step X w e).sessions = w.sessions ∧
      ((step X w e).signed = w.signed ∨
        ∃ (i : Nat) (c : Client), (step X w e).clients[i]? = some c ∧
          (step X w e).signed = w.signed ++ [c.hello]) := by
  intro hne
  cases e with
  | start mode keys seq hmacRet =>
    show (w.onStart X mode keys seq hmacRet).sessions = _ ∧
      ((w.onStart X mode keys seq hmacRet).signed = _ ∨
        ∃ (i : Nat) (c : Client), (w.onStart X mode keys seq hmacRet).clients[i]? = some c ∧
          (w.onStart X mode keys seq hmacRet).signed = _)
    rw [onStart_eq]
    split
    · exact ⟨rfl, .inr ⟨w.clients.length, _, List.getElem?_concat_length, rfl⟩⟩
    · exact ⟨rfl, .inl rfl⟩
  | handshake env body => exact absurd rfl (hne env body)
  | telemetry env body => exact ⟨rfl, .inl rfl⟩
  | client i e =>
    show (w.onClient X i e).sessions = _ ∧ ((w.onClient X i e).signed = _ ∨ _)
    unfold onClient
    cases w.clients[i]? with
    | none => exact ⟨rfl, .inl rfl⟩
    | some c => exact ⟨rfl, .inl rfl⟩

/-- A signed string stays what it is when the history grows. -/
theorem SignedInv.mono {w w' : World} (h : w.SignedInv X)
    (hclients : ∀ (i : Nat) (c : Client), w.clients[i]? = some c →
      ∃ c', w'.clients[i]? = some c' ∧ c'.mode = c.mode ∧ c'.keys = c.keys ∧ c'.request = c.request)
    (hsessions : ∀ s ∈ w.sessions, s ∈ w'.sessions) :
    ∀ x ∈ w.signed, ∃ (i : Nat) (c : Client), w'.clients[i]? = some c ∧
      (x = c.hello ∨ ∃ s ∈ w'.sessions, ∃ rest, s.request = c.request ∧
        x = c.hello ++ s.response.rdrop 32 ++ rest) := by
  intro x hx
  obtain ⟨i, c, hc, hcase⟩ := h.signed x hx
  obtain ⟨c', hc', hmode, hkeys, hreq⟩ := hclients i c hc
  have hhello : c'.hello = c.hello := by unfold Client.hello; rw [hmode, hkeys]
  refine ⟨i, c', hc', ?_⟩
  rw [hhello, hreq]
  rcases hcase with rfl | ⟨s, hs, rest, h1, h2⟩
  · exact .inl rfl
  · exact .inr ⟨s, hsessions s hs, rest, h1, h2⟩

/-- A valid tag on a client's handshake data makes its request. -/
theorem request_of_hello {env : HandshakeEnv} {m : Mode} {body : Bytes} (h : Accepts X env m body)
    {c : Client} {es : List Sealing} (hc : ClientInv X c es) (hdata : body.rdrop 32 = c.hello) :
    body = c.request := by
  rw [h.body_eq, hc.request, hdata, serverPsk_eq]
  rfl

/-- Only a start adds a string, and it is the handshake data of the new client. -/
theorem SignedInv.other {w : World} (h : w.SignedInv X) {e : Event}
    (hne : ∀ env body, e ≠ .handshake env body) : (step X w e).SignedInv X := by
  obtain ⟨hsessions, hsigned⟩ := signed_step (X := X) w e hne
  have hmono := h.mono (fun i c hc => clients_step (X := X) w e hc) (by rw [hsessions]; simp)
  refine ⟨by rw [hsessions]; exact h.session, ?_⟩
  intro x hx
  rcases hsigned with hs | ⟨i, c, hc, hs⟩
  · exact hmono x (hs ▸ hx)
  · rw [hs] at hx
    rcases List.mem_append.mp hx with hx | hx
    · exact hmono x hx
    · exact ⟨i, c, hc, .inl (List.mem_singleton.mp hx)⟩

/-- A handshake adds a transcript, which extends the signed string that its request carried. -/
theorem SignedInv.handshake {w : World} (h : w.SignedInv X) (hcl : w.ClientsInv X)
    {env : HandshakeEnv} {body : Bytes} (hg : MacIdeal X w (.handshake env body)) :
    (w.onHandshake X env body).SignedInv X := by
  rcases onHandshake_cases X env body w with ⟨-, he⟩ | ⟨m, hacc, he⟩
  · rw [he]
    exact h
  rw [he]
  have hmono : ∀ s ∈ w.sessions, s ∈ w.sessions ++ [newSession X env m body] :=
    fun s hs => List.mem_append_left _ hs
  refine ⟨fun s hs => ?_, fun x hx => ?_⟩
  · rcases List.mem_append.mp hs with hs | hs
    · exact h.session s hs
    · rw [List.mem_singleton.mp hs]
      exact ⟨env, m, hacc, rfl⟩
  rcases List.mem_append.mp hx with hx | hx
  · obtain ⟨i, c, hc, hcase⟩ := h.signed x hx
    refine ⟨i, c, hc, hcase.imp_right ?_⟩
    rintro ⟨s, hs, rest⟩
    exact ⟨s, hmono s hs, rest⟩
  · rw [List.mem_singleton] at hx
    subst hx
    obtain ⟨i, c, hc, hcase⟩ := h.signed _ (hg hacc.tag)
    refine ⟨i, c, hc, .inr ?_⟩
    rcases hcase with hhello | ⟨s, hs, rest, hreq, hx⟩
    · refine ⟨newSession X env m body, by simp, [], ?_, ?_⟩
      · exact request_of_hello hacc (hcl.client i c hc) hhello
      · have hresponse : (newSession X env m body).response.rdrop 32 =
            replyData X env m (body.rdrop 32) := handshakeReply_rdrop env m body
        rw [hresponse, List.append_nil, hhello]
    · exact ⟨s, hmono s hs, rest ++ replyData X env m (body.rdrop 32), hreq, by rw [hx]; simp⟩

theorem SignedInv.step {w : World} (h : w.SignedInv X) (hcl : w.ClientsInv X) {e : Event}
    (hg : MacIdeal X w e) : (step X w e).SignedInv X := by
  cases e with
  | handshake env body => exact h.handshake hcl hg
  | start mode keys seq hmacRet => exact h.other (by simp)
  | telemetry env body => exact h.other (by simp)
  | client i e => exact h.other (by simp)

theorem run_signed {es : List Event} (hg : Guarded (World.step X) (MacIdeal X) init es) :
    (run (World.step X) init es).SignedInv X :=
  hg.invariant_of (fun _ e hJ _ => hJ.step e) (fun _ _ hJ hI hP => hI.step hJ hP)
    (ClientsInv.init (X := X)) SignedInv.init

theorem reference_macIdeal : Guarded (World.step Reference.externals)
    (MacIdeal Reference.externals) init (Reference.events.take 3) := by
  refine ⟨trivial, ?_, ?_, trivial⟩
  · intro _
    have hsigned : Reference.request.rdrop 32 ∈ (Reference.world 1).signed := by decide +kernel
    exact hsigned
  · intro c hc _
    have hsigned : ∀ c ∈ (Reference.world 2).clients[0]?,
        clientData c.task.ctx ++ Reference.response.rdrop 32 ∈ (Reference.world 2).signed := by
      decide +kernel
    exact hsigned c hc

end World

end HybridPqc
