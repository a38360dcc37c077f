import HybridPqc.Network.Proofs.HistoryProofs

/-!
# No sender repeats a counter under one key

The counters in a client's nonces increase strictly and stay below 150; those in the acknowledgements
of a session increase strictly. No assumption is made about the attacker, the random bytes or the
results of the library calls.
-/

open GuardedRuns

namespace HybridPqc

/-- The sender is a client. -/
def Sender.isClient : Sender → Bool
  | .client _ => true
  | .server _ => false

namespace World

/-- What the clients encrypted under a key. -/
def clientSealings (w : World) (key : ByteArr 32) : List Sealing :=
  (w.sealings.filter fun p => p.1.isClient && p.2.key = key).map Prod.snd

/-- What the server encrypted under a key. -/
def serverSealings (w : World) (key : ByteArr 32) : List Sealing :=
  (w.sealings.filter fun p => !p.1.isClient && p.2.key = key).map Prod.snd

/-- No two clients hold this session key. -/
def OneClient (w : World) (key : ByteArr 32) : Prop :=
  ∀ (i j : Nat) (c c' : Client) (response response' : Bytes),
    w.clients[i]? = some c → w.clients[j]? = some c' →
      c.agreed = some (response, key) → c'.agreed = some (response', key) → i = j

/-- No two sessions of the server have this key. -/
def OneSession (w : World) (key : ByteArr 32) : Prop :=
  ∀ (k l : Nat) (s s' : Session), w.sessions[k]? = some s → w.sessions[l]? = some s' →
    s.key = key → s'.key = key → k = l

variable {X : Externals}

/-- A selection that takes the sealings of one sender only inherits the order of that sender's. -/
theorem pairwise_of_one_sender {w : World} {P : Sender × Sealing → Bool}
    (hone : ∀ p ∈ w.sealings, ∀ q ∈ w.sealings, P p = true → P q = true → p.1 = q.1)
    (horder : ∀ p ∈ w.sealings, P p = true →
      ((w.sealingsOf p.1).map Sealing.counter).Pairwise (· < ·)) :
    (((w.sealings.filter P).map Prod.snd).map Sealing.counter).Pairwise (· < ·) := by
  cases hsel : w.sealings.filter P with
  | nil => exact List.Pairwise.nil
  | cons p l =>
    have hp : p ∈ w.sealings.filter P := by simp [hsel]
    obtain ⟨hmem, hP⟩ := List.mem_filter.mp hp
    have hsub : (w.sealings.filter P).Sublist (w.sealings.filter fun q => q.1 = p.1) := by
      have heq : w.sealings.filter P = (w.sealings.filter fun q => q.1 = p.1).filter P := by
        rw [List.filter_filter]
        apply List.filter_congr
        intro q hq
        by_cases hPq : P q = true
        · simp [hPq, hone q hq p hmem hPq hP]
        · simp [hPq]
      rw [heq]
      exact List.filter_sublist
    rw [← hsel]
    exact (horder p hmem hP).sublist ((hsub.map _).map _)

theorem ClientsInv.sealing {w : World} (h : w.ClientsInv X) {i : Nat} {e : Sealing}
    (he : (Sender.client i, e) ∈ w.sealings) :
    ∃ c response, w.clients[i]? = some c ∧ c.agreed = some (response, e.key) ∧
      ClientInv X c (w.sealingsOf (.client i)) := by
  have hmem : e ∈ w.sealingsOf (.client i) := mem_sealingsOf.mpr he
  cases hc : w.clients[i]? with
  | none =>
    rw [h.none i (by simpa using hc)] at hmem
    cases hmem
  | some c =>
    have hinv := h.client i c hc
    obtain ⟨response, hagreed⟩ := hinv.key e hmem
    exact ⟨c, response, rfl, hagreed, hinv⟩

theorem ClientsInv.order {w : World} (h : w.ClientsInv X) (i : Nat) :
    ((w.sealingsOf (.client i)).map Sealing.counter).Pairwise (· < ·) := by
  cases hc : w.clients[i]? with
  | none =>
    rw [h.none i (by simpa using hc)]
    exact List.Pairwise.nil
  | some c => exact (h.client i c hc).order

theorem SessionsInv.sealing {w : World} (h : w.SessionsInv X) {k : Nat} {e : Sealing}
    (he : (Sender.server k, e) ∈ w.sealings) :
    ∃ a ∈ w.acceptedOf k, a.ack = some e ∧ AckOf X w.sessions a e := by
  have hmem : e ∈ w.sealingsOf (.server k) := mem_sealingsOf.mpr he
  rw [h.acks, List.mem_filterMap] at hmem
  obtain ⟨a, ha, hack⟩ := hmem
  exact ⟨a, ha, hack, h.ack a (mem_acceptedOf.mp ha).1 e hack⟩

theorem SessionsInv.ackOrder {w : World} (h : w.SessionsInv X) (k : Nat) :
    ((w.sealingsOf (.server k)).map Sealing.counter).Pairwise (· < ·) := by
  rw [h.acks]
  have horder := h.order k
  have hack : ∀ a ∈ w.acceptedOf k, ∀ e, a.ack = some e → e.counter = packetCounter a.packet :=
    fun a ha e he => (h.ack a (mem_acceptedOf.mp ha).1 e he).counter
  generalize w.acceptedOf k = l at horder hack ⊢
  rw [List.pairwise_map] at horder ⊢
  rw [List.pairwise_filterMap]
  refine horder.imp_of_mem fun {a b} ha hb hlt e he e' he' => ?_
  rw [hack a ha e he, hack b hb e' he']
  exact hlt

/-- What the clients encrypt under a key of one client only is in the order of their counters. -/
theorem ClientsInv.order_of_oneClient {w : World} (h : w.ClientsInv X) {key : ByteArr 32}
    (hone : w.OneClient key) : ((w.clientSealings key).map Sealing.counter).Pairwise (· < ·) := by
  apply pairwise_of_one_sender
  · rintro ⟨sender, e⟩ hp ⟨sender', e'⟩ hq hP hQ
    cases sender with
    | server k => cases hP
    | client i =>
      cases sender' with
      | server k => cases hQ
      | client j =>
        obtain ⟨c, response, hci, hagreed, -⟩ := h.sealing hp
        obtain ⟨c', response', hcj, hagreed', -⟩ := h.sealing hq
        have hkey : e.key = key := of_decide_eq_true hP
        have hkey' : e'.key = key := of_decide_eq_true hQ
        rw [hkey] at hagreed
        rw [hkey'] at hagreed'
        rw [hone i j c c' response response' hci hcj hagreed hagreed']
  · rintro ⟨sender, e⟩ hp hP
    cases sender with
    | server k => cases hP
    | client i => exact h.order i

/-- What the server encrypts under a key of one session only is in the order of the counters. -/
theorem SessionsInv.order_of_oneSession {w : World} (h : w.SessionsInv X) {key : ByteArr 32}
    (hone : w.OneSession key) : ((w.serverSealings key).map Sealing.counter).Pairwise (· < ·) := by
  apply pairwise_of_one_sender
  · rintro ⟨sender, e⟩ hp ⟨sender', e'⟩ hq hP hQ
    cases sender with
    | client i => cases hP
    | server k =>
      cases sender' with
      | client j => cases hQ
      | server l =>
        obtain ⟨a, ha, -, hack⟩ := h.sealing hp
        obtain ⟨a', ha', -, hack'⟩ := h.sealing hq
        obtain ⟨s, hsk, hkey⟩ := hack.key
        obtain ⟨s', hsl, hkey'⟩ := hack'.key
        rw [(mem_acceptedOf.mp ha).2] at hsk
        rw [(mem_acceptedOf.mp ha').2] at hsl
        have h1 : e.key = key := of_decide_eq_true hP
        have h2 : e'.key = key := of_decide_eq_true hQ
        rw [hone k l s s' hsk hsl (hkey ▸ h1) (hkey' ▸ h2)]
  · rintro ⟨sender, e⟩ hp hP
    cases sender with
    | client i => cases hP
    | server k => exact h.ackOrder k

/-- After every run: each client's nonces carry strictly increasing counters below 150, all under one
key, so no 32-bit counter wraps; and the acknowledgements of each session carry strictly increasing
counters, all under the session's key. Hence no counter repeats among the nonces of the clients, and
none among those of the server, under a key that belongs to one client and one session. -/
theorem nonce_counters_unique (X : Externals) (es : List Event) :
    let w := run (World.step X) init es
    (∀ i, ((w.sealingsOf (.client i)).map Sealing.counter).Pairwise (· < ·) ∧
        ∀ e ∈ w.sealingsOf (.client i), e.counter < 150 ∧
          ∀ e' ∈ w.sealingsOf (.client i), e'.key = e.key) ∧
      (∀ c ∈ w.clients, c.task.ctx.telemetryCounter.toNat ≤ 150) ∧
      (∀ k, ((w.sealingsOf (.server k)).map Sealing.counter).Pairwise (· < ·) ∧
        ∀ e ∈ w.sealingsOf (.server k), ∃ s, w.sessions[k]? = some s ∧ e.key = s.key) ∧
      (∀ key, w.OneClient key →
        ((w.clientSealings key).map Sealing.counter).Pairwise (· ≠ ·)) ∧
      ∀ key, w.OneSession key → ((w.serverSealings key).map Sealing.counter).Pairwise (· ≠ ·) := by
  intro w
  obtain ⟨hc, hs⟩ : w.ClientsInv X ∧ w.SessionsInv X := run_inv X es
  refine ⟨fun i => ⟨hc.order i, fun e he => ⟨?_, fun e' he' => ?_⟩⟩, fun c hmem => ?_,
    fun k => ⟨hs.ackOrder k, fun e he => ?_⟩, fun key hone => ?_, fun key hone => ?_⟩
  · obtain ⟨c, -, -, -, hinv⟩ := hc.sealing (mem_sealingsOf.mp he)
    exact hinv.bound e he
  · obtain ⟨c, response, hci, hagreed, hinv⟩ := hc.sealing (mem_sealingsOf.mp he)
    obtain ⟨response', hagreed'⟩ := hinv.key e' he'
    rw [hagreed, Option.some.injEq, Prod.mk.injEq] at hagreed'
    exact hagreed'.2.symm
  · obtain ⟨i, hi⟩ := List.mem_iff_getElem?.mp hmem
    exact (hc.client i c hi).loop.counter_le
  · obtain ⟨a, ha, -, hack⟩ := hs.sealing (mem_sealingsOf.mp he)
    rw [← (mem_acceptedOf.mp ha).2]
    exact hack.key
  · exact (hc.order_of_oneClient hone).imp fun hlt => Nat.ne_of_lt hlt
  · exact (hs.order_of_oneSession hone).imp fun hlt => Nat.ne_of_lt hlt

end World

end HybridPqc
