import HybridPqc.Endurance.Streams

/-!
# Proofs: protocol and direction

The parser looks for the ports of the two services anywhere in the text of an endpoint. It finds them
where a label of the address or the decimal port starts with their digits, which decides for which
connections the protocol, the direction and the client are told correctly.
-/

open PyStr (lit)

namespace HybridPqc

/-- The characters between the labels of an endpoint. -/
def isSeparator (c : Nat) : Bool := c == 58 || c == 46

/-- The labels of an address that follow a separator. -/
def addressLabels (ip : PyStr) : List PyStr := PyStr.labels isSeparator ip

/-- A label of the address that follows a separator starts with the digits of the port. -/
def AddressMentions (port : Nat) (ip : PyStr) : Prop := ∃ l ∈ addressLabels ip, PyStr.decimal port <+: l

/-- The parser recovers the connection between two endpoints: whatever the sitting, the lines of both
directions get the protocol and the client of the connection, and each its direction. -/
def Recovers (proto : Proto) (server client : PyStr) : Prop :=
  ∀ sessionId (p : Packet),
    (p.src = client → p.dst = server → ∃ e, p.event? sessionId = some e ∧
      e.key = (sessionId, proto, client) ∧ e.isClient = true) ∧
    (p.src = server → p.dst = client → ∃ e, p.event? sessionId = some e ∧
      e.key = (sessionId, proto, client) ∧ e.isClient = false)

/-! ## Where a port is found -/

theorem decimal_not_separator (n : Nat) : ∀ c ∈ PyStr.decimal n, isSeparator c = false := by
  intro c hc
  have hdigit := PyStr.isDigit_iff.mp (PyStr.decimal_isDigit n c hc)
  simp only [isSeparator, Bool.or_eq_false_iff, beq_eq_false_iff_ne]
  omega

theorem mentions_iff {proto : Proto} {ep : PyStr} :
    mentions proto ep = true ↔ ∃ l ∈ PyStr.labels isSeparator ep, PyStr.decimal proto.port <+: l := by
  rw [← PyStr.contains_sep_iff (decimal_not_separator proto.port)]
  unfold mentions
  rw [Bool.or_eq_true, decide_eq_true_eq, decide_eq_true_eq]
  constructor
  · rintro (h | h)
    · exact ⟨58, rfl, h⟩
    · exact ⟨46, rfl, h⟩
  · rintro ⟨c, hc, h⟩
    simp only [isSeparator, Bool.or_eq_true, beq_iff_eq] at hc
    rcases hc with rfl | rfl
    · exact .inl h
    · exact .inr h

/-- A port is found in an endpoint where a label of the address or the port of the endpoint starts with
its digits. -/
theorem mentions_endpoint_iff {proto : Proto} {ip : PyStr} {q : Nat} :
    mentions proto (endpoint ip q) = true ↔
      AddressMentions proto.port ip ∨ PyStr.decimal proto.port <+: PyStr.decimal q := by
  have hlabels : PyStr.labels isSeparator (endpoint ip q) = addressLabels ip ++ [PyStr.decimal q] := by
    have hsplit : endpoint ip q = ip ++ 46 :: PyStr.decimal q := by simp [endpoint, lit]
    rw [hsplit]
    exact PyStr.labels_append rfl (decimal_not_separator q)
  rw [mentions_iff, hlabels]
  unfold AddressMentions
  simp [or_and_right, exists_or]

theorem mentions_server (proto : Proto) (ip : PyStr) :
    mentions proto (endpoint ip proto.port) = true :=
  mentions_endpoint_iff.mpr (.inr (List.prefix_refl _))

/-- A port number starts with 8443 only if it is 8443. -/
theorem hybrid_prefix_iff {q : Nat} (hq : q < 65536) :
    PyStr.decimal Proto.hybridPqc.port <+: PyStr.decimal q ↔ q = 8443 := by
  rw [PyStr.decimal_prefix_iff (by decide)]
  constructor
  · rintro ⟨k, hk⟩
    cases k with
    | zero => simpa [Proto.port] using hk
    | succ k =>
      have hle : q / 10 ^ (k + 1) ≤ q / 10 := by
        apply Nat.div_le_div_left (Nat.le_self_pow (by omega) 10) (by omega)
      simp only [Proto.port] at hk
      omega
  · rintro rfl
    exact ⟨0, rfl⟩

/-- A port number starts with 4443 if it is 4443 or one of ten others. -/
theorem tls_prefix_iff {q : Nat} (hq : q < 65536) :
    PyStr.decimal Proto.classicalTls.port <+: PyStr.decimal q ↔
      q = 4443 ∨ 44430 ≤ q ∧ q ≤ 44439 := by
  rw [PyStr.decimal_prefix_iff (by decide)]
  simp only [Proto.port]
  constructor
  · rintro ⟨k, hk⟩
    rcases k with _ | _ | k
    · simp only [pow_zero, Nat.div_one] at hk
      exact .inl hk
    · simp only [zero_add, pow_one] at hk
      omega
    · have hle : q / 10 ^ (k + 2) ≤ q / 10 ^ 2 := by
        apply Nat.div_le_div_left (Nat.pow_le_pow_right (by omega) (by omega)) (by omega)
      change q / 10 ^ (k + 2) = 4443 at hk
      omega
  · rintro (rfl | ⟨h1, h2⟩)
    · exact ⟨0, rfl⟩
    · exact ⟨1, by omega⟩

/-! ## Connections -/

theorem event?_eq {sessionId : Nat} {p : Packet} {proto : Proto} {clientEp : PyStr} {isClient : Bool} :
    (∃ e, p.event? sessionId = some e ∧ e.key = (sessionId, proto, clientEp) ∧ e.isClient = isClient) ↔
      classify p.src p.dst = some ⟨proto, clientEp, isClient⟩ := by
  unfold Packet.event? Event.key
  cases h : classify p.src p.dst with
  | none => simp
  | some c =>
    rcases c with ⟨proto', clientEp', isClient'⟩
    simp [and_assoc]

/-- A connection is recovered when its two endpoints are classified correctly in both orders. -/
theorem recovers_iff {proto : Proto} {server client : PyStr} :
    Recovers proto server client ↔
      classify client server = some ⟨proto, client, true⟩ ∧
        classify server client = some ⟨proto, client, false⟩ := by
  unfold Recovers
  simp only [event?_eq]
  constructor
  · intro h
    have dt : DateTime := Classical.arbitrary DateTime
    have hrequest := h 0 ⟨dt, client, server, [], 0⟩
    have hreply := h 0 ⟨dt, server, client, [], 0⟩
    exact ⟨hrequest.1 rfl rfl, hreply.2 rfl rfl⟩
  · rintro ⟨hrequest, hreply⟩ sessionId p
    constructor
    · rintro hsrc hdst
      rw [hsrc, hdst]
      exact hrequest
    · rintro hsrc hdst
      rw [hsrc, hdst]
      exact hreply

variable {sip cip : PyStr} {q : Nat}

/-- Connections to port 8443 are recovered unless the client's endpoint mentions it. -/
theorem recovers_hybrid_iff :
    Recovers .hybridPqc (endpoint sip 8443) (endpoint cip q) ↔
      mentions .hybridPqc (endpoint cip q) = false := by
  have hserver : mentions .hybridPqc (endpoint sip 8443) = true := mentions_server .hybridPqc sip
  rw [recovers_iff]
  unfold classify
  rw [if_pos hserver]
  cases hclient : mentions .hybridPqc (endpoint cip q) with
  | true => simp
  | false => simp [hserver]

/-- Connections to port 4443 are recovered unless an endpoint mentions 8443 or the client's endpoint
mentions 4443. -/
theorem recovers_tls_iff :
    Recovers .classicalTls (endpoint sip 4443) (endpoint cip q) ↔
      mentions .hybridPqc (endpoint sip 4443) = false ∧ mentions .hybridPqc (endpoint cip q) = false ∧
        mentions .classicalTls (endpoint cip q) = false := by
  have hserver : mentions .classicalTls (endpoint sip 4443) = true := mentions_server .classicalTls sip
  rw [recovers_iff]
  unfold classify
  cases hs : mentions .hybridPqc (endpoint sip 4443) with
  | true => simp
  | false =>
    cases hc : mentions .hybridPqc (endpoint cip q) with
    | true => simp
    | false =>
      cases ht : mentions .classicalTls (endpoint cip q) with
      | true => simp [hserver]
      | false => simp [hserver]

/-- The endpoints of a connection cannot be confused. On port 8443: no label of the client's address but
the first starts with 8443. On port 4443: this holds of both addresses, no such label of the client's
starts with 4443, and the client's port is neither 8443 nor one of 44430 to 44439. -/
def Unambiguous (proto : Proto) (sip cip : PyStr) (q : Nat) : Prop :=
  match proto with
  | .hybridPqc => ¬AddressMentions 8443 cip
  | .classicalTls => ¬AddressMentions 8443 sip ∧ ¬AddressMentions 8443 cip ∧ ¬AddressMentions 4443 cip ∧
      q ≠ 8443 ∧ ¬(44430 ≤ q ∧ q ≤ 44439)

theorem recovers_iff_unambiguous {proto : Proto} (hq : q < 65536) (hne : q ≠ proto.port) :
    Recovers proto (endpoint sip proto.port) (endpoint cip q) ↔ Unambiguous proto sip cip q := by
  cases proto with
  | hybridPqc =>
    refine recovers_hybrid_iff.trans ?_
    rw [← Bool.not_eq_true, mentions_endpoint_iff, hybrid_prefix_iff hq, not_or]
    exact and_iff_left hne
  | classicalTls =>
    refine recovers_tls_iff.trans ?_
    have hport : ¬(4443 : Nat) = 8443 := by decide
    have hq4443 : ¬q = 4443 := hne
    simp only [← Bool.not_eq_true, mentions_endpoint_iff, hybrid_prefix_iff hq, tls_prefix_iff hq,
      hybrid_prefix_iff (show 4443 < 65536 by decide), not_or, hport, hq4443, not_false_eq_true,
      and_true, true_and, Unambiguous]
    tauto

/-- Protocol, direction and client of a connection are recovered exactly when its endpoints cannot be
confused. -/
theorem direction_recovered_iff (proto : Proto) (sip cip : PyStr) (q : Nat) (hq : q < 65536)
    (hne : q ≠ proto.port) :
    Recovers proto (endpoint sip proto.port) (endpoint cip q) ↔ Unambiguous proto sip cip q :=
  recovers_iff_unambiguous hq hne

theorem direction_recovered_iff_testbed :
    Recovers .hybridPqc (endpoint (lit "192.168.1.9") 8443) (endpoint (lit "192.168.1.3") 60420) ↔
      Unambiguous .hybridPqc (lit "192.168.1.9") (lit "192.168.1.3") 60420 :=
  direction_recovered_iff .hybridPqc (lit "192.168.1.9") (lit "192.168.1.3") 60420 (by decide) (by decide)

/-- The replies of the TLS server to client port 44430 are taken for requests of the server. -/
theorem port_44430_not_recovered :
    ¬Recovers .classicalTls (endpoint (lit "192.168.1.9") 4443) (endpoint (lit "192.168.1.3") 44430) := by
  rw [recovers_tls_iff]
  decide +kernel

/-! ## IPv4 -/

/-- The text of an IPv4 address. -/
def dottedQuad (a b c d : UInt8) : PyStr :=
  PyStr.decimal a.toNat ++ 46 :: PyStr.decimal b.toNat ++ 46 :: PyStr.decimal c.toNat ++
    46 :: PyStr.decimal d.toNat

/-- An octet is too short for a port of four digits. -/
theorem not_addressMentions_dottedQuad (proto : Proto) (a b c d : UInt8) :
    ¬AddressMentions proto.port (dottedQuad a b c d) := by
  have hsep : isSeparator 46 = true := rfl
  have hlabels : addressLabels (dottedQuad a b c d) =
      [PyStr.decimal b.toNat, PyStr.decimal c.toNat, PyStr.decimal d.toNat] := by
    unfold addressLabels dottedQuad
    rw [PyStr.labels_append hsep (decimal_not_separator _), PyStr.labels_append hsep (decimal_not_separator _),
      PyStr.labels_append hsep (decimal_not_separator _)]
    have hfirst := PyStr.labelsAux_of_no_sep (decimal_not_separator a.toNat)
    simp [PyStr.labels, hfirst]
  have hshort : ∀ x : UInt8, ¬PyStr.decimal proto.port <+: PyStr.decimal x.toNat := by
    intro x hx
    have hlen := hx.length_le
    have hle : (PyStr.decimal x.toNat).length ≤ 3 :=
      PyStr.decimal_length_le (by decide) (Nat.lt_trans x.toNat_lt (by decide))
    have hport : (PyStr.decimal proto.port).length = 4 := by cases proto <;> decide
    omega
  unfold AddressMentions
  rw [hlabels]
  rintro ⟨l, hl, hpre⟩
  simp only [List.mem_cons, List.not_mem_nil, or_false] at hl
  rcases hl with rfl | rfl | rfl
  · exact hshort b hpre
  · exact hshort c hpre
  · exact hshort d hpre

/-- Between IPv4 addresses every connection to port 8443 is recovered, and those to port 4443 from every
client port but 8443 and 44430 to 44439. -/
theorem recovers_ipv4_iff {proto : Proto} (a b c d a' b' c' d' : UInt8) (hq : q < 65536)
    (hne : q ≠ proto.port) :
    Recovers proto (endpoint (dottedQuad a b c d) proto.port) (endpoint (dottedQuad a' b' c' d') q) ↔
      (proto = .classicalTls → q ≠ 8443 ∧ ¬(44430 ≤ q ∧ q ≤ 44439)) := by
  rw [recovers_iff_unambiguous hq hne]
  have hhybrid := not_addressMentions_dottedQuad .hybridPqc
  have htls := not_addressMentions_dottedQuad .classicalTls
  simp only [Proto.port] at hhybrid htls
  cases proto with
  | hybridPqc => simp [Unambiguous, hhybrid]
  | classicalTls => simp [Unambiguous, hhybrid, htls]

end HybridPqc
