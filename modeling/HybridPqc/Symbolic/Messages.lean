import HybridPqc.Symbolic.Terms

/-!
# The messages of the protocol

What client and server compute, over any domain of messages with the functions they call: terms, for the
attacker who derives them, and byte strings, for the two programs. A law-abiding domain interprets the terms.
-/

namespace HybridPqc.Symbolic

/-- A domain of messages with the functions that the programs call. -/
structure Messages (M : Type) where
  name : Name → M
  append : M → M → M
  x25519Base : M → M
  x25519 : M → M → M
  kemPk : M → M
  kemCt : M → M → M
  kemSs : M → M → M
  kemDec : M → M → M
  hmac : M → M → M
  hkdf : M → M
  gcm : M → M → M → M

namespace Messages

/-- The laws of concatenation and of the key exchanges. -/
structure Lawful {M : Type} (A : Messages M) : Prop where
  append_assoc : ∀ a b c, A.append (A.append a b) c = A.append a (A.append b c)
  x25519_comm : ∀ a b, A.x25519 a (A.x25519Base b) = A.x25519 b (A.x25519Base a)
  kemDec_kemCt : ∀ sk coins, A.kemDec (A.kemCt (A.kemPk sk) coins) sk = A.kemSs (A.kemPk sk) coins

/-- The terms. -/
@[reducible] def terms : Messages Term where
  name := .name
  append := Term.append
  x25519Base := .x25519Base
  x25519 := Term.x25519
  kemPk := .kemPk
  kemCt := .kemCt
  kemSs := .kemSs
  kemDec := Term.kemDec
  hmac := .hmac
  hkdf := .hkdf
  gcm := .gcm

theorem lawful_terms : terms.Lawful := ⟨Term.append_assoc, Term.x25519_comm, Term.kemDec_kemCt⟩

section Roles

variable {M : Type} (A : Messages M)

/-- What an X25519 and an ML-KEM component make together: the ones that the mode uses. -/
def combine (mode : Mode) (x m : M) : M :=
  match mode with
  | .classical => x
  | .pqc => m
  | .hybrid => A.append x m

/-- The mode and the public keys of a client. -/
def hello (mode : Mode) (x25519Pubkey mlkemPk : M) : M :=
  A.append (A.name (.mode mode)) (A.combine mode x25519Pubkey mlkemPk)

/-- A message with the tag of what is signed. -/
def tagged (m signed : M) : M := A.append m (A.hmac (A.name .handshakePsk) signed)

/-- `hybrid_pack_pubkeys`: the request with the tag of the handshake data. -/
def request (data : M) : M := A.tagged data data

/-- The handshake data of client `i`. -/
def clientHello (mode : Mode) (i : Nat) : M :=
  A.hello mode (A.x25519Base (A.name (.clientPrivkey i))) (A.kemPk (A.name (.mlkemSk i)))

/-- `handle_handshake`: session id and key material that session `j` sends for a client's ML-KEM key. -/
def serverReply (mode : Mode) (j : Nat) (mlkemPk : M) : M :=
  A.append (A.name (.sessionId j))
    (A.combine mode (A.x25519Base (A.name (.serverPrivkey j))) (A.kemCt mlkemPk (A.name (.coins j))))

/-- The response with the tag of the transcript. -/
def response (data reply : M) : M := A.tagged reply (A.append data reply)

/-- The session key of the server. -/
def serverKey (mode : Mode) (j : Nat) (x25519Pubkey mlkemPk : M) : M :=
  A.hkdf (A.combine mode (A.x25519 (A.name (.serverPrivkey j)) x25519Pubkey)
    (A.kemSs mlkemPk (A.name (.coins j))))

/-- `hybrid_process_server_response`: the session key of client `i`. -/
def clientKey (mode : Mode) (i : Nat) (serverPub serverCt : M) : M :=
  A.hkdf (A.combine mode (A.x25519 (A.name (.clientPrivkey i)) serverPub)
    (A.kemDec serverCt (A.name (.mlkemSk i))))

/-- A telemetry body: the session id and the encrypted packet. -/
def telemetry (sid key iv m : M) : M := A.append sid (A.gcm key iv m)

variable {A}

/-- Both ends derive one key from the key material of the other end. -/
theorem Lawful.clientKey_eq (h : A.Lawful) (mode : Mode) (i j : Nat) :
    A.clientKey mode i (A.x25519Base (A.name (.serverPrivkey j)))
        (A.kemCt (A.kemPk (A.name (.mlkemSk i))) (A.name (.coins j))) =
      A.serverKey mode j (A.x25519Base (A.name (.clientPrivkey i))) (A.kemPk (A.name (.mlkemSk i))) := by
  rw [clientKey, serverKey, h.x25519_comm, h.kemDec_kemCt]

end Roles

/-! ## Interpretation -/

/-- The message that a term stands for. -/
def eval {M : Type} (A : Messages M) : Term → M
  | .name n => A.name n
  | .cons a rest => A.append (A.eval a) (A.eval rest)
  | .x25519Base k => A.x25519Base (A.eval k)
  | .sharedSecret k pub => A.x25519 (A.eval k) (A.eval pub)
  | .kemPk sk => A.kemPk (A.eval sk)
  | .kemCt pk coins => A.kemCt (A.eval pk) (A.eval coins)
  | .kemSs pk coins => A.kemSs (A.eval pk) (A.eval coins)
  | .decapsulated ct sk => A.kemDec (A.eval ct) (A.eval sk)
  | .hmac key m => A.hmac (A.eval key) (A.eval m)
  | .hkdf m => A.hkdf (A.eval m)
  | .gcm key iv m => A.gcm (A.eval key) (A.eval iv) (A.eval m)

section Eval

variable {M : Type} {A : Messages M} (h : A.Lawful)
include h

theorem eval_append (a b : Term) : A.eval (a.append b) = A.append (A.eval a) (A.eval b) := by
  induction a with
  | cons a rest _ ih => rw [Term.append, eval, ih, eval, h.append_assoc]
  | _ => rfl

theorem eval_x25519 (k pub : Term) : A.eval (Term.x25519 k pub) = A.x25519 (A.eval k) (A.eval pub) := by
  unfold Term.x25519
  split
  · split_ifs
    · rfl
    · exact h.x25519_comm _ _
  · rfl

theorem eval_kemDec (ct sk : Term) : A.eval (Term.kemDec ct sk) = A.kemDec (A.eval ct) (A.eval sk) := by
  rcases Term.kemDec_cases ct sk with heq | ⟨coins, rfl, heq⟩
  · rw [heq, eval]
  · rw [heq, eval, eval, eval, eval, h.kemDec_kemCt]

/-- The roles on terms stand for the roles on messages. -/
theorem eval_clientKey (mode : Mode) (i : Nat) (serverPub serverCt : Term) :
    A.eval (terms.clientKey mode i serverPub serverCt) =
      A.clientKey mode i (A.eval serverPub) (A.eval serverCt) := by
  cases mode <;> simp only [clientKey, combine, eval, eval_append h, eval_x25519 h, eval_kemDec h]

theorem eval_serverKey (mode : Mode) (j : Nat) (x25519Pubkey mlkemPk : Term) :
    A.eval (terms.serverKey mode j x25519Pubkey mlkemPk) =
      A.serverKey mode j (A.eval x25519Pubkey) (A.eval mlkemPk) := by
  cases mode <;> simp only [serverKey, combine, eval, eval_append h, eval_x25519 h]

end Eval

end Messages

end HybridPqc.Symbolic
