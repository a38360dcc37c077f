import HybridPqc.Device.Context
import Mathlib.Tactic.DeriveEncodable

/-!
# Symbolic messages

The messages of the protocol as terms over the functions that the two programs call, and the rules by which
an attacker derives terms. Terms are equal only if the laws make them so: both ends of an X25519 exchange
compute one secret, decapsulation inverts encapsulation, and concatenation is associative.
-/

namespace HybridPqc.Symbolic

/-- The values that are not computed: constants, and what the parties draw at random. -/
inductive Name where
  | handshakePsk
  | mode (m : Mode)
  /-- The private keys of client `i`; its ML-KEM key pair is determined by one secret. -/
  | clientPrivkey (i : Nat)
  | mlkemSk (i : Nat)
  /-- What the server draws for its session `j`. -/
  | serverPrivkey (j : Nat)
  | coins (j : Nat)
  | sessionId (j : Nat)
  | iv (n : Nat)
  /-- What a telemetry packet or an acknowledgement says. -/
  | payload (d : Nat)
  /-- What the attacker draws. -/
  | guess (n : Nat)
  deriving DecidableEq

/-- Terms in normal form, see `Term.append`, `Term.x25519` and `Term.kemDec`. -/
inductive Term where
  | name (n : Name)
  /-- The concatenation of a part and a rest. -/
  | cons (a rest : Term)
  | x25519Base (k : Term)
  | sharedSecret (k pub : Term)
  | kemPk (sk : Term)
  | kemCt (pk coins : Term)
  | kemSs (pk coins : Term)
  | decapsulated (ct sk : Term)
  | hmac (key m : Term)
  | hkdf (m : Term)
  | gcm (key iv m : Term)
  deriving DecidableEq

deriving instance Encodable for Mode
deriving instance Encodable for Name
deriving instance Encodable for Term

namespace Term

/-- Concatenation. -/
def append : Term → Term → Term
  | cons a rest, b => cons a (rest.append b)
  | a, b => cons a b

/-- The first part of a concatenation. -/
def first : Term → Term
  | cons a _ => a
  | a => a

/-- A concatenation without its last part, and that part. -/
def splitLast : Term → Option (Term × Term)
  -- The first part of a concatenation is not one itself.
  | cons (cons _ _) _ => none
  | cons a (cons b rest) => (splitLast (cons b rest)).map fun s => (cons a s.1, s.2)
  | cons a b => some (a, b)
  | _ => none

/-- X25519 of a private and a public key. The private keys behind a secret are put in one order. -/
def x25519 (k : Term) : Term → Term
  | .x25519Base k' =>
    if Encodable.encode k ≤ Encodable.encode k' then sharedSecret k (x25519Base k')
    else sharedSecret k' (x25519Base k)
  | pub => sharedSecret k pub

/-- Decapsulation of a ciphertext under a secret key. -/
def kemDec (ct sk : Term) : Term :=
  match ct with
  | kemCt (kemPk sk') coins => if sk' = sk then kemSs (kemPk sk) coins else decapsulated ct sk
  | _ => decapsulated ct sk

theorem append_assoc (a b c : Term) : (a.append b).append c = a.append (b.append c) := by
  induction a with
  | cons a rest _ ih => simp only [append, ih]
  | _ => rfl

theorem append_of_splitLast {t a b : Term} (h : splitLast t = some (a, b)) : t = a.append b := by
  fun_induction splitLast t generalizing a b with
  | case1 => cases h
  | case2 x y rest hx ih =>
    obtain ⟨⟨a', b'⟩, hsplit, heq⟩ := Option.map_eq_some_iff.mp h
    cases heq
    rw [append, ← ih hsplit]
  | case3 x y hx hy =>
    cases h
    cases x with
    | cons p q => exact absurd rfl (hx p q)
    | _ => rfl
  | case4 => cases h

theorem x25519_comm (a b : Term) : x25519 a (x25519Base b) = x25519 b (x25519Base a) := by
  rw [x25519, x25519]
  by_cases h : Encodable.encode a = Encodable.encode b
  · rw [Encodable.encode_injective h]
  · split_ifs <;> first | rfl | omega

theorem kemDec_kemCt (sk coins : Term) : kemDec (kemCt (kemPk sk) coins) sk = kemSs (kemPk sk) coins := by
  rw [kemDec, if_pos rfl]

/-- The secret of two key pairs, up to the order. -/
theorem x25519_cases (a b : Term) : x25519 a (x25519Base b) = sharedSecret a (x25519Base b) ∨
    x25519 a (x25519Base b) = sharedSecret b (x25519Base a) := by
  rw [x25519]
  split_ifs
  · exact Or.inl rfl
  · exact Or.inr rfl

theorem kemDec_cases (ct sk : Term) : kemDec ct sk = decapsulated ct sk ∨
    ∃ coins, ct = kemCt (kemPk sk) coins ∧ kemDec ct sk = kemSs (kemPk sk) coins := by
  unfold kemDec
  split
  · split_ifs with h
    · exact Or.inr ⟨_, by rw [h], rfl⟩
    · exact Or.inl rfl
  · exact Or.inl rfl

end Term

/-! ## The attacker -/

/-- What an attacker can do beyond calling the functions. -/
structure Attacker where
  /-- The names it knows from the start. -/
  knows : Name → Prop
  /-- It computes discrete logarithms on the curve. -/
  breaksX25519 : Prop
  /-- It recovers the secrets behind ML-KEM public keys and ciphertexts. -/
  breaksMlkem : Prop

/-- The rules of an attacker. -/
inductive Attacker.Infers (A : Attacker) : List Term → Term → Prop where
  | name {n : Name} (h : A.knows n) : A.Infers [] (.name n)
  | append (a b : Term) : A.Infers [a, b] (a.append b)
  | first (a rest : Term) : A.Infers [.cons a rest] a
  | rest (a rest : Term) : A.Infers [.cons a rest] rest
  | x25519Base (k : Term) : A.Infers [k] (.x25519Base k)
  | x25519 (k pub : Term) : A.Infers [k, pub] (.x25519 k pub)
  | kemPk (sk : Term) : A.Infers [sk] (.kemPk sk)
  | kemCt (pk coins : Term) : A.Infers [pk, coins] (.kemCt pk coins)
  | kemSs (pk coins : Term) : A.Infers [pk, coins] (.kemSs pk coins)
  | kemDec (ct sk : Term) : A.Infers [ct, sk] (.kemDec ct sk)
  | hmac (key m : Term) : A.Infers [key, m] (.hmac key m)
  | hkdf (m : Term) : A.Infers [m] (.hkdf m)
  | gcm (key iv m : Term) : A.Infers [key, iv, m] (.gcm key iv m)
  | gcmIv (key iv m : Term) : A.Infers [.gcm key iv m] iv
  | gcmOpen (key iv m : Term) : A.Infers [key, .gcm key iv m] m
  | logBase (h : A.breaksX25519) (k : Term) : A.Infers [.x25519Base k] k
  | log (h : A.breaksX25519) (k pub : Term) : A.Infers [pub, .x25519 k pub] k
  | mlkemSk (h : A.breaksMlkem) (sk : Term) : A.Infers [.kemPk sk] sk
  | coins (h : A.breaksMlkem) (pk coins : Term) : A.Infers [.kemCt pk coins] coins

end HybridPqc.Symbolic
