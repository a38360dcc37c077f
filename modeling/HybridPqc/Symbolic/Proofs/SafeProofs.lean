import HybridPqc.Symbolic.Protocol

/-!
# A bound on what the attacker derives

The safe terms for a set of public names: a term is safe if an attacker who has all public names may have it.
The rules do not lead out of the safe terms, whatever is public and whatever was signed.
-/

namespace HybridPqc.Symbolic

open Messages

section Safe

variable (A : Attacker) (pub : Name → Prop) (signed : Term → Prop)

/-- The safe terms. A tag may be on a signed message, and what is encrypted under a key that is not safe may
be anything. -/
def Safe : Term → Prop
  | .name n => pub n
  | .cons a rest => Safe a ∧ Safe rest
  | .x25519Base k => A.breaksX25519 → Safe k
  -- Either of the two private keys gives the secret.
  | .sharedSecret k (.x25519Base k') =>
    Safe k ∧ (A.breaksX25519 → Safe k') ∨ Safe k' ∧ (A.breaksX25519 → Safe k)
  | .sharedSecret k serverPub => Safe k ∧ Safe serverPub
  | .kemPk sk => A.breaksMlkem → Safe sk
  | .kemCt _ coins => A.breaksMlkem → Safe coins
  | .kemSs (.kemPk sk) coins => Safe coins ∨ Safe sk
  | .kemSs _ coins => Safe coins
  | .decapsulated ct sk => Safe ct ∧ Safe sk
  | .hmac key m => Safe key ∧ Safe m ∨ key = .name .handshakePsk ∧ signed m
  | .hkdf m => Safe m
  | .gcm key iv m => Safe iv ∧ (Safe key → Safe m)

variable {A pub signed}

theorem safe_append (a b : Term) :
    Safe A pub signed (a.append b) ↔ Safe A pub signed a ∧ Safe A pub signed b := by
  induction a with
  | cons a rest _ ih => rw [Term.append, Safe, Safe, ih, and_assoc]
  | _ => rfl

theorem safe_sharedSecret {k m : Term} (h : ∀ k', m ≠ .x25519Base k') :
    Safe A pub signed (.sharedSecret k m) ↔ Safe A pub signed k ∧ Safe A pub signed m := by
  cases m with
  | x25519Base k' => exact absurd rfl (h k')
  | _ => exact Iff.rfl

/-- The secret of two key pairs is safe if one end can be computed. -/
theorem safe_x25519 (a b : Term) : Safe A pub signed (Term.x25519 a (.x25519Base b)) ↔
    Safe A pub signed a ∧ (A.breaksX25519 → Safe A pub signed b) ∨
      Safe A pub signed b ∧ (A.breaksX25519 → Safe A pub signed a) := by
  rcases Term.x25519_cases a b with heq | heq
  · rw [heq, Safe]
  · rw [heq, Safe, or_comm]

theorem x25519_of_ne {k m : Term} (h : ∀ k', m ≠ .x25519Base k') : Term.x25519 k m = .sharedSecret k m := by
  cases m with
  | x25519Base k' => exact absurd rfl (h k')
  | _ => rfl

/-- Safe arguments have a safe X25519 secret. -/
theorem Safe.x25519 {k m : Term} (hk : Safe A pub signed k) (hm : Safe A pub signed m) :
    Safe A pub signed (Term.x25519 k m) := by
  by_cases h : ∃ k', m = .x25519Base k'
  · obtain ⟨k', rfl⟩ := h
    exact (safe_x25519 k k').mpr (Or.inl ⟨hk, hm⟩)
  · have hne : ∀ k', m ≠ .x25519Base k' := fun k' heq => h ⟨k', heq⟩
    rw [x25519_of_ne hne]
    exact (safe_sharedSecret hne).mpr ⟨hk, hm⟩

/-- An attacker who computes logarithms finds the private key behind a secret that is safe. -/
theorem Safe.log {k m : Term} (hbreaks : A.breaksX25519) (hm : Safe A pub signed m)
    (h : Safe A pub signed (Term.x25519 k m)) : Safe A pub signed k := by
  by_cases hbase : ∃ k', m = .x25519Base k'
  · obtain ⟨k', rfl⟩ := hbase
    rcases (safe_x25519 k k').mp h with ⟨hk, -⟩ | ⟨-, hk⟩
    · exact hk
    · exact hk hbreaks
  · have hne : ∀ k', m ≠ .x25519Base k' := fun k' heq => hbase ⟨k', heq⟩
    rw [x25519_of_ne hne] at h
    exact ((safe_sharedSecret hne).mp h).1

theorem Safe.kemSs {pk coins : Term} (hcoins : Safe A pub signed coins) :
    Safe A pub signed (.kemSs pk coins) := by
  cases pk with
  | kemPk sk => exact Or.inl hcoins
  | _ => exact hcoins

theorem Safe.kemDec {ct sk : Term} (hct : Safe A pub signed ct) (hsk : Safe A pub signed sk) :
    Safe A pub signed (Term.kemDec ct sk) := by
  rcases Term.kemDec_cases ct sk with heq | ⟨coins, -, heq⟩
  · rw [heq]
    exact ⟨hct, hsk⟩
  · rw [heq]
    exact Or.inr hsk

/-- The rules do not lead out of the safe terms. -/
theorem closed_safe (hknows : ∀ n, A.knows n → pub n) :
    Deduction.Closed A.Infers {t | Safe A pub signed t} := by
  intro ps m hr hps
  have hsafe : ∀ p ∈ ps, Safe A pub signed p := hps
  show Safe A pub signed m
  cases hr with
  | name h => exact hknows _ h
  | append a b => exact (safe_append a b).mpr ⟨hsafe a (by simp), hsafe b (by simp)⟩
  | first _ rest => exact (hsafe (.cons m rest) (by simp)).1
  | rest a _ => exact (hsafe (.cons a m) (by simp)).2
  | x25519Base k => exact fun _ => hsafe k (by simp)
  | x25519 k pk => exact (hsafe k (by simp)).x25519 (hsafe pk (by simp))
  | kemPk sk => exact fun _ => hsafe sk (by simp)
  | kemCt pk coins => exact fun _ => hsafe coins (by simp)
  | kemSs pk coins => exact (hsafe coins (by simp)).kemSs
  | kemDec ct sk => exact (hsafe ct (by simp)).kemDec (hsafe sk (by simp))
  | hmac key t => exact Or.inl ⟨hsafe key (by simp), hsafe t (by simp)⟩
  | hkdf t => exact hsafe t (by simp)
  | gcm key iv t => exact ⟨hsafe iv (by simp), fun _ => hsafe t (by simp)⟩
  | gcmIv key _ t => exact (hsafe (.gcm key m t) (by simp)).1
  | gcmOpen key iv _ => exact (hsafe (.gcm key iv m) (by simp)).2 (hsafe key (by simp))
  | logBase h _ => exact hsafe (.x25519Base m) (by simp) h
  | log h _ pk => exact Safe.log (k := m) (m := pk) h (hsafe pk (by simp)) (hsafe _ (by simp))
  | mlkemSk h _ => exact hsafe (.kemPk m) (by simp) h
  | coins h pk _ => exact hsafe (.kemCt pk m) (by simp) h

end Safe

end HybridPqc.Symbolic
