import HybridPqc.Server.Proofs.TableProofs

/-!
# Where the coins of an encapsulation come from

`randombytes` returns nothing, `mlkem768_encaps` always returns 0, and the server drops that result and
has a fallback of its own, so no failure of the entropy source or of the native library stops a
handshake. Only when the library is loaded and the read is complete does the session rest on an
encapsulation with coins from the source.
-/

namespace HybridPqc

variable {X : Externals} {env : HandshakeEnv}

/-- The entropy source delivers `n` bytes. -/
def UrandomOutcome.Delivers (o : UrandomOutcome) (n : Nat) : Prop :=
  ∃ bytes, o = .read bytes ∧ n ≤ bytes.length

/-- The ciphertext and the secret are one encapsulation to `pk`, whatever the fallback would draw, and
its coins are 32 bytes of the entropy source. -/
def Encapsulated (X : Externals) (env : HandshakeEnv) (pk : ByteArr 1184) : Prop :=
  ∃ (coins : ByteArr 32) (bytes : Bytes), env.urandom = .read bytes ∧ 32 ≤ bytes.length ∧
    coins.toList = bytes.take 32 ∧
    ∀ ct ss, performMlkemEncaps X { env with fallbackCt := ct, fallbackSs := ss } pk =
      X.kemEncDerand pk coins

/-- The handler creates a session whose ML-KEM secret and ciphertext are one encapsulation, or it answers
with nothing or an exception and creates none. -/
def FailsClosed (X : Externals) (env : HandshakeEnv) (s : Server) (body : Bytes) : Prop :=
  let result := handleHandshake X env s body
  (∃ m, result = (.ok (handshakeReply X env m body), established X env m s body) ∧
      (m.usesMlkem = true → Encapsulated X env (clientMlkem m (body.rdrop 32)))) ∨
    (result.1 = .ok [] ∨ ∃ text, result.1 = .error text) ∧ result.2 = s

theorem randombytes_read {n : Nat} (out : ByteArr n) {bytes : Bytes} (h : n ≤ bytes.length) :
    (randombytes out (.read bytes)).toList = bytes.take n := by
  have hlen : (bytes.take n).length = out.toList.length := by
    rw [List.length_take, List.Vector.toList_length]
    omega
  show (ByteArr.ofBytes n (Bytes.overwrite out.toList 0 (bytes.take n))).toList = _
  rw [Bytes.overwrite_all hlen, ByteArr.toList_ofBytes (by rw [List.length_take]; omega)]

/-- An encapsulation takes the native library and a complete read. -/
theorem encapsulated_iff {pk : ByteArr 1184} :
    Encapsulated X env pk ↔ X.libmlkem = true ∧ env.urandom.Delivers 32 := by
  constructor
  · rintro ⟨coins, bytes, hread, hlen, -, hpair⟩
    refine ⟨?_, bytes, hread, hlen⟩
    by_contra hlib
    obtain ⟨ss, hss⟩ := ByteArr.exists_ne (X.kemEncDerand pk coins).2
    have hfallback := hpair env.fallbackCt ss
    rw [performMlkemEncaps, if_neg hlib] at hfallback
    exact hss (congrArg Prod.snd hfallback)
  · rintro ⟨hlib, bytes, hread, hlen⟩
    refine ⟨randombytes env.stack env.urandom, bytes, hread, hlen, ?_, ?_⟩
    · rw [hread, randombytes_read env.stack hlen]
    · intro ct ss
      rw [performMlkemEncaps, if_pos hlib]

/-- What one handshake answers tells the mode it was accepted in. -/
theorem handshakeReply_mode {m m' : Mode} {body : Bytes}
    (h : handshakeReply X env m body = handshakeReply X env m' body) : m = m' := by
  have hlen : m.replyLength = m'.replyLength := by
    have hcong := congrArg List.length h
    rw [handshakeReply_length, handshakeReply_length] at hcong
    omega
  cases m <;> cases m' <;> first | rfl | exact absurd hlen (by decide)

theorem FailsClosed.delivers {s : Server} {body : Bytes} (hclosed : FailsClosed X env s body) {m : Mode}
    (hacc : Accepts X env m body) (hm : m.usesMlkem = true) :
    X.libmlkem = true ∧ env.urandom.Delivers 32 := by
  rw [FailsClosed, handleHandshake_of_accepts hacc] at hclosed
  rcases hclosed with ⟨m', hresult, henc⟩ | ⟨hempty, -⟩
  · have hmode : m = m' := handshakeReply_mode (Except.ok.inj (congrArg Prod.fst hresult))
    subst hmode
    exact encapsulated_iff.mp (henc hm)
  · rcases hempty with hnil | ⟨text, herror⟩
    · exact absurd (Except.ok.inj hnil) (handshakeReply_ne_nil m body)
    · cases herror

/-- The handshake fails closed exactly when it does not get to an encapsulation without the native
library or without 32 bytes of entropy. -/
theorem encaps_fails_closed_iff (X : Externals) (env : HandshakeEnv) (s : Server) (body : Bytes) :
    FailsClosed X env s body ↔
      ∀ m, Accepts X env m body → m.usesMlkem = true →
        X.libmlkem = true ∧ env.urandom.Delivers 32 := by
  constructor
  · intro hclosed m hacc hm
    exact hclosed.delivers hacc hm
  · intro h
    rw [FailsClosed]
    by_cases hex : ∃ m, Accepts X env m body
    · obtain ⟨m, hacc⟩ := hex
      rw [handleHandshake_of_accepts hacc]
      exact .inl ⟨m, rfl, fun hm => encapsulated_iff.mpr (h m hacc hm)⟩
    · obtain ⟨r, he, hr⟩ := handleHandshake_of_refused (fun m hm => hex ⟨m, hm⟩) s
      rw [he]
      exact .inr ⟨hr, rfl⟩

/-- The mode and an ML-KEM public key of zeros, with its tag. -/
def pqcRequest : Bytes := 1 :: List.replicate 1216 0

/-- When `/dev/urandom` cannot be opened, and when the library was not found, a session is created. -/
theorem session_without_entropy :
    (¬ FailsClosed Reference.externals Reference.serverEnv Server.init pqcRequest) ∧
      ¬ FailsClosed { Reference.externals with libmlkem := false }
        { Reference.serverEnv with urandom := .read (List.replicate 32 0) } Server.init
        pqcRequest := by
  have hacc : Accepts Reference.externals Reference.serverEnv .pqc pqcRequest := by decide +kernel
  have hacc' : Accepts { Reference.externals with libmlkem := false }
      { Reference.serverEnv with urandom := .read (List.replicate 32 0) } .pqc pqcRequest := by
    decide +kernel
  have hopen : ¬ UrandomOutcome.openFailed.Delivers 32 := by
    rintro ⟨bytes, hread, -⟩
    cases hread
  constructor
  · intro hclosed
    exact hopen (hclosed.delivers hacc rfl).2
  · intro hclosed
    exact absurd (hclosed.delivers hacc' rfl).1 (by decide)

end HybridPqc
