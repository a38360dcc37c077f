import HybridPqc.Mlkem.Proofs.KemProofs
import HybridPqc.Mlkem.Silent
import HybridPqc.Network.Proofs.ExchangeProofs

/-!
# A handshake with the ML-KEM core

The key encapsulation of the two programs is no longer a parameter here but the model of the core that is linked into
both. Decapsulation is then not always right, and the handshake does not notice when it is wrong.
-/

namespace HybridPqc

open Mlkem

/-- The functions with the ML-KEM core `S`; a call that returns takes no more than `fuel` rounds of sampling. -/
def Externals.withMlkem (X : Externals) (S : Symmetric) (fuel : Nat) : Externals :=
  { X with
    kemKeypairDerand := fun random => (mlkem768Keypair S fuel random).getD (ByteArr.zero 1184, ByteArr.zero 2400)
    kemEncDerand := fun pk random => (mlkem768Encaps S fuel pk random).getD (ByteArr.zero 1088, ByteArr.zero 32)
    kemDec := fun ct sk => (mlkem768Decaps S fuel ct sk).getD (ByteArr.zero 32)
    libmlkem := true }

variable {X : Externals} {S : Symmetric} {fuel : Nat}

/-! ## The secrets -/

/-- What the server encapsulates to a generated key, and what the client decapsulates. -/
theorem kem_withMlkem (X : Externals) {seed : ByteArr 64} {pk : ByteArr 1184} {sk : ByteArr 2400} {a : Polymat}
    (ha : genMatrix S fuel (publicSeed S seed.toList) false = some a)
    (hkey : mlkem768Keypair S fuel seed = some (pk, sk)) (m : ByteArr 32) :
    ((X.withMlkem S fuel).kemEncDerand pk m).2 = messageKey S a seed.toList m.toList ∧
      (X.withMlkem S fuel).kemDec ((X.withMlkem S fuel).kemEncDerand pk m).1 sk =
        answer S a seed.toList m.toList := by
  have hrun := cryptoKem_roundTrip S fuel seed m
  rw [← mlkem768Keypair, hkey, ha, Option.bind_some, Option.map_some, Option.bind_eq_some_iff] at hrun
  rcases hrun with ⟨⟨ct, ss⟩, henc, hdec⟩
  rcases Option.map_eq_some_iff.mp hdec with ⟨ss', hdec, hpair⟩
  rcases Prod.mk.inj hpair with ⟨hss, hss'⟩
  have henc' : (X.withMlkem S fuel).kemEncDerand pk m = (ct, ss) := congrArg (Option.getD · _) henc
  rw [henc']
  exact ⟨hss, (congrArg (Option.getD · _) hdec).trans hss'⟩

/-- The keys that `hybrid_keygen` stores in a mode with ML-KEM: an X25519 key pair if the mode uses one, and what
`mlkem768_keypair` gives for the random bytes `seed`. -/
structure KeyPairs.Generated (X : Externals) (S : Symmetric) (fuel : Nat) (mode : Mode) (keys : KeyPairs)
    (seed : ByteArr 64) : Prop where
  x25519 : mode.usesX25519 = true → keys.x25519Pubkey = X.x25519Base keys.x25519Privkey
  mlkem : mlkem768Keypair S fuel seed = some (keys.mlkemPk, keys.mlkemSk)

theorem KeyPairs.Generated.matched {mode : Mode} {keys : KeyPairs} {seed : ByteArr 64}
    (h : keys.Generated X S fuel mode seed) : keys.Matched (X.withMlkem S fuel) mode where
  x25519 := h.x25519
  mlkem _ := by
    refine ⟨seed, ?_, ?_⟩ <;> simp only [Externals.withMlkem, h.mlkem, Option.getD_some]

/-- The secrets of the X25519 component, which come first. -/
def x25519Secrets (X : Externals) (mode : Mode) (keys : KeyPairs) (env : HandshakeEnv) : List (ByteArr 32) :=
  if mode.usesX25519 then [X.x25519 env.x25519Privkey keys.x25519Pubkey] else []

/-- Both ends derive their keys from the X25519 secret and the two results of the key encapsulation. -/
theorem secrets_withMlkem (hcomm : X.X25519Comm) {mode : Mode} (hmode : mode.usesMlkem = true) {keys : KeyPairs}
    {seed : ByteArr 64} (hkeys : keys.Generated X S fuel mode seed) {a : Polymat}
    (ha : genMatrix S fuel (publicSeed S seed.toList) false = some a) (env : HandshakeEnv) (rest : Bytes) :
    let X' := X.withMlkem S fuel
    let m := randombytes env.stack env.urandom
    let data := clientData (keyedCtx mode keys)
    replySecrets X' env mode data = x25519Secrets X mode keys env ++ [messageKey S a seed.toList m.toList] ∧
    clientSecrets X' (keyedCtx mode keys) (replyData X' env mode data ++ rest) =
      x25519Secrets X mode keys env ++ [answer S a seed.toList m.toList] := by
  intro X' m data
  rcases kem_withMlkem X ha hkeys.mlkem m with ⟨henc, hdec⟩
  have hpk : clientMlkem mode data = keys.mlkemPk := clientMlkem_clientData (keyedCtx mode keys) hmode
  have hencaps : performMlkemEncaps X' env (clientMlkem mode data) = X'.kemEncDerand keys.mlkemPk m := by
    rw [performMlkemEncaps, if_pos (show X'.libmlkem = true from rfl), hpk]
  have hserver : (if mode.usesX25519 then [X'.x25519 env.x25519Privkey (clientX25519 data)] else []) =
      x25519Secrets X mode keys env := by
    rw [x25519Secrets]
    split
    · rw [show clientX25519 data = keys.x25519Pubkey from clientX25519_clientData _ ‹_›]
      rfl
    · rfl
  have hclient : (if mode.usesX25519 then
      [X'.x25519 keys.x25519Privkey (serverX25519 (replyData X' env mode data ++ rest))] else []) =
      x25519Secrets X mode keys env := by
    rw [x25519Secrets]
    split
    · rw [serverX25519_reply ‹_›, hkeys.x25519 ‹_›]
      exact congrArg (fun secret => [secret]) (hcomm _ _)
    · rfl
  constructor
  · rw [replySecrets, hserver, if_pos hmode, hencaps, henc]
  · have hct : serverCiphertext mode (replyData X' env mode data ++ rest) = (X'.kemEncDerand keys.mlkemPk m).1 := by
      rw [serverCiphertext_reply hmode, hencaps]
    refine congrArg₂ (· ++ ·) hclient ?_
    show (if mode.usesMlkem then
      [X'.kemDec (serverCiphertext mode (replyData X' env mode data ++ rest)) keys.mlkemSk] else []) = _
    rw [if_pos hmode, hct, hdec]

/-! ## The handshake -/

/-- A handshake in a mode with ML-KEM: the server answers the client's request and stores a session, and the client
accepts the answer, whatever decapsulation gave. The session keys come from the X25519 secret, the key that the server
encapsulated and the one that the client decapsulated, and they are equal if the noise of the encryption is small. -/
theorem mlkem_handshake (hcomm : X.X25519Comm) {mode : Mode} (hmode : mode.usesMlkem = true) {keys : KeyPairs}
    {seed : ByteArr 64} (hkeys : keys.Generated X S fuel mode seed) (env : HandshakeEnv)
    (hsecret : mode.usesX25519 = true → (X.x25519 env.x25519Privkey keys.x25519Pubkey).isZero = false)
    (cenv : ResponseEnv) (hlibrary : cenv.hmacRet = 0 ∧ cenv.sharedRet = 0 ∧ cenv.decapsRet = 0 ∧ cenv.hkdfRet = 0)
    (s : Server) :
    let X' := X.withMlkem S fuel
    let m := randombytes env.stack env.urandom
    ∃ a request response s', genMatrix S fuel (publicSeed S seed.toList) false = some a ∧
      hybridPackPubkeys X' 0 (keyedCtx mode keys) pubkeyBufSize = some request ∧
      handleHandshake X' env s request = (.ok response, s') ∧
      let result := hybridProcessServerResponse X' cenv (keyedCtx mode keys) response
      result.ret = 0 ∧
      s'.sessions.get? env.sessionId.toList = some (deriveSessionKey X
        (x25519Secrets X mode keys env ++ [messageKey S a seed.toList m.toList])) ∧
      result.ctx.sessionKey = deriveSessionKey X
        (x25519Secrets X mode keys env ++ [answer S a seed.toList m.toList]) ∧
      ((exchange S a seed.toList m.toList).SmallNoise →
        s'.sessions.get? env.sessionId.toList = some result.ctx.sessionKey) := by
  intro X' m
  have hcomm' : X'.X25519Comm := hcomm
  obtain ⟨a, ha⟩ : ∃ a, genMatrix S fuel (publicSeed S seed.toList) false = some a := by
    have hkey := hkeys.mlkem
    rw [mlkem768Keypair, cryptoKemKeypairDerand_eq, Option.map_eq_some_iff] at hkey
    rcases hkey with ⟨a, ha, -⟩
    exact ⟨a, ha⟩
  have hacc : Accepts X' env mode (helloOf X' (keyedCtx mode keys)) := accepts_helloOf hsecret
  have hagree : Agrees X' cenv (keyedCtx mode keys) (handshakeReply X' env mode (helloOf X' (keyedCtx mode keys))) :=
    agrees_handshakeReply hcomm' hkeys.matched hsecret hlibrary
  have hsecrets := secrets_withMlkem hcomm hmode hkeys ha env
  have hserver : replyKey X' env mode (clientData (keyedCtx mode keys)) = deriveSessionKey X
      (x25519Secrets X mode keys env ++ [messageKey S a seed.toList m.toList]) := by
    rw [replyKey, (hsecrets []).1]
    rfl
  have hclient : clientKey X' (keyedCtx mode keys) (handshakeReply X' env mode (helloOf X' (keyedCtx mode keys))) =
      deriveSessionKey X (x25519Secrets X mode keys env ++ [answer S a seed.toList m.toList]) := by
    rw [handshakeReply, helloOf_rdrop, clientKey, (hsecrets _).2]
    rfl
  have hstored : (established X' env mode s (helloOf X' (keyedCtx mode keys))).sessions.get? env.sessionId.toList =
      some (deriveSessionKey X (x25519Secrets X mode keys env ++ [messageKey S a seed.toList m.toList])) := by
    rw [established, Server.createSession_get?_self, helloOf_rdrop, hserver]
  refine ⟨a, _, _, _, ha, (hybridPackPubkeys_eq 0 (keyedCtx mode keys)).trans (if_pos rfl),
    handleHandshake_of_accepts hacc s, ?_⟩
  dsimp only
  rw [hybridProcessServerResponse_of_agrees hagree]
  refine ⟨rfl, hstored, hclient, fun hnoise => ?_⟩
  rw [hstored, ← answer_eq S m.toList_length hnoise, ← hclient]
  rfl

/-- A client's keys for the silent symmetric layer, with the X25519 keys of the reference exchange. -/
theorem Reference.exists_keys : ∃ keys : KeyPairs, keys.Generated externals silent 1 .hybrid (ByteArr.zero 64) ∧
    (externals.x25519 serverEnv.x25519Privkey keys.x25519Pubkey).isZero = false := by
  have hkey := cryptoKemKeypairDerand_eq silent 1 (ByteArr.zero 64)
  rw [genMatrix_silent, Option.map_some] at hkey
  exact ⟨⟨clientPrivkey, clientPubkey, _, _⟩, ⟨fun _ => by decide +kernel, hkey⟩, by decide +kernel⟩

theorem mlkem_handshake_reference : ∃ keys request response s',
    let X' := Reference.externals.withMlkem silent 1
    let ctx := keyedCtx .hybrid keys
    hybridPackPubkeys X' 0 ctx pubkeyBufSize = some request ∧
    handleHandshake X' Reference.serverEnv Server.init request = (.ok response, s') ∧
    (hybridProcessServerResponse X' Reference.clientEnv ctx response).ret = 0 ∧
    s'.sessions.get? Reference.sessionId.toList =
      some (hybridProcessServerResponse X' Reference.clientEnv ctx response).ctx.sessionKey := by
  rcases Reference.exists_keys with ⟨keys, hkeys, hsecret⟩
  rcases mlkem_handshake Reference.x25519Comm rfl hkeys Reference.serverEnv (fun _ => hsecret)
    Reference.clientEnv ⟨rfl, rfl, rfl, rfl⟩ Server.init with
    ⟨a, request, response, s', ha, hpack, hserver, hret, -, -, hequal⟩
  exact ⟨keys, request, response, s', hpack, hserver, hret,
    hequal (smallNoise_silent a (canonical_genMatrix ha) _ _ _)⟩

end HybridPqc
