import HybridPqc.Network.World
import HybridPqc.Symbolic.Protocol

/-!
# Terms as byte strings

A term stands for the byte string that the two programs compute, once the random draws are fixed. Runs of
the symbolic protocol and runs of the network then go side by side.
-/

namespace HybridPqc.Symbolic

open Messages

/-- What is drawn at random: by client `i`, by the server for its session `j`, and the rest. -/
structure Draws where
  clientPrivkey : Nat → ByteArr 32
  /-- The random bytes of an ML-KEM key pair. -/
  mlkemSeed : Nat → ByteArr 64
  server : Nat → HandshakeEnv
  iv : Nat → ByteArr 12
  payload : Nat → Bytes
  guess : Nat → Bytes

namespace Draws

variable (X : Externals) (d : Draws)

/-- The keys that `hybrid_keygen` makes of the draws of client `i`. -/
def keys (i : Nat) : KeyPairs where
  x25519Privkey := d.clientPrivkey i
  x25519Pubkey := X.x25519Base (d.clientPrivkey i)
  mlkemPk := (X.kemKeypairDerand (d.mlkemSeed i)).1
  mlkemSk := (X.kemKeypairDerand (d.mlkemSeed i)).2

def name : Name → Bytes
  | .handshakePsk => HybridPqc.handshakePsk
  | .mode mode => [mode.toByte]
  | .clientPrivkey i => (d.clientPrivkey i).toList
  | .mlkemSk i => (d.mlkemSeed i).toList
  | .serverPrivkey j => (d.server j).x25519Privkey.toList
  | .coins j => (randombytes (d.server j).stack (d.server j).urandom).toList
  | .sessionId j => (d.server j).sessionId.toList
  | .iv n => (d.iv n).toList
  | .payload n => d.payload n
  | .guess n => d.guess n

/-- The byte strings, with the functions that the programs call. -/
def messages : Messages Bytes where
  name := d.name
  append := (· ++ ·)
  x25519Base k := (X.x25519Base (ByteArr.ofBytes 32 k)).toList
  x25519 k pub := (X.x25519 (ByteArr.ofBytes 32 k) (ByteArr.ofBytes 32 pub)).toList
  kemPk seed := (X.kemKeypairDerand (ByteArr.ofBytes 64 seed)).1.toList
  kemCt pk coins := (X.kemEncDerand (ByteArr.ofBytes 1184 pk) (ByteArr.ofBytes 32 coins)).1.toList
  kemSs pk coins := (X.kemEncDerand (ByteArr.ofBytes 1184 pk) (ByteArr.ofBytes 32 coins)).2.toList
  kemDec ct seed :=
    (X.kemDec (ByteArr.ofBytes 1088 ct) (X.kemKeypairDerand (ByteArr.ofBytes 64 seed)).2).toList
  hmac key m := (X.hmacSha256 key m).toList
  hkdf m := (X.hkdfSha256 hkdfSalt m hkdfInfo).toList
  gcm key iv m := Sealing.packet X ⟨ByteArr.ofBytes 32 key, ByteArr.ofBytes 12 iv, m⟩

/-- The byte string that a term stands for. -/
def eval (t : Term) : Bytes := (d.messages X).eval t

/-- The components of key material have their sizes, with `n` bytes for ML-KEM. -/
def Sized (mode : Mode) (n : Nat) (k : Term × Term) : Prop :=
  (mode.usesX25519 = true → (d.eval X k.1).length = 32) ∧
    (mode.usesMlkem = true → (d.eval X k.2).length = n)

/-! ## The states -/

/-- The client of the network stands where the symbolic one does. -/
inductive StatusAs (c : HybridPqc.Client) : ClientStatus → Prop where
  | waiting (hphase : c.task.phase = .handshake) : StatusAs c .waiting
  | agreed {sid key : Term} {response : Bytes} {k : ByteArr 32} (hphase : c.task.phase ≠ .handshake)
    (h : c.agreed = some (response, k)) (hsid : response.take 16 = d.eval X sid)
    (hkey : k.toList = d.eval X key) : StatusAs c (.agreed sid key)
  | failed (hphase : c.task.phase = .done) (h : c.agreed = none) : StatusAs c .failed

structure ClientAs (i : Nat) (c : Client) (c' : HybridPqc.Client) : Prop where
  mode_eq : c'.mode = c.mode
  keys_eq : c'.keys = d.keys X i
  status : d.StatusAs X c' c.status

structure SessionAs (j : Nat) (session : Session) (t : HybridPqc.Session) : Prop where
  sid_eq : t.sid = (d.server j).sessionId.toList
  data_eq : t.request.rdrop 32 = d.eval X session.data
  response_eq : t.response = d.eval X (terms.response session.data session.reply)
  key_eq : t.key.toList = d.eval X session.key

/-- A party of the network has sent the string, or it is the pre-shared key. -/
inductive Sent (w : World) : Bytes → Prop where
  | psk : Sent w HybridPqc.handshakePsk
  | request {i : Nat} {c : HybridPqc.Client} (h : w.clients[i]? = some c) : Sent w c.request
  | response {t : HybridPqc.Session} (h : t ∈ w.sessions) : Sent w t.response
  | telemetry {i : Nat} {e : Sealing} {sid : Bytes} (h : (Sender.client i, e) ∈ w.sealings)
    (hc : ∃ (c : HybridPqc.Client) (response : Bytes) (k : ByteArr 32), w.clients[i]? = some c ∧
      c.agreed = some (response, k) ∧ sid = response.take 16) : Sent w (sid ++ e.packet X)
  | ack {j : Nat} {e : Sealing} (h : (Sender.server j, e) ∈ w.sealings) : Sent w (e.packet X)

/-- The state of the network is what the symbolic state stands for. -/
structure Simulates (s : State) (w : World) : Prop where
  clients : w.clients.length = s.clients.length
  client : ∀ (i : Nat) (c : Client), s.clients[i]? = some c →
    ∃ c', w.clients[i]? = some c' ∧ d.ClientAs X i c c'
  sessions : w.sessions.length = s.sessions.length
  session : ∀ (j : Nat) (session : Session), s.sessions[j]? = some session →
    ∃ t, w.sessions[j]? = some t ∧ d.SessionAs X j session t
  ids : (w.sessions.map HybridPqc.Session.sid).Nodup
  signed : w.signed = s.signed.map (d.eval X)
  network : ∀ m ∈ s.network, Sent X w (d.eval X m)

/-! ## The steps -/

/-- Session `j` reads whole keys off the request if the symbolic one does, and X25519 does not give the all-zero
secret; and both refuse it otherwise. -/
structure RequestAs (j : Nat) (m : Term) : Prop where
  sized : ∀ session, answer j m = some session →
    d.Sized X session.mode 1184 (session.x25519Pubkey, session.mlkemPk)
  secret : ∀ session, answer j m = some session → session.mode.usesX25519 = true →
    (X.x25519 (d.server j).x25519Privkey (ByteArr.ofBytes 32 (d.eval X session.x25519Pubkey))).isZero = false
  refused : answer j m = none → ∀ mode, ¬Accepts X (d.server j) mode (d.eval X m)

/-- The same for the response to client `i`, and all library calls succeed. -/
structure ResponseAs (env : ResponseEnv) (mode : Mode) (i : Nat) (m : Term) : Prop where
  library : env.hmacRet = 0 ∧ env.sharedRet = 0 ∧ env.decapsRet = 0 ∧ env.hkdfRet = 0
  sized : ∀ sid keys k, m = terms.response (terms.clientHello mode i) (.cons sid keys) →
    split mode keys = some k → (d.eval X sid).length = 16 ∧ d.Sized X mode 1088 k
  secret : ∀ sid keys k, m = terms.response (terms.clientHello mode i) (.cons sid keys) →
    split mode keys = some k → mode.usesX25519 = true →
      (X.x25519 (d.clientPrivkey i) (ByteArr.ofBytes 32 (d.eval X k.1))).isZero = false
  refused : process mode i m = none → ¬Agrees X env (keyedCtx mode (d.keys X i)) (d.eval X m)

/-- Events of the two protocols that go together. The network may also go on alone. -/
inductive Realises (s : State) (w : World) : Option Event × Option World.Event → Prop where
  | start (mode : Mode) (seq : UInt32) :
    Realises s w (some (.start mode), some (.start mode (d.keys X s.clients.length) seq 0))
  | request {m : Term} (h : d.RequestAs X s.sessions.length m)
    (hfresh : World.FreshIds w (.handshake (d.server s.sessions.length) (d.eval X m))) :
    Realises s w (some (.request m), some (.handshake (d.server s.sessions.length) (d.eval X m)))
  | response {i : Nat} {m : Term} {env : ResponseEnv}
    (h : ∀ mode, s.clients[i]? = some ⟨mode, .waiting⟩ → d.ResponseAs X env mode i m) :
    Realises s w (some (.response i m), some (.client i (.response env (some (d.eval X m)))))
  /-- The client posts this payload. -/
  | send {i iv n : Nat} {env : Device.SendEnv}
    (h : ∀ mode sid key, s.Agreed i mode sid key → ∃ c body, w.clients[i]? = some c ∧
      c.task.posted? X (.send env) = some body ∧ (c.task.nextSealing env).iv = d.iv iv ∧
        (c.task.nextSealing env).plaintext = d.payload n) :
    Realises s w (some (.send i iv n), some (.client i (.send env)))
  /-- The server acknowledges with this payload. -/
  | telemetry {m : Term} {iv n : Nat} {env : TelemetryEnv}
    (h : ∀ j key, opens s.sessions m = some (j, key) →
      ∃ ack, (telemetryRoute X env w.server (d.eval X m)).ack = some ack ∧ ack.iv = d.iv iv ∧
        ack.plaintext = d.payload n) :
    Realises s w (some (.telemetry m iv n), some (.telemetry env (d.eval X m)))
  | leak : Realises s w (some .leak, none)
  | sendAlone (i : Nat) (env : Device.SendEnv) : Realises s w (none, some (.client i (.send env)))
  | replyAlone (i : Nat) (env : DecryptEnv) (bytes : Option Bytes) :
    Realises s w (none, some (.client i (.reply env bytes)))
  | telemetryAlone (env : TelemetryEnv) (body : Bytes) : Realises s w (none, some (.telemetry env body))

/-- One step of the two protocols. -/
def step (p : State × World) (e : Option Event × Option World.Event) : State × World :=
  (e.1.elim p.1 p.1.step, e.2.elim p.2 (World.step X p.2))

end Draws

end HybridPqc.Symbolic
