import HybridPqc.Device.Proofs.TaskProofs
import HybridPqc.Lib.GuardedRuns
import HybridPqc.Server.Proofs.AckProofs
import HybridPqc.Server.Proofs.TableProofs

/-!
# The network

Any number of clients, one server, and an attacker who carries every message: an event delivers an
arbitrary byte string to one of the parties, so dropping, reordering, replaying, splicing and injecting
are all runs of this system. The world keeps, next to the state of the parties, the history that the
security properties speak about. What the attacker cannot do is a condition on the events: forge a tag
(`MacIdeal`) or a packet (`GcmIdeal`).
-/

namespace HybridPqc

/-! ## History -/

/-- A client: one pass of the task, from a context with fresh keys. -/
structure Client where
  mode : Mode
  keys : KeyPairs
  /-- The handshake request it sent. -/
  request : Bytes
  task : Device
  /-- The response that completed its handshake, and the session key. -/
  agreed : Option (Bytes × ByteArr 32)
  /-- The telemetry body posted last. -/
  posted : Bytes

/-- The handshake that an event completes, given the task before and after it: the response and the
session key. -/
def completed (task task' : Device) : DeviceEvent → Option (Bytes × ByteArr 32)
  | .response _ (some bytes) =>
    if task.phase = .handshake ∧ task'.phase = .loop then some (bytes, task'.ctx.sessionKey) else none
  | _ => none

/-- The client after an event at its task. -/
def Client.next (X : Externals) (c : Client) (e : DeviceEvent) : Client :=
  { c with
    task := c.task.step X e
    agreed := (completed c.task (c.task.step X e) e).or c.agreed
    posted := (c.task.posted? X e).getD c.posted }

/-- A completed `handle_handshake`: what it was called on, and the session it created. -/
structure Session where
  request : Bytes
  sid : Bytes
  key : ByteArr 32
  response : Bytes

/-- Who encrypted a packet: a client, or the server under its session of this number. -/
inductive Sender where
  | client (i : Nat)
  | server (k : Nat)
  deriving DecidableEq

/-- A record appended to the telemetry log: the number of the session, the packet it came in, and the
acknowledgement encrypted for it. -/
structure Acceptance where
  session : Nat
  packet : Bytes
  record : List (PyStr × Json)
  ack : Option Sealing

/-- The parties and the history. -/
structure World where
  server : Server
  clients : List Client
  /-- The strings that a holder of the pre-shared key put a tag on. -/
  signed : List Bytes
  /-- The sessions created, numbered in the order of their creation. -/
  sessions : List Session
  /-- The number of the session created last with an id. -/
  current : Bytes → Nat
  /-- The encryptions performed. -/
  sealings : List (Sender × Sealing)
  /-- The records logged. -/
  accepted : List Acceptance

namespace World

/-- Before anything happens. -/
def init : World where
  server := Server.init
  clients := []
  signed := []
  sessions := []
  current := fun _ => 0
  sealings := []
  accepted := []

/-! ## Events -/

/-- What can happen next. -/
inductive Event where
  /-- A client generates its keys and sends its request; `hmacRet` is the result of its HMAC. -/
  | start (mode : Mode) (keys : KeyPairs) (telemetrySeq : UInt32) (hmacRet : Int)
  /-- A body arrives at `/handshake`. -/
  | handshake (env : HandshakeEnv) (body : Bytes)
  /-- A body arrives at `/api/telemetry`. -/
  | telemetry (env : TelemetryEnv) (body : Bytes)
  /-- Something happens at a client: a reply arrives, or its loop goes on. -/
  | client (i : Nat) (e : DeviceEvent)

/-- A client starts. -/
def onStart (X : Externals) (mode : Mode) (keys : KeyPairs) (telemetrySeq : UInt32) (hmacRet : Int)
    (w : World) : World :=
  let ctx := keyedCtx mode keys
  match hybridPackPubkeys X hmacRet ctx pubkeyBufSize with
  | none => w
  | some request => { w with
      clients := w.clients ++ [⟨mode, keys, request, Device.start ctx telemetrySeq, none, []⟩]
      signed := w.signed ++ [request.rdrop 32] }

/-- The server answers a handshake request. -/
def onHandshake (X : Externals) (env : HandshakeEnv) (body : Bytes) (w : World) : World :=
  let result := handleHandshake X env w.server body
  match result.1 with
  | .ok (b :: rest) =>
    let sid := env.sessionId.toList
    { w with
      server := result.2
      signed := w.signed ++ [body.rdrop 32 ++ (b :: rest).rdrop 32]
      sessions := w.sessions ++
        [⟨body, sid, (result.2.sessions.get? sid).getD (ByteArr.zero 32), b :: rest⟩]
      current := fun sid' => if sid' = sid then w.sessions.length else w.current sid' }
  | _ => { w with server := result.2 }

/-- The server answers a telemetry request. -/
def onTelemetry (X : Externals) (env : TelemetryEnv) (body : Bytes) (w : World) : World :=
  let result := telemetryRoute X env w.server body
  let session := w.current (body.take 16)
  { w with
    server := result.server
    sealings := w.sealings ++ (result.ack.map fun ack => (.server session, ack)).toList
    accepted := w.accepted ++ (appended w.server result.server).filterMap fun
      | .obj record => some ⟨session, body.drop 16, record, result.ack⟩
      | _ => none }

/-- Something happens at a client. -/
def onClient (X : Externals) (i : Nat) (e : DeviceEvent) (w : World) : World :=
  match w.clients[i]? with
  | none => w
  | some c => { w with
      clients := w.clients.set i (c.next X e)
      sealings := w.sealings ++
        ((c.task.sealing? X e).map fun sealing => (.client i, sealing)).toList }

/-- The world after an event. -/
def step (X : Externals) (w : World) : Event → World
  | .start mode keys telemetrySeq hmacRet => w.onStart X mode keys telemetrySeq hmacRet
  | .handshake env body => w.onHandshake X env body
  | .telemetry env body => w.onTelemetry X env body
  | .client i e => w.onClient X i e

/-! ## What the attacker cannot do -/

/-- A tag verifies only on a string that a holder of the pre-shared key put it on. -/
def MacIdeal (X : Externals) (w : World) : Event → Prop
  | .handshake _ body =>
    body.rtake 32 = (X.hmacSha256 serverPsk (body.rdrop 32)).toList → body.rdrop 32 ∈ w.signed
  | .client i (.response _ (some bytes)) => ∀ c, w.clients[i]? = some c →
    (X.hmacSha256 handshakePsk (clientData c.task.ctx ++ bytes.rdrop 32)).toList = bytes.rtake 32 →
      clientData c.task.ctx ++ bytes.rdrop 32 ∈ w.signed
  | _ => True

/-- Somebody encrypted this packet under this key. -/
def Produced (X : Externals) (w : World) (key : ByteArr 32) (packet : Bytes) : Prop :=
  ∃ p ∈ w.sealings, p.2.key = key ∧ p.2.packet X = packet

/-- A packet opens under a session key only if somebody encrypted it under that key. -/
def GcmIdeal (X : Externals) (w : World) : Event → Prop
  | .telemetry _ body => ∀ key plaintext, w.server.sessions.get? (body.take 16) = some key →
    openPacket X key (body.drop 16) = some plaintext → Produced X w key (body.drop 16)
  | .client i (.reply _ (some reply)) => ∀ c plaintext, w.clients[i]? = some c →
    c.task.phase = .posted → openPacket X c.task.ctx.sessionKey reply = some plaintext →
      Produced X w c.task.ctx.sessionKey reply
  | _ => True

/-! ## What random draws do not repeat -/

/-- Distinct sessions have distinct ids and keys, at the server and at the clients. -/
def DistinctSessions (X : Externals) (w : World) : Event → Prop
  | .handshake env body => ∀ m, Accepts X env m body → ∀ s ∈ w.sessions,
    env.sessionId.toList ≠ s.sid ∧ replyKey X env m (body.rdrop 32) ≠ s.key
  | .client i (.response env (some bytes)) => ∀ c, w.clients[i]? = some c →
    Agrees X env c.task.ctx bytes → ∀ j c' response key, j ≠ i → w.clients[j]? = some c' →
      c'.agreed = some (response, key) → clientKey X c.task.ctx bytes ≠ key
  | _ => True

/-- A client's keys are matched, and its public keys differ from those of the clients before it. -/
def FreshKeys (X : Externals) (w : World) : Event → Prop
  | .start mode keys _ _ => keys.Matched X mode ∧ ∀ c ∈ w.clients,
    (mode.usesX25519 = true → c.mode.usesX25519 = true → keys.x25519Pubkey ≠ c.keys.x25519Pubkey) ∧
      (mode.usesMlkem = true → c.mode.usesMlkem = true → keys.mlkemPk ≠ c.keys.mlkemPk)
  | _ => True

/-- The server does not draw a session id twice. -/
def FreshIds (w : World) : Event → Prop
  | .handshake env _ => ∀ s ∈ w.sessions, env.sessionId.toList ≠ s.sid
  | _ => True

/-! ## Views of the history -/

/-- The encryptions of one sender, in order. -/
def sealingsOf (w : World) (sender : Sender) : List Sealing :=
  (w.sealings.filter fun p => p.1 = sender).map Prod.snd

/-- The records logged for one session, in order. -/
def acceptedOf (w : World) (session : Nat) : List Acceptance :=
  w.accepted.filter fun a => a.session = session

end World

/-! ## The reference exchange -/

namespace Reference

def keys : KeyPairs := ⟨clientPrivkey, clientPubkey, ByteArr.zero 1184, ByteArr.zero 2400⟩

def clientEnv : ResponseEnv := ⟨0, 0, 0, 0, ByteArr.zero 64, ByteArr.zero 32⟩

def sendEnv : Device.SendEnv := ⟨5, 15, ⟨0, 0, bytes 8 0x0102030405060708⟩⟩

/-- A client's handshake, one packet and its acknowledgement. -/
def events : List World.Event :=
  [.start .classical keys 0 0, .handshake serverEnv request, .client 0 (.response clientEnv (some response)),
    .client 0 (.send sendEnv), .telemetry telemetryEnv (sessionId.toList ++ packet),
    .client 0 (.reply ⟨0, 0⟩ (some ack))]

/-- The world after the first `n` events. -/
def world (n : Nat) : World := GuardedRuns.run (World.step externals) World.init (events.take n)

end Reference

end HybridPqc
