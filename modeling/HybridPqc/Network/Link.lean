import HybridPqc.Network.World

/-!
# A lossy but honest link

One client and the server, joined by a network that loses telemetry requests and replies but never
alters, duplicates or reorders them, in the midst of the traffic of others. The client waits for each
reply, so at most one message is in flight. The steps of the two parties are events of the world.
-/

open GuardedRuns

namespace HybridPqc

/-- `send_http_post`: what the client reads of a reply into a buffer of `size` bytes. -/
def sendHttpPost (size : Nat) (reply : HttpReply) : Option Bytes :=
  if reply.status ≠ 200 then none else some (reply.body.take size)

/-- `sizeof(response_buf)`. -/
def responseBufSize : Nat := 16 + 32 + 1088 + 64

/-- `sizeof(response_telemetry)`. -/
def telemetryBufSize : Nat := 256

/-! ## Telemetry -/

/-- The world, what is in flight between the client and the server, and the telemetry sent and
delivered so far, oldest first. -/
structure Link where
  world : World
  /-- A posted body on its way to the server, and the telemetry in it. -/
  request : Option (Bytes × TelemetryData)
  /-- A reply on its way to the client, and the telemetry that it answers. -/
  reply : Option (HttpReply × TelemetryData)
  sent : List TelemetryData
  /-- What reached the server, with the time that the server reads off its clock. -/
  delivered : List (DateTime × TelemetryData)

/-- What can happen on the link. -/
inductive LinkEvent where
  /-- The client goes through one iteration of its loop, up to the post. -/
  | send (env : Device.SendEnv)
  /-- The request in flight reaches the server. -/
  | deliver (env : TelemetryEnv)
  /-- The reply in flight reaches the client. -/
  | answer (env : DecryptEnv)
  /-- What is in flight is lost, and the client gives up waiting. -/
  | lose (env : DecryptEnv)
  /-- Something else happens. -/
  | other (e : World.Event)

namespace Link

/-- The link of client `i` after an event. -/
def step (X : Externals) (i : Nat) (l : Link) : LinkEvent → Link
  | .send env =>
    match l.world.clients[i]? with
    | none => l
    | some c =>
      if c.task.phase = .loop then
        let request :=
          (c.task.posted? X (.send env)).map fun body => (body, c.task.nextTelemetry env)
        { l with
          world := l.world.step X (.client i (.send env))
          request := request
          sent := l.sent ++ (request.map Prod.snd).toList }
      else l
  | .deliver env =>
    match l.request with
    | none => l
    | some (body, telemetry) => { l with
        world := l.world.step X (.telemetry env body)
        request := none
        reply := some ((telemetryRoute X env l.world.server body).reply, telemetry)
        delivered := l.delivered ++ [(env.receivedAt, telemetry)] }
  | .answer env =>
    match l.reply with
    | none => l
    | some (reply, _) => { l with
        world := l.world.step X (.client i (.reply env (sendHttpPost telemetryBufSize reply)))
        reply := none }
  | .lose env =>
    if l.request = none ∧ l.reply = none then l
    else { l with
      world := l.world.step X (.client i (.reply env none))
      request := none
      reply := none }
  | .other e => { l with world := l.world.step X e }

end Link

/-! ## The whole exchange -/

/-- One client's exchange with the server: what happens before it, its keys, the draws and library
results of the handshake, and what happens on the link afterwards. -/
structure Exchange where
  before : List World.Event
  mode : Mode
  keys : KeyPairs
  telemetrySeq : UInt32
  /-- Others' events while the request is on its way. -/
  requesting : List World.Event
  serverEnv : HandshakeEnv
  /-- Others' events while the response is on its way. -/
  responding : List World.Event
  clientEnv : ResponseEnv
  events : List LinkEvent

namespace Exchange

variable (X : Externals) (x : Exchange)

/-- The number of the client. -/
def client : Nat := (run (World.step X) World.init x.before).clients.length

/-- The world when the request reaches the server. -/
def requested : World :=
  run (World.step X) World.init
    (x.before ++ .start x.mode x.keys x.telemetrySeq 0 :: x.requesting)

/-- The request of the client. -/
def request : Option Bytes := hybridPackPubkeys X 0 (keyedCtx x.mode x.keys) pubkeyBufSize

/-- The reply of the server to the request. -/
def reply : HttpReply :=
  (handshakeRoute X x.serverEnv (x.requested X).server ((x.request X).getD [])).1

/-- What the client reads of it. -/
def response : Option Bytes := sendHttpPost responseBufSize (x.reply X)

/-- The world when the request has been answered. -/
def answered : World := (x.requested X).step X (.handshake x.serverEnv ((x.request X).getD []))

/-- The world when the response reaches the client. -/
def responded : World := run (World.step X) (x.answered X) x.responding

/-- The link once the client has processed the response. -/
def connected : Link where
  world := (x.responded X).step X (.client (x.client X) (.response x.clientEnv (x.response X)))
  request := none
  reply := none
  sent := []
  delivered := []

/-- The link at the end. -/
def final : Link := run (Link.step X (x.client X)) (x.connected X) x.events

/-! ## Honesty -/

/-- An event that does not concern client `i` or the session `sid`: others' clients, others' sessions,
and handshakes with fresh ids. -/
def Foreign (i : Nat) (sid : Bytes) (w : World) : World.Event → Prop
  | .start _ _ _ _ => True
  | .handshake env body => World.FreshIds w (.handshake env body)
  | .telemetry _ body => body.take 16 ≠ sid
  | .client j _ => j ≠ i

/-- The events of others on the link. -/
def others : LinkEvent → List World.Event
  | .other e => [e]
  | _ => []

/-- What others do on the link is foreign. -/
def ForeignOnLink (i : Nat) (sid : Bytes) (l : Link) (e : LinkEvent) : Prop :=
  ∀ e' ∈ others e, Foreign i sid l.world e'

/-- The key pairs are matched, X25519 gives no all-zero secret, the client's library calls succeed, the
session id is fresh, and others keep to themselves. -/
structure Honest : Prop where
  keys : x.keys.Matched X x.mode
  secret : x.mode.usesX25519 = true →
    (X.x25519 x.serverEnv.x25519Privkey x.keys.x25519Pubkey).isZero = false
  library : x.clientEnv.hmacRet = 0 ∧ x.clientEnv.sharedRet = 0 ∧ x.clientEnv.decapsRet = 0 ∧
    x.clientEnv.hkdfRet = 0
  fresh : World.FreshIds (x.requested X) (.handshake x.serverEnv ((x.request X).getD []))
  requesting : ∀ e ∈ x.requesting, ∀ e', e ≠ .client (x.client X) e'
  responding : Guarded (World.step X) (Foreign (x.client X) x.serverEnv.sessionId.toList)
    (x.answered X) x.responding
  events : Guarded (Link.step X (x.client X))
    (ForeignOnLink (x.client X) x.serverEnv.sessionId.toList) (x.connected X) x.events

end Exchange

/-- The reference exchange over a link that loses nothing. -/
def Reference.exchange : Exchange where
  before := []
  mode := .classical
  keys := keys
  telemetrySeq := 0
  requesting := []
  serverEnv := serverEnv
  responding := []
  clientEnv := clientEnv
  events := [.send sendEnv, .deliver telemetryEnv]

end HybridPqc
