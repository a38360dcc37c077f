import HybridPqc.Lib.Deduction
import HybridPqc.Symbolic.Messages

/-!
# The symbolic protocol

Any number of clients and sessions of the server over terms. The attacker carries every message: it sees all
that is sent and delivers whatever it can derive. The pre-shared key may leak at some point.
-/

namespace HybridPqc.Symbolic

open Messages

/-- Where a client stands in its handshake. -/
inductive ClientStatus where
  | waiting
  /-- It accepted a response with this session id and derived this key. -/
  | agreed (sid key : Term)
  | failed
  deriving DecidableEq

structure Client where
  mode : Mode
  status : ClientStatus

/-- A session of the server: the handshake data that it answered to, what it read from them, its reply without the
tag, and the key. -/
structure Session where
  data : Term
  mode : Mode
  x25519Pubkey : Term
  mlkemPk : Term
  reply : Term
  key : Term

/-- The parties, and all that was sent. -/
structure State where
  clients : List Client
  sessions : List Session
  network : List Term
  /-- The messages that a party put a tag on. -/
  signed : List Term
  /-- The pre-shared key is known. -/
  leaked : Bool

/-- What can happen next. -/
inductive Event where
  | start (mode : Mode)
  /-- A message arrives at `/handshake`. -/
  | request (m : Term)
  /-- A message arrives at client `i`. -/
  | response (i : Nat) (m : Term)
  /-- Client `i` posts the payload `d`. -/
  | send (i : Nat) (iv d : Nat)
  /-- A message arrives at `/api/telemetry`; `d` is what an acknowledgement says. -/
  | telemetry (m : Term) (iv d : Nat)
  | leak

/-- The message that an event hands to a party. -/
def Event.received : Event → Option Term
  | .request m => some m
  | .response _ m => some m
  | .telemetry m _ _ => some m
  | _ => none

/-- The X25519 and the ML-KEM component at the front of key material, of which the mode may use one only. What
follows them is not looked at. -/
def split (mode : Mode) (keys : Term) : Option (Term × Term) :=
  match mode, keys with
  | .hybrid, .cons x rest => some (x, rest.first)
  | .hybrid, _ => none
  | _, keys => some (keys.first, keys.first)

/-- What stands before the tag, if the tag verifies. -/
def untag (signed : Term → Term) (m : Term) : Option Term :=
  match m.splitLast with
  | some (t, tag) => if tag = .hmac (.name .handshakePsk) (signed t) then some t else none
  | none => none

/-- The mode and the public keys at the front of handshake data. -/
def parseHello (data : Term) : Option (Mode × Term × Term) :=
  match data with
  | .cons (.name (.mode mode)) keys => (split mode keys).map fun k => (mode, k)
  | _ => none

/-- `handle_handshake`: session `j` for a request. -/
def answer (j : Nat) (m : Term) : Option Session := do
  let data ← untag (fun data => data) m
  let (mode, x25519Pubkey, mlkemPk) ← parseHello data
  some
    { data := data
      mode := mode
      x25519Pubkey := x25519Pubkey
      mlkemPk := mlkemPk
      reply := terms.serverReply mode j mlkemPk
      key := terms.serverKey mode j x25519Pubkey mlkemPk }

/-- `hybrid_process_server_response`: session id and key for a response to client `i`. -/
def process (mode : Mode) (i : Nat) (m : Term) : Option (Term × Term) := do
  let reply ← untag (fun reply => (terms.clientHello mode i).append reply) m
  match reply with
  | .cons sid keys => (split mode keys).map fun k => (sid, terms.clientKey mode i k.1 k.2)
  | _ => none

/-- `handle_telemetry`: the session id and the key of the session of this number, if they are the ones of
the message. -/
def opens (sessions : List Session) (m : Term) : Option (Nat × Term) :=
  match m with
  | .cons (.name (.sessionId j)) (.gcm key _ _) =>
    match sessions[j]? with
    | some session => if session.key = key then some (j, key) else none
    | none => none
  | _ => none

namespace State

def init : State := ⟨[], [], [], [], false⟩

def onStart (mode : Mode) (s : State) : State :=
  let hello := terms.clientHello mode s.clients.length
  { s with
    clients := s.clients ++ [⟨mode, .waiting⟩]
    network := s.network ++ [terms.request hello]
    signed := s.signed ++ [hello] }

def onRequest (m : Term) (s : State) : State :=
  match answer s.sessions.length m with
  | none => s
  | some session => { s with
      sessions := s.sessions ++ [session]
      network := s.network ++ [terms.response session.data session.reply]
      signed := s.signed ++ [session.data.append session.reply] }

/-- What becomes of a client that waits for a response. -/
def outcome (mode : Mode) (i : Nat) (m : Term) : ClientStatus :=
  match process mode i m with
  | none => .failed
  | some (sid, key) => .agreed sid key

def onResponse (i : Nat) (m : Term) (s : State) : State :=
  match s.clients[i]? with
  | some ⟨mode, .waiting⟩ => { s with clients := s.clients.set i ⟨mode, outcome mode i m⟩ }
  | _ => s

def onSend (i iv d : Nat) (s : State) : State :=
  match s.clients[i]? with
  | some ⟨_, .agreed sid key⟩ =>
    { s with network := s.network ++ [terms.telemetry sid key (.name (.iv iv)) (.name (.payload d))] }
  | _ => s

def onTelemetry (m : Term) (iv d : Nat) (s : State) : State :=
  match opens s.sessions m with
  | none => s
  | some (_, key) =>
    { s with network := s.network ++ [.gcm key (.name (.iv iv)) (.name (.payload d))] }

/-- The state after an event. -/
def step (s : State) : Event → State
  | .start mode => s.onStart mode
  | .request m => s.onRequest m
  | .response i m => s.onResponse i m
  | .send i iv d => s.onSend i iv d
  | .telemetry m iv d => s.onTelemetry m iv d
  | .leak => { s with network := s.network ++ [.name .handshakePsk], leaked := true }

/-- Client `i` has agreed on a session id and a key. -/
abbrev Agreed (s : State) (i : Nat) (mode : Mode) (sid key : Term) : Prop :=
  s.clients[i]? = some ⟨mode, .agreed sid key⟩

end State

/-- The attacker delivers only what it can derive. -/
abbrev Attacker.Delivers (A : Attacker) : State → Event → Prop :=
  Deduction.Delivers A.Infers State.network Event.received

/-- The terms that the attacker can derive. -/
abbrev Attacker.Derives (A : Attacker) (s : State) (m : Term) : Prop :=
  Deduction.Derives A.Infers {t | t ∈ s.network} m

/-- The key of session `j` of the server with client `i`. -/
def sharedKey (mode : Mode) (i j : Nat) : Term :=
  terms.serverKey mode j (.x25519Base (.name (.clientPrivkey i))) (.kemPk (.name (.mlkemSk i)))

/-- The first client and the first session, undisturbed. -/
def handshake (mode : Mode) : List Event :=
  let hello := terms.clientHello mode 0
  [.start mode, .request (terms.request hello),
    .response 0 (terms.response hello (terms.serverReply mode 0 (.kemPk (.name (.mlkemSk 0)))))]

end HybridPqc.Symbolic
