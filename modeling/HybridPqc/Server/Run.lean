import HybridPqc.Reference
import HybridPqc.Server.Telemetry

/-!
# Runs of the server

The requests that reach the session table, in the order in which the event loop takes them.
-/

namespace HybridPqc

/-- A request, with what the server draws and reads off the clock while it answers. -/
inductive Request where
  /-- `POST /handshake`. -/
  | handshake (env : HandshakeEnv) (body : Bytes)
  /-- `POST /api/telemetry`. -/
  | telemetry (env : TelemetryEnv) (body : Bytes)

namespace Server

/-- The state after a request. -/
def step (X : Externals) (s : Server) : Request → Server
  | .handshake env body => (handshakeRoute X env s body).2
  | .telemetry env body => (telemetryRoute X env s body).server

/-- A session id that a request draws is not in the table. -/
def FreshId (s : Server) : Request → Prop
  | .handshake env _ => env.sessionId.toList ∉ s.sessions.keys
  | .telemetry _ _ => True

/-- The id of the session that a request creates: the one drawn, when the handler returns a response
that is not empty. -/
def created (X : Externals) (s : Server) : Request → List Bytes
  | .handshake env body =>
    match (handleHandshake X env s body).1 with
    | .ok (_ :: _) => [env.sessionId.toList]
    | _ => []
  | .telemetry _ _ => []

end Server

/-! ## The reference requests -/

namespace Reference

def serverEnv : HandshakeEnv :=
  ⟨serverPrivkey, sessionId, .openFailed, ByteArr.zero 32, ByteArr.zero 1088, ByteArr.zero 32⟩

def laterEnv : HandshakeEnv :=
  ⟨laterPrivkey, laterId, .openFailed, ByteArr.zero 32, ByteArr.zero 1088, ByteArr.zero 32⟩

def clock : DateTime :=
  ⟨2026, 1, 1, 0, 0, 15, 0, by decide, by decide, by decide, by decide, by decide, by decide, by decide⟩

def telemetryEnv : TelemetryEnv := ⟨clock, clock, bytes 8 0x090a0b0c0d0e0f10⟩

/-- A handshake and a packet under its session. -/
def requests : List Request :=
  [.handshake serverEnv request, .telemetry telemetryEnv (sessionId.toList ++ packet)]

end Reference

end HybridPqc
