import HybridPqc.Externals

/-!
# The server state

The session table of `HybridPQCServer` in `server.py` and its telemetry log. `sessions` and
`session_counters` are two dictionaries keyed by the 16-byte session id.
-/

namespace HybridPqc

/-- The attributes of `HybridPQCServer` that the handshake and the telemetry handler use. -/
structure Server where
  handshakeCount : Nat
  /-- The JSON objects logged, oldest first. -/
  telemetryLog : List Json
  /-- Session id to session key. -/
  sessions : Dict Bytes (ByteArr 32)
  /-- Session id to the highest sequence counter accepted. -/
  sessionCounters : Dict Bytes Int

namespace Server

/-- `HybridPQCServer.__init__`. -/
def init : Server where
  handshakeCount := 0
  telemetryLog := []
  sessions := Dict.empty
  sessionCounters := Dict.empty

/-- `del` of the oldest session when more than 100 are present. -/
def evict (s : Server) : Server :=
  if s.sessions.size > 100 then
    match s.sessions.oldest? with
    | none => s
    | some oldestSid => { s with
        sessions := s.sessions.erase oldestSid
        sessionCounters := s.sessionCounters.erase oldestSid }
  else s

/-- Store a new session with counter `-1`, after the eviction. -/
def createSession (s : Server) (sessionId : Bytes) (sessionKey : ByteArr 32) : Server :=
  let s := s.evict
  { s with
    sessions := s.sessions.set sessionId sessionKey
    sessionCounters := s.sessionCounters.set sessionId (-1) }

end Server

end HybridPqc
