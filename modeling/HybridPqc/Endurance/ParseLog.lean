import HybridPqc.Endurance.Packet
import HybridPqc.Lib.Dict
import HybridPqc.Lib.GuardedRuns

/-!
# The parser of the endurance log

`parse_log` of `analyze_endurance_log.py` as a state machine over the lines of a `tcpdump` log: the
sittings it opens at gaps of more than 120 s, the streams it follows from their SYN on, and the
handshakes it returns.
-/

namespace HybridPqc

/-- An entry of `sessions`. -/
structure LogSession where
  id : Nat
  startDt : DateTime
  endDt : DateTime
  pqcCount : Nat
  tlsCount : Nat

/-- An entry of `streams`, and of `completed_handshakes`. -/
structure Stream where
  sessionId : Nat
  proto : Proto
  clientEp : PyStr
  startTime : DateTime
  endTime : Option DateTime
  reqTime : Option DateTime
  respTime : Option DateTime
  clientBytes : Nat
  serverBytes : Nat
  cHelloLen : Nat
  sHelloLen : Nat
  completed : Bool

/-- `key`. -/
abbrev StreamKey := Nat × Proto × PyStr

/-- A packet of one of the two services, in its sitting. -/
structure Event where
  sessionId : Nat
  proto : Proto
  clientEp : PyStr
  isClient : Bool
  dt : DateTime
  flags : PyStr
  length : Nat

namespace Event

def key (e : Event) : StreamKey := (e.sessionId, e.proto, e.clientEp)

/-- `'S' in flags and '.' not in flags and is_client`. -/
def isSyn (e : Event) : Bool := decide (83 ∈ e.flags) && decide (46 ∉ e.flags) && e.isClient

/-- `'F' in flags`. -/
def isFin (e : Event) : Bool := decide (70 ∈ e.flags)

end Event

/-- A packet in its sitting; `none` for a packet of neither service. -/
def Packet.event? (sessionId : Nat) (p : Packet) : Option Event :=
  (classify p.src p.dst).map fun c =>
    { sessionId := sessionId
      proto := c.proto
      clientEp := c.clientEp
      isClient := c.isClient
      dt := p.dt
      flags := p.flags
      length := p.length }

namespace Stream

/-- What a SYN from the client stores under its key. -/
def opened (e : Event) : Stream where
  sessionId := e.sessionId
  proto := e.proto
  clientEp := e.clientEp
  startTime := e.dt
  endTime := none
  reqTime := none
  respTime := none
  clientBytes := 0
  serverBytes := 0
  cHelloLen := 0
  sHelloLen := 0
  completed := false

/-- The bytes and the time of a packet of the client. -/
def clientPacket (st : Stream) (e : Event) : Stream :=
  let st := { st with clientBytes := st.clientBytes + e.length }
  if e.length = 1249 ∧ e.proto = .hybridPqc then
    { st with reqTime := some e.dt, cHelloLen := e.length }
  else if e.proto = .classicalTls ∧ 200 < e.length ∧ st.reqTime = none then
    { st with reqTime := some e.dt, cHelloLen := e.length }
  else st

/-- The bytes and the time of a packet of the server. -/
def serverPacket (st : Stream) (e : Event) : Stream :=
  let st := { st with serverBytes := st.serverBytes + e.length }
  if 1100 ≤ e.length ∧ e.proto = .hybridPqc ∧ st.respTime = none then
    { st with respTime := some e.dt, sHelloLen := e.length, completed := true }
  else if e.proto = .classicalTls ∧ 200 < e.length ∧ st.respTime = none then
    { st with respTime := some e.dt, sHelloLen := e.length }
  else st

/-- The end time of a stream with a FIN, which completes a long enough TLS stream. -/
def finPacket (st : Stream) (e : Event) : Stream :=
  let st := { st with endTime := some e.dt }
  if e.proto = .classicalTls ∧ 500 < st.serverBytes then { st with completed := true } else st

/-- The stream after a packet with its key. -/
def feed (st : Stream) (e : Event) : Stream :=
  let st := if e.isClient then st.clientPacket e else st.serverPacket e
  if e.isFin then st.finPacket e else st

/-- The packet after which the stream is `st` moves it to the completed handshakes. -/
def closes (st : Stream) (e : Event) : Bool := e.isFin && st.completed

/-- What the final loop makes of a stream that is still open. -/
def sweep (st : Stream) : Option Stream :=
  if st.completed then
    some { st with endTime := st.endTime.or (st.respTime.or (some st.startTime)) }
  else none

end Stream

/-! ## The loop over the lines -/

/-- The variables of `parse_log`. -/
structure ParseState where
  sessions : List LogSession
  currentSessionId : Nat
  prevDt : Option DateTime
  streams : Dict StreamKey Stream
  completedHandshakes : List Stream

/-- `(dt - prev_dt).total_seconds() > 120.0`. -/
def gap (prev dt : DateTime) : Prop := prev.micros + 120 * 1000000 < dt.micros

instance (prev dt : DateTime) : Decidable (gap prev dt) :=
  inferInstanceAs (Decidable (prev.micros + 120 * 1000000 < dt.micros))

/-- `prev_dt is None or (dt - prev_dt).total_seconds() > 120.0`. -/
def newSitting (prev : Option DateTime) (dt : DateTime) : Bool :=
  match prev with
  | none => true
  | some prev => decide (gap prev dt)

/-- A handshake is counted in its sitting. -/
def LogSession.count (proto : Proto) (s : LogSession) : LogSession :=
  match proto with
  | .hybridPqc => { s with pqcCount := s.pqcCount + 1 }
  | .classicalTls => { s with tlsCount := s.tlsCount + 1 }

/-- The increment of `sessions[st['session_id'] - 1]`. -/
def countHandshake (st : Stream) (sessions : List LogSession) : List LogSession :=
  sessions.modify (st.sessionId - 1) (LogSession.count st.proto)

namespace ParseState

def init : ParseState := ⟨[], 0, none, Dict.empty, []⟩

/-- A dated line opens a sitting or prolongs the current one. -/
def observe (s : ParseState) (dt : DateTime) : ParseState :=
  let s := if newSitting s.prevDt dt then
      { s with
        currentSessionId := s.currentSessionId + 1
        sessions := s.sessions ++ [⟨s.currentSessionId + 1, dt, dt, 0, 0⟩] }
    else s
  { s with
    prevDt := some dt
    sessions := s.sessions.modify (s.sessions.length - 1) fun last => { last with endDt := dt } }

/-- The streams, with the one that a SYN opens. -/
def openStream (s : ParseState) (e : Event) : Dict StreamKey Stream :=
  if e.isSyn then s.streams.set e.key (Stream.opened e) else s.streams

/-- The stream of a packet, after the packet, is completed or stays open. -/
def close (s : ParseState) (e : Event) (st : Stream) : ParseState :=
  if st.closes e then
    { s with
      streams := s.streams.erase e.key
      completedHandshakes := s.completedHandshakes ++ [st]
      sessions := countHandshake st s.sessions }
  else { s with streams := s.streams.set e.key st }

/-- A packet of one of the services. -/
def track (s : ParseState) (e : Event) : ParseState :=
  let s := { s with streams := s.openStream e }
  match s.streams.get? e.key with
  | none => s
  | some st => s.close e (st.feed e)

/-- The state after a dated line. -/
def step (s : ParseState) (p : Packet) : ParseState :=
  let s := s.observe p.dt
  match p.event? s.currentSessionId with
  | none => s
  | some e => s.track e

end ParseState

/-! ## The result -/

/-- `return sessions, completed_handshakes`. -/
structure ParsedLog where
  sessions : List LogSession
  handshakes : List Stream

/-- One turn of the loop over the streams that are left. -/
def sweepStep (r : ParsedLog) (st : Stream) : ParsedLog :=
  match st.sweep with
  | none => r
  | some st => ⟨countHandshake st r.sessions, r.handshakes ++ [st]⟩

/-- The remaining streams that succeeded are completed. -/
def ParseState.finish (s : ParseState) : ParsedLog :=
  (s.streams.entries.map Prod.snd).foldl sweepStep ⟨s.sessions, s.completedHandshakes⟩

/-- The dated lines of a log. -/
def packets (log : List PyStr) : List Packet := log.filterMap parseLine

/-- `parse_log` on the lines of a log. -/
def parseLog (log : List PyStr) : ParsedLog :=
  (GuardedRuns.run ParseState.step ParseState.init (packets log)).finish

end HybridPqc
