import HybridPqc.Endurance.ParseLog
import HybridPqc.Lib.Conversations

/-!
# The streams of a log

The TCP streams of a log are those of its endpoints: a SYN opens one, to which the later packets between
the same two endpoints belong, up to the next SYN between them. The parser follows something else under the
name of a stream: the packets of one sitting that its test of the ports gives the same service and client
endpoint. What happens on a stream, or on what the parser follows, is said of its packets.
-/

open PyStr (lit)

namespace HybridPqc

open Conversations

/-- The packets of the two services, each in its sitting. -/
def eventsFrom (prev : Option DateTime) (sessionId : Nat) : List Packet → List Event
  | [] => []
  | p :: ps =>
    let sessionId := if newSitting prev p.dt then sessionId + 1 else sessionId
    (p.event? sessionId).toList ++ eventsFrom (some p.dt) sessionId ps

def events (log : List PyStr) : List Event := eventsFrom none 0 (packets log)

/-- The rules by which `parse_log` follows streams. -/
def streamRules : Conversations StreamKey Event Stream where
  key := Event.key
  opens := Event.isSyn
  start := Stream.opened
  feed := Stream.feed
  closes := Stream.closes
  sweep := Stream.sweep

/-- What the parser follows as a stream: a SYN of what it takes for a client, with the later packets of the
same sitting, service and client endpoint up to the next such SYN. -/
abbrev TrackedStream := Conversation Event

/-- The streams that the parser follows. -/
def trackedStreams (log : List PyStr) : List TrackedStream := streamRules.conversations (events log)

/-! ## Packets -/

namespace Event

/-- A client segment of the length of a hybrid request. -/
def isRequest (e : Event) : Bool := e.isClient && decide (e.length = 1249)

/-- A server segment as long as a hybrid response. -/
def isAnswer (e : Event) : Bool := !e.isClient && decide (1100 ≤ e.length)

/-- A client segment that may carry a TLS ClientHello. -/
def isClientHello (e : Event) : Bool := e.isClient && decide (200 < e.length)

/-- A server segment that may carry a TLS ServerHello. -/
def isServerHello (e : Event) : Bool := !e.isClient && decide (200 < e.length)

/-- The segments that set `resp_time`, if it is not set. -/
def isResponse (e : Event) : Bool :=
  match e.proto with
  | .hybridPqc => e.isAnswer
  | .classicalTls => e.isServerHello

end Event

/-- The bytes that the server sent. -/
def serverBytes (es : List Event) : Nat :=
  ((es.filter fun e => !e.isClient).map Event.length).sum

/-! ## What the parser follows -/

namespace TrackedStream

def proto (c : TrackedStream) : Proto := c.opening.proto

/-- The server sent a segment as long as a hybrid response. -/
def Answered (c : TrackedStream) : Prop := ∃ a ∈ c.events, a.isAnswer

/-- The packets suffice for a FIN to close a stream. -/
def Enough : Proto → List Event → Prop
  | .hybridPqc, es => ∃ a ∈ es, a.isAnswer
  | .classicalTls, es => 500 < serverBytes es

instance (proto : Proto) (es : List Event) : Decidable (Enough proto es) :=
  match proto with
  | .hybridPqc => inferInstanceAs (Decidable (∃ a ∈ es, a.isAnswer))
  | .classicalTls => inferInstanceAs (Decidable (500 < serverBytes es))

/-- A FIN came when the packets up to it sufficed. -/
def ClosedByFin (c : TrackedStream) : Prop :=
  ∃ pre f post, c.events = pre ++ f :: post ∧ f.isFin ∧ Enough c.proto (pre ++ [f])

/-- The parser returns a handshake: a FIN closed the stream, or it is a hybrid one that was answered and to
which no other one succeeded. -/
def Returned (c : TrackedStream) : Prop :=
  c.ClosedByFin ∨ c.superseded = false ∧ c.proto = .hybridPqc ∧ c.Answered

/-- The packets of `es`, which come after `pre`, up to the FIN that closes the stream. -/
def upToFin (proto : Proto) (pre : List Event) : List Event → List Event
  | [] => []
  | e :: es => e :: if e.isFin = true ∧ Enough proto (pre ++ [e]) then [] else upToFin proto (pre ++ [e]) es

/-- The packets that count: those up to the FIN that closes the stream, or all. -/
def heard (c : TrackedStream) : List Event := upToFin c.proto [] c.events

/-- The packets that count come in an order that makes the times of the handshake physical. On port 8443:
no request came after an answer, and if there are a request and a FIN, then some answer came no longer
after a request than a FIN after the SYN. On port 4443: some ClientHello came before all ServerHellos, if
there are any of both. -/
def TimesOrdered (c : TrackedStream) : Prop :=
  match c.proto with
  | .hybridPqc =>
    (∀ q ∈ c.heard, q.isRequest → ∀ a ∈ c.heard, a.isAnswer → q.dt.micros ≤ a.dt.micros) ∧
      ((∃ q ∈ c.heard, q.isRequest) → (∃ f ∈ c.heard, f.isFin) →
        ∃ q ∈ c.heard, ∃ a ∈ c.heard, ∃ f ∈ c.heard, q.isRequest ∧ a.isAnswer ∧ f.isFin ∧
          a.dt.micros + c.opening.dt.micros ≤ f.dt.micros + q.dt.micros)
  | .classicalTls =>
    (∃ q ∈ c.heard, q.isClientHello) → (∃ a ∈ c.heard, a.isServerHello) →
      ∃ q ∈ c.heard, q.isClientHello ∧ ∀ a ∈ c.heard, a.isServerHello → q.dt.micros ≤ a.dt.micros

end TrackedStream

/-! ## TCP streams -/

namespace Packet

/-- A SYN without an ACK. -/
def isSyn (p : Packet) : Bool := decide (83 ∈ p.flags) && decide (46 ∉ p.flags)

def isFin (p : Packet) : Bool := decide (70 ∈ p.flags)

end Packet

/-- A SYN of a log, and with it the TCP stream that it opens. -/
structure TcpStream where
  /-- The number of its sitting; the parser's, nothing of the stream itself. -/
  sessionId : Nat
  opening : Packet
  /-- All later packets of the log. -/
  later : List Packet

def tcpStreamsFrom (prev : Option DateTime) (sessionId : Nat) : List Packet → List TcpStream
  | [] => []
  | p :: ps =>
    let sessionId := if newSitting prev p.dt then sessionId + 1 else sessionId
    (if p.isSyn then [⟨sessionId, p, ps⟩] else []) ++ tcpStreamsFrom (some p.dt) sessionId ps

/-- The TCP streams of a log. -/
def tcpStreams (log : List PyStr) : List TcpStream := tcpStreamsFrom none 0 (packets log)

/-- The packets after one of time `dt` up to the first gap of more than 120 s. -/
def sittingRest : DateTime → List Packet → List Packet
  | _, [] => []
  | dt, p :: ps => if gap dt p.dt then [] else p :: sittingRest p.dt ps

namespace TcpStream

/-- The packet goes from one of the two endpoints to the other. -/
def between (c : TcpStream) (p : Packet) : Bool :=
  decide (p.src = c.opening.src ∧ p.dst = c.opening.dst ∨ p.src = c.opening.dst ∧ p.dst = c.opening.src)

/-- The packets of the stream. -/
def packets (c : TcpStream) : List Packet :=
  c.opening :: (c.later.filter c.between).takeWhile fun p => !p.isSyn

/-- The stream is one to the port of a service. -/
def To (c : TcpStream) (proto : Proto) : Prop := lit "." ++ PyStr.decimal proto.port <:+ c.opening.dst

instance (c : TcpStream) (proto : Proto) : Decidable (c.To proto) :=
  inferInstanceAs (Decidable (_ <:+ _))

/-- A client segment of the length of a hybrid request. -/
def isRequest (c : TcpStream) (p : Packet) : Bool :=
  decide (p.src = c.opening.src) && decide (p.length = 1249)

/-- A server segment as long as a hybrid response. -/
def isAnswer (c : TcpStream) (p : Packet) : Bool :=
  decide (p.src = c.opening.dst) && decide (1100 ≤ p.length)

/-- A request was seen, and an answer after it. -/
def RequestAnswered (c : TcpStream) : Prop :=
  ∃ q a, [q, a].Sublist c.packets ∧ c.isRequest q ∧ c.isAnswer a

/-- A FIN was seen. -/
def FinSeen (c : TcpStream) : Prop := ∃ f ∈ c.packets, f.isFin

/-- What the packets of a hybrid handshake show. -/
def Genuine (c : TcpStream) : Prop := c.RequestAnswered ∧ c.FinSeen

/-- The bytes that the server sent in these packets. -/
def serverBytes (c : TcpStream) (ps : List Packet) : Nat :=
  ((ps.filter fun p => decide (p.src = c.opening.dst)).map Packet.length).sum

/-- The completion rule of `parse_log`: on port 8443 the segment of the server is enough, on port 4443 it
takes a FIN after more than 500 bytes of the server. -/
def Completes (c : TcpStream) : Proto → Prop
  | .hybridPqc => ∃ a ∈ c.packets, c.isAnswer a
  | .classicalTls => ∃ pre f post, c.packets = pre ++ f :: post ∧ f.isFin ∧
      500 < c.serverBytes (pre ++ [f])

/-- What the parser follows from the SYN on, if it takes it for one of a client: the packets of its sitting
that `classify` gives the same service and client endpoint, up to the next such SYN. -/
def tracked (c : TcpStream) : Option TrackedStream :=
  (c.opening.event? c.sessionId).bind fun e =>
    if e.isSyn then
      let es := (sittingRest c.opening.dt c.later).filterMap (Packet.event? c.sessionId)
      some ⟨e, streamRules.own e.key es, streamRules.reopened e.key es⟩
    else none

/-- What `parse_log` returns of the stream. -/
def entry (c : TcpStream) : Option Stream := c.tracked.bind streamRules.reported

end TcpStream

end HybridPqc
