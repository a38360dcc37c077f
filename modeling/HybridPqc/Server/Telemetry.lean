import HybridPqc.Device.Telemetry
import HybridPqc.Server.Handshake
import HybridPqc.Lib.PyTime

/-!
# Telemetry on the server

`HybridPQCServer.handle_telemetry` of `server.py`, and the two routes of `handle_request` that use
the session table. Neither handler suspends before its reply is complete, so the event loop runs a
request from its body to its reply without another one in between.
-/

namespace HybridPqc

/-! ## The handler -/

/-- A reply of `handle_telemetry` that reports an error. -/
def errorDict (text : PyStr) : List (PyStr × Json) := [(PyStr.lit "error", .str text)]

/-- `value[key] = v`; the fields of the dictionary, or the text of the exception. -/
def setItem (key : PyStr) (v : Json) : Json → Except PyStr (List (PyStr × Json))
  | .null => .error (PyStr.lit "'NoneType' object does not support item assignment")
  | .bool _ => .error (PyStr.lit "'bool' object does not support item assignment")
  | .int _ => .error (PyStr.lit "'int' object does not support item assignment")
  | .float _ => .error (PyStr.lit "'float' object does not support item assignment")
  | .str _ => .error (PyStr.lit "'str' object does not support item assignment")
  | .arr _ => .error (PyStr.lit "list indices must be integers or slices, not str")
  | .obj fields => .ok (Assoc.set key v fields)

/-- `data['verified'] = True` and `data['received_at'] = …` on what `json.loads` returned. -/
def logRecord (receivedAt : DateTime) (data : Json) : Except PyStr (List (PyStr × Json)) := do
  let data ← setItem (PyStr.lit "verified") (.bool true) data
  setItem (PyStr.lit "received_at") (.str receivedAt.isoformat) (.obj data)

/-- What the line on a reading shows of its record. -/
def shownValues (record : List (PyStr × Json)) : List Json :=
  [(record.lookup (PyStr.lit "temperature")).getD (.str (PyStr.lit "?")),
    (record.lookup (PyStr.lit "humidity")).getD (.str (PyStr.lit "?"))]

/-- The text of the exception that formatting these values in an f-string raises, if it raises one. -/
def formatError (X : Externals) (values : List Json) : Option PyStr :=
  (values.find? fun v => !X.format.returns v).map X.format.errorText

/-- `json.loads(plaintext)`. -/
def telemetryLoads (X : Externals) (plaintext : Bytes) : Except Json.LoadsError Json :=
  Json.loads (Json.loadsLimits X.telemetryNesting) plaintext

/-- The text of the reply to a counter that does not exceed the stored one. -/
def replayText : PyStr := PyStr.lit "Replay attack detected / out-of-order packet"

/-- `handle_telemetry`: the dictionary it returns, and the state it leaves. -/
def handleTelemetry (X : Externals) (receivedAt : DateTime) (s : Server) (body : Bytes) :
    List (PyStr × Json) × Server :=
  if body.length < 16 + 12 + 16 then (errorDict (PyStr.lit "Telemetry payload too short"), s)
  else
    let sessionId := body.take 16
    match s.sessions.get? sessionId with
    | none => (errorDict (PyStr.lit "No session key"), s)
    | some sessionKey =>
      let iv := ByteArr.ofBytes 12 (body.drop 16)
      let ciphertext := (body.drop (16 + 12)).rdrop 16
      let tag := ByteArr.ofBytes 16 (body.rtake 16)
      let counter : Int := Bytes.ofBigEndian (iv.toList.take 4)
      let lastCounter := (s.sessionCounters.get? sessionId).getD (-1)
      if counter ≤ lastCounter then (errorDict replayText, s)
      else
        match X.gcmDecrypt sessionKey iv ciphertext tag with
        -- `str(InvalidTag())` is empty.
        | none => (errorDict [], s)
        | some plaintext =>
          match telemetryLoads X plaintext with
          | .error _ => (errorDict (X.jsonErrorText plaintext), s)
          | .ok data =>
            let s := { s with sessionCounters := s.sessionCounters.set sessionId counter }
            match logRecord receivedAt data with
            | .error text => (errorDict text, s)
            | .ok record =>
              let s := { s with telemetryLog := s.telemetryLog ++ [.obj record] }
              -- The record stays in the log when the line on it cannot be formatted.
              match formatError X (shownValues record) with
              | some text => (errorDict text, s)
              | none => (record, s)

/-! ## The routes -/

/-- Status and body of an HTTP response. -/
structure HttpReply where
  status : Nat
  body : Bytes

/-- A JSON body. -/
def jsonBody (X : Externals) (fields : List (PyStr × Json)) : Bytes :=
  PyStr.encodeAscii (Json.dumps X.floatRepr (.obj fields))

/-- `json.dumps(fields).encode()`, or the text of the exception. -/
def dumpsBody (X : Externals) (fields : List (PyStr × Json)) : Except PyStr Bytes :=
  if (Json.obj fields).depth ≤ X.dumpsNesting.val then .ok (jsonBody X fields)
  else .error (X.dumpsErrorText (.obj fields))

/-- The reply to an exception that reaches `handle_request`. -/
def internalError (X : Externals) (text : PyStr) : HttpReply := ⟨500, jsonBody X (errorDict text)⟩

/-- A reply with the body `json.dumps(fields).encode()`. -/
def jsonReply (X : Externals) (status : Nat) (fields : List (PyStr × Json)) : HttpReply :=
  match dumpsBody X fields with
  | .error text => internalError X text
  | .ok body => ⟨status, body⟩

/-- `POST /handshake`. -/
def handshakeRoute (X : Externals) (env : HandshakeEnv) (s : Server) (body : Bytes) :
    HttpReply × Server :=
  match handleHandshake X env s body with
  | (.ok response, s) => (⟨200, response⟩, s)
  | (.error text, s) => (internalError X text, s)

/-- `n.to_bytes(4, 'big')`. -/
def toBytes4 (n : Int) : Except PyStr Bytes :=
  if n < 0 then .error (PyStr.lit "can't convert negative int to unsigned")
  else if 256 ^ 4 ≤ n then .error (PyStr.lit "int too big to convert")
  else .ok (Bytes.toBigEndian 4 n.toNat)

/-- The clock readings and random bytes of a telemetry request. -/
structure TelemetryEnv where
  /-- `datetime.now()` of `handle_telemetry`. -/
  receivedAt : DateTime
  /-- `datetime.now()` of the acknowledgement. -/
  serverTime : DateTime
  /-- `secrets.token_bytes(AES_GCM_IV_SIZE - 4)`. -/
  random : ByteArr 8

/-- `server_response_data`. -/
def ackFields (serverTime : DateTime) (record : List (PyStr × Json)) : List (PyStr × Json) :=
  [(PyStr.lit "status", .str (PyStr.lit "acknowledged")),
    (PyStr.lit "command", .str (PyStr.lit "KEEP_ALIVE")),
    (PyStr.lit "server_time", .str serverTime.isoformat),
    (PyStr.lit "received_seq", (record.lookup (PyStr.lit "sequence")).getD (.int 0))]

/-- The encryption of the acknowledgement: the key is looked up again, and the stored counter goes
into the nonce. -/
def sealAck (X : Externals) (env : TelemetryEnv) (s : Server) (sessionId : Bytes)
    (record : List (PyStr × Json)) : Except PyStr Sealing :=
  match s.sessions.get? sessionId with
  | none => .error X.aesKeyErrorText
  | some sessionKey =>
    match toBytes4 ((s.sessionCounters.get? sessionId).getD 0) with
    | .error text => .error text
    | .ok clientCounter =>
      match dumpsBody X (ackFields env.serverTime record) with
      | .error text => .error text
      | .ok plaintext => .ok
          { key := sessionKey
            iv := ByteArr.ofBytes 12 (clientCounter ++ env.random.toList)
            plaintext := plaintext }

/-- What a telemetry request leaves behind: the reply, the state, the dictionary that
`handle_telemetry` returned, and the acknowledgement that was encrypted. -/
structure TelemetryResult where
  reply : HttpReply
  server : Server
  dict : List (PyStr × Json)
  ack : Option Sealing

/-- `POST /api/telemetry`. -/
def telemetryRoute (X : Externals) (env : TelemetryEnv) (s : Server) (body : Bytes) :
    TelemetryResult :=
  let (dict, s) := handleTelemetry X env.receivedAt s body
  if PyStr.lit "error" ∈ dict.map Prod.fst then ⟨jsonReply X 400 dict, s, dict, none⟩
  else
    match sealAck X env s (body.take 16) dict with
    | .error text => ⟨internalError X text, s, dict, none⟩
    | .ok ack => ⟨⟨200, ack.packet X⟩, s, dict, some ack⟩

/-- The records that a request has appended to the log. -/
def appended (s s' : Server) : List Json := s'.telemetryLog.drop s.telemetryLog.length

end HybridPqc
