import HybridPqc.Device.Handshake
import HybridPqc.Device.Telemetry

/-!
# The client task

One pass of the outer loop of `pqc_task` in `main.c`, from the handshake request to the final
`hybrid_cleanup`, as a state machine that stops wherever the task waits for the network. A reply is
`none` when `send_http_post` reports an error, and otherwise the bytes it read.
-/

namespace HybridPqc

/-- Where the task stands. -/
inductive Phase where
  /-- The request is sent, its response outstanding. -/
  | handshake
  /-- At the head of the telemetry loop. -/
  | loop
  /-- A packet is posted, its reply outstanding. -/
  | posted
  /-- After `hybrid_cleanup`. -/
  | done
  deriving DecidableEq, Repr

/-- The variables of one pass of the outer loop. -/
structure Device where
  ctx : HybridCtx
  phase : Phase
  /-- `session_id`, the first 16 bytes of the response. -/
  sessionId : Bytes
  telemetryErrors : Nat
  packetsSent : Nat
  /-- The static `telemetry_seq`. -/
  telemetrySeq : UInt32

namespace Device

/-- The task after its request was packed and posted. -/
def start (ctx : HybridCtx) (telemetrySeq : UInt32) : Device where
  ctx := ctx
  phase := .handshake
  sessionId := []
  telemetryErrors := 0
  packetsSent := 0
  telemetrySeq := telemetrySeq

/-- `hybrid_cleanup(&ctx)` and the end of this pass. -/
def cleanup (d : Device) : Device := { d with ctx := hybridCleanup, phase := .done }

/-- The response to the handshake request arrives. -/
def onResponse (X : Externals) (env : ResponseEnv) (response : Option Bytes) (d : Device) : Device :=
  match response with
  | none => d.cleanup
  | some bytes =>
    if bytes.length < 16 then d.cleanup
    else
      let result := hybridProcessServerResponse X env d.ctx bytes
      if result.ret ≠ 0 then { d with ctx := result.ctx, sessionId := bytes.take 16 }.cleanup
      else { d with
        ctx := result.ctx
        sessionId := bytes.take 16
        telemetryErrors := 0
        packetsSent := 0
        phase := .loop }

/-- What one iteration of the telemetry loop draws before it posts. -/
structure SendEnv where
  /-- `esp_random()` of `generate_telemetry`. -/
  rand : UInt32
  /-- The seconds of `esp_timer_get_time()`. -/
  timestamp : UInt32
  encrypt : EncryptEnv

/-- What an iteration leaves behind: the task, the encryption performed, and the posted body. -/
structure SendResult where
  device : Device
  sealing : Option Sealing
  body : Option Bytes

/-- The telemetry that the next iteration sends. -/
def nextTelemetry (env : SendEnv) (d : Device) : TelemetryData :=
  generateTelemetry env.rand env.timestamp d.telemetrySeq

/-- One iteration of the telemetry loop up to the post, or the end of the loop. -/
def onSend (X : Externals) (env : SendEnv) (d : Device) : SendResult :=
  if 3 ≤ d.telemetryErrors ∨ 50 ≤ d.packetsSent then ⟨d.cleanup, none, none⟩
  else
    let telemetry := d.nextTelemetry env
    let d := { d with telemetrySeq := d.telemetrySeq + 1 }
    let enc := hybridEncryptTelemetry X env.encrypt d.ctx (jsonPayload telemetry)
    let d := { d with ctx := enc.ctx }
    if enc.ret ≠ 0 then ⟨{ d with telemetryErrors := d.telemetryErrors + 1 }, enc.sealing, none⟩
    else ⟨{ d with phase := .posted }, enc.sealing, some (d.sessionId ++ enc.out)⟩

/-- The plaintext of an accepted acknowledgement, `none` when the reply is refused. -/
def acceptedReply (X : Externals) (env : DecryptEnv) (reply : Option Bytes) (d : Device) :
    Option Bytes :=
  reply.bind (hybridDecryptResponse X env d.ctx)

/-- The reply to the posted packet arrives. -/
def onReply (X : Externals) (env : DecryptEnv) (reply : Option Bytes) (d : Device) : Device :=
  match d.acceptedReply X env reply with
  | none => { d with telemetryErrors := d.telemetryErrors + 1, phase := .loop }
  | some _ => { d with telemetryErrors := 0, packetsSent := d.packetsSent + 1, phase := .loop }

end Device

/-- An event at a client task. -/
inductive DeviceEvent where
  | response (env : ResponseEnv) (response : Option Bytes)
  | send (env : Device.SendEnv)
  | reply (env : DecryptEnv) (reply : Option Bytes)

/-- The task after an event; an event that the task is not waiting for does not occur. -/
def Device.step (X : Externals) (d : Device) : DeviceEvent → Device
  | .response env response => if d.phase = .handshake then d.onResponse X env response else d
  | .send env => if d.phase = .loop then (d.onSend X env).device else d
  | .reply env reply => if d.phase = .posted then d.onReply X env reply else d

/-- The encryption that an event makes the task perform. -/
def Device.sealing? (X : Externals) (d : Device) : DeviceEvent → Option Sealing
  | .send env => if d.phase = .loop then (d.onSend X env).sealing else none
  | _ => none

/-- The telemetry body that an event makes the task post. -/
def Device.posted? (X : Externals) (d : Device) : DeviceEvent → Option Bytes
  | .send env => if d.phase = .loop then (d.onSend X env).body else none
  | _ => none

end HybridPqc
