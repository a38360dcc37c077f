import HybridPqc.Device.Task

/-!
# Key rotation

The telemetry loop of `pqc_task`, driven by the outcomes of its three fallible calls, with the
encryptions under the session key of this pass counted. The context is wiped when the loop ends, so
this count is how often the key is ever used.
-/

namespace HybridPqc

/-- How one iteration of the telemetry loop goes. -/
inductive Outcome where
  /-- `hybrid_encrypt_telemetry` fails, before or after AES-GCM has run with the session key. -/
  | encryptFailed (keyUsed : Bool)
  /-- `send_http_post` fails. -/
  | postFailed
  /-- `hybrid_decrypt_response` fails. -/
  | decryptFailed
  | acknowledged
  deriving DecidableEq, Repr

namespace Outcome

/-- The iteration encrypts under the session key. -/
def keyUsed : Outcome → Bool
  | encryptFailed keyUsed => keyUsed
  | postFailed => true
  | decryptFailed => true
  | acknowledged => true

/-- The iteration counts as an error. -/
def failed : Outcome → Bool
  | encryptFailed _ => true
  | postFailed => true
  | decryptFailed => true
  | acknowledged => false

end Outcome

/-- The counters of the telemetry loop. -/
structure TelemetryLoop where
  telemetryErrors : Nat
  packetsSent : Nat
  /-- The encryptions under the session key so far. -/
  encryptions : Nat

namespace TelemetryLoop

def start : TelemetryLoop := ⟨0, 0, 0⟩

/-- The head of the loop lets another iteration in: `telemetry_errors < 3`, and no `break`. -/
def Running (l : TelemetryLoop) : Prop := l.telemetryErrors < 3 ∧ l.packetsSent < 50

instance (l : TelemetryLoop) : Decidable l.Running :=
  inferInstanceAs (Decidable (l.telemetryErrors < 3 ∧ l.packetsSent < 50))

/-- The body of the loop. -/
def iteration (l : TelemetryLoop) : Outcome → TelemetryLoop
  | .encryptFailed keyUsed => { l with
      encryptions := l.encryptions + keyUsed.toNat
      telemetryErrors := l.telemetryErrors + 1 }
  | .postFailed => { l with
      encryptions := l.encryptions + 1
      telemetryErrors := l.telemetryErrors + 1 }
  | .decryptFailed => { l with
      encryptions := l.encryptions + 1
      telemetryErrors := l.telemetryErrors + 1 }
  | .acknowledged =>
    { telemetryErrors := 0, packetsSent := l.packetsSent + 1, encryptions := l.encryptions + 1 }

/-- One turn of the loop; once it has ended, nothing changes. -/
def step (l : TelemetryLoop) (o : Outcome) : TelemetryLoop := if l.Running then l.iteration o else l

/-- The counters after the first `n` turns. -/
def after (outcomes : Nat → Outcome) : Nat → TelemetryLoop
  | 0 => start
  | n + 1 => (after outcomes n).step (outcomes n)

/-- The key encrypts at most 50 packets, and the loop ends. -/
def StrictlyRotated (outcomes : Nat → Outcome) : Prop :=
  (∀ n, (after outcomes n).encryptions ≤ 50) ∧ ∃ n, ¬ (after outcomes n).Running

end TelemetryLoop

/-! ## The loop of the client task -/

namespace Device

/-- What one iteration of the telemetry loop draws and receives. -/
structure Iteration where
  send : SendEnv
  decrypt : DecryptEnv
  reply : Option Bytes

/-- One iteration: the packet, and the reply if the task waits for one. -/
def iterate (X : Externals) (d : Device) (i : Iteration) : Device :=
  (d.step X (.send i.send)).step X (.reply i.decrypt i.reply)

/-- The encryptions that an iteration performs. -/
def sealings (X : Externals) (d : Device) (i : Iteration) : Nat :=
  (d.sealing? X (.send i.send)).toList.length

/-- The outcome of an iteration. -/
def outcome (X : Externals) (d : Device) (i : Iteration) : Outcome :=
  let enc := hybridEncryptTelemetry X i.send.encrypt d.ctx (jsonPayload (d.nextTelemetry i.send))
  if enc.ret ≠ 0 then .encryptFailed enc.sealing.isSome
  else
    match i.reply with
    | none => .postFailed
    | some reply =>
      match hybridDecryptResponse X i.decrypt enc.ctx reply with
      | none => .decryptFailed
      | some _ => .acknowledged

/-- The task after `n` iterations, and the encryptions performed in them. -/
def iterates (X : Externals) (d : Device) (inputs : Nat → Iteration) : Nat → Device × Nat
  | 0 => (d, 0)
  | n + 1 =>
    let (d, count) := iterates X d inputs n
    (d.iterate X (inputs n), count + d.sealings X (inputs n))

/-- The outcomes of a task's iterations. -/
def outcomes (X : Externals) (d : Device) (inputs : Nat → Iteration) (n : Nat) : Outcome :=
  (d.iterates X inputs n).1.outcome X (inputs n)

end Device

end HybridPqc
