import HybridPqc.Endurance.Proofs.StreamStateProofs

/-!
# Proofs: which streams are returned

Every handshake of the result is the entry of one stream. A completed stream has none when the packets that
complete it are not attributed to it, or when another SYN of its client endpoint comes before a FIN; and a
stream has one on the sole strength of one long segment of the server.
-/

open PyStr (lit)

namespace HybridPqc

open Conversations

namespace TcpStream

variable {log : List PyStr} {c : TcpStream}

/-- A stream has an entry when what the parser follows of it is returned. -/
theorem isSome_entry_iff (hc : c ∈ tcpStreams log) :
    c.entry.isSome = true ↔ ∃ t, c.tracked = some t ∧ t.Returned := by
  unfold entry
  cases ht : c.tracked with
  | none => simp
  | some t => simpa using TrackedStream.isSome_reported (mem_trackedStreams hc ht)

theorem entry_eq_some_iff {h : Stream} :
    c.entry = some h ↔ ∃ t, c.tracked = some t ∧ streamRules.reported t = some h := by
  unfold entry
  exact Option.bind_eq_some_iff

end TcpStream

/-! ## Lost streams -/

/-- A handshake that ends without a FIN, and the next SYN of its client from the same port. -/
def reusedPortLog : List PyStr :=
  [captureLine (lit "08:24:23.651742") (lit "192.168.1.3.60420") (lit "192.168.1.9.8443") (lit "S") 0,
   captureLine (lit "08:24:23.652100") (lit "192.168.1.3.60420") (lit "192.168.1.9.8443") (lit "P.") 1249,
   captureLine (lit "08:24:23.660250") (lit "192.168.1.9.8443") (lit "192.168.1.3.60420") (lit "P.") 1268,
   captureLine (lit "08:24:39.266569") (lit "192.168.1.3.60420") (lit "192.168.1.9.8443") (lit "S") 0]

/-- A browser that loads the dashboard from the server on port 8443. -/
def dashboardLog : List PyStr :=
  [captureLine (lit "09:12:01.000100") (lit "192.168.1.20.51514") (lit "192.168.1.9.8443") (lit "S") 0,
   captureLine (lit "09:12:01.000900") (lit "192.168.1.20.51514") (lit "192.168.1.9.8443") (lit "P.") 412,
   captureLine (lit "09:12:01.004200") (lit "192.168.1.9.8443") (lit "192.168.1.20.51514") (lit "P.") 1448,
   captureLine (lit "09:12:01.004900") (lit "192.168.1.9.8443") (lit "192.168.1.20.51514") (lit "F.") 0]

end HybridPqc
