import HybridPqc.Network.Proofs.AgreementProofs
import HybridPqc.Symbolic.Interpretation
import HybridPqc.Symbolic.Proofs.ProtocolProofs

/-!
# Messages as byte strings

The parsers of the two programs read off a byte string what the symbolic parties read off its term, and
answer with the byte string of the symbolic answer.
-/

namespace HybridPqc.Symbolic

open Messages

variable {X : Externals} {d : Draws}

namespace Draws

/-- The byte strings obey the laws of the terms. -/
theorem lawful (hcomm : X.X25519Comm) (hkem : X.KemCorrect) : (d.messages X).Lawful where
  append_assoc := List.append_assoc
  x25519_comm a b := by
    simp only [messages, ByteArr.ofBytes_toList]
    rw [hcomm]
  kemDec_kemCt sk coins := by
    simp only [messages, ByteArr.ofBytes_toList]
    rw [hkem]

/-- The components that the mode uses, one after the other. -/
def components (mode : Mode) (x m : Bytes) : Bytes :=
  (if mode.usesX25519 then x else []) ++ (if mode.usesMlkem then m else [])

theorem combine_eq (mode : Mode) (x m : Bytes) : (d.messages X).combine mode x m = components mode x m := by
  cases mode with
  | classical => exact (List.append_nil x).symm
  | pqc => rfl
  | hybrid => rfl

section Eval

variable (h : (d.messages X).Lawful)
include h

theorem eval_append (a b : Term) : d.eval X (a.append b) = d.eval X a ++ d.eval X b :=
  Messages.eval_append h a b

theorem eval_tagged (m signed : Term) : d.eval X (terms.tagged m signed) =
    d.eval X m ++ (X.hmacSha256 handshakePsk (d.eval X signed)).toList :=
  d.eval_append h _ _

theorem eval_combine (mode : Mode) (a b : Term) :
    d.eval X (terms.combine mode a b) = components mode (d.eval X a) (d.eval X b) := by
  rw [← combine_eq (X := X) (d := d)]
  cases mode with
  | classical => rfl
  | pqc => rfl
  | hybrid => exact d.eval_append h a b

theorem eval_serverKey (mode : Mode) (j : Nat) (k : Term × Term) :
    d.eval X (terms.serverKey mode j k.1 k.2) =
      (d.messages X).serverKey mode j (d.eval X k.1) (d.eval X k.2) :=
  Messages.eval_serverKey h mode j k.1 k.2

theorem eval_clientKey (mode : Mode) (i : Nat) (k : Term × Term) :
    d.eval X (terms.clientKey mode i k.1 k.2) =
      (d.messages X).clientKey mode i (d.eval X k.1) (d.eval X k.2) :=
  Messages.eval_clientKey h mode i k.1 k.2

end Eval

theorem eval_cons (a rest : Term) : d.eval X (.cons a rest) = d.eval X a ++ d.eval X rest := rfl

/-- A term begins with its first part. -/
theorem eval_first (t : Term) : ∃ tail, d.eval X t = d.eval X t.first ++ tail := by
  cases t with
  | cons a rest => exact ⟨d.eval X rest, rfl⟩
  | _ => exact ⟨[], (List.append_nil _).symm⟩

/-- Key material begins with what is split off it. -/
theorem eval_split {mode : Mode} {keys : Term} {k : Term × Term} (hsplit : split mode keys = some k) :
    ∃ tail, d.eval X keys = components mode (d.eval X k.1) (d.eval X k.2) ++ tail := by
  cases mode with
  | classical =>
    cases hsplit
    obtain ⟨tail, htail⟩ := d.eval_first (X := X) keys
    exact ⟨tail, htail.trans (by simp [components, Mode.usesX25519, Mode.usesMlkem])⟩
  | pqc =>
    cases hsplit
    exact d.eval_first keys
  | hybrid =>
    cases keys with
    | cons x rest =>
      cases hsplit
      obtain ⟨tail, htail⟩ := d.eval_first (X := X) rest
      refine ⟨tail, ?_⟩
      rw [eval_cons, htail, ← List.append_assoc]
      rfl
    | _ => cases hsplit

/-- The public key of an X25519 key that was drawn. -/
theorem eval_x25519Base {n : Name} {k : ByteArr 32} (h : d.name n = k.toList) :
    d.eval X (.x25519Base (.name n)) = (X.x25519Base k).toList := by
  show (X.x25519Base (ByteArr.ofBytes 32 (d.name n))).toList = _
  rw [h, ByteArr.ofBytes_toList]

theorem eval_clientHello (mode : Mode) (i : Nat) :
    d.eval X (terms.clientHello mode i) = clientData (keyedCtx mode (d.keys X i)) := by
  have hx : d.eval X (.x25519Base (.name (.clientPrivkey i))) = (d.keys X i).x25519Pubkey.toList :=
    d.eval_x25519Base rfl
  have hm : d.eval X (.kemPk (.name (.mlkemSk i))) = (d.keys X i).mlkemPk.toList := by
    show (X.kemKeypairDerand (ByteArr.ofBytes 64 (d.mlkemSeed i).toList)).1.toList = _
    rw [ByteArr.ofBytes_toList]
    rfl
  cases mode with
  | classical =>
    show [Mode.classical.toByte] ++ d.eval X (.x25519Base (.name (.clientPrivkey i))) = _
    rw [hx, ← List.append_nil (_ ++ _)]
    rfl
  | pqc =>
    show [Mode.pqc.toByte] ++ d.eval X (.kemPk (.name (.mlkemSk i))) = _
    rw [hm]
    rfl
  | hybrid =>
    show [Mode.hybrid.toByte] ++ (d.eval X (.x25519Base (.name (.clientPrivkey i))) ++
      d.eval X (.kemPk (.name (.mlkemSk i)))) = _
    rw [hx, hm]
    rfl

/-! ## Reading key material -/

theorem ofBytes_of_length {n : Nat} {l : Bytes} (hlen : l.length = n) (tail : Bytes) :
    ByteArr.ofBytes n (l ++ tail) = ByteArr.ofBytes n l := by
  conv_lhs => rw [← ByteArr.toList_ofBytes hlen]
  exact ByteArr.ofBytes_append _ _

/-- The X25519 component of key material that follows `front`. -/
theorem ofBytes_components_x25519 {mode : Mode} (hmode : mode.usesX25519 = true) {x m : Bytes}
    (hx : x.length = 32) (front tail : Bytes) :
    ByteArr.ofBytes 32 ((front ++ (components mode x m ++ tail)).drop front.length) = ByteArr.ofBytes 32 x := by
  rw [List.drop_left, components, if_pos hmode, List.append_assoc]
  exact ofBytes_of_length hx _

/-- The ML-KEM component. -/
theorem ofBytes_components_mlkem {mode : Mode} {n : Nat} (hmode : mode.usesMlkem = true) {x m : Bytes}
    (hx : mode.usesX25519 = true → x.length = 32) (hm : m.length = n) (front tail : Bytes) :
    ByteArr.ofBytes n ((front ++ (components mode x m ++ tail)).drop
      (front.length + if mode.usesX25519 then 32 else 0)) = ByteArr.ofBytes n m := by
  have hlen : (if mode.usesX25519 then x else []).length = if mode.usesX25519 then 32 else 0 := by
    split
    · exact hx ‹_›
    · rfl
  have hdrop : (front ++ (components mode x m ++ tail)).drop
      (front.length + if mode.usesX25519 then 32 else 0) = m ++ tail := by
    rw [← List.drop_drop, List.drop_left, components, if_pos hmode, List.append_assoc]
    exact List.drop_left' hlen
  rw [hdrop]
  exact ofBytes_of_length hm _

theorem components_length {mode : Mode} {n : Nat} {x m : Bytes} (hx : mode.usesX25519 = true → x.length = 32)
    (hm : mode.usesMlkem = true → m.length = n) : (components mode x m).length =
      (if mode.usesX25519 then 32 else 0) + if mode.usesMlkem then n else 0 := by
  rw [components, List.length_append]
  congr 1
  · split
    · exact hx ‹_›
    · rfl
  · split
    · exact hm ‹_›
    · rfl

/-! ## The server -/

section Server

variable {j : Nat} {data : Term} {mode : Mode} {k : Term × Term}

/-- Handshake data are the mode, the keys and a rest. -/
theorem eval_data (hparse : parseHello data = some (mode, k)) :
    ∃ tail, d.eval X data = [mode.toByte] ++ (components mode (d.eval X k.1) (d.eval X k.2) ++ tail) := by
  unfold parseHello at hparse
  split at hparse
  · next mode' keys =>
    obtain ⟨k', hsplit, heq⟩ := Option.map_eq_some_iff.mp hparse
    obtain ⟨rfl, rfl⟩ := Prod.mk.inj heq
    obtain ⟨tail, htail⟩ := d.eval_split (X := X) hsplit
    exact ⟨tail, congrArg ([mode'.toByte] ++ ·) htail⟩
  · cases hparse

variable (hparse : parseHello data = some (mode, k)) (hsized : d.Sized X mode 1184 k)
include hparse hsized

theorem clientX25519_eval (hmode : mode.usesX25519 = true) :
    clientX25519 (d.eval X data) = ByteArr.ofBytes 32 (d.eval X k.1) := by
  obtain ⟨tail, htail⟩ := d.eval_data (X := X) hparse
  rw [clientX25519, htail]
  exact ofBytes_components_x25519 hmode (hsized.1 hmode) [mode.toByte] tail

theorem clientMlkem_eval (hmode : mode.usesMlkem = true) :
    clientMlkem mode (d.eval X data) = ByteArr.ofBytes 1184 (d.eval X k.2) := by
  obtain ⟨tail, htail⟩ := d.eval_data (X := X) hparse
  rw [clientMlkem, htail]
  exact ofBytes_components_mlkem hmode hsized.1 (hsized.2 hmode) [mode.toByte] tail

/-- What the server encapsulates. -/
theorem encaps_eval (hlib : X.libmlkem = true) (hmode : mode.usesMlkem = true) :
    performMlkemEncaps X (d.server j) (clientMlkem mode (d.eval X data)) =
      X.kemEncDerand (ByteArr.ofBytes 1184 (d.eval X k.2))
        (randombytes (d.server j).stack (d.server j).urandom) := by
  rw [performMlkemEncaps, if_pos hlib, d.clientMlkem_eval hparse hsized hmode]

/-- The server accepts the byte string of a request that the symbolic server answers to. -/
theorem accepts_eval (h : (d.messages X).Lawful)
    (hsecret : mode.usesX25519 = true →
      (X.x25519 (d.server j).x25519Privkey (ByteArr.ofBytes 32 (d.eval X k.1))).isZero = false) :
    (d.eval X (terms.request data)).rdrop 32 = d.eval X data ∧
      Accepts X (d.server j) mode (d.eval X (terms.request data)) := by
  have hbody : d.eval X (terms.request data) =
      d.eval X data ++ (X.hmacSha256 handshakePsk (d.eval X data)).toList := d.eval_tagged h _ _
  have hrdrop : (d.eval X (terms.request data)).rdrop 32 = d.eval X data := by
    rw [hbody, List.rdrop]
    exact List.take_left' (by simp)
  obtain ⟨tail, htail⟩ := d.eval_data (X := X) hparse
  refine ⟨hrdrop, ?_, ?_, ?_, ?_⟩
  · rw [hrdrop, serverPsk_eq, hbody, List.rtake]
    exact List.drop_left' (by simp)
  · rw [hrdrop, htail]
    rfl
  · rw [hrdrop, htail, List.length_append, List.length_append, components_length hsized.1 hsized.2,
      List.length_singleton, Mode.helloLength]
    omega
  · rw [hrdrop]
    intro hmode
    rw [d.clientX25519_eval hparse hsized hmode]
    exact hsecret hmode

/-- Its reply is the byte string of the symbolic reply. -/
theorem replyData_eval (h : (d.messages X).Lawful) (hlib : X.libmlkem = true) :
    replyData X (d.server j) mode (d.eval X data) = d.eval X (terms.serverReply mode j k.2) := by
  have hx : d.eval X (.x25519Base (.name (.serverPrivkey j))) =
      (X.x25519Base (d.server j).x25519Privkey).toList := d.eval_x25519Base rfl
  have hm : mode.usesMlkem = true → d.eval X (.kemCt k.2 (.name (.coins j))) =
      (performMlkemEncaps X (d.server j) (clientMlkem mode (d.eval X data))).1.toList := by
    intro hmode
    rw [d.encaps_eval hparse hsized hlib hmode]
    show (X.kemEncDerand _ (ByteArr.ofBytes 32 (randombytes _ _).toList)).1.toList = _
    rw [ByteArr.ofBytes_toList]
    rfl
  have hreply : d.eval X (terms.serverReply mode j k.2) = (d.server j).sessionId.toList ++
      components mode (d.eval X (.x25519Base (.name (.serverPrivkey j))))
        (d.eval X (.kemCt k.2 (.name (.coins j)))) := by
    rw [← d.eval_combine h]
    exact d.eval_append h _ _
  rw [hreply, hx, replyData, replyKeys, components]
  by_cases hmode : mode.usesMlkem = true
  · rw [if_pos hmode, if_pos hmode, hm hmode]
  · rw [if_neg hmode, if_neg hmode]

/-- And its session key that of the symbolic key. -/
theorem replyKey_eval (h : (d.messages X).Lawful) (hlib : X.libmlkem = true) :
    (replyKey X (d.server j) mode (d.eval X data)).toList = d.eval X (terms.serverKey mode j k.1 k.2) := by
  have hsecrets : (replySecrets X (d.server j) mode (d.eval X data)).flatMap List.Vector.toList =
      (d.messages X).combine mode
        ((d.messages X).x25519 (d.name (.serverPrivkey j)) (d.eval X k.1))
        ((d.messages X).kemSs (d.eval X k.2) (d.name (.coins j))) := by
    rw [combine_eq, components, replySecrets, List.flatMap_append]
    congr 1
    · split
      · rw [d.clientX25519_eval hparse hsized ‹_›, List.flatMap_singleton]
        show _ = (X.x25519 (ByteArr.ofBytes 32 (d.server j).x25519Privkey.toList) _).toList
        rw [ByteArr.ofBytes_toList]
      · rfl
    · split
      · rw [d.encaps_eval hparse hsized hlib ‹_›, List.flatMap_singleton]
        show _ = (X.kemEncDerand _ (ByteArr.ofBytes 32 (randombytes _ _).toList)).2.toList
        rw [ByteArr.ofBytes_toList]
      · rfl
  rw [d.eval_serverKey h, replyKey, deriveSessionKey, hsecrets]
  rfl

end Server

/-! ## The client -/

section Client

variable {mode : Mode} {i : Nat} {sid keys : Term} {k : Term × Term}

/-- What stands before the tag of a response. -/
theorem eval_reply (sid : Term) (hsplit : split mode keys = some k) : ∃ tail, d.eval X (.cons sid keys) =
    d.eval X sid ++ (components mode (d.eval X k.1) (d.eval X k.2) ++ tail) := by
  obtain ⟨tail, htail⟩ := d.eval_split (X := X) hsplit
  exact ⟨tail, by rw [eval_cons, htail]⟩

variable (h : (d.messages X).Lawful) (hsplit : split mode keys = some k)
include h hsplit

/-- The byte string of a response: session id, key material, a rest and the tag. -/
theorem eval_response : ∃ tail, d.eval X (terms.response (terms.clientHello mode i) (.cons sid keys)) =
    d.eval X sid ++ (components mode (d.eval X k.1) (d.eval X k.2) ++ tail) ∧ 32 ≤ tail.length := by
  obtain ⟨tail, htail⟩ := d.eval_reply (X := X) sid hsplit
  refine ⟨tail ++ (X.hmacSha256 handshakePsk
    (d.eval X ((terms.clientHello mode i).append (.cons sid keys)))).toList, ?_, ?_⟩
  · rw [response, d.eval_tagged h, htail, List.append_assoc, List.append_assoc]
  · rw [List.length_append, List.Vector.toList_length]
    omega

variable (hsid : (d.eval X sid).length = 16)
include hsid

theorem take_eval : (d.eval X (terms.response (terms.clientHello mode i) (.cons sid keys))).take 16 =
    d.eval X sid := by
  obtain ⟨tail, htail, -⟩ := d.eval_response h hsplit (i := i)
  rw [htail]
  exact List.take_left' hsid

variable (hsized : d.Sized X mode 1088 k)
include hsized

theorem serverX25519_eval (hmode : mode.usesX25519 = true) :
    serverX25519 (d.eval X (terms.response (terms.clientHello mode i) (.cons sid keys))) =
      ByteArr.ofBytes 32 (d.eval X k.1) := by
  obtain ⟨tail, htail, -⟩ := d.eval_response h hsplit (i := i)
  rw [serverX25519, htail, ← hsid]
  exact ofBytes_components_x25519 hmode (hsized.1 hmode) _ tail

theorem serverCiphertext_eval (hmode : mode.usesMlkem = true) :
    serverCiphertext mode (d.eval X (terms.response (terms.clientHello mode i) (.cons sid keys))) =
      ByteArr.ofBytes 1088 (d.eval X k.2) := by
  obtain ⟨tail, htail, -⟩ := d.eval_response h hsplit (i := i)
  rw [serverCiphertext, htail, ← hsid]
  exact ofBytes_components_mlkem hmode hsized.1 (hsized.2 hmode) _ tail

/-- The client accepts the byte string of a response that the symbolic client accepts. -/
theorem agrees_eval {env : ResponseEnv}
    (hlibrary : env.hmacRet = 0 ∧ env.sharedRet = 0 ∧ env.decapsRet = 0 ∧ env.hkdfRet = 0)
    (hsecret : mode.usesX25519 = true →
      (X.x25519 (d.clientPrivkey i) (ByteArr.ofBytes 32 (d.eval X k.1))).isZero = false) :
    Agrees X env (keyedCtx mode (d.keys X i))
      (d.eval X (terms.response (terms.clientHello mode i) (.cons sid keys))) := by
  obtain ⟨hhmac, hshared, hdecaps, hhkdf⟩ := hlibrary
  obtain ⟨tail, htail, hlen⟩ := d.eval_response h hsplit (i := i)
  have hwhole : (d.eval X (terms.response (terms.clientHello mode i) (.cons sid keys))).length =
      16 + mode.replyLength + tail.length := by
    rw [htail, List.length_append, List.length_append, hsid, components_length hsized.1 hsized.2, ← add_assoc]
    rfl
  have htag : d.eval X (terms.response (terms.clientHello mode i) (.cons sid keys)) =
      d.eval X (.cons sid keys) ++
        (X.hmacSha256 handshakePsk (d.eval X ((terms.clientHello mode i).append (.cons sid keys)))).toList :=
    d.eval_tagged h _ _
  refine ⟨by omega, hhmac, ?_, fun hmode => ⟨?_, hshared, ?_⟩, fun hmode => ⟨?_, hdecaps⟩, hhkdf⟩
  · rw [← d.eval_clientHello, htag, List.rdrop, List.rtake, List.length_append, List.Vector.toList_length,
      Nat.add_sub_cancel, List.take_left, List.drop_left, d.eval_append h]
  · have hreply : 32 ≤ mode.replyLength := by
      rw [Mode.replyLength, if_pos (show mode.usesX25519 = true from hmode)]
      omega
    omega
  · rw [d.serverX25519_eval h hsplit hsid hsized hmode]
    exact hsecret hmode
  · show 16 + mode.replyLength ≤ _
    omega

/-- Its session key is the byte string of the symbolic key. -/
theorem clientKey_eval :
    (HybridPqc.clientKey X (keyedCtx mode (d.keys X i))
      (d.eval X (terms.response (terms.clientHello mode i) (.cons sid keys)))).toList =
        d.eval X (terms.clientKey mode i k.1 k.2) := by
  have hsecrets : (clientSecrets X (keyedCtx mode (d.keys X i))
      (d.eval X (terms.response (terms.clientHello mode i) (.cons sid keys)))).flatMap List.Vector.toList =
      (d.messages X).combine mode ((d.messages X).x25519 (d.name (.clientPrivkey i)) (d.eval X k.1))
        ((d.messages X).kemDec (d.eval X k.2) (d.name (.mlkemSk i))) := by
    rw [combine_eq, components, clientSecrets, List.flatMap_append]
    show (if mode.usesX25519 then _ else []).flatMap _ ++ (if mode.usesMlkem then _ else []).flatMap _ = _
    congr 1
    · split
      · rw [d.serverX25519_eval h hsplit hsid hsized ‹_›, List.flatMap_singleton]
        show _ = (X.x25519 (ByteArr.ofBytes 32 (d.clientPrivkey i).toList) _).toList
        rw [ByteArr.ofBytes_toList]
        rfl
      · rfl
    · split
      · show (([X.kemDec (serverCiphertext mode _) _] : List (ByteArr 32)).flatMap List.Vector.toList) = _
        rw [d.serverCiphertext_eval h hsplit hsid hsized ‹_›, List.flatMap_singleton]
        show _ = (X.kemDec _ (X.kemKeypairDerand (ByteArr.ofBytes 64 (d.mlkemSeed i).toList)).2).toList
        rw [ByteArr.ofBytes_toList]
        rfl
      · rfl
  rw [d.eval_clientKey h, HybridPqc.clientKey, hsecrets]
  rfl

end Client

end Draws

end HybridPqc.Symbolic
