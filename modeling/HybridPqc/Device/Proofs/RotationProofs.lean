import Mathlib.Data.Nat.Count
import HybridPqc.Device.Proofs.TaskProofs
import HybridPqc.Device.Rotation

/-!
# How often a session key is used

As long as the loop runs, its counters are those of the outcomes: the errors in a row at the end, the
acknowledgements and the encryptions. Three times the acknowledgements plus the errors grow with every
iteration, which bounds the loop.
-/

namespace HybridPqc

namespace TelemetryLoop

variable {outcomes : Nat → Outcome} {n : Nat}

/-- The encryptions in the first `n` outcomes. -/
def keyUses (outcomes : Nat → Outcome) (n : Nat) : Nat :=
  Nat.count (fun i => (outcomes i).keyUsed = true) n

/-- The acknowledgements in the first `n` outcomes. -/
def acknowledgements (outcomes : Nat → Outcome) (n : Nat) : Nat :=
  Nat.count (fun i => outcomes i = .acknowledged) n

/-- The first `n` outcomes have three errors in a row. -/
def ThreeErrors (outcomes : Nat → Outcome) (n : Nat) : Prop :=
  ∃ i, i + 3 ≤ n ∧ (outcomes i).failed = true ∧ (outcomes (i + 1)).failed = true ∧
    (outcomes (i + 2)).failed = true

/-- The first `n` outcomes make the loop end. -/
def StopSeen (outcomes : Nat → Outcome) (n : Nat) : Prop :=
  ThreeErrors outcomes n ∨ 50 ≤ acknowledgements outcomes n

/-! ## One turn -/

theorem step_of_not_running {l : TelemetryLoop} (h : ¬ l.Running) (o : Outcome) : l.step o = l := if_neg h

theorem step_encryptions {l : TelemetryLoop} (h : l.Running) (o : Outcome) :
    (l.step o).encryptions = l.encryptions + o.keyUsed.toNat := by
  rw [step, if_pos h]
  cases o <;> rfl

theorem step_packetsSent {l : TelemetryLoop} (h : l.Running) (o : Outcome) :
    (l.step o).packetsSent = l.packetsSent + if o = .acknowledged then 1 else 0 := by
  rw [step, if_pos h]
  cases o <;> simp [iteration]

theorem step_telemetryErrors {l : TelemetryLoop} (h : l.Running) (o : Outcome) :
    (l.step o).telemetryErrors = if o.failed = true then l.telemetryErrors + 1 else 0 := by
  rw [step, if_pos h]
  cases o <;> simp [iteration, Outcome.failed]

theorem running_of_succ (h : (after outcomes (n + 1)).Running) : (after outcomes n).Running := by
  by_contra hnot
  have heq : after outcomes (n + 1) = after outcomes n := step_of_not_running hnot _
  rw [heq] at h
  exact hnot h

/-! ## Termination -/

/-- Every iteration adds to three times the acknowledgements plus the errors. -/
theorem le_measure (h : (after outcomes n).Running) :
    n ≤ 3 * (after outcomes n).packetsSent + (after outcomes n).telemetryErrors := by
  induction n with
  | zero => exact Nat.zero_le _
  | succ n ih =>
    have hrun := running_of_succ h
    have hle := ih hrun
    have herrors := hrun.1
    show n + 1 ≤ 3 * ((after outcomes n).step (outcomes n)).packetsSent +
      ((after outcomes n).step (outcomes n)).telemetryErrors
    rw [step_packetsSent hrun, step_telemetryErrors hrun]
    cases outcomes n <;> simp [Outcome.failed] <;> omega

/-- Whatever the outcomes are, the loop has ended after 150 iterations. -/
theorem ends (outcomes : Nat → Outcome) : ¬ (after outcomes 150).Running := by
  intro h
  have hle := le_measure h
  have herrors := h.1
  have hsent := h.2
  omega

/-! ## The counters of a running loop -/

/-- The last `errors` of the first `n` outcomes are errors, and no more. -/
def ErrorTail (outcomes : Nat → Outcome) (n errors : Nat) : Prop :=
  errors ≤ n ∧ (∀ i, n - errors ≤ i → i < n → (outcomes i).failed = true) ∧
    (errors < n → (outcomes (n - errors - 1)).failed = false)

theorem ErrorTail.succ {errors : Nat} (h : ErrorTail outcomes n errors) :
    ErrorTail outcomes (n + 1) (if (outcomes n).failed = true then errors + 1 else 0) := by
  obtain ⟨hle, htail, hbefore⟩ := h
  by_cases hfailed : (outcomes n).failed = true
  · rw [if_pos hfailed]
    refine ⟨by omega, ?_, ?_⟩
    · intro i hi hin
      rcases Nat.lt_succ_iff_lt_or_eq.mp hin with hlt | rfl
      · exact htail i (by omega) hlt
      · exact hfailed
    · intro hlt
      have hidx : n + 1 - (errors + 1) - 1 = n - errors - 1 := by omega
      rw [hidx]
      exact hbefore (by omega)
  · rw [if_neg hfailed]
    refine ⟨by omega, ?_, ?_⟩
    · intro i hi hin
      omega
    · intro _
      simpa using hfailed

/-- Three errors in a row end with the last outcome, or were there before. -/
theorem ErrorTail.three_iff {errors : Nat} (h : ErrorTail outcomes n errors) :
    3 ≤ errors ↔ 3 ≤ n ∧ ∀ i, n - 3 ≤ i → i < n → (outcomes i).failed = true := by
  obtain ⟨hle, htail, hbefore⟩ := h
  constructor
  · intro h3
    refine ⟨by omega, ?_⟩
    intro i hi hin
    exact htail i (by omega) hin
  · rintro ⟨h3, hlast⟩
    by_contra hlt
    have hfalse := hbefore (by omega)
    rw [hlast _ (by omega) (by omega)] at hfalse
    cases hfalse

theorem threeErrors_succ_iff :
    ThreeErrors outcomes (n + 1) ↔ ThreeErrors outcomes n ∨
      3 ≤ n + 1 ∧ ∀ i, n + 1 - 3 ≤ i → i < n + 1 → (outcomes i).failed = true := by
  constructor
  · rintro ⟨i, hi, h0, h1, h2⟩
    by_cases hlast : i + 3 ≤ n
    · exact .inl ⟨i, hlast, h0, h1, h2⟩
    · refine .inr ⟨by omega, ?_⟩
      intro j hj hjn
      have hcases : j = i ∨ j = i + 1 ∨ j = i + 2 := by omega
      rcases hcases with rfl | rfl | rfl
      · exact h0
      · exact h1
      · exact h2
  · rintro (⟨i, hi, h⟩ | ⟨h3, hlast⟩)
    · exact ⟨i, by omega, h⟩
    · exact ⟨n - 2, by omega, hlast _ (by omega) (by omega), hlast _ (by omega) (by omega),
        hlast _ (by omega) (by omega)⟩

/-- The counters of a loop that has not ended are those of the outcomes. -/
structure Tracks (outcomes : Nat → Outcome) (n : Nat) (l : TelemetryLoop) : Prop where
  errors : ErrorTail outcomes n l.telemetryErrors
  sent : l.packetsSent = acknowledgements outcomes n
  encryptions : l.encryptions = keyUses outcomes n

theorem Tracks.step {l : TelemetryLoop} (h : Tracks outcomes n l) (hrun : l.Running) :
    Tracks outcomes (n + 1) (l.step (outcomes n)) := by
  constructor
  · rw [step_telemetryErrors hrun]
    exact h.errors.succ
  · rw [step_packetsSent hrun, h.sent, acknowledgements, acknowledgements, Nat.count_succ]
  · rw [step_encryptions hrun, h.encryptions, keyUses, keyUses, Nat.count_succ]
    cases (outcomes n).keyUsed <;> rfl

/-- The loop ends exactly when the outcomes make it end; until then it tracks them. -/
theorem after_tracks (outcomes : Nat → Outcome) (n : Nat) :
    ((after outcomes n).Running → Tracks outcomes n (after outcomes n)) ∧
      ((after outcomes n).Running ↔ ¬ StopSeen outcomes n) := by
  induction n with
  | zero =>
    have hrun : (after outcomes 0).Running := by
      show start.Running
      decide
    refine ⟨fun _ => ⟨⟨le_rfl, ?_, ?_⟩, rfl, rfl⟩, ?_⟩
    · intro i _ hi
      exact absurd hi (Nat.not_lt_zero i)
    · intro h
      exact absurd h (lt_irrefl 0)
    · refine iff_of_true hrun ?_
      rintro (⟨i, hi, -⟩ | h)
      · omega
      · simp [acknowledgements] at h
  | succ n ih =>
    obtain ⟨htracks, hstop⟩ := ih
    by_cases hrun : (after outcomes n).Running
    · have ht : Tracks outcomes (n + 1) (after outcomes (n + 1)) := (htracks hrun).step hrun
      refine ⟨fun _ => ht, ?_⟩
      have hbefore := hstop.mp hrun
      have hthree : 3 ≤ (after outcomes (n + 1)).telemetryErrors ↔ ThreeErrors outcomes (n + 1) := by
        rw [ht.errors.three_iff, threeErrors_succ_iff]
        constructor
        · exact .inr
        · rintro (h | h)
          · exact absurd (.inl h) hbefore
          · exact h
      rw [Running, StopSeen, ← hthree, ← ht.sent, not_or, not_le, not_le]
    · have heq : after outcomes (n + 1) = after outcomes n := step_of_not_running hrun _
      have hseen : StopSeen outcomes n := not_not.mp fun h => hrun (hstop.mpr h)
      have hseen' : StopSeen outcomes (n + 1) := by
        rcases hseen with ⟨i, hi, h⟩ | h
        · exact .inl ⟨i, by omega, h⟩
        · exact .inr (le_trans h (Nat.count_monotone _ (Nat.le_succ n)))
      rw [heq]
      exact ⟨fun h => absurd h hrun, iff_of_false hrun (not_not.mpr hseen')⟩

/-! ## The number of encryptions -/

/-- One key encrypts at most 150 times. -/
theorem encryptions_le (outcomes : Nat → Outcome) (n : Nat) : (after outcomes n).encryptions ≤ 150 := by
  have hmeasure : ∀ n, (after outcomes n).encryptions ≤ n := by
    intro n
    induction n with
    | zero => exact le_rfl
    | succ n ih =>
      by_cases hrun : (after outcomes n).Running
      · have hstep := step_encryptions hrun (outcomes n)
        have hone := Bool.toNat_le (outcomes n).keyUsed
        show ((after outcomes n).step (outcomes n)).encryptions ≤ n + 1
        omega
      · have heq : after outcomes (n + 1) = after outcomes n := step_of_not_running hrun _
        rw [heq]
        omega
  -- From the 150th iteration on nothing changes.
  have hstable : ∀ k, after outcomes (150 + k) = after outcomes 150 := by
    intro k
    induction k with
    | zero => rfl
    | succ k ih =>
      show (after outcomes (150 + k)).step _ = _
      rw [ih]
      exact step_of_not_running (ends outcomes) _
  rcases Nat.le_total n 150 with hle | hle
  · exact (hmeasure n).trans hle
  · obtain ⟨k, rfl⟩ := Nat.exists_eq_add_of_le hle
    rw [hstable]
    exact hmeasure 150

/-- The key is rotated after 50 packets at most, exactly when the loop has reason to end before an
outcome uses the key for the 51st time. -/
theorem strict_rotation_iff (outcomes : Nat → Outcome) :
    StrictlyRotated outcomes ↔
      ∀ n, keyUses outcomes n = 50 → (outcomes n).keyUsed = true → StopSeen outcomes n := by
  constructor
  · rintro ⟨hle, -⟩ n huses hused
    by_contra hnot
    obtain ⟨htracks, hstop⟩ := after_tracks outcomes n
    have hrun := hstop.mpr hnot
    have hnext := hle (n + 1)
    have hstep := step_encryptions hrun (outcomes n)
    rw [(htracks hrun).encryptions, huses, hused] at hstep
    rw [after, hstep] at hnext
    exact absurd hnext (by decide)
  · intro h
    refine ⟨?_, 150, ends outcomes⟩
    intro n
    induction n with
    | zero => exact Nat.zero_le _
    | succ n ih =>
      by_cases hrun : (after outcomes n).Running
      · obtain ⟨htracks, hstop⟩ := after_tracks outcomes n
        have hstep := step_encryptions hrun (outcomes n)
        have huses := (htracks hrun).encryptions
        have hone := Bool.toNat_le (outcomes n).keyUsed
        show ((after outcomes n).step (outcomes n)).encryptions ≤ 50
        by_contra hgt
        have hused : (outcomes n).keyUsed = true := by
          cases hk : (outcomes n).keyUsed with
          | true => rfl
          | false =>
            rw [hk] at hstep
            have hzero : Bool.toNat false = 0 := rfl
            omega
        exact hstop.mp hrun (h n (by omega) hused)
      · have heq : after outcomes (n + 1) = after outcomes n := step_of_not_running hrun _
        rw [heq]
        exact ih

/-- One lost reply, then nothing but acknowledgements: the key is used 51 times. -/
theorem key_used_51_times :
    ¬ StrictlyRotated fun i => if i = 0 then .postFailed else .acknowledged := by
  rintro ⟨hle, -⟩
  exact absurd (hle 51) (by decide +kernel)

end TelemetryLoop

/-! ## The client task -/

namespace Device

open TelemetryLoop

variable {X : Externals}

/-- The counters of a task after `count` encryptions. -/
def toLoop (d : Device) (count : Nat) : TelemetryLoop := ⟨d.telemetryErrors, d.packetsSent, count⟩

theorem iterate_of_done {d : Device} (h : d.phase = .done) (i : Iteration) :
    d.iterate X i = d ∧ d.sealings X i = 0 := by
  have hsend : d.step X (.send i.send) = d := by simp [step, h]
  have hreply : d.step X (.reply i.decrypt i.reply) = d := by simp [step, h]
  have hseal : d.sealing? X (.send i.send) = none := by simp [sealing?, h]
  constructor
  · rw [iterate, hsend, hreply]
  · rw [sealings, hseal]
    rfl

/-- At the head of a loop that has ended, the task wipes its context. -/
theorem iterate_of_ended {d : Device} (h : d.phase = .loop) {count : Nat}
    (hend : ¬ (d.toLoop count).Running) (i : Iteration) :
    d.iterate X i = d.cleanup ∧ d.sealings X i = 0 := by
  have hstop : 3 ≤ d.telemetryErrors ∨ 50 ≤ d.packetsSent := by
    by_contra hnot
    rw [not_or, not_le, not_le] at hnot
    exact hend hnot
  have hon : d.onSend X i.send = ⟨d.cleanup, none, none⟩ := if_pos hstop
  have hsend : d.step X (.send i.send) = d.cleanup := by
    rw [Device.step, if_pos h, hon]
  have hseal : d.sealing? X (.send i.send) = none := by
    rw [sealing?, if_pos h, hon]
  constructor
  · rw [iterate, hsend]
    rfl
  · rw [sealings, hseal]
    rfl

/-- The result of the encryption in an iteration. -/
def encryption (X : Externals) (d : Device) (i : Iteration) : EncryptResult :=
  hybridEncryptTelemetry X i.send.encrypt d.ctx (jsonPayload (d.nextTelemetry i.send))

theorem sealings_of_running {d : Device} (h : d.phase = .loop) {count : Nat}
    (hrun : (d.toLoop count).Running) (i : Iteration) :
    d.sealings X i = (d.encryption X i).sealing.isSome.toNat := by
  have hgo : ¬ (3 ≤ d.telemetryErrors ∨ 50 ≤ d.packetsSent) := by
    rw [not_or, not_le, not_le]
    exact hrun
  have hseal : (d.onSend X i.send).sealing = (d.encryption X i).sealing := by
    unfold onSend encryption
    rw [if_neg hgo]
    simp only
    split <;> rfl
  rw [sealings, sealing?, if_pos h, hseal]
  cases (d.encryption X i).sealing <;> rfl

/-- A failed encryption is the end of its iteration. -/
theorem iterate_of_encryptFailed {d : Device} (h : d.phase = .loop) {count : Nat}
    (hrun : (d.toLoop count).Running) {i : Iteration} (hret : (d.encryption X i).ret ≠ 0) :
    d.outcome X i = .encryptFailed (d.encryption X i).sealing.isSome ∧
      (d.iterate X i).phase = .loop ∧
      (d.iterate X i).telemetryErrors = d.telemetryErrors + 1 ∧
      (d.iterate X i).packetsSent = d.packetsSent := by
  have hgo : ¬ (3 ≤ d.telemetryErrors ∨ 50 ≤ d.packetsSent) := by
    rw [not_or, not_le, not_le]
    exact hrun
  have hsend : d.step X (.send i.send) =
      { d with
        telemetrySeq := d.telemetrySeq + 1
        ctx := (d.encryption X i).ctx
        telemetryErrors := d.telemetryErrors + 1 } := by
    rw [step, if_pos h, onSend, if_neg hgo]
    exact congrArg SendResult.device (if_pos hret)
  refine ⟨if_pos hret, ?_⟩
  rw [iterate, hsend, step, if_neg (by simp [h])]
  exact ⟨h, rfl, rfl⟩

/-- The reply decides an iteration that has posted its packet. -/
theorem iterate_of_posted {d : Device} (h : d.phase = .loop) {count : Nat}
    (hrun : (d.toLoop count).Running) {i : Iteration} (hret : (d.encryption X i).ret = 0) :
    (d.encryption X i).sealing.isSome = true ∧ (d.iterate X i).phase = .loop ∧
      ((d.outcome X i = .postFailed ∨ d.outcome X i = .decryptFailed) ∧
          (d.iterate X i).telemetryErrors = d.telemetryErrors + 1 ∧
          (d.iterate X i).packetsSent = d.packetsSent ∨
        d.outcome X i = .acknowledged ∧ (d.iterate X i).telemetryErrors = 0 ∧
          (d.iterate X i).packetsSent = d.packetsSent + 1) := by
  have hgo : ¬ (3 ≤ d.telemetryErrors ∨ 50 ≤ d.packetsSent) := by
    rw [not_or, not_le, not_le]
    exact hrun
  have hseal : (d.encryption X i).sealing.isSome = true := by
    rcases hybridEncryptTelemetry_cases (X := X) i.send.encrypt d.ctx
      (jsonPayload (d.nextTelemetry i.send)) with ⟨hne, -, -⟩ | ⟨-, -, hs, -⟩
    · exact absurd hret hne
    · rw [encryption, hs]
      rfl
  have hsend : d.step X (.send i.send) =
      { d with
        telemetrySeq := d.telemetrySeq + 1
        ctx := (d.encryption X i).ctx
        phase := .posted } := by
    rw [step, if_pos h, onSend, if_neg hgo]
    exact congrArg SendResult.device (if_neg (not_not.mpr hret))
  have hiterate : d.iterate X i = onReply X i.decrypt i.reply { d with
      telemetrySeq := d.telemetrySeq + 1
      ctx := (d.encryption X i).ctx
      phase := .posted } := by
    rw [iterate, hsend]
    rfl
  have hout : d.outcome X i = _ := if_neg (not_not.mpr hret)
  have hencryption : hybridEncryptTelemetry X i.send.encrypt d.ctx (jsonPayload (d.nextTelemetry i.send)) =
      d.encryption X i := rfl
  rw [hiterate, hout, hencryption, onReply, acceptedReply]
  refine ⟨hseal, ?_⟩
  cases i.reply with
  | none => exact ⟨rfl, .inl ⟨.inl rfl, rfl, rfl⟩⟩
  | some reply =>
    simp only [Option.bind_some]
    cases hybridDecryptResponse X i.decrypt (d.encryption X i).ctx reply with
    | none => exact ⟨rfl, .inl ⟨.inr rfl, rfl, rfl⟩⟩
    | some plaintext => exact ⟨rfl, .inr ⟨rfl, rfl, rfl⟩⟩

/-- An iteration of a running loop changes the counters as its outcome says. -/
theorem iterate_of_running {d : Device} (h : d.phase = .loop) {count : Nat}
    (hrun : (d.toLoop count).Running) (i : Iteration) :
    (d.iterate X i).phase = .loop ∧
      (d.iterate X i).toLoop (count + d.sealings X i) = (d.toLoop count).step (d.outcome X i) := by
  rw [sealings_of_running h hrun, TelemetryLoop.step, if_pos hrun]
  by_cases hret : (d.encryption X i).ret = 0
  · obtain ⟨hseal, hphase, hcase⟩ := iterate_of_posted h hrun hret
    refine ⟨hphase, ?_⟩
    rcases hcase with ⟨ho | ho, herrors, hsent⟩ | ⟨ho, herrors, hsent⟩
    · rw [ho, toLoop, herrors, hsent, hseal]
      rfl
    · rw [ho, toLoop, herrors, hsent, hseal]
      rfl
    · rw [ho, toLoop, herrors, hsent, hseal]
      rfl
  · obtain ⟨ho, hphase, herrors, hsent⟩ := iterate_of_encryptFailed h hrun hret
    refine ⟨hphase, ?_⟩
    rw [ho, toLoop, herrors, hsent]
    rfl

/-- The task runs the loop of its outcomes: the encryptions agree, and when the loop has ended the task
is about to wipe its context or has done so. -/
theorem iterates_refines {d : Device} (h : d.phase = .loop) (herrors : d.telemetryErrors = 0)
    (hsent : d.packetsSent = 0) (inputs : Nat → Iteration) (n : Nat) :
    (d.iterates X inputs n).2 = (after (d.outcomes X inputs) n).encryptions ∧
      ((d.iterates X inputs n).1.phase = .loop ∧
          (d.iterates X inputs n).1.toLoop (d.iterates X inputs n).2 =
            after (d.outcomes X inputs) n ∨
        (d.iterates X inputs n).1.phase = .done ∧ (d.iterates X inputs n).1.ctx = hybridCleanup ∧
          ¬ (after (d.outcomes X inputs) n).Running) := by
  induction n with
  | zero =>
    refine ⟨rfl, .inl ⟨h, ?_⟩⟩
    show (⟨d.telemetryErrors, d.packetsSent, 0⟩ : TelemetryLoop) = TelemetryLoop.start
    rw [herrors, hsent]
    rfl
  | succ n ih =>
    obtain ⟨hcount, hcase⟩ := ih
    have hnext : d.iterates X inputs (n + 1) =
        ((d.iterates X inputs n).1.iterate X (inputs n),
          (d.iterates X inputs n).2 + (d.iterates X inputs n).1.sealings X (inputs n)) := rfl
    have hafter : after (d.outcomes X inputs) (n + 1) =
        (after (d.outcomes X inputs) n).step ((d.iterates X inputs n).1.outcome X (inputs n)) := rfl
    rw [hnext, hafter]
    simp only
    rcases hcase with ⟨hphase, hloop⟩ | ⟨hdone, hctx, hend⟩
    · rw [← hloop] at hcount ⊢
      by_cases hrun : ((d.iterates X inputs n).1.toLoop (d.iterates X inputs n).2).Running
      · obtain ⟨hphase', hstep⟩ := iterate_of_running (X := X) hphase hrun (inputs n)
        rw [← hstep]
        exact ⟨rfl, .inl ⟨hphase', rfl⟩⟩
      · obtain ⟨hiterate, hzero⟩ := iterate_of_ended (X := X) hphase hrun (inputs n)
        rw [hiterate, hzero, step_of_not_running hrun]
        exact ⟨rfl, .inr ⟨rfl, rfl, hrun⟩⟩
    · obtain ⟨hiterate, hzero⟩ := iterate_of_done (X := X) hdone (inputs n)
      rw [hiterate, hzero, step_of_not_running hend, hcount]
      exact ⟨rfl, .inr ⟨hdone, hctx, hend⟩⟩

/-- A task encrypts at most 150 packets under a session key, whatever arrives. -/
theorem iterates_encryptions_le {d : Device} (h : d.phase = .loop) (herrors : d.telemetryErrors = 0)
    (hsent : d.packetsSent = 0) (inputs : Nat → Iteration) (n : Nat) :
    (d.iterates X inputs n).2 ≤ 150 := by
  rw [(iterates_refines h herrors hsent inputs n).1]
  exact encryptions_le _ n

end Device

end HybridPqc
