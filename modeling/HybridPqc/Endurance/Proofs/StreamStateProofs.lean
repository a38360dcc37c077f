import HybridPqc.Endurance.Proofs.StreamProofs

/-!
# Proofs: the state of a stream

What each packet does to the record of its stream, and what the record says of the packets so far: when
the stream is completed and which packet closes it.
-/

namespace HybridPqc

open Conversations

/-! ## One packet -/

namespace Stream

variable (st : Stream) (e : Event)

@[simp] theorem sessionId_feed : (st.feed e).sessionId = st.sessionId := by
  unfold feed clientPacket serverPacket finPacket
  dsimp only
  split_ifs <;> rfl

@[simp] theorem proto_feed : (st.feed e).proto = st.proto := by
  unfold feed clientPacket serverPacket finPacket
  dsimp only
  split_ifs <;> rfl

@[simp] theorem startTime_feed : (st.feed e).startTime = st.startTime := by
  unfold feed clientPacket serverPacket finPacket
  dsimp only
  split_ifs <;> rfl

theorem endTime_feed : (st.feed e).endTime = if e.isFin then some e.dt else st.endTime := by
  unfold feed clientPacket serverPacket finPacket
  dsimp only
  split_ifs <;> rfl

theorem serverBytes_feed :
    (st.feed e).serverBytes = if e.isClient then st.serverBytes else st.serverBytes + e.length := by
  unfold feed clientPacket serverPacket finPacket
  dsimp only
  split_ifs <;> rfl

theorem respTime_serverPacket (h : e.isClient = false) :
    (st.serverPacket e).respTime =
      if e.isResponse = true ∧ st.respTime = none then some e.dt else st.respTime := by
  unfold serverPacket Event.isResponse Event.isAnswer Event.isServerHello
  cases hp : e.proto with
  | hybridPqc =>
    simp only [h, true_and, reduceCtorEq, false_and, if_false, Bool.not_false, Bool.true_and,
      decide_eq_true_eq]
    split_ifs <;> rfl
  | classicalTls =>
    simp only [h, true_and, reduceCtorEq, false_and, and_false, if_false, Bool.not_false, Bool.true_and,
      decide_eq_true_eq]
    split_ifs <;> rfl

@[simp] theorem respTime_clientPacket : (st.clientPacket e).respTime = st.respTime := by
  unfold clientPacket
  dsimp only
  split_ifs <;> rfl

@[simp] theorem respTime_finPacket : (st.finPacket e).respTime = st.respTime := by
  unfold finPacket
  dsimp only
  split_ifs <;> rfl

/-- The first response sets the response time. -/
theorem respTime_feed :
    (st.feed e).respTime = if e.isResponse = true ∧ st.respTime = none then some e.dt else st.respTime := by
  have hfin : (st.feed e).respTime =
      (if e.isClient then st.clientPacket e else st.serverPacket e).respTime := by
    unfold feed
    dsimp only
    split <;> simp
  rw [hfin]
  cases hc : e.isClient with
  | true =>
    have hresp : e.isResponse = false := by
      unfold Event.isResponse Event.isAnswer Event.isServerHello
      cases e.proto <;> simp [hc]
    simp [hresp]
  | false => exact respTime_serverPacket st e hc

/-- A server segment of a hybrid stream completes it when it sets the response time. -/
theorem completed_feed_hybrid (h : e.proto = .hybridPqc) :
    (st.feed e).completed = (st.completed || (e.isAnswer && st.respTime.isNone)) := by
  unfold feed clientPacket serverPacket finPacket Event.isAnswer
  simp only [h, reduceCtorEq, false_and, if_false, true_and, and_true]
  cases e.isClient with
  | true =>
    simp only [if_true]
    split_ifs <;> simp
  | false =>
    simp only [Bool.false_eq_true, if_false]
    by_cases hlen : 1100 ≤ e.length ∧ st.respTime = none
    · simp only [if_pos hlen]
      split_ifs <;> simp [hlen.1, hlen.2]
    · simp only [if_neg hlen]
      have hnone : (decide (1100 ≤ e.length) && st.respTime.isNone) = false := by
        rw [Bool.and_eq_false_iff, decide_eq_false_iff_not, Option.isNone_eq_false_iff,
          ← Option.ne_none_iff_isSome]
        exact Classical.not_and_iff_not_or_not.mp hlen
      split_ifs <;> simp [hnone]

/-- A FIN completes a TLS stream after more than 500 bytes of the server. -/
theorem completed_feed_tls (h : e.proto = .classicalTls) :
    (st.feed e).completed =
      (st.completed || (e.isFin && decide (500 < (st.feed e).serverBytes))) := by
  unfold feed clientPacket serverPacket finPacket
  simp only [h, reduceCtorEq, and_false, false_and, if_false, true_and]
  split_ifs <;> simp_all

end Stream

/-! ## All packets so far -/

section Packets

variable {o : Event} {es : List Event}

/-- The record of a stream after the packets `es`. -/
def record (o : Event) (es : List Event) : Stream := streamRules.feedAll (Stream.opened o) es

theorem record_concat (o : Event) (es : List Event) (e : Event) :
    record o (es ++ [e]) = (record o es).feed e :=
  feedAll_concat (R := streamRules) (Stream.opened o) es e

@[simp] theorem startTime_record : (record o es).startTime = o.dt := by
  induction es using List.reverseRecOn with
  | nil => rfl
  | append_singleton es e ih => rw [record_concat, Stream.startTime_feed, ih]

@[simp] theorem proto_record : (record o es).proto = o.proto := by
  induction es using List.reverseRecOn with
  | nil => rfl
  | append_singleton es e ih => rw [record_concat, Stream.proto_feed, ih]

theorem serverBytes_concat (es : List Event) (e : Event) :
    serverBytes (es ++ [e]) = if e.isClient then serverBytes es else serverBytes es + e.length := by
  unfold serverBytes
  cases h : e.isClient <;> simp [List.filter_append, h]

@[simp] theorem serverBytes_record : (record o es).serverBytes = serverBytes es := by
  induction es using List.reverseRecOn with
  | nil => rfl
  | append_singleton es e ih => rw [record_concat, Stream.serverBytes_feed, serverBytes_concat, ih]

theorem serverBytes_append_le (es es' : List Event) : serverBytes es ≤ serverBytes (es ++ es') := by
  simp [serverBytes]

theorem respTime_record_eq_none_iff :
    (record o es).respTime = none ↔ ∀ e ∈ es, e.isResponse = false := by
  induction es using List.reverseRecOn with
  | nil => simp [record, Stream.opened]
  | append_singleton es e ih =>
    rw [record_concat, Stream.respTime_feed]
    constructor
    · intro h
      split at h
      · cases h
      · next hnot =>
        have hold := ih.mp h
        intro e' he'
        rcases List.mem_append.mp he' with he' | he'
        · exact hold e' he'
        · rw [List.mem_singleton.mp he', ← Bool.not_eq_true]
          intro hresp
          exact hnot ⟨hresp, h⟩
    · intro h
      have hlast := h e (by simp)
      rw [if_neg (by simp [hlast])]
      exact ih.mpr fun e' he' => h e' (by simp [he'])

/-- A hybrid stream is completed by the first answer. -/
theorem completed_record_hybrid (ho : o.proto = .hybridPqc) (hes : ∀ e ∈ es, e.proto = o.proto) :
    (record o es).completed = true ↔ ∃ a ∈ es, a.isAnswer = true := by
  induction es using List.reverseRecOn with
  | nil => simp [record, Stream.opened]
  | append_singleton es e ih =>
    have hold : ∀ e ∈ es, e.proto = o.proto := fun e' he' => hes e' (by simp [he'])
    have hproto : e.proto = .hybridPqc := (hes e (by simp)).trans ho
    rw [record_concat, Stream.completed_feed_hybrid _ _ hproto, Bool.or_eq_true, Bool.and_eq_true,
      Option.isNone_iff_eq_none, ih hold]
    constructor
    · rintro (⟨a, ha, hans⟩ | ⟨hans, -⟩)
      · exact ⟨a, by simp [ha], hans⟩
      · exact ⟨e, by simp, hans⟩
    · rintro ⟨a, ha, hans⟩
      by_cases hbefore : ∃ a ∈ es, a.isAnswer = true
      · exact .inl hbefore
      -- no answer came before, so it is the last packet and it finds the response time unset
      rcases List.mem_append.mp ha with ha | ha
      · exact absurd ⟨a, ha, hans⟩ hbefore
      · rw [List.mem_singleton.mp ha] at hans
        refine .inr ⟨hans, respTime_record_eq_none_iff.mpr ?_⟩
        intro e' he'
        have hresp : e'.isResponse = e'.isAnswer := by
          unfold Event.isResponse
          rw [(hold e' he').trans ho]
        rw [hresp, ← Bool.not_eq_true]
        intro hans'
        exact hbefore ⟨e', he', hans'⟩

/-- A TLS stream is completed by a FIN after enough bytes of the server. -/
theorem completed_record_tls (ho : o.proto = .classicalTls) (hes : ∀ e ∈ es, e.proto = o.proto) :
    (record o es).completed = true ↔
      ∃ pre f post, es = pre ++ f :: post ∧ f.isFin = true ∧ 500 < serverBytes (pre ++ [f]) := by
  induction es using List.reverseRecOn with
  | nil => simp [record, Stream.opened]
  | append_singleton es e ih =>
    have hproto : e.proto = .classicalTls := (hes e (by simp)).trans ho
    have hbytes : ((record o es).feed e).serverBytes = serverBytes (es ++ [e]) := by
      rw [← record_concat, serverBytes_record]
    rw [record_concat, Stream.completed_feed_tls _ _ hproto, Bool.or_eq_true, Bool.and_eq_true,
      decide_eq_true_eq, hbytes, ih fun e' he' => hes e' (by simp [he'])]
    constructor
    · rintro (⟨pre, f, post, rfl, hf, henough⟩ | ⟨hf, henough⟩)
      · exact ⟨pre, f, post ++ [e], by simp, hf, henough⟩
      · exact ⟨es, e, [], rfl, hf, henough⟩
    · rintro ⟨pre, f, post, heq, hf, henough⟩
      rcases List.eq_nil_or_concat post with rfl | ⟨post, e', rfl⟩
      · rcases List.append_inj' heq rfl with ⟨rfl, hlast⟩
        rw [List.cons.injEq] at hlast
        rcases hlast with ⟨rfl, -⟩
        exact .inr ⟨hf, henough⟩
      · rw [List.concat_eq_append, ← List.cons_append, ← List.append_assoc] at heq
        rcases List.append_inj' heq rfl with ⟨rfl, -⟩
        exact .inl ⟨pre, f, post, rfl, hf, henough⟩

/-- A packet closes its stream when it is a FIN and the packets suffice. -/
theorem closes_record {e : Event} (hes : ∀ e' ∈ es ++ [e], e'.proto = o.proto) :
    (record o (es ++ [e])).closes e = true ↔
      e.isFin = true ∧ TrackedStream.Enough o.proto (es ++ [e]) := by
  unfold Stream.closes TrackedStream.Enough
  rw [Bool.and_eq_true, and_congr_right_iff]
  intro hfin
  cases ho : o.proto with
  | hybridPqc => exact completed_record_hybrid ho (ho ▸ hes)
  | classicalTls =>
    rw [completed_record_tls ho (ho ▸ hes)]
    constructor
    · rintro ⟨pre, f, post, heq, -, henough⟩
      have hle := serverBytes_append_le (pre ++ [f]) post
      have hsplit : es ++ [e] = pre ++ [f] ++ post := by simp [heq]
      rw [← hsplit] at hle
      exact Nat.lt_of_lt_of_le henough hle
    · intro henough
      exact ⟨es, e, [], rfl, hfin, henough⟩

end Packets

/-! ## A stream of the log -/

namespace TrackedStream

variable {log : List PyStr} {c : TrackedStream}

theorem proto_of_mem_events (hc : c ∈ trackedStreams log) : ∀ e ∈ c.events, e.proto = c.proto := by
  intro e he
  have hkey : e.key = c.opening.key := key_of_mem_events hc e he
  exact congrArg (fun k : StreamKey => k.2.1) hkey

/-- The parser closes a stream exactly when a FIN comes at a time when the packets suffice. -/
theorem closed_iff_closedByFin (hc : c ∈ trackedStreams log) :
    streamRules.closed (Stream.opened c.opening) c.events = true ↔ c.ClosedByFin := by
  have hproto := proto_of_mem_events hc
  rw [closed_iff]
  have hcloses : ∀ pre f post, c.events = pre ++ f :: post →
      (streamRules.closes (streamRules.feedAll (Stream.opened c.opening) (pre ++ [f])) f = true ↔
        f.isFin = true ∧ Enough c.proto (pre ++ [f])) := by
    intro pre f post heq
    apply closes_record
    intro e' he'
    apply hproto
    rw [heq]
    have hmem : e' ∈ pre ++ [f] ++ post := List.mem_append_left post he'
    simpa using hmem
  constructor
  · rintro ⟨pre, f, post, heq, h⟩
    exact ⟨pre, f, post, heq, (hcloses pre f post heq).mp h⟩
  · rintro ⟨pre, f, post, heq, h⟩
    exact ⟨pre, f, post, heq, (hcloses pre f post heq).mpr h⟩

/-- A stream that is never closed is completed by an answer, if it is a hybrid one. -/
theorem completed_of_not_closedByFin (hc : c ∈ trackedStreams log) (hnot : ¬c.ClosedByFin) :
    (record c.opening c.events).completed = true ↔ c.proto = .hybridPqc ∧ c.Answered := by
  have hproto := proto_of_mem_events hc
  cases ho : c.opening.proto with
  | hybridPqc =>
    rw [completed_record_hybrid ho hproto]
    exact ⟨fun h => ⟨ho, h⟩, fun h => h.2⟩
  | classicalTls =>
    rw [completed_record_tls ho hproto]
    constructor
    · rintro ⟨pre, f, post, heq, hf, henough⟩
      refine absurd ⟨pre, f, post, heq, hf, ?_⟩ hnot
      rw [proto, ho]
      exact henough
    · rintro ⟨hhybrid, -⟩
      rw [proto, ho] at hhybrid
      cases hhybrid

theorem isSome_sweep (st : Stream) : st.sweep.isSome = st.completed := by
  unfold Stream.sweep
  cases st.completed <;> rfl

/-- The sweep changes nothing but the end time. -/
theorem proto_of_sweep {st h : Stream} (hsweep : st.sweep = some h) : h.proto = st.proto := by
  unfold Stream.sweep at hsweep
  split at hsweep
  · rw [Option.some.injEq] at hsweep
    rw [← hsweep]
  · cases hsweep

theorem reported_eq (c : TrackedStream) :
    streamRules.reported c = streamRules.outcome c.superseded (Stream.opened c.opening) c.events := rfl

/-- What is returned of a stream keeps the protocol of its SYN. -/
theorem proto_of_reported {h : Stream} (hrep : streamRules.reported c = some h) : h.proto = c.proto := by
  have hproto : ∀ es, (record c.opening es).proto = c.proto := fun _ => proto_record
  rw [reported_eq, outcome_eq] at hrep
  split at hrep
  · rw [Option.some.injEq] at hrep
    rw [← hrep]
    exact hproto _
  · split at hrep
    · cases hrep
    · exact (proto_of_sweep hrep).trans (hproto _)

/-- A stream is returned when a FIN closes it, or as a hybrid one that is answered and not superseded. -/
theorem isSome_reported (hc : c ∈ trackedStreams log) :
    (streamRules.reported c).isSome = true ↔ c.Returned := by
  unfold Returned
  rw [reported_eq, outcome_eq]
  by_cases hclosed : c.ClosedByFin
  · rw [if_pos ((closed_iff_closedByFin hc).mpr hclosed)]
    simp [hclosed]
  · have hnot : streamRules.closed (Stream.opened c.opening) c.events = false := by
      rw [← Bool.not_eq_true, closed_iff_closedByFin hc]
      exact hclosed
    rw [if_neg (by simp [hnot]), heard_of_not_closed hnot]
    cases c.superseded with
    | true => simp [hclosed]
    | false =>
      rw [if_neg (by simp)]
      have hsweep := isSome_sweep (record c.opening c.events)
      have hcompleted := completed_of_not_closedByFin hc hclosed
      rw [← hsweep] at hcompleted
      rw [or_iff_right hclosed, and_iff_right rfl]
      exact hcompleted

end TrackedStream

end HybridPqc
