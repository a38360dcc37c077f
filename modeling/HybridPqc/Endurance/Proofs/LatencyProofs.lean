import HybridPqc.Endurance.Main
import HybridPqc.Endurance.Proofs.SittingProofs

/-!
# Proofs: latencies

Which packets the times in the record of a stream come from, and when these times make sense: a hybrid
stream keeps its last request, its first answer and its last FIN, a TLS stream the first segment of
either side that is long enough.
-/

open PyStr (lit)

namespace HybridPqc

open Conversations

/-! ## First and last packets -/

/-- `t` is the time of the first of the packets `es` with `P`. -/
def IsFirst (P : Event → Bool) (es : List Event) (t : Option DateTime) : Prop :=
  match t with
  | none => ∀ e ∈ es, P e = false
  | some t => (∃ e ∈ es, P e = true ∧ e.dt = t) ∧ ∀ e ∈ es, P e = true → t.micros ≤ e.dt.micros

/-- `t` is the time of the last of the packets `es` with `P`. -/
def IsLast (P : Event → Bool) (es : List Event) (t : Option DateTime) : Prop :=
  match t with
  | none => ∀ e ∈ es, P e = false
  | some t => (∃ e ∈ es, P e = true ∧ e.dt = t) ∧ ∀ e ∈ es, P e = true → e.dt.micros ≤ t.micros

section Extremes

variable {P : Event → Bool} {es : List Event} {e : Event} {t : Option DateTime}

/-- The times of the packets do not decrease. -/
def Ordered (es : List Event) : Prop := es.Pairwise fun e e' => e.dt.micros ≤ e'.dt.micros

theorem Ordered.le_last (h : Ordered (es ++ [e])) : ∀ e' ∈ es, e'.dt.micros ≤ e.dt.micros := by
  intro e' he'
  exact (List.pairwise_append.mp h).2.2 e' he' e (by simp)

theorem Ordered.init (h : Ordered (es ++ [e])) : Ordered es := (List.pairwise_append.mp h).1

theorem forall_mem_concat {Q : Event → Prop} :
    (∀ e' ∈ es ++ [e], Q e') ↔ (∀ e' ∈ es, Q e') ∧ Q e := by
  rw [List.forall_mem_append, List.forall_mem_singleton]

theorem IsFirst.concat (h : IsFirst P es t) (hord : Ordered (es ++ [e])) :
    IsFirst P (es ++ [e]) (if P e = true ∧ t = none then some e.dt else t) := by
  cases t with
  | none =>
    have hnone : ∀ e ∈ es, P e = false := h
    by_cases hP : P e = true
    · rw [if_pos ⟨hP, rfl⟩]
      refine ⟨⟨e, by simp, hP, rfl⟩, forall_mem_concat.mpr ⟨?_, fun _ => Nat.le_refl _⟩⟩
      intro e' he' hP'
      rw [hnone e' he'] at hP'
      cases hP'
    · rw [if_neg fun hand => hP hand.1]
      exact forall_mem_concat.mpr ⟨hnone, Bool.eq_false_iff.mpr hP⟩
  | some t =>
    rcases h with ⟨⟨e₀, he₀, hP₀, ht⟩, hle⟩
    rw [if_neg (by simp)]
    refine ⟨⟨e₀, by simp [he₀], hP₀, ht⟩, forall_mem_concat.mpr ⟨hle, fun _ => ?_⟩⟩
    rw [← ht]
    exact hord.le_last e₀ he₀

theorem IsLast.concat (h : IsLast P es t) (hord : Ordered (es ++ [e])) :
    IsLast P (es ++ [e]) (if P e = true then some e.dt else t) := by
  by_cases hP : P e = true
  · rw [if_pos hP]
    refine ⟨⟨e, by simp, hP, rfl⟩, forall_mem_concat.mpr ⟨?_, fun _ => Nat.le_refl _⟩⟩
    intro e' he' _
    exact hord.le_last e' he'
  · rw [if_neg hP]
    cases t with
    | none => exact forall_mem_concat.mpr ⟨h, Bool.eq_false_iff.mpr hP⟩
    | some t =>
      rcases h with ⟨⟨e₀, he₀, hP₀, ht⟩, hle⟩
      exact ⟨⟨e₀, by simp [he₀], hP₀, ht⟩, forall_mem_concat.mpr ⟨hle, fun hP' => absurd hP' hP⟩⟩

theorem IsFirst.congr {Q : Event → Bool} (hPQ : ∀ e ∈ es, P e = Q e) (h : IsFirst P es t) :
    IsFirst Q es t := by
  cases t with
  | none =>
    intro e he
    rw [← hPQ e he]
    exact h e he
  | some t =>
    rcases h with ⟨⟨e₀, he₀, hP₀, ht⟩, hle⟩
    refine ⟨⟨e₀, he₀, hPQ e₀ he₀ ▸ hP₀, ht⟩, ?_⟩
    intro e he hQ
    rw [← hPQ e he] at hQ
    exact hle e he hQ

/-- A packet with `P` has the first and the last one set. -/
theorem IsFirst.exists_some (h : IsFirst P es t) (he : e ∈ es) (hP : P e = true) :
    ∃ t', t = some t' ∧ t'.micros ≤ e.dt.micros := by
  cases t with
  | none =>
    rw [h e he] at hP
    cases hP
  | some t' => exact ⟨t', rfl, h.2 e he hP⟩

theorem IsLast.exists_some (h : IsLast P es t) (he : e ∈ es) (hP : P e = true) :
    ∃ t', t = some t' ∧ e.dt.micros ≤ t'.micros := by
  cases t with
  | none =>
    rw [h e he] at hP
    cases hP
  | some t' => exact ⟨t', rfl, h.2 e he hP⟩

theorem isFirst_nil : IsFirst P [] none := by simp [IsFirst]

theorem isLast_nil : IsLast P [] none := by simp [IsLast]

end Extremes

/-! ## The times of a record -/

namespace Stream

variable (st : Stream) (e : Event)

/-- A request sets the request time of a hybrid stream, whether it is set or not. -/
theorem reqTime_feed_hybrid (h : e.proto = .hybridPqc) :
    (st.feed e).reqTime = if e.isRequest = true then some e.dt else st.reqTime := by
  unfold feed clientPacket serverPacket finPacket Event.isRequest
  simp only [h, reduceCtorEq, false_and, if_false, true_and, and_true]
  cases e.isClient with
  | true =>
    simp only [if_true, Bool.true_and, decide_eq_true_eq]
    split_ifs <;> rfl
  | false =>
    simp only [Bool.false_eq_true, if_false, Bool.false_and]
    split_ifs <;> rfl

/-- The first ClientHello sets the request time of a TLS stream. -/
theorem reqTime_feed_tls (h : e.proto = .classicalTls) :
    (st.feed e).reqTime = if e.isClientHello = true ∧ st.reqTime = none then some e.dt else st.reqTime := by
  unfold feed clientPacket serverPacket finPacket Event.isClientHello
  simp only [h, reduceCtorEq, and_false, false_and, if_false, true_and]
  cases e.isClient with
  | true =>
    simp only [if_true, Bool.true_and, decide_eq_true_eq]
    split_ifs <;> rfl
  | false =>
    simp only [Bool.false_eq_true, if_false, Bool.false_and, false_and]
    split_ifs <;> rfl

end Stream

section Record

variable {o : Event} {es : List Event}

theorem endTime_record (hord : Ordered es) : IsLast Event.isFin es (record o es).endTime := by
  induction es using List.reverseRecOn with
  | nil => exact isLast_nil
  | append_singleton es e ih =>
    rw [record_concat, Stream.endTime_feed]
    exact (ih hord.init).concat hord

theorem respTime_record (hord : Ordered es) : IsFirst Event.isResponse es (record o es).respTime := by
  induction es using List.reverseRecOn with
  | nil => exact isFirst_nil
  | append_singleton es e ih =>
    rw [record_concat, Stream.respTime_feed]
    exact (ih hord.init).concat hord

theorem reqTime_record_hybrid (ho : o.proto = .hybridPqc) (hes : ∀ e ∈ es, e.proto = o.proto)
    (hord : Ordered es) : IsLast Event.isRequest es (record o es).reqTime := by
  induction es using List.reverseRecOn with
  | nil => exact isLast_nil
  | append_singleton es e ih =>
    rw [record_concat, Stream.reqTime_feed_hybrid _ _ ((hes e (by simp)).trans ho)]
    exact (ih (fun e' he' => hes e' (by simp [he'])) hord.init).concat hord

theorem reqTime_record_tls (ho : o.proto = .classicalTls) (hes : ∀ e ∈ es, e.proto = o.proto)
    (hord : Ordered es) : IsFirst Event.isClientHello es (record o es).reqTime := by
  induction es using List.reverseRecOn with
  | nil => exact isFirst_nil
  | append_singleton es e ih =>
    rw [record_concat, Stream.reqTime_feed_tls _ _ ((hes e (by simp)).trans ho)]
    exact (ih (fun e' he' => hes e' (by simp [he'])) hord.init).concat hord

end Record

/-! ## The packets that count -/

/-- The packets that the parser hears of a stream are those up to the FIN that closes it. -/
theorem heard_eq_upToFin {o : Event} {pre es : List Event}
    (hes : ∀ e ∈ pre ++ es, e.proto = o.proto) :
    streamRules.heard (record o pre) es = TrackedStream.upToFin o.proto pre es := by
  induction es generalizing pre with
  | nil => rfl
  | cons e es ih =>
    have hsplit : pre ++ e :: es = pre ++ [e] ++ es := by simp
    rw [hsplit] at hes
    have hcloses : streamRules.closes (streamRules.feed (record o pre) e) e = true ↔
        e.isFin = true ∧ TrackedStream.Enough o.proto (pre ++ [e]) := by
      have hpre : ∀ e' ∈ pre ++ [e], e'.proto = o.proto :=
        fun e' he' => hes e' (List.mem_append_left es he')
      have hiff := closes_record hpre
      rw [record_concat] at hiff
      exact hiff
    rw [heard, TrackedStream.upToFin]
    congr 1
    have hrest := ih hes
    rw [record_concat] at hrest
    by_cases h : e.isFin = true ∧ TrackedStream.Enough o.proto (pre ++ [e])
    · rw [if_pos h, if_pos (hcloses.mpr h)]
    · rw [if_neg h, if_neg fun hc => h (hcloses.mp hc)]
      exact hrest

namespace TrackedStream

variable {log : List PyStr} {c : TrackedStream}

theorem heard_eq (hc : c ∈ trackedStreams log) :
    streamRules.heard (Stream.opened c.opening) c.events = c.heard := by
  have hproto : ∀ e ∈ [] ++ c.events, e.proto = c.opening.proto := proto_of_mem_events hc
  exact heard_eq_upToFin hproto

theorem heard_isPrefix (hc : c ∈ trackedStreams log) : c.heard <+: c.events := by
  rw [← heard_eq hc]
  exact Conversations.heard_isPrefix _ _

/-- The record that is returned of a stream: after the FIN that closes it, or with an end time for the
sweep. -/
theorem reported_cases (hc : c ∈ trackedStreams log) {h : Stream} (hrep : streamRules.reported c = some h) :
    (∃ pre f, c.heard = pre ++ [f] ∧ f.isFin = true ∧ Enough c.proto c.heard ∧
        h = record c.opening c.heard) ∨
      (c.proto = .hybridPqc ∧ Enough c.proto c.heard ∧ (record c.opening c.heard).sweep = some h) := by
  unfold reported at hrep
  rw [outcome_eq, show streamRules.start = Stream.opened from rfl, heard_eq hc] at hrep
  cases hclosed : streamRules.closed (Stream.opened c.opening) c.events with
  | true =>
    rw [if_pos hclosed, Option.some.injEq] at hrep
    rcases heard_of_closed hclosed with ⟨pre, f, hheard, hcloses⟩
    rw [heard_eq hc] at hheard
    have hproto : ∀ e ∈ pre ++ [f], e.proto = c.opening.proto := by
      intro e he
      rw [← hheard] at he
      exact proto_of_mem_events hc e ((heard_isPrefix hc).subset he)
    rcases (closes_record hproto).mp hcloses with ⟨hf, henough⟩
    rw [← hheard] at henough
    exact .inl ⟨pre, f, hheard, hf, henough, hrep.symm⟩
  | false =>
    rw [if_neg (by simp [hclosed])] at hrep
    have hall := heard_of_not_closed hclosed
    rw [heard_eq hc] at hall
    split at hrep
    · cases hrep
    · have hsome := isSome_sweep (record c.opening c.heard)
      have hrep' : (record c.opening c.heard).sweep = some h := hrep
      rw [hrep', Option.isSome_some, hall] at hsome
      have hnot : ¬c.ClosedByFin := by
        rw [← closed_iff_closedByFin hc, hclosed]
        simp
      rcases (completed_of_not_closedByFin hc hnot).mp hsome.symm with ⟨hp, hans⟩
      refine .inr ⟨hp, ?_, hrep'⟩
      rw [hp, hall]
      exact hans

end TrackedStream

/-! ## Physical latencies -/

/-- A handshake ends no earlier than it starts, and its turnaround is neither negative nor longer than
the whole of it. -/
def Physical (h : Stream) : Prop :=
  ∃ endTime l, h.endTime = some endTime ∧ h.startTime.micros ≤ endTime.micros ∧
    latency h = some l ∧ 0 ≤ l.turnaround ∧ l.turnaround ≤ l.totalDuration

/-- When a handshake with an end time is physical. -/
theorem physical_iff {h : Stream} {endTime : DateTime} (hend : h.endTime = some endTime)
    (hle : h.startTime.micros ≤ endTime.micros) :
    Physical h ↔ ∀ q r, h.reqTime = some q → h.respTime = some r →
      q.micros ≤ r.micros ∧ r.micros + h.startTime.micros ≤ endTime.micros + q.micros := by
  unfold Physical latency
  rw [hend]
  constructor
  · rintro ⟨e, l, he, -, hl, hnonneg, htotal⟩ q r hq hr
    rw [hq, hr, Option.map_some, Option.some.injEq] at hl
    rw [← hl] at hnonneg htotal
    unfold elapsed at hnonneg htotal
    dsimp only at hnonneg htotal
    omega
  · intro hall
    refine ⟨endTime, _, rfl, hle, rfl, ?_⟩
    cases hq : h.reqTime with
    | none =>
      unfold elapsed
      dsimp only
      omega
    | some q =>
      cases hr : h.respTime with
      | none =>
        unfold elapsed
        dsimp only
        omega
      | some r =>
        rcases hall q r hq hr with ⟨h1, h2⟩
        unfold elapsed
        dsimp only
        omega

/-! ## Streams with ordered times -/

theorem dts_eventsFrom (prev : Option DateTime) (sessionId : Nat) (ps : List Packet) :
    ((eventsFrom prev sessionId ps).map Event.dt).Sublist (ps.map Packet.dt) := by
  induction ps generalizing prev sessionId with
  | nil => exact List.Sublist.refl _
  | cons p ps ih =>
    rw [eventsFrom, List.map_append, List.map_cons]
    unfold Packet.event?
    cases classify p.src p.dst with
    | none => exact (ih _ _).cons p.dt
    | some c => exact (ih _ _).cons_cons p.dt

theorem ordered_events {log : List PyStr} (h : NonDecreasing log) : Ordered (events log) := by
  have hdts : ((packets log).map Packet.dt).Pairwise fun a b => a.micros ≤ b.micros := by
    rw [List.pairwise_map]
    exact h
  have hevents := hdts.sublist (dts_eventsFrom none 0 (packets log))
  rw [List.pairwise_map] at hevents
  exact hevents

namespace TrackedStream

variable {log : List PyStr} {c : TrackedStream} {h : Stream}

theorem ordered_events (hlog : NonDecreasing log) (hc : c ∈ trackedStreams log) : Ordered c.events :=
  (HybridPqc.ordered_events hlog).sublist (events_sublist hc)

theorem ordered_heard (hlog : NonDecreasing log) (hc : c ∈ trackedStreams log) : Ordered c.heard :=
  (ordered_events hlog hc).sublist (heard_isPrefix hc).sublist

/-- No packet of a stream is older than its SYN. -/
theorem opening_le (hlog : NonDecreasing log) (hc : c ∈ trackedStreams log) :
    ∀ e ∈ c.heard, c.opening.dt.micros ≤ e.dt.micros := by
  intro e he
  rcases List.mem_cons.mp ((heard_isPrefix hc).subset he) with rfl | he
  · exact Nat.le_refl _
  · exact (List.pairwise_cons.mp (ordered_events hlog hc)).1 e he

/-- The record of a returned stream: its times but the last are those of the packets that count, and the
sweep sets the end time of a stream without a FIN. -/
theorem reported_fields (hc : c ∈ trackedStreams log) (hrep : streamRules.reported c = some h) :
    h.startTime = c.opening.dt ∧ h.reqTime = (record c.opening c.heard).reqTime ∧
      h.respTime = (record c.opening c.heard).respTime ∧
      h.endTime = (record c.opening c.heard).endTime.or
        ((record c.opening c.heard).respTime.or (some c.opening.dt)) := by
  rcases reported_cases hc hrep with ⟨pre, f, hheard, hf, -, rfl⟩ | ⟨-, -, hsweep⟩
  · have hend : (record c.opening c.heard).endTime = some f.dt := by
      rw [hheard, record_concat, Stream.endTime_feed, if_pos hf]
    exact ⟨startTime_record, rfl, rfl, by rw [hend]; rfl⟩
  · unfold Stream.sweep at hsweep
    split at hsweep
    · rw [Option.some.injEq] at hsweep
      rw [← hsweep]
      exact ⟨startTime_record, rfl, rfl, by rw [startTime_record]⟩
    · cases hsweep

theorem proto_of_mem_heard (hc : c ∈ trackedStreams log) : ∀ e ∈ c.heard, e.proto = c.proto := fun e he =>
  proto_of_mem_events hc e ((heard_isPrefix hc).subset he)

/-- A hybrid handshake is physical exactly when the packets of its stream are in order. -/
theorem physical_hybrid (hlog : NonDecreasing log) (hc : c ∈ trackedStreams log) (hp : c.proto = .hybridPqc)
    (hrep : streamRules.reported c = some h) : Physical h ↔ c.TimesOrdered := by
  have hord := ordered_heard hlog hc
  have hopening := opening_le hlog hc
  have hproto := proto_of_mem_heard hc
  have hreq := reqTime_record_hybrid (o := c.opening) hp hproto hord
  have hfin := endTime_record (o := c.opening) hord
  have hresp : IsFirst Event.isAnswer c.heard (record c.opening c.heard).respTime := by
    apply (respTime_record hord).congr
    intro e he
    unfold Event.isResponse
    rw [(hproto e he).trans hp]
  have henough : Enough c.proto c.heard := by
    rcases reported_cases hc hrep with ⟨_, _, _, _, henough, _⟩ | ⟨_, henough, _⟩
    · exact henough
    · exact henough
  rw [hp] at henough
  rcases henough with ⟨a, ha, hans⟩
  rcases hresp.exists_some ha hans with ⟨r, hr, -⟩
  rcases reported_fields hc hrep with ⟨hstart, hreq', hresp', hend⟩
  rw [hr] at hresp hresp' hend
  rcases hresp with ⟨⟨a₀, ha₀, hans₀, rfl⟩, hfirst⟩
  unfold TimesOrdered
  rw [hp]
  dsimp only
  have hbefore : (∀ q, (record c.opening c.heard).reqTime = some q → q.micros ≤ a₀.dt.micros) ↔
      ∀ q ∈ c.heard, q.isRequest → ∀ a ∈ c.heard, a.isAnswer → q.dt.micros ≤ a.dt.micros := by
    constructor
    · intro hall q hq hisReq a ha hans
      rcases hreq.exists_some hq hisReq with ⟨tq, htq, hle⟩
      exact Nat.le_trans hle (Nat.le_trans (hall tq htq) (hfirst a ha hans))
    · intro hall tq htq
      rw [htq] at hreq
      rcases hreq with ⟨⟨q₀, hq₀, hisReq₀, rfl⟩, -⟩
      exact hall q₀ hq₀ hisReq₀ a₀ ha₀ hans₀
  rw [← hbefore]
  cases hf : (record c.opening c.heard).endTime with
  | none =>
    -- no FIN was seen: the handshake ends with its first answer
    rw [hf] at hfin hend
    rw [physical_iff hend (by rw [hstart]; exact hopening a₀ ha₀), hreq', hresp', hstart]
    constructor
    · intro hall
      refine ⟨fun q hq => (hall q _ hq rfl).1, ?_⟩
      rintro - ⟨f, hfmem, hisFin⟩
      rw [hfin f hfmem] at hisFin
      cases hisFin
    · rintro ⟨hall, -⟩ tq tr htq htr
      rw [Option.some.injEq] at htr
      subst htr
      refine ⟨hall tq htq, ?_⟩
      rw [htq] at hreq
      rcases hreq with ⟨⟨q₀, hq₀, hisReq₀, rfl⟩, -⟩
      have h1 := hopening q₀ hq₀
      omega
  | some t =>
    -- the handshake ends with the last FIN, which may come before the first answer
    rw [hf] at hfin hend
    rcases hfin with ⟨⟨f₀, hf₀, hisFin, rfl⟩, hlast⟩
    rw [physical_iff hend (by rw [hstart]; exact hopening f₀ hf₀), hreq', hresp', hstart]
    constructor
    · intro hall
      refine ⟨fun q hq => (hall q _ hq rfl).1, ?_⟩
      rintro ⟨q, hq, hisReq⟩ -
      rcases hreq.exists_some hq hisReq with ⟨tq, htq, -⟩
      have hlen := (hall tq _ htq rfl).2
      rw [htq] at hreq
      rcases hreq with ⟨⟨q₀, hq₀, hisReq₀, rfl⟩, -⟩
      exact ⟨q₀, hq₀, a₀, ha₀, f₀, hf₀, hisReq₀, hans₀, hisFin, hlen⟩
    · rintro ⟨hall, hlen⟩ tq tr htq htr
      rw [Option.some.injEq] at htr
      subst htr
      refine ⟨hall tq htq, ?_⟩
      rw [htq] at hreq
      rcases hreq with ⟨⟨q₀, hq₀, hisReq₀, rfl⟩, hlastReq⟩
      rcases hlen ⟨q₀, hq₀, hisReq₀⟩ ⟨f₀, hf₀, hisFin⟩ with ⟨q, hq, a, ha, f, hf, h1, h2, h3, hle⟩
      have hqle := hlastReq q hq h1
      have hale := hfirst a ha h2
      have hfle := hlast f hf h3
      omega

/-- A TLS handshake is physical exactly when the packets of its stream are in order. -/
theorem physical_tls (hlog : NonDecreasing log) (hc : c ∈ trackedStreams log)
    (hp : c.proto = .classicalTls) (hrep : streamRules.reported c = some h) :
    Physical h ↔ c.TimesOrdered := by
  have hord := ordered_heard hlog hc
  have hopening := opening_le hlog hc
  have hproto := proto_of_mem_heard hc
  have hreq := reqTime_record_tls (o := c.opening) hp hproto hord
  have hresp : IsFirst Event.isServerHello c.heard (record c.opening c.heard).respTime := by
    apply (respTime_record hord).congr
    intro e he
    unfold Event.isResponse
    rw [(hproto e he).trans hp]
  rcases reported_cases hc hrep with ⟨pre, f, hheard, hf, -, rfl⟩ | ⟨hp', -, -⟩
  swap
  · rw [hp] at hp'
    cases hp'
  have hend : (record c.opening c.heard).endTime = some f.dt := by
    rw [hheard, record_concat, Stream.endTime_feed, if_pos hf]
  have hlast : ∀ e ∈ c.heard, e.dt.micros ≤ f.dt.micros := by
    rw [hheard] at hord ⊢
    exact forall_mem_concat.mpr ⟨hord.le_last, Nat.le_refl _⟩
  have hfmem : f ∈ c.heard := by
    rw [hheard]
    simp
  rw [physical_iff hend (by rw [startTime_record]; exact hopening f hfmem), startTime_record]
  unfold TimesOrdered
  rw [hp]
  dsimp only
  constructor
  · rintro hall ⟨q, hq, hhello⟩ ⟨a, ha, hserver⟩
    rcases hreq.exists_some hq hhello with ⟨tq, htq, -⟩
    rcases hresp.exists_some ha hserver with ⟨tr, htr, -⟩
    have hle := (hall tq tr htq htr).1
    rw [htq] at hreq
    rw [htr] at hresp
    rcases hreq with ⟨⟨q₀, hq₀, hhello₀, rfl⟩, -⟩
    refine ⟨q₀, hq₀, hhello₀, ?_⟩
    intro a' ha' hserver'
    exact Nat.le_trans hle (hresp.2 a' ha' hserver')
  · intro hcond tq tr htq htr
    rw [htq] at hreq
    rw [htr] at hresp
    rcases hreq with ⟨⟨q₀, hq₀, hhello₀, rfl⟩, hfirstReq⟩
    rcases hresp with ⟨⟨a₀, ha₀, hserver₀, rfl⟩, -⟩
    rcases hcond ⟨q₀, hq₀, hhello₀⟩ ⟨a₀, ha₀, hserver₀⟩ with ⟨q₁, hq₁, hhello₁, hbefore⟩
    constructor
    · exact Nat.le_trans (hfirstReq q₁ hq₁ hhello₁) (hbefore a₀ ha₀ hserver₀)
    · have h1 := hlast a₀ ha₀
      have h2 := hopening q₀ hq₀
      omega

theorem physical_iff_timesOrdered (hlog : NonDecreasing log) (hc : c ∈ trackedStreams log)
    (hrep : streamRules.reported c = some h) : Physical h ↔ c.TimesOrdered := by
  cases hp : c.proto with
  | hybridPqc => exact physical_hybrid hlog hc hp hrep
  | classicalTls => exact physical_tls hlog hc hp hrep

end TrackedStream

/-- A handshake whose client sends its request again after the answer. -/
def resentRequestLog : List PyStr :=
  [captureLine (lit "08:24:23.651742") (lit "192.168.1.3.60420") (lit "192.168.1.9.8443") (lit "S") 0,
   captureLine (lit "08:24:23.652100") (lit "192.168.1.3.60420") (lit "192.168.1.9.8443") (lit "P.") 1249,
   captureLine (lit "08:24:23.660250") (lit "192.168.1.9.8443") (lit "192.168.1.3.60420") (lit "P.") 1268,
   captureLine (lit "08:24:23.663000") (lit "192.168.1.3.60420") (lit "192.168.1.9.8443") (lit "P.") 1249,
   captureLine (lit "08:24:23.667114") (lit "192.168.1.9.8443") (lit "192.168.1.3.60420") (lit "F.") 0]

theorem resentRequestLog_nonDecreasing : NonDecreasing resentRequestLog := by
  unfold NonDecreasing
  decide +kernel

end HybridPqc
