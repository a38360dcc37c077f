import Mathlib.Data.List.ReduceOption
import HybridPqc.Device.Benchmark
import HybridPqc.Device.Proofs.HandshakeProofs
import HybridPqc.Device.Proofs.KeygenProofs

/-!
# What a benchmark run counts

A run is a success once it has keys: what becomes of the network handshake and of the response is not in
its return value. A campaign counts the successes, so it counts handshakes only if every run that has
keys completes one.
-/

namespace HybridPqc

variable {X : Externals} {mode : Mode} {env : RunEnv}

/-- The context with which a run goes into its handshake. -/
def runCtx (X : Externals) (mode : Mode) (env : RunEnv) : HybridCtx :=
  (hybridKeygen X env.codes env.outputs (hybridInit mode)).ctx

/-- `hybrid_process_server_response` returns 0 on what the run has received. -/
def handshakeCompletes (X : Externals) (mode : Mode) (env : RunEnv) : Bool :=
  decide ((hybridKeygen X env.codes env.outputs (hybridInit mode)).ret = 0) &&
    match doNetworkHandshake X env (runCtx X mode env) with
    | none => false
    | some handshake =>
      decide ((hybridProcessServerResponse X env.response (runCtx X mode env)
        handshake.response).ret = 0)

/-- A run that returns 0 has completed its handshake, and its payload is that of the request and the
response. -/
def RunIsReal (X : Externals) (mode : Mode) (env : RunEnv) : Prop :=
  ∀ result, benchmarkRunSingle X mode env = some result →
    ∃ handshake, doNetworkHandshake X env (runCtx X mode env) = some handshake ∧
      (hybridProcessServerResponse X env.response (runCtx X mode env) handshake.response).ret = 0 ∧
      result.payloadBytes = handshake.request.length + handshake.response.length

/-- Every run that a campaign takes for a success is a handshake, and the number of runs that it reports
is that of the handshakes. -/
structure CountsHandshakes (X : Externals) (mode : Mode) (iterations : Nat) (envs : List RunEnv) :
    Prop where
  runs : ∀ env ∈ envs, RunIsReal X mode env
  report : ∀ report,
    benchmarkRunCampaign mode iterations (envs.map (benchmarkRunSingle X mode)) = some report →
      report.campaign.successfulRuns = envs.countP (handshakeCompletes X mode) ∧
        report.line = failureLine (envs.countP (handshakeCompletes X mode)) iterations

/-- The handshake of a run goes through: both packings succeed, the server answers, and its response
verifies. -/
structure HandshakeGoesThrough (X : Externals) (mode : Mode) (env : RunEnv) : Prop where
  sizeHmac : env.sizeHmacRet = 0
  requestHmac : env.requestHmacRet = 0
  verifies : ∃ response, env.network = some response ∧
    Agrees X env.response (runCtx X mode env) (response.take benchmarkBufSize)

/-! ## One run -/

theorem ret_eq_zero_iff : (hybridKeygen X env.codes env.outputs (hybridInit mode)).ret = 0 ↔
    env.codes.Returns mode := by
  constructor
  · exact returns_of_ret
  · intro h
    exact (hybridKeygen_of_returns h).1

theorem benchmarkRunSingle_of_fails (h : ¬ env.codes.Returns mode) :
    benchmarkRunSingle X mode env = none := by
  rw [← ret_eq_zero_iff (X := X)] at h
  exact if_pos h

/-- With keys a run succeeds; its payload is the length of the packed keys, zero if they could not be
packed, and of what the handshake part leaves as the response. -/
theorem benchmarkRunSingle_of_returns (h : env.codes.Returns mode) :
    ∃ result, benchmarkRunSingle X mode env = some result ∧
      result.payloadBytes = (if env.sizeHmacRet = 0 then mode.helloLength + 32 else 0) +
        (handshakeRun X env (runCtx X mode env)).responseLen := by
  have hret := (ret_eq_zero_iff (X := X)).mpr h
  have hmode : (runCtx X mode env).mode = mode := by
    rw [runCtx, hybridKeygen_keyed]
    rfl
  have hlen : ((hybridPackPubkeys X env.sizeHmacRet (runCtx X mode env) pubkeyBufSize).map
      List.length).getD 0 = if env.sizeHmacRet = 0 then mode.helloLength + 32 else 0 := by
    rw [hybridPackPubkeys_eq]
    split
    · simp [helloOf_length, hmode]
    · rfl
  refine ⟨_, if_neg (not_not.mpr hret), ?_⟩
  rw [← hlen]
  rfl

theorem doNetworkHandshake_eq_some {ctx : HybridCtx} {handshake : NetworkHandshake} :
    doNetworkHandshake X env ctx = some handshake ↔
      env.requestHmacRet = 0 ∧ ∃ response, env.network = some response ∧
        handshake = ⟨helloOf X ctx, response.take benchmarkBufSize⟩ := by
  unfold doNetworkHandshake
  rw [hybridPackPubkeys_eq]
  by_cases hret : env.requestHmacRet = 0
  · cases hnet : env.network with
    | none => simp [hret]
    | some response =>
      simp only [hret, if_true, Option.bind_eq_bind, Option.bind_some, Option.some.injEq, true_and,
        exists_eq_left']
      exact eq_comm
  · simp [hret]

/-- A run is what it counts as exactly when it gets no keys, or its handshake goes through. -/
theorem runIsReal_iff :
    RunIsReal X mode env ↔ (¬ env.codes.Returns mode ∨ HandshakeGoesThrough X mode env) := by
  by_cases hreturns : env.codes.Returns mode
  · obtain ⟨result, hresult, hpayload⟩ := benchmarkRunSingle_of_returns (X := X) hreturns
    have hmode : (runCtx X mode env).mode = mode := by
      rw [runCtx, hybridKeygen_keyed]
      rfl
    constructor
    · intro h
      right
      obtain ⟨handshake, hnet, hret, hsum⟩ := h result hresult
      obtain ⟨hmac, response, hread, rfl⟩ := doNetworkHandshake_eq_some.mp hnet
      have hag : Agrees X env.response (runCtx X mode env) (response.take benchmarkBufSize) := by
        by_contra hnot
        rw [hybridProcessServerResponse_of_refused hnot] at hret
        cases hret
      refine ⟨?_, hmac, response, hread, hag⟩
      by_contra hsize
      rw [hpayload, if_neg hsize, handshakeRun, hnet] at hsum
      simp only [helloOf_length, Nat.zero_add] at hsum
      omega
    · rintro (hnot | ⟨hsize, hmac, response, hread, hag⟩) result' hresult'
      · exact absurd hreturns hnot
      · have hnet : doNetworkHandshake X env (runCtx X mode env) =
            some ⟨helloOf X (runCtx X mode env), response.take benchmarkBufSize⟩ :=
          doNetworkHandshake_eq_some.mpr ⟨hmac, response, hread, rfl⟩
        have heq : result' = result := Option.some.inj (hresult'.symm.trans hresult)
        refine ⟨_, hnet, by rw [hybridProcessServerResponse_of_agrees hag], ?_⟩
        rw [heq, hpayload, if_pos hsize, handshakeRun, hnet, helloOf_length, hmode]
  · constructor
    · intro _
      exact .inl hreturns
    · intro _ result hresult
      rw [benchmarkRunSingle_of_fails hreturns] at hresult
      cases hresult

/-! ## The campaign -/

/-- The loop takes the outcomes up to the last success that it needs, and adds up the successes. -/
theorem Campaign.loop_eq_some {n : Nat} {c c' : Campaign} {outcomes rest : List (Option BenchmarkResult)}
    (h : Campaign.loop n c outcomes = some (c', rest)) :
    ∃ used, outcomes = used ++ rest ∧ used.reduceOption.length = n ∧
      c' = used.reduceOption.foldl Campaign.add c := by
  induction outcomes generalizing n c with
  | nil =>
    cases n with
    | zero =>
      cases h
      exact ⟨[], rfl, rfl, rfl⟩
    | succ n => cases h
  | cons outcome outcomes ih =>
    cases n with
    | zero =>
      cases h
      exact ⟨[], rfl, rfl, rfl⟩
    | succ n =>
      cases outcome with
      | none =>
        obtain ⟨used, hsplit, hlen, hfold⟩ := ih h
        refine ⟨none :: used, by rw [hsplit, List.cons_append], ?_, ?_⟩
        · rw [List.reduceOption_cons_of_none, hlen]
        · rw [List.reduceOption_cons_of_none, hfold]
      | some r =>
        obtain ⟨used, hsplit, hlen, hfold⟩ := ih h
        refine ⟨some r :: used, by rw [hsplit, List.cons_append], ?_, ?_⟩
        · rw [List.reduceOption_cons_of_some, List.length_cons, hlen]
        · rw [List.reduceOption_cons_of_some, List.foldl_cons, hfold]

theorem foldl_successfulRuns (rs : List BenchmarkResult) (c : Campaign) :
    (rs.foldl Campaign.add c).successfulRuns = c.successfulRuns + rs.length := by
  induction rs generalizing c with
  | nil => rfl
  | cons r rs ih =>
    rw [List.foldl_cons, ih, List.length_cons]
    show c.successfulRuns + 1 + rs.length = _
    omega

/-- A campaign that takes exactly these outcomes has summed up their successes, which are as many as its
iterations. -/
theorem benchmarkRunCampaign_eq_some {iterations : Nat} {outcomes : List (Option BenchmarkResult)}
    {report : CampaignReport} (h : benchmarkRunCampaign mode iterations outcomes = some report) :
    outcomes.reduceOption.length = iterations ∧
      report.campaign = outcomes.reduceOption.foldl Campaign.add Campaign.start ∧
      report.stats = report.campaign.totals.stats mode iterations ∧
      report.campaign.successfulRuns = iterations ∧
      report.line = failureLine iterations iterations := by
  unfold benchmarkRunCampaign at h
  split at h
  · next c hloop =>
    obtain ⟨used, hsplit, hlen, hfold⟩ := Campaign.loop_eq_some hloop
    rw [List.append_nil] at hsplit
    subst hsplit
    have hruns : c.successfulRuns = iterations := by
      rw [hfold, foldl_successfulRuns, hlen]
      exact Nat.zero_add _
    rw [← Option.some.inj h]
    exact ⟨hlen, hfold, rfl, hruns, by rw [hruns]⟩
  · cases h

theorem length_reduceOption_map {α β : Type} (f : α → Option β) (l : List α) :
    (l.map f).reduceOption.length = l.countP fun a => (f a).isSome := by
  induction l with
  | nil => rfl
  | cons a l ih =>
    rw [List.map_cons, List.countP_cons, ← ih]
    cases hf : f a with
    | none => simp [List.reduceOption_cons_of_none]
    | some b => simp [List.reduceOption_cons_of_some]

/-- A run that completes its handshake returns 0. -/
theorem isSome_of_completes (h : handshakeCompletes X mode env = true) :
    (benchmarkRunSingle X mode env).isSome = true := by
  unfold handshakeCompletes at h
  rw [Bool.and_eq_true, decide_eq_true_eq] at h
  obtain ⟨result, hresult, -⟩ := benchmarkRunSingle_of_returns (X := X) (ret_eq_zero_iff.mp h.1)
  rw [hresult]
  rfl

theorem completes_of_isSome (hreal : RunIsReal X mode env)
    (h : (benchmarkRunSingle X mode env).isSome = true) : handshakeCompletes X mode env = true := by
  obtain ⟨result, hresult⟩ := Option.isSome_iff_exists.mp h
  obtain ⟨handshake, hnet, hret, -⟩ := hreal result hresult
  have hreturns : env.codes.Returns mode := by
    by_contra hnot
    rw [benchmarkRunSingle_of_fails hnot] at hresult
    cases hresult
  unfold handshakeCompletes
  rw [hnet, Bool.and_eq_true, decide_eq_true_eq]
  exact ⟨ret_eq_zero_iff.mpr hreturns, decide_eq_true hret⟩

/-- A campaign counts handshakes only, exactly when in each of its runs the key generation fails or the
handshake goes through. -/
theorem campaign_counts_iff (X : Externals) (mode : Mode) (iterations : Nat) (envs : List RunEnv) :
    CountsHandshakes X mode iterations envs ↔
      ∀ env ∈ envs, ¬ env.codes.Returns mode ∨ HandshakeGoesThrough X mode env := by
  constructor
  · intro h env hmem
    exact runIsReal_iff.mp (h.runs env hmem)
  · intro h
    have hreal : ∀ env ∈ envs, RunIsReal X mode env := fun env hmem => runIsReal_iff.mpr (h env hmem)
    refine ⟨hreal, ?_⟩
    intro report hreport
    obtain ⟨hlen, -, -, hruns, hline⟩ := benchmarkRunCampaign_eq_some hreport
    have hcount : envs.countP (handshakeCompletes X mode) = iterations := by
      rw [← hlen, length_reduceOption_map]
      apply List.countP_congr
      intro env hmem
      constructor
      · exact isSome_of_completes
      · exact completes_of_isSome (hreal env hmem)
    rw [hcount]
    exact ⟨hruns, hline⟩

/-- A run in classical mode in which key generation and the packings succeed. -/
def Reference.runEnv (network : Option Bytes) : RunEnv where
  codes := Reference.keygenCodes (-1) 0
  outputs := ⟨ByteArr.zero 32, Reference.clientPrivkey, ByteArr.zero 32, ByteArr.zero 32, ByteArr.zero 64⟩
  sizeHmacRet := 0
  requestHmacRet := 0
  network := network
  response := ⟨0, 0, 0, 0, ByteArr.zero 64, ByteArr.zero 32⟩
  keygenUs := 392270
  handshakeUs := 250000
  keygenCycles := 0
  handshakeCycles := 0
  totalCycles := 0
  heapBefore := 0
  heapAfterKeygen := 0
  heapAfter := 0

/-- A campaign of one run reports one success out of one when the server cannot be reached, with a
payload of 1200 bytes too many, and when its response carries a wrong tag. -/
theorem failed_handshakes_counted :
    let lost := Reference.runEnv none
    let forged := Reference.runEnv (some (List.replicate 80 1))
    ((benchmarkRunSingle Reference.externals .classical lost).map BenchmarkResult.payloadBytes =
          some (65 + 1200) ∧
        ¬ CountsHandshakes Reference.externals .classical 1 [lost]) ∧
      ((benchmarkRunSingle Reference.externals .classical forged).map BenchmarkResult.payloadBytes =
          some (65 + 80) ∧
        ¬ CountsHandshakes Reference.externals .classical 1 [forged]) := by
  intro lost forged
  refine ⟨⟨by decide +kernel, ?_⟩, by decide +kernel, ?_⟩
  · intro h
    have hreal := h.runs lost List.mem_cons_self
    rcases runIsReal_iff.mp hreal with hkeys | ⟨-, -, response, hread, -⟩
    · exact hkeys ⟨fun _ => rfl, fun _ => rfl⟩
    · cases hread
  · intro h
    have hreal := h.runs forged List.mem_cons_self
    rcases runIsReal_iff.mp hreal with hkeys | hthrough
    · exact hkeys ⟨fun _ => rfl, fun _ => rfl⟩
    · obtain ⟨response, hread, hag⟩ := hthrough.verifies
      have hret : (hybridProcessServerResponse Reference.externals forged.response
          (runCtx Reference.externals .classical forged) (response.take benchmarkBufSize)).ret = 0 := by
        rw [hybridProcessServerResponse_of_agrees hag]
      rw [← Option.some.inj hread] at hret
      exact absurd hret (by decide +kernel)

end HybridPqc
