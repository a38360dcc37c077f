import HybridPqc.Network.Proofs.WorldProofs

/-!
# What a client has encrypted

`ClientInv` relates a client to the list of its own sealings: before the handshake there are none;
afterwards all are telemetry packets under the session key, with strictly increasing counters below
the current one. Every event at the client keeps it, whatever the network delivers.
-/

namespace HybridPqc

/-- The client `c` has performed exactly the sealings `es`. -/
structure ClientInv (X : Externals) (c : Client) (es : List Sealing) : Prop where
  request : c.request = helloOf X (keyedCtx c.mode c.keys)
  loop : c.task.LoopInv
  before : c.task.phase = .handshake →
    c.task.ctx = keyedCtx c.mode c.keys ∧ c.agreed = none ∧ es = []
  live : c.task.phase = .loop ∨ c.task.phase = .posted →
    ∃ response, c.agreed = some (response, c.task.ctx.sessionKey) ∧
      c.task.sessionId = response.take 16 ∧ 16 ≤ response.length
  key : ∀ e ∈ es, ∃ response, c.agreed = some (response, e.key)
  bound : ∀ e ∈ es, e.counter < 150
  below : c.task.phase ≠ .done → ∀ e ∈ es, e.counter < c.task.ctx.telemetryCounter.toNat
  order : (es.map Sealing.counter).Pairwise (· < ·)
  payload : ∀ e ∈ es, ∃ t : TelemetryData, t.Small ∧ e.plaintext = jsonPayload t
  posted : c.task.phase = .posted →
    ∃ e ∈ es, c.posted = c.task.sessionId ++ e.packet X ∧
      e.counter + 1 = c.task.ctx.telemetryCounter.toNat

variable {X : Externals}

theorem ClientInv.new (X : Externals) (mode : Mode) (keys : KeyPairs) (seq : UInt32) :
    ClientInv X (World.newClient X mode keys seq) [] where
  request := rfl
  loop := Device.LoopInv.start mode keys seq
  before := fun _ => ⟨rfl, rfl, rfl⟩
  live := by rintro (h | h) <;> cases h
  key := by simp
  bound := by simp
  below := by simp
  order := List.Pairwise.nil
  payload := by simp
  posted := by rintro ⟨⟩

theorem nextSealing_counter (env : Device.SendEnv) (d : Device) :
    (d.nextSealing env).counter = d.ctx.telemetryCounter.toNat :=
  telemetryIv_counter _ _ _ _

theorem nextSealing_payload (env : Device.SendEnv) (d : Device) :
    ∃ t : TelemetryData, t.Small ∧ (d.nextSealing env).plaintext = jsonPayload t :=
  ⟨_, generateTelemetry_small _ _ _, rfl⟩

/-- The sealing of an iteration extends the list of a client that is in its loop. -/
theorem ClientInv.sealNext {c : Client} {es : List Sealing} (h : ClientInv X c es)
    (env : Device.SendEnv) (hphase : c.task.phase = .loop) (herrors : c.task.telemetryErrors < 3)
    (hsent : c.task.packetsSent < 50) :
    (∀ e ∈ es ++ [c.task.nextSealing env], ∃ response, c.agreed = some (response, e.key)) ∧
      (∀ e ∈ es ++ [c.task.nextSealing env], e.counter < 150) ∧
      (∀ e ∈ es ++ [c.task.nextSealing env],
        e.counter < c.task.sealedNext.ctx.telemetryCounter.toNat) ∧
      ((es ++ [c.task.nextSealing env]).map Sealing.counter).Pairwise (· < ·) ∧
      ∀ e ∈ es ++ [c.task.nextSealing env], ∃ t : TelemetryData,
        t.Small ∧ e.plaintext = jsonPayload t := by
  have hloop := h.loop.loop hphase
  have hbelow := h.below (by rw [hphase]; simp)
  have hsucc : c.task.sealedNext.ctx.telemetryCounter.toNat =
      c.task.ctx.telemetryCounter.toNat + 1 := Device.counter_succ h.loop.counter_le
  have hctr := nextSealing_counter env c.task
  simp only [List.forall_mem_append, List.forall_mem_singleton]
  refine ⟨⟨h.key, ?_⟩, ⟨h.bound, by omega⟩, ⟨fun e he => ?_, by omega⟩, ?_,
    h.payload, nextSealing_payload env c.task⟩
  · obtain ⟨response, hagreed, -⟩ := h.live (.inl hphase)
    exact ⟨response, hagreed⟩
  · have := hbelow e he
    omega
  · rw [List.map_append, List.pairwise_append]
    refine ⟨h.order, by simp, ?_⟩
    intro a ha b hb
    obtain ⟨e, he, rfl⟩ := List.mem_map.mp ha
    simp only [List.map_cons, List.map_nil, List.mem_singleton] at hb
    have := hbelow e he
    omega

theorem completed_of_phase {task task' : Device} (e : DeviceEvent)
    (h : task.phase = .handshake → task'.phase ≠ .loop) : completed task task' e = none := by
  unfold completed
  split
  · exact if_neg fun hc => h hc.1 hc.2
  · rfl

theorem ClientInv.next {c : Client} {es : List Sealing} (h : ClientInv X c es) (e : DeviceEvent) :
    ClientInv X (c.next X e) (es ++ (c.task.sealing? X e).toList) := by
  have hloop := h.loop.step (X := X) e
  have ht := Device.step_transition X c.task e
  unfold Client.next
  generalize c.task.step X e = d' at hloop ht ⊢
  generalize c.task.sealing? X e = sealing at ht ⊢
  generalize c.task.posted? X e = body at ht ⊢
  cases ht with
  | idle =>
    rw [completed_of_phase e (by intro hp; rw [hp]; simp)]
    simpa using h
  | stop _ _ hphase hctx =>
    rw [completed_of_phase e (by rw [hphase]; simp)]
    simp only [Option.none_or, Option.toList_none, List.append_nil]
    refine ⟨h.request, hloop, ?_, ?_, h.key, h.bound, ?_, h.order, h.payload, ?_⟩ <;>
      simp [hphase]
  | agree env response hphase hag =>
    obtain ⟨-, -, hes⟩ := h.before hphase
    subst hes
    have hcomp : completed c.task
        { c.task with
          ctx := agreedCtx X c.task.ctx response
          sessionId := response.take 16
          telemetryErrors := 0
          packetsSent := 0
          phase := .loop } (.response env (some response)) =
        some (response, clientKey X c.task.ctx response) := if_pos ⟨hphase, rfl⟩
    rw [hcomp]
    have hlen := hag.length
    refine ⟨h.request, hloop, by simp, fun _ => ⟨response, rfl, rfl, by omega⟩, by simp, by simp, by simp,
      List.Pairwise.nil, by simp, by simp⟩
  | skip env hphase herrors hsent =>
    rw [completed_of_phase _ (by rw [hphase]; simp)]
    simp only [Option.none_or, Option.toList_none, List.append_nil]
    refine ⟨h.request, hloop, by simp [hphase], fun _ => h.live (.inl hphase), h.key, h.bound,
      fun _ => h.below (by rw [hphase]; simp), h.order, h.payload, by simp [hphase]⟩
  | spoil env hphase herrors hsent =>
    obtain ⟨hkey, hbound, hbelow, horder, hpayload⟩ := h.sealNext env hphase herrors hsent
    rw [completed_of_phase _ (by rw [hphase]; simp)]
    exact ⟨h.request, hloop, by simp [Device.sealedNext, hphase], fun _ => h.live (.inl hphase), hkey,
      hbound, fun _ => hbelow, horder, hpayload, by simp [Device.sealedNext, hphase]⟩
  | post env hphase herrors hsent =>
    obtain ⟨hkey, hbound, hbelow, horder, hpayload⟩ := h.sealNext env hphase herrors hsent
    rw [completed_of_phase _ (by rw [hphase]; simp)]
    refine ⟨h.request, hloop, by simp, fun _ => h.live (.inl hphase), hkey, hbound, fun _ => hbelow,
      horder, hpayload, fun _ => ⟨c.task.nextSealing env, by simp, rfl, ?_⟩⟩
    rw [nextSealing_counter]
    exact (Device.counter_succ h.loop.counter_le).symm
  | refuse env reply hphase hreply =>
    rw [completed_of_phase _ (by rw [hphase]; simp)]
    simp only [Option.none_or, Option.toList_none, List.append_nil]
    refine ⟨h.request, hloop, by simp, fun _ => h.live (.inr hphase), h.key, h.bound,
      fun _ => h.below (by rw [hphase]; simp), h.order, h.payload, by simp⟩
  | accept env reply plaintext hphase hreply =>
    rw [completed_of_phase _ (by rw [hphase]; simp)]
    simp only [Option.none_or, Option.toList_none, List.append_nil]
    refine ⟨h.request, hloop, by simp, fun _ => h.live (.inr hphase), h.key, h.bound,
      fun _ => h.below (by rw [hphase]; simp), h.order, h.payload, by simp⟩

end HybridPqc
