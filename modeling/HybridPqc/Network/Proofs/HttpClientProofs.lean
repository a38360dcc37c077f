import HybridPqc.Network.HttpClient

/-!
# Proofs: reading a body

Whatever length the headers announce, the loop asks for no more than what fits into the buffer, stores
the bytes one after the other from its start, and ends; and when the server sends a body, what it stores
is the body as far as it fits.
-/

open PyStr (lit)

namespace HybridPqc

open Loops

/-! ## Stores -/

/-- The addresses of the first `n` bytes of the buffer. -/
def firstAddresses (n : Nat) : List Int := (List.range n).map fun i : Nat => (i : Int)

theorem mem_firstAddresses {n : Nat} {a : Int} : a ∈ firstAddresses n ↔ 0 ≤ a ∧ a < n := by
  unfold firstAddresses
  rw [List.mem_map]
  constructor
  · rintro ⟨i, hi, rfl⟩
    rw [List.mem_range] at hi
    omega
  · rintro ⟨hnonneg, hlt⟩
    refine ⟨a.toNat, ?_, by omega⟩
    rw [List.mem_range]
    omega

theorem map_snd_storesAt (address : Int) (data : Bytes) :
    (storesAt address data).map Prod.snd = data := by
  unfold storesAt
  rw [List.map_map]
  exact List.zipIdx_map_fst 0 data

theorem firstAddresses_append (n : Nat) (data : Bytes) :
    firstAddresses n ++ (storesAt n data).map Prod.fst = firstAddresses (n + data.length) := by
  have haddress : (storesAt n data).map Prod.fst =
      (data.zipIdx.map Prod.snd).map fun i : Nat => (n : Int) + i := by
    unfold storesAt
    rw [List.map_map, List.map_map]
    rfl
  unfold firstAddresses
  rw [haddress, List.zipIdx_map_snd, ← List.range_eq_range', List.range_add, List.map_append, List.map_map]
  congr 1

/-! ## Lengths -/

theorem toNatClampNeg_eq {x : Int32} (hx : 0 ≤ x) : (x.toNatClampNeg : Int) = x.toInt := by
  rw [Int32.le_iff_toInt_le, Int32.toInt_zero] at hx
  exact Int.toNat_of_nonneg hx

theorem toInt_toInt32 {n : UInt32} (hn : n.toNat < 2 ^ 31) : n.toInt32.toInt = n.toNat := by
  have hofNat : n.toInt32 = Int32.ofNat n.toNat := by
    rw [← UInt32.toInt32_ofNat', UInt32.ofNat_toNat]
  rw [hofNat, Int32.toInt_ofNat_of_lt hn]

/-- With a buffer of less than 2^31 bytes `target_len` is the announced length as far as it fits, or the
size of the buffer if the announced length, cut to 32 bits, is not positive. -/
theorem toInt_targetLen (contentLength : Int32) {responseLen : UInt32} (hcap : responseLen.toNat < 2 ^ 31) :
    (targetLen contentLength responseLen).toInt =
      if 0 < contentLength then min contentLength.toInt responseLen.toNat else responseLen.toNat := by
  unfold targetLen
  by_cases hpos : 0 < contentLength
  · have hnonneg : (0 : Int32) ≤ contentLength := Int32.le_of_lt hpos
    have hunsigned : (contentLength.toUInt32.toNat : Int) = contentLength.toInt := by
      rw [Int32.toNat_toUInt32_of_le hnonneg, toNatClampNeg_eq hnonneg]
    simp only [if_pos hpos, Int32.toInt32_toUInt32, UInt32.lt_iff_toNat_lt]
    split
    · rw [toInt_toInt32 hcap]
      omega
    · omega
  · simp only [if_neg hpos, UInt32.toUInt32_toInt32, UInt32.lt_irrefl, if_false]
    exact toInt_toInt32 hcap

/-- No length is negative or exceeds the buffer. -/
theorem targetLen_bounds (contentLength : Int32) {responseLen : UInt32} (hcap : responseLen.toNat < 2 ^ 31) :
    0 ≤ targetLen contentLength responseLen ∧
      (targetLen contentLength responseLen).toNatClampNeg ≤ responseLen.toNat := by
  have htarget := toInt_targetLen contentLength hcap
  have hnonneg : 0 ≤ targetLen contentLength responseLen := by
    rw [Int32.le_iff_toInt_le, htarget, Int32.toInt_zero]
    split
    · next hpos =>
      rw [Int32.lt_iff_toInt_lt, Int32.toInt_zero] at hpos
      omega
    · omega
  refine ⟨hnonneg, ?_⟩
  have heq := toNatClampNeg_eq hnonneg
  rw [htarget] at heq
  split at heq
  · omega
  · omega

/-! ## The loop -/

namespace BodyRead

variable {σ : Type} {http : HttpClient σ} {target : Int32} {b b' : BodyRead σ}

/-- The loop has stored `read_len` bytes, from the start of the buffer and no further than the target. -/
structure Filling (target : Int32) (b : BodyRead σ) : Prop where
  nonneg : 0 ≤ b.readLen
  le : b.readLen ≤ target
  addresses : b.stores.map Prod.fst = firstAddresses b.readLen.toNatClampNeg

/-- What is requested does not overflow. -/
theorem toInt_requested (h : Filling target b) :
    (target - b.readLen).toInt = target.toInt - b.readLen.toInt :=
  Int32.toInt_sub_of_le target b.readLen h.nonneg h.le

theorem requested_pos (h : Filling target b) (hlt : b.readLen < target) : 0 < target - b.readLen := by
  rw [Int32.lt_iff_toInt_lt] at hlt ⊢
  rw [toInt_requested h, Int32.toInt_zero]
  omega

/-- What an iteration does. -/
theorem next_spec (h : Filling target b) (hnext : next http target b = some b') :
    ∃ r, http.read (target - b.readLen) b.client = (r, b'.client) ∧ 0 < r.data.length ∧
      b.readLen < target ∧ 0 ≤ b'.readLen ∧ b'.readLen ≤ target ∧
      b'.readLen.toNatClampNeg = b.readLen.toNatClampNeg + r.data.length ∧
      b'.stores = b.stores ++ storesAt b.readLen.toNatClampNeg r.data := by
  unfold next at hnext
  split at hnext
  · next hlt =>
    have hrequested := toInt_requested h
    have hle := http.read_le (target - b.readLen) b.client (requested_pos h hlt)
    rcases hread : http.read (target - b.readLen) b.client with ⟨r, client⟩
    rw [hread] at hnext hle
    dsimp only at hnext hle
    split at hnext
    · cases hnext
    · next hret =>
      rw [Option.some.injEq] at hnext
      subst hnext
      have hret' : 0 < r.ret := Int32.not_le.mp hret
      have hlen := toNatClampNeg_eq (Int32.le_of_lt hret')
      rw [← r.length_data] at hlen
      have hread0 := toNatClampNeg_eq h.nonneg
      have hnonneg := h.nonneg
      rw [Int32.le_iff_toInt_le] at hle hnonneg
      rw [Int32.lt_iff_toInt_lt, Int32.toInt_zero] at hret'
      rw [Int32.toInt_zero] at hnonneg
      have htarget := target.toInt_lt
      have hsum : (b.readLen + r.ret).toInt = b.readLen.toInt + r.ret.toInt := by
        rw [Int32.toInt_add]
        exact Int.bmod_eq_of_le (by omega) (by omega)
      have hnonneg' : 0 ≤ b.readLen + r.ret := by
        rw [Int32.le_iff_toInt_le, hsum, Int32.toInt_zero]
        omega
      have hread1 := toNatClampNeg_eq hnonneg'
      refine ⟨r, rfl, by omega, hlt, hnonneg', ?_, by dsimp only; omega, ?_⟩
      · rw [Int32.le_iff_toInt_le, hsum]
        omega
      · rw [hread0]
  · cases hnext

theorem Filling.next (h : Filling target b) (hnext : next http target b = some b') : Filling target b' := by
  rcases next_spec h hnext with ⟨r, -, -, -, hnonneg, hle, hlen, hstores⟩
  refine ⟨hnonneg, hle, ?_⟩
  rw [hstores, List.map_append, h.addresses, firstAddresses_append, hlen]

/-- Every iteration leaves less to be read. -/
theorem measure_next (h : Filling target b) (hnext : BodyRead.next http target b = some b') :
    target.toNatClampNeg - b'.readLen.toNatClampNeg < target.toNatClampNeg - b.readLen.toNatClampNeg := by
  rcases next_spec h hnext with ⟨r, -, hpos, hlt, -, hle, hlen, -⟩
  have hmono := Int32.toNatClampNeg_le hle
  omega

theorem Filling.length_stores (h : Filling target b) : b.stores.length = b.readLen.toNatClampNeg := by
  rw [← List.length_map Prod.fst, h.addresses]
  simp [firstAddresses]

theorem filling_start {client : σ} (htarget : 0 ≤ target) : Filling target ⟨client, 0, []⟩ :=
  ⟨Int32.le_refl 0, htarget, rfl⟩

/-- The loop ends, after no more tests than there are bytes to be read and one. -/
theorem exists_end (http : HttpClient σ) (htarget : 0 ≤ target) (client : σ) :
    ∃ b, (∀ fuel, target.toNatClampNeg < fuel → loop (next http target) fuel ⟨client, 0, []⟩ = some b) ∧
      Filling target b ∧ next http target b = none := by
  have hstart : Filling target ⟨client, 0, []⟩ := filling_start htarget
  have hmeasure : target.toNatClampNeg - (0 : Int32).toNatClampNeg < target.toNatClampNeg + 1 := by omega
  rcases exists_loop (fun b => target.toNatClampNeg - b.readLen.toNatClampNeg)
    (fun b b' h hnext => ⟨Filling.next h hnext, measure_next h hnext⟩) hstart hmeasure with ⟨b, hb⟩
  refine ⟨b, fun fuel hfuel => loop_mono hfuel hb, ?_⟩
  exact loop_invariant (fun b b' h hnext => Filling.next h hnext) hstart hb

end BodyRead

/-! ## The calls -/

/-- All that a call stores are the first bytes of the buffer, each once, and their number is reported. A
call that fails stores nothing, and leaves the capacity in `*response_len`. -/
structure PostCall.WithinBuffer (capacity : UInt32) (call : PostCall) : Prop where
  inside : ∀ s ∈ call.stores, 0 ≤ s.1 ∧ s.1 < capacity.toNat
  once : call.stores.map Prod.fst = firstAddresses call.stores.length
  reported : call.ret = 0 → call.responseLen.toNat = call.stores.length
  failed : call.ret ≠ 0 → call.stores = [] ∧ call.responseLen = capacity

theorem withinBuffer_of_failure (capacity : UInt32) : PostCall.WithinBuffer capacity ⟨-1, capacity, []⟩ where
  inside := by simp
  once := rfl
  reported h := by cases h
  failed _ := ⟨rfl, rfl⟩

/-- When the loop has ended, the bytes are in the buffer and counted. -/
theorem withinBuffer_of_filling {σ : Type} {contentLength : Int32} {capacity : UInt32} {b : BodyRead σ}
    (hcap : capacity.toNat < 2 ^ 31) (h : b.Filling (targetLen contentLength capacity)) :
    PostCall.WithinBuffer capacity ⟨0, b.readLen.toUInt32, b.stores⟩ := by
  have hfits := (targetLen_bounds contentLength hcap).2
  have hle := Int32.toNatClampNeg_le h.le
  have hlen := h.length_stores
  refine ⟨?_, ?_, fun _ => ?_, fun hret => absurd rfl hret⟩
  · intro s hs
    have hmem := List.mem_map_of_mem (f := Prod.fst) hs
    rw [h.addresses, mem_firstAddresses] at hmem
    omega
  · rw [hlen]
    exact h.addresses
  · rw [hlen]
    exact Int32.toNat_toUInt32_of_le h.nonneg

namespace HttpClient

variable {σ : Type} {http : HttpClient σ} {url : PyStr} {payload : Bytes}

theorem sendHttpPost_of_not_connected (h : http.connect url payload = none) (fuel : Nat)
    (responseLen : UInt32) :
    http.sendHttpPost fuel url payload responseLen = some ⟨-1, responseLen, []⟩ := by
  unfold connect at h
  unfold sendHttpPost
  cases hinit : http.init url with
  | none => rfl
  | some client =>
    simp only [hinit, Option.bind_eq_bind, Option.bind_some] at h
    dsimp only
    split at h
    · next herr => rw [if_pos herr]
    · cases h

theorem sendHttpPost_of_connected {announced : Int64} {client : σ}
    (h : http.connect url payload = some (announced, client)) (fuel : Nat) (responseLen : UInt32) :
    http.sendHttpPost fuel url payload responseLen =
      if http.getStatusCode client ≠ 200 then some ⟨-1, responseLen, []⟩
      else (loop (BodyRead.next http (targetLen announced.toInt32 responseLen)) fuel
        ⟨client, 0, []⟩).map fun b => ⟨0, b.readLen.toUInt32, b.stores⟩ := by
  unfold connect at h
  unfold sendHttpPost
  cases hinit : http.init url with
  | none =>
    rw [hinit] at h
    cases h
  | some client' =>
    simp only [hinit, Option.bind_eq_bind, Option.bind_some] at h
    dsimp only
    split at h
    · cases h
    · next herr =>
      rw [if_neg herr]
      rw [Option.some.injEq, Prod.mk.injEq] at h
      rcases h with ⟨rfl, rfl⟩
      rfl

/-- A call ends and stays within the buffer. -/
theorem sendHttpPost_withinBuffer (http : HttpClient σ) {capacity : UInt32} (hcap : capacity.toNat < 2 ^ 31)
    (url : PyStr) (payload : Bytes) :
    ∃ call : PostCall, call.WithinBuffer capacity ∧
      ∀ fuel, capacity.toNat < fuel → http.sendHttpPost fuel url payload capacity = some call := by
  cases hconnect : http.connect url payload with
  | none =>
    exact ⟨_, withinBuffer_of_failure capacity,
      fun fuel _ => sendHttpPost_of_not_connected hconnect fuel capacity⟩
  | some connected =>
    rcases connected with ⟨announced, client⟩
    by_cases hstatus : http.getStatusCode client ≠ 200
    · refine ⟨_, withinBuffer_of_failure capacity, fun fuel _ => ?_⟩
      rw [sendHttpPost_of_connected hconnect, if_pos hstatus]
    · rcases targetLen_bounds announced.toInt32 hcap with ⟨hnonneg, hfits⟩
      rcases BodyRead.exists_end http hnonneg client with ⟨b, hend, hfilling, -⟩
      refine ⟨_, withinBuffer_of_filling hcap hfilling, fun fuel hfuel => ?_⟩
      rw [sendHttpPost_of_connected hconnect, if_neg hstatus, hend fuel (by omega)]
      rfl

/-- Once the public keys are packed, the function of the benchmark does what the other one does. -/
theorem doNetworkHandshake_eq {X : Externals} {hmacRet : Int} {ctx : HybridCtx} {request : Bytes}
    (hpack : hybridPackPubkeys X hmacRet ctx pubkeyBufSize = some request) (fuel : Nat)
    (serverHost : PyStr) (serverPort : Int32) (responseLen : UInt32) :
    http.doNetworkHandshake X fuel hmacRet ctx serverHost serverPort responseLen =
      http.sendHttpPost fuel (handshakeUrl serverHost serverPort) request responseLen := by
  unfold doNetworkHandshake
  rw [hpack]
  rfl

theorem doNetworkHandshake_of_not_packed {X : Externals} {hmacRet : Int} {ctx : HybridCtx}
    (hpack : hybridPackPubkeys X hmacRet ctx pubkeyBufSize = none) (fuel : Nat)
    (serverHost : PyStr) (serverPort : Int32) (responseLen : UInt32) :
    http.doNetworkHandshake X fuel hmacRet ctx serverHost serverPort responseLen =
      some ⟨-1, responseLen, []⟩ := by
  unfold doNetworkHandshake
  rw [hpack]

end HttpClient

/-- Whatever the headers announce and the reads return, both functions end after at most as many
iterations as the buffer has bytes, store only the first bytes of the buffer, each once, and report how
many these are, or fail and store nothing; and the two do the same for the same post. -/
theorem body_reads_stay_in_buffer {σ : Type} (http : HttpClient σ) (capacity : UInt32)
    (hcap : capacity.toNat < 2 ^ 31) :
    (∀ url payload, ∃ call : PostCall, call.WithinBuffer capacity ∧
      ∀ fuel, capacity.toNat < fuel → http.sendHttpPost fuel url payload capacity = some call) ∧
    (∀ X hmacRet ctx serverHost serverPort, ∃ call : PostCall, call.WithinBuffer capacity ∧
      ∀ fuel, capacity.toNat < fuel →
        http.doNetworkHandshake X fuel hmacRet ctx serverHost serverPort capacity = some call) ∧
    (∀ X hmacRet ctx request serverHost serverPort fuel,
      hybridPackPubkeys X hmacRet ctx pubkeyBufSize = some request →
        http.doNetworkHandshake X fuel hmacRet ctx serverHost serverPort capacity =
          http.sendHttpPost fuel (HttpClient.handshakeUrl serverHost serverPort) request capacity) := by
  refine ⟨HttpClient.sendHttpPost_withinBuffer http hcap, ?_, ?_⟩
  · intro X hmacRet ctx serverHost serverPort
    cases hpack : hybridPackPubkeys X hmacRet ctx pubkeyBufSize with
    | none =>
      exact ⟨_, withinBuffer_of_failure capacity,
        fun fuel _ => HttpClient.doNetworkHandshake_of_not_packed hpack fuel serverHost serverPort capacity⟩
    | some request =>
      rcases HttpClient.sendHttpPost_withinBuffer http hcap (HttpClient.handshakeUrl serverHost serverPort)
        request with ⟨call, hwithin, hcall⟩
      refine ⟨call, hwithin, fun fuel hfuel => ?_⟩
      rw [HttpClient.doNetworkHandshake_eq hpack, hcall fuel hfuel]
  · intro X hmacRet ctx request serverHost serverPort fuel hpack
    exact HttpClient.doNetworkHandshake_eq hpack fuel serverHost serverPort capacity

/-- A server that announces 2^32 + 3 bytes, which are 3 as an `int`, and sends five. -/
theorem body_reads_stay_in_buffer_announced :
    ∃ call : PostCall, call.WithinBuffer 256 ∧ ∀ fuel, 256 < fuel →
      (HttpClient.serving ⟨200, [1, 2, 3, 4, 5]⟩ 4294967299).sendHttpPost fuel
        (lit "http://192.168.1.9:8443/handshake") [] 256 = some call :=
  (body_reads_stay_in_buffer (HttpClient.serving ⟨200, [1, 2, 3, 4, 5]⟩ 4294967299) 256 (by decide)).1
    (lit "http://192.168.1.9:8443/handshake") []

/-! ## A server that answers -/

/-- The bytes that a call leaves in the buffer; `none` if it fails. -/
def PostCall.received (call : PostCall) : Option Bytes :=
  if call.ret = 0 then some (call.stores.map Prod.snd) else none

namespace BodyRead

variable {σ : Type} {http : HttpClient σ} {rest : σ → Bytes} {target : Int32} {b b' : BodyRead σ}

/-- What has been stored and what is left are the body. -/
theorem delivered_next (hdelivers : http.Delivers rest) (h : Filling target b)
    (hnext : BodyRead.next http target b = some b') :
    b'.stores.map Prod.snd ++ rest b'.client = b.stores.map Prod.snd ++ rest b.client := by
  rcases next_spec h hnext with ⟨r, hread, -, hlt, -, -, -, hstores⟩
  have hrest := hdelivers.read (target - b.readLen) b.client (requested_pos h hlt)
  rw [hread] at hrest
  rw [hstores, List.map_append, map_snd_storesAt, hrest, List.append_assoc]

/-- When the loop ends, as much of the body is in the buffer as was to be read. -/
theorem delivered_end (hdelivers : http.Delivers rest) {body : Bytes} (h : Filling target b)
    (hbody : b.stores.map Prod.snd ++ rest b.client = body) (hend : BodyRead.next http target b = none) :
    b.stores.map Prod.snd = body.take target.toNatClampNeg := by
  have hlen : (b.stores.map Prod.snd).length = b.readLen.toNatClampNeg := by
    rw [List.length_map, h.length_stores]
  rw [← hbody]
  by_cases hlt : b.readLen < target
  · unfold BodyRead.next at hend
    rw [if_pos hlt] at hend
    have hempty : (http.read (target - b.readLen) b.client).1.data = [] := by
      split at hend
      next r client hread =>
        rw [hread]
        split at hend
        · next hret =>
          rw [← List.length_eq_zero_iff, r.length_data, Int32.toNatClampNeg_eq_zero_iff]
          exact hret
        · cases hend
    have hle := Int32.toNatClampNeg_le h.le
    rw [hdelivers.atEnd _ _ (requested_pos h hlt) hempty, List.append_nil, List.take_of_length_le (by omega)]
  · have heq : b.readLen = target := Int32.le_antisymm h.le (Int32.not_lt.mp hlt)
    rw [← heq, ← hlen, List.take_left']
    rfl

/-- The loop stores the body up to the target. -/
theorem exists_delivered (hdelivers : http.Delivers rest) (htarget : 0 ≤ target) (client : σ) :
    ∃ b : BodyRead σ, b.stores.map Prod.snd = (rest client).take target.toNatClampNeg ∧
      ∀ fuel, target.toNatClampNeg < fuel →
        loop (BodyRead.next http target) fuel ⟨client, 0, []⟩ = some b := by
  rcases exists_end http htarget client with ⟨b, hend, -, -⟩
  have hstep : ∀ b b' : BodyRead σ,
      (Filling target b ∧ b.stores.map Prod.snd ++ rest b.client = rest client) →
      BodyRead.next http target b = some b' →
      Filling target b' ∧ b'.stores.map Prod.snd ++ rest b'.client = rest client := by
    rintro b b' ⟨hfilling, hbody⟩ hnext
    exact ⟨hfilling.next hnext, (delivered_next hdelivers hfilling hnext).trans hbody⟩
  rcases loop_invariant hstep ⟨filling_start htarget, rfl⟩ (hend _ (Nat.lt_succ_self _)) with
    ⟨⟨hfilling, hbody⟩, hnone⟩
  exact ⟨b, delivered_end hdelivers hfilling hbody hnone, hend⟩

end BodyRead

namespace HttpClient

variable {σ : Type} {http : HttpClient σ} {url : PyStr} {payload : Bytes} {reply : HttpReply}
  {rest : σ → Bytes} {capacity : UInt32}

/-- With a server that sends `reply`, what a call leaves in the buffer is what the model of the link
takes from it. -/
theorem sendHttpPost_serves (hserves : http.Serves url payload reply rest) (hstatus : reply.status < 2 ^ 31)
    (hcap : capacity.toNat < 2 ^ 31) :
    ∃ call : PostCall, call.received = HybridPqc.sendHttpPost capacity.toNat reply ∧
      ∀ fuel, capacity.toNat < fuel → http.sendHttpPost fuel url payload capacity = some call := by
  rcases hserves.connects with ⟨announced, client, hconnect, hcode, hbody, hannounced⟩
  have hcode200 : http.getStatusCode client = 200 ↔ reply.status = 200 := by
    rw [hcode, ← Int32.toInt_inj, Int32.toInt_ofNat_of_lt hstatus]
    exact Int.ofNat_inj
  by_cases h200 : reply.status = 200
  · rcases targetLen_bounds announced.toInt32 hcap with ⟨hnonneg, hfits⟩
    rcases BodyRead.exists_delivered hserves.delivers hnonneg client with ⟨b, hstores, hend⟩
    refine ⟨⟨0, b.readLen.toUInt32, b.stores⟩, ?_, fun fuel hfuel => ?_⟩
    · have htake : reply.body.take (targetLen announced.toInt32 capacity).toNatClampNeg =
          reply.body.take capacity.toNat := by
        have htarget := toInt_targetLen announced.toInt32 hcap
        rw [← toNatClampNeg_eq hnonneg] at htarget
        split at htarget
        · next hpos =>
          have hlen : announced.toInt32.toInt = reply.body.length := by
            rcases hannounced with h | h
            · exact h
            · exact absurd hpos (Int32.not_lt.mpr h)
          rw [hlen] at htarget
          rw [List.take_eq_take_iff]
          omega
        · rw [Int.ofNat_inj.mp htarget]
      rw [PostCall.received, if_pos rfl, hstores, hbody, htake, HybridPqc.sendHttpPost,
        if_neg (not_not.mpr h200)]
    · rw [sendHttpPost_of_connected hconnect, if_neg (not_not.mpr (hcode200.mpr h200)),
        hend fuel (by omega)]
      rfl
  · refine ⟨⟨-1, capacity, []⟩, ?_, fun fuel _ => ?_⟩
    · rw [HybridPqc.sendHttpPost, if_pos h200]
      rfl
    · rw [sendHttpPost_of_connected hconnect, if_pos fun h => h200 (hcode200.mp h)]

/-- The same of the function of the benchmark, whose model takes the reply from the network. -/
theorem doNetworkHandshake_serves {X : Externals} {env : RunEnv} {ctx : HybridCtx} {serverHost : PyStr}
    {serverPort : Int32}
    (hserves : ∀ request, hybridPackPubkeys X env.requestHmacRet ctx pubkeyBufSize = some request →
      http.Serves (handshakeUrl serverHost serverPort) request reply rest)
    (hstatus : reply.status < 2 ^ 31)
    (hnetwork : env.network = if reply.status = 200 then some reply.body else none) :
    ∃ call : PostCall,
      call.received = (HybridPqc.doNetworkHandshake X env ctx).map NetworkHandshake.response ∧
      ∀ fuel, benchmarkBufSize < fuel →
        http.doNetworkHandshake X fuel env.requestHmacRet ctx serverHost serverPort 1200 = some call := by
  unfold HybridPqc.doNetworkHandshake
  cases hpack : hybridPackPubkeys X env.requestHmacRet ctx pubkeyBufSize with
  | none =>
    refine ⟨⟨-1, 1200, []⟩, rfl, fun fuel _ => ?_⟩
    rw [doNetworkHandshake_of_not_packed hpack]
  | some request =>
    have hcap : (1200 : UInt32).toNat < 2 ^ 31 := by decide
    rcases sendHttpPost_serves (hserves request hpack) hstatus hcap with ⟨call, hreceived, hcall⟩
    refine ⟨call, ?_, fun fuel hfuel => ?_⟩
    · rw [hreceived, hnetwork, HybridPqc.sendHttpPost]
      by_cases h200 : reply.status = 200
      · simp [h200, benchmarkBufSize]
      · simp [h200]
    · rw [doNetworkHandshake_eq hpack, hcall fuel hfuel]

/-- Reads of a body deliver it. -/
theorem serving_serves (url : PyStr) (payload : Bytes) (reply : HttpReply) {announced : Int64}
    (h : announced.toInt32.toInt = reply.body.length ∨ announced.toInt32 ≤ 0) :
    (serving reply announced).Serves url payload reply id where
  delivers :=
    { read := fun len s _ => (List.take_append_drop len.toNatClampNeg s).symm
      atEnd := by
        intro len s hlen hempty
        have hpos := (Int32.toNatClampNeg_pos_iff len).mpr hlen
        rcases List.take_eq_nil_iff.mp hempty with hzero | hnil
        · omega
        · exact hnil }
  connects := ⟨announced, reply.body, rfl, rfl, rfl, h⟩

end HttpClient

end HybridPqc
