import HybridPqc.Device.Keygen
import HybridPqc.Reference

/-!
# When key generation gives a key pair

The private key of a context is set by the fallback only, and the public key belongs to it only if none
of the calls fails whose results are dropped.
-/

namespace HybridPqc

/-- A scalar as RFC 7748 clamps it: a multiple of eight, bit 254 set and bit 255 clear. -/
structure IsClamped (k : ByteArr 32) : Prop where
  low : (k.get 0).toNat % 8 = 0
  set : 64 ≤ (k.get 31).toNat
  clear : (k.get 31).toNat < 128

/-- What `hybrid_keygen` promises: a clamped private key, and its public key. -/
structure HasX25519Pair (X : Externals) (ctx : HybridCtx) : Prop where
  clamped : IsClamped ctx.x25519Privkey
  pubkey : ctx.x25519Pubkey = X.x25519Base ctx.x25519Privkey

theorem and_248_mod : ∀ n < 256, (n &&& 248) % 8 = 0 := by decide +kernel

theorem clamp_top : ∀ n < 256, 64 ≤ ((n &&& 127) ||| 64) ∧ ((n &&& 127) ||| 64) < 128 := by
  decide +kernel

theorem clamp_isClamped (k : ByteArr 32) : IsClamped (clamp k) := by
  have hlow : (clamp k).get 0 = k.get 0 &&& 248 := by
    unfold clamp
    simp only
    rw [List.Vector.get_set_of_ne (by decide), List.Vector.get_set_of_ne (by decide),
      List.Vector.get_set_same]
  have htop : (clamp k).get 31 = k.get 31 &&& 127 ||| 64 := by
    unfold clamp
    simp only
    rw [List.Vector.get_set_same, List.Vector.get_set_same, List.Vector.get_set_of_ne (by decide)]
  have hbound := clamp_top _ (k.get 31).toNat_lt
  constructor
  · rw [hlow, UInt8.toNat_and]
    exact and_248_mod _ (k.get 0).toNat_lt
  · rw [htop, UInt8.toNat_or, UInt8.toNat_and]
    exact hbound.1
  · rw [htop, UInt8.toNat_or, UInt8.toNat_and]
    exact hbound.2

theorem zero_not_isClamped : ¬ IsClamped (ByteArr.zero 32) := by
  rintro ⟨-, h, -⟩
  exact absurd h (by decide)

variable {X : Externals} {codes : KeygenCodes} {out : KeygenOutputs} {mode : Mode}

/-- The function gets to its end. -/
structure KeygenCodes.Returns (codes : KeygenCodes) (mode : Mode) : Prop where
  setup : mode.usesX25519 = true → codes.setup = 0
  keypair : mode.usesMlkem = true → codes.keypair = 0

/-- The calls of the fallback all succeed. -/
def KeygenCodes.FallbackSucceeds (codes : KeygenCodes) : Prop :=
  codes.makeParams ≠ 0 ∧ codes.PointComputed ∧ codes.writeBinary = 0

/-- The X25519 keys after the X25519 part. -/
def withX25519 (X : Externals) (codes : KeygenCodes) (out : KeygenOutputs) (ctx : HybridCtx) :
    HybridCtx :=
  if codes.makeParams ≠ 0 then generateDirectly X codes out { ctx with x25519Pubkey := out.params }
  else { ctx with x25519Pubkey := out.params }

@[simp] theorem withX25519_mode (ctx : HybridCtx) : (withX25519 X codes out ctx).mode = ctx.mode := by
  unfold withX25519
  split <;> rfl

theorem x25519Keygen_of_setup {ctx : HybridCtx} (h : ctx.mode.usesX25519 = true → codes.setup = 0) :
    x25519Keygen X codes out ctx =
      some (if ctx.mode.usesX25519 then withX25519 X codes out ctx else ctx) := by
  unfold x25519Keygen withX25519
  by_cases hx : ctx.mode.usesX25519 = true
  · rw [if_pos hx, if_pos hx, if_neg (not_not.mpr (h hx))]
    simp only
    split <;> rfl
  · rw [if_neg hx, if_neg hx]

/-- When neither `mbedtls_ecdh_setup` nor `mlkem768_keypair` fails, the function returns 0, with the
X25519 keys as the X25519 part left them. -/
theorem hybridKeygen_of_returns (h : codes.Returns mode) :
    (hybridKeygen X codes out (hybridInit mode)).ret = 0 ∧
      (mode.usesX25519 = true →
        (hybridKeygen X codes out (hybridInit mode)).ctx.x25519Privkey =
            (withX25519 X codes out (hybridInit mode)).x25519Privkey ∧
          (hybridKeygen X codes out (hybridInit mode)).ctx.x25519Pubkey =
            (withX25519 X codes out (hybridInit mode)).x25519Pubkey) ∧
      (mode.usesMlkem = true →
        (hybridKeygen X codes out (hybridInit mode)).ctx.mlkemPk = (X.kemKeypairDerand out.seed).1 ∧
          (hybridKeygen X codes out (hybridInit mode)).ctx.mlkemSk =
            (X.kemKeypairDerand out.seed).2) := by
  have hmode : (hybridInit mode).mode = mode := rfl
  have hsetup : (hybridInit mode).mode.usesX25519 = true → codes.setup = 0 := h.setup
  unfold hybridKeygen
  rw [x25519Keygen_of_setup hsetup, hmode]
  simp only
  have hmode' : (if mode.usesX25519 = true then withX25519 X codes out (hybridInit mode)
      else hybridInit mode).mode = mode := by
    split
    · rw [withX25519_mode, hmode]
    · rfl
  rw [hmode']
  by_cases hm : mode.usesMlkem = true
  · rw [if_pos hm, if_neg (not_not.mpr (h.keypair hm))]
    refine ⟨rfl, ?_, fun _ => ⟨rfl, rfl⟩⟩
    intro hx
    rw [if_pos hx]
    exact ⟨rfl, rfl⟩
  · rw [if_neg hm]
    refine ⟨rfl, ?_, fun h => absurd h hm⟩
    intro hx
    rw [if_pos hx]
    exact ⟨rfl, rfl⟩

theorem returns_of_ret (h : (hybridKeygen X codes out (hybridInit mode)).ret = 0) :
    codes.Returns mode := by
  have hmode : (hybridInit mode).mode = mode := rfl
  have hsetup : mode.usesX25519 = true → codes.setup = 0 := by
    intro hx
    by_contra hne
    have hnone : x25519Keygen X codes out (hybridInit mode) = none := by
      unfold x25519Keygen
      rw [hmode, if_pos hx, if_pos hne]
    rw [hybridKeygen, hnone] at h
    cases h
  refine ⟨hsetup, ?_⟩
  intro hm
  by_contra hne
  have hmode' : (if mode.usesX25519 = true then withX25519 X codes out (hybridInit mode)
      else hybridInit mode).mode = mode := by
    split
    · rw [withX25519_mode, hmode]
    · rfl
  rw [hybridKeygen, x25519Keygen_of_setup hsetup, hmode] at h
  simp only at h
  rw [hmode', if_pos hm, if_pos hne] at h
  cases h

theorem withX25519_of_fallback (h : codes.FallbackSucceeds) (out : KeygenOutputs) (ctx : HybridCtx) :
    HasX25519Pair X (withX25519 X codes out ctx) := by
  obtain ⟨hparams, hpoint, hwrite⟩ := h
  rw [withX25519, if_pos hparams]
  refine ⟨clamp_isClamped out.random, ?_⟩
  show (if codes.writeBinary = 0 then (if codes.PointComputed then _ else _) else _) = _
  rw [if_pos hwrite, if_pos hpoint]
  rfl

/-- The X25519 keys of a context that was just initialised are a pair, whatever the library calls write,
exactly when the fallback is taken and succeeds. -/
theorem withX25519_pair_iff :
    (∀ out, HasX25519Pair X (withX25519 X codes out (hybridInit mode))) ↔ codes.FallbackSucceeds := by
  constructor
  · intro h
    -- Calls that fail may leave any bytes, and there are bytes that are not the public key.
    obtain ⟨wrong, hwrong⟩ := ByteArr.exists_ne (X.x25519Base (clamp (ByteArr.zero 32)))
    have hpair := h ⟨wrong, ByteArr.zero 32, wrong, wrong, ByteArr.zero 64⟩
    rw [withX25519] at hpair
    by_cases hparams : codes.makeParams ≠ 0
    · rw [if_pos hparams] at hpair
      have hpub : (if codes.writeBinary = 0 then
          (if codes.PointComputed then X.x25519Base (clamp (ByteArr.zero 32)) else wrong)
        else wrong) = X.x25519Base (clamp (ByteArr.zero 32)) := hpair.pubkey
      by_cases hwrite : codes.writeBinary = 0
      · rw [if_pos hwrite] at hpub
        by_cases hpoint : codes.PointComputed
        · exact ⟨hparams, hpoint, hwrite⟩
        · rw [if_neg hpoint] at hpub
          exact absurd hpub hwrong
      · rw [if_neg hwrite] at hpub
        exact absurd hpub hwrong
    · rw [if_neg hparams] at hpair
      exact absurd hpair.clamped zero_not_isClamped
  · intro h out
    exact withX25519_of_fallback h out _

/-- When key generation returns 0 there is an X25519 key pair, whatever the library calls write, exactly
when `mbedtls_ecdh_make_params` fails and the calls of the fallback all succeed. -/
theorem keygen_postcondition_iff (X : Externals) (mode : Mode) (codes : KeygenCodes) :
    (∀ out, mode.usesX25519 = true → (hybridKeygen X codes out (hybridInit mode)).ret = 0 →
        HasX25519Pair X (hybridKeygen X codes out (hybridInit mode)).ctx) ↔
      (mode.usesX25519 = true → codes.Returns mode → codes.FallbackSucceeds) := by
  constructor
  · intro h hx hreturns
    rw [← withX25519_pair_iff]
    intro out
    obtain ⟨hret, hkeys, -⟩ := hybridKeygen_of_returns hreturns
    obtain ⟨hpriv, hpub⟩ := hkeys hx
    obtain ⟨hclamped, hpair⟩ := h out hx hret
    rw [hpriv] at hclamped hpair
    rw [hpub] at hpair
    exact ⟨hclamped, hpair⟩
  · intro h out hx hret
    have hreturns := returns_of_ret hret
    obtain ⟨-, hkeys, -⟩ := hybridKeygen_of_returns hreturns
    obtain ⟨hpriv, hpub⟩ := hkeys hx
    obtain ⟨hclamped, hpair⟩ := withX25519_of_fallback (X := X) (h hx hreturns) out (hybridInit mode)
    constructor
    · rw [hpriv]
      exact hclamped
    · rw [hpriv, hpub]
      exact hpair

/-- All calls but those that the failing ones name succeed. -/
def Reference.keygenCodes (makeParams mul : Int) : KeygenCodes := ⟨0, makeParams, 0, 0, mul, 0, 0⟩

/-- With `mbedtls_ecdh_make_params` successful there is no private key; with it and `mbedtls_ecp_mul`
failed, no public key. Key generation returns 0 both times. -/
theorem keygen_without_pair :
    ∃ out,
      ((hybridKeygen Reference.externals (Reference.keygenCodes 0 0) out (hybridInit .hybrid)).ret = 0 ∧
          ¬ HasX25519Pair Reference.externals
            (hybridKeygen Reference.externals (Reference.keygenCodes 0 0) out
              (hybridInit .hybrid)).ctx) ∧
        (hybridKeygen Reference.externals (Reference.keygenCodes (-1) (-1)) out
            (hybridInit .classical)).ret = 0 ∧
          ¬ HasX25519Pair Reference.externals
            (hybridKeygen Reference.externals (Reference.keygenCodes (-1) (-1)) out
              (hybridInit .classical)).ctx := by
  -- The first call writes the curve in front of the key.
  refine ⟨⟨ByteArr.ofBytes 32 ([3, 0, 0x1d, 32] ++ Reference.clientPubkey.toList), ByteArr.zero 32,
    ByteArr.zero 32, ByteArr.zero 32, ByteArr.zero 64⟩, ⟨rfl, ?_⟩, rfl, ?_⟩
  · rintro ⟨hclamped, -⟩
    exact zero_not_isClamped hclamped
  · rintro ⟨-, hpub⟩
    have hne : ByteArr.zero 32 ≠ Reference.externals.x25519Base (clamp (ByteArr.zero 32)) := by
      decide +kernel
    exact hne hpub

/-! ## The key pairs of a pass -/

/-- The key pairs in a context. -/
def HybridCtx.keyPairs (ctx : HybridCtx) : KeyPairs :=
  ⟨ctx.x25519Privkey, ctx.x25519Pubkey, ctx.mlkemPk, ctx.mlkemSk⟩

theorem withX25519_keyed (codes : KeygenCodes) (out : KeygenOutputs) {ctx : HybridCtx}
    (h : ctx = keyedCtx mode ctx.keyPairs) :
    withX25519 X codes out ctx = keyedCtx mode (withX25519 X codes out ctx).keyPairs := by
  rw [h]
  unfold withX25519
  split <;> rfl

/-- Key generation changes nothing but the key pairs. -/
theorem hybridKeygen_keyed (codes : KeygenCodes) (out : KeygenOutputs) (mode : Mode) :
    (hybridKeygen X codes out (hybridInit mode)).ctx =
      keyedCtx mode (hybridKeygen X codes out (hybridInit mode)).ctx.keyPairs := by
  have hinit : hybridInit mode = keyedCtx mode (hybridInit mode).keyPairs := rfl
  unfold hybridKeygen
  cases hx : x25519Keygen X codes out (hybridInit mode) with
  | none => exact hinit
  | some ctx =>
    have hctx : ctx = keyedCtx mode ctx.keyPairs := by
      unfold x25519Keygen at hx
      split at hx
      · split at hx
        · cases hx
        · have hw : withX25519 X codes out (hybridInit mode) = ctx := by
            rw [withX25519, ← Option.some.inj (hx.symm.trans (apply_ite some _ _ _).symm)]
          rw [← hw]
          exact withX25519_keyed codes out hinit
      · rw [← Option.some.inj hx]
        exact hinit
    simp only
    split
    · split
      · rw [hctx]
        rfl
      · rw [hctx]
        rfl
    · exact hctx

/-- When the fallback succeeds, the keys of a successful key generation are the matched pairs that a pass
of the client task starts with. -/
theorem hybridKeygen_matched (h : codes.Returns mode)
    (hfallback : mode.usesX25519 = true → codes.FallbackSucceeds) (out : KeygenOutputs) :
    ∃ keys : KeyPairs, keys.Matched X mode ∧
      (hybridKeygen X codes out (hybridInit mode)).ctx = keyedCtx mode keys := by
  refine ⟨_, ?_, hybridKeygen_keyed codes out mode⟩
  obtain ⟨-, hkeys, hmlkem⟩ := hybridKeygen_of_returns (X := X) h
  constructor
  · intro hx
    obtain ⟨hpriv, hpub⟩ := hkeys hx
    show (hybridKeygen X codes out (hybridInit mode)).ctx.x25519Pubkey = X.x25519Base
      (hybridKeygen X codes out (hybridInit mode)).ctx.x25519Privkey
    rw [hpriv, hpub]
    exact (withX25519_of_fallback (hfallback hx) out _).pubkey
  · intro hm
    exact ⟨out.seed, hmlkem hm⟩

end HybridPqc
