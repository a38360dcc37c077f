import HybridPqc.Device.Context

/-!
# Key generation on the client

`hybrid_keygen` of `crypto_hybrid.c`. `mbedtls_ecdh_make_params` writes to the public key and keeps the
private key in its own context; when it fails, the function draws a private key itself and computes the
public key with four calls whose results it does not look at.
-/

namespace HybridPqc

/-- What the library calls of `hybrid_keygen` return. -/
structure KeygenCodes where
  /-- Result of `mbedtls_ecdh_setup`. -/
  setup : Int
  /-- Result of `mbedtls_ecdh_make_params`. -/
  makeParams : Int
  /-- Result of `mbedtls_mpi_read_binary_le`. -/
  readBinary : Int
  /-- Result of `mbedtls_ecp_group_load`. -/
  groupLoad : Int
  /-- Result of `mbedtls_ecp_mul`. -/
  mul : Int
  /-- Result of `mbedtls_mpi_write_binary_le`. -/
  writeBinary : Int
  /-- Result of `mlkem768_keypair`. -/
  keypair : Int

/-- The bytes that the library calls of `hybrid_keygen` write. -/
structure KeygenOutputs where
  /-- What `mbedtls_ecdh_make_params` leaves in `x25519_pubkey`. -/
  params : ByteArr 32
  /-- The bytes of `randombytes(ctx->x25519_privkey, …)`. -/
  random : ByteArr 32
  /-- The coordinate of `Q` when a call before `mbedtls_mpi_write_binary_le` has failed. -/
  failedPoint : ByteArr 32
  /-- What a failed `mbedtls_mpi_write_binary_le` leaves in `x25519_pubkey`. -/
  failedWrite : ByteArr 32
  /-- The random bytes that `mlkem768_keypair` draws. -/
  seed : ByteArr 64

/-- What `hybrid_keygen` leaves behind. -/
structure KeygenResult where
  ret : Int
  ctx : HybridCtx

/-- Clamp a private key per RFC 7748. -/
def clamp (privkey : ByteArr 32) : ByteArr 32 :=
  let privkey := privkey.set 0 (privkey.get 0 &&& 248)
  let privkey := privkey.set 31 (privkey.get 31 &&& 127)
  privkey.set 31 (privkey.get 31 ||| 64)

/-- The calls that compute the public key of `x25519_privkey` all succeed. -/
def KeygenCodes.PointComputed (codes : KeygenCodes) : Prop :=
  codes.readBinary = 0 ∧ codes.groupLoad = 0 ∧ codes.mul = 0

instance (codes : KeygenCodes) : Decidable codes.PointComputed :=
  inferInstanceAs (Decidable (codes.readBinary = 0 ∧ codes.groupLoad = 0 ∧ codes.mul = 0))

/-- The fallback after a failed `mbedtls_ecdh_make_params`: `pubkey = privkey * basepoint`. -/
def generateDirectly (X : Externals) (codes : KeygenCodes) (out : KeygenOutputs) (ctx : HybridCtx) :
    HybridCtx :=
  let ctx := { ctx with x25519Privkey := clamp out.random }
  let point := if codes.PointComputed then X.x25519Base ctx.x25519Privkey else out.failedPoint
  { ctx with x25519Pubkey := if codes.writeBinary = 0 then point else out.failedWrite }

/-- The X25519 part; `none` is an early return. -/
def x25519Keygen (X : Externals) (codes : KeygenCodes) (out : KeygenOutputs) (ctx : HybridCtx) :
    Option HybridCtx :=
  if ctx.mode.usesX25519 then
    if codes.setup ≠ 0 then none
    else
      let ctx := { ctx with x25519Pubkey := out.params }
      if codes.makeParams ≠ 0 then some (generateDirectly X codes out ctx) else some ctx
  else some ctx

/-- `hybrid_keygen`. -/
def hybridKeygen (X : Externals) (codes : KeygenCodes) (out : KeygenOutputs) (ctx : HybridCtx) :
    KeygenResult :=
  match x25519Keygen X codes out ctx with
  | none => ⟨-1, ctx⟩
  | some ctx =>
    if ctx.mode.usesMlkem then
      let (pk, sk) := X.kemKeypairDerand out.seed
      let ctx := { ctx with mlkemPk := pk, mlkemSk := sk }
      if codes.keypair ≠ 0 then ⟨-1, ctx⟩ else ⟨0, ctx⟩
    else ⟨0, ctx⟩

end HybridPqc
