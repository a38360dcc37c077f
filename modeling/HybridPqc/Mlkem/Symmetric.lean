import HybridPqc.Mlkem.Fips202

/-!
# Symmetric primitives

`symmetric.h` names the hash functions, the extendable-output function and the pseudorandom functions by macros.
The record is that interface; `fips202` is what `symmetric_ref.c` puts behind it.
-/

namespace HybridPqc.Mlkem

/-- `XOF_BLOCKBYTES`. -/
abbrev xofBlockbytes : Nat := shake128Rate

/-- The macros of `symmetric.h`. -/
structure Symmetric where
  /-- `xof_state`. -/
  XofState : Type
  hashH : Bytes → ByteArr 32
  hashG : Bytes → ByteArr 64
  xofAbsorb : Bytes → UInt8 → UInt8 → XofState
  /-- `xof_squeezeblocks` of one block. -/
  xofSqueezeblock : XofState → ByteArr xofBlockbytes × XofState
  prf : Bytes → UInt8 → ByteArr 128
  rkprf : Bytes → Bytes → ByteArr 32

/-- `xof_squeezeblocks`. -/
def Symmetric.xofSqueezeblocks (S : Symmetric) : Nat → S.XofState → Bytes × S.XofState
  | 0, st => ([], st)
  | n + 1, st =>
    let block := S.xofSqueezeblock st
    let rest := S.xofSqueezeblocks n block.2
    (block.1.toList ++ rest.1, rest.2)

def kyberShake128Absorb (seed : Bytes) (x y : UInt8) : KeccakState shake128Rate :=
  shake128AbsorbOnce (seed ++ [x, y])

def kyberShake256Prf (outlen : Nat) (key : Bytes) (nonce : UInt8) : Bytes :=
  shake256 outlen (key ++ [nonce])

def kyberShake256Rkprf (key inp : Bytes) : Bytes :=
  let s := shake256Init
  let s := shake256Absorb s key
  let s := shake256Absorb s inp
  let s := shake256Finalize s
  (shake256Squeeze 32 s).1

/-- The primitives of `symmetric_ref.c`. -/
def fips202 : Symmetric where
  XofState := KeccakState shake128Rate
  hashH m := ByteArr.ofBytes 32 (sha3256 m)
  hashG m := ByteArr.ofBytes 64 (sha3512 m)
  xofAbsorb := kyberShake128Absorb
  xofSqueezeblock st :=
    let out := shake128Squeezeblocks 1 st
    (ByteArr.ofBytes _ out.1, out.2)
  prf key nonce := ByteArr.ofBytes 128 (kyberShake256Prf 128 key nonce)
  rkprf key inp := ByteArr.ofBytes 32 (kyberShake256Rkprf key inp)

end HybridPqc.Mlkem
