import HybridPqc.Lib.ByteStrings
import HybridPqc.Mlkem.Ntt

/-!
# Polynomials

`poly_ref.c`, `cbd_ref.c` and `cmov_int16` of `verify_ref.c`, with `KYBER_POLYCOMPRESSEDBYTES == 128` and
`KYBER_ETA1 == KYBER_ETA2 == 2`. An output buffer is the byte string that the loop writes, block by block.
-/

namespace HybridPqc.Mlkem

/-- The read `a[i]` of a byte array. -/
def byteAt (a : Bytes) (i : Nat) : UInt8 := a.getD i 0

/-! ## Serialization -/

/-- `t += ((int16_t)t >> 15) & KYBER_Q`: the positive standard representative. -/
def positive (c : Int16) : Int16 := c + ((c >>> 15) &&& 3329)

/-- The four bits that `poly_compress` keeps of a coefficient. -/
def compress4 (c : Int16) : UInt8 :=
  let u := positive c
  let d0 : UInt32 := (u.toInt32 <<< 4).toUInt32
  let d0 := d0 + 1665
  let d0 := d0 * 80635
  let d0 := d0 >>> 28
  (d0 &&& 0xf).toUInt8

def polyCompress (a : Poly) : Bytes :=
  (List.range 32).flatMap fun i =>
    let t := fun j => compress4 (a.coeff (8 * i + j))
    [t 0 ||| (t 1 <<< 4), t 2 ||| (t 3 <<< 4), t 4 ||| (t 5 <<< 4), t 6 ||| (t 7 <<< 4)]

/-- `(((uint16_t)x*KYBER_Q) + 8) >> 4`. -/
def decompress4 (x : UInt8) : Int16 :=
  ((x.toUInt32.toInt32 * kyberQ + 8) >>> 4).toInt16

def polyDecompress (a : Bytes) : Poly :=
  Poly.ofFn fun i =>
    if i % 2 = 0 then decompress4 (byteAt a (i / 2) &&& 15) else decompress4 (byteAt a (i / 2) >>> 4)

def polyTobytes (a : Poly) : Bytes :=
  (List.range 128).flatMap fun i =>
    let t0 := (positive (a.coeff (2 * i))).toUInt16
    let t1 := (positive (a.coeff (2 * i + 1))).toUInt16
    [t0.toUInt8, ((t0 >>> 8) ||| (t1 <<< 4)).toUInt8, (t1 >>> 4).toUInt8]

/-- The two 12-bit numbers in three bytes. -/
def twelveBits (b0 b1 b2 : UInt8) : UInt16 × UInt16 :=
  ((b0.toUInt16 ||| (b1.toUInt16 <<< 8)) &&& 0xFFF, ((b1 >>> 4).toUInt16 ||| (b2.toUInt16 <<< 4)) &&& 0xFFF)

def polyFrombytes (a : Bytes) : Poly :=
  Poly.ofFn fun i =>
    let k := i / 2
    let c := twelveBits (byteAt a (3 * k)) (byteAt a (3 * k + 1)) (byteAt a (3 * k + 2))
    if i % 2 = 0 then c.1.toInt16 else c.2.toInt16

/-! ## Messages -/

/-- `cmov_int16` with the old value of `*r`. -/
def cmovInt16 (r v : Int16) (b : UInt16) : Int16 :=
  let b := -b
  r ^^^ (b.toInt16 &&& (r ^^^ v))

def polyFrommsg (msg : Bytes) : Poly :=
  Poly.ofFn fun i => cmovInt16 0 1665 (((byteAt msg (i / 8)).toUInt16 >>> (i % 8).toUInt16) &&& 1)

/-- The message bit that `poly_tomsg` decodes from a coefficient. -/
def messageBit (c : Int16) : UInt32 :=
  let t : UInt32 := c.toInt32.toUInt32
  let t := t <<< 1
  let t := t + 1665
  let t := t * 80635
  let t := t >>> 28
  t &&& 1

def polyTomsg (a : Poly) : Bytes :=
  (List.range 32).map fun i =>
    (List.range 8).foldl (fun m j => m ||| (messageBit (a.coeff (8 * i + j)) <<< j.toUInt32).toUInt8) 0

/-! ## Noise -/

/-- `load32_littleendian` at the bytes from `off` on. -/
def load32Littleendian (x : Bytes) (off : Nat) : UInt32 :=
  let r := (byteAt x off).toUInt32
  let r := r ||| (byteAt x (off + 1)).toUInt32 <<< 8
  let r := r ||| (byteAt x (off + 2)).toUInt32 <<< 16
  r ||| (byteAt x (off + 3)).toUInt32 <<< 24

/-- `cbd2`: a polynomial with the centered binomial distribution for `eta = 2`. -/
def cbd2 (buf : Bytes) : Poly :=
  Poly.ofFn fun x =>
    let i := x / 8
    let j := x % 8
    let t := load32Littleendian buf (4 * i)
    let d := t &&& 0x55555555
    let d := d + ((t >>> 1) &&& 0x55555555)
    let a := ((d >>> (4 * j + 0).toUInt32) &&& 0x3).toUInt16.toInt16
    let b := ((d >>> (4 * j + 2).toUInt32) &&& 0x3).toUInt16.toInt16
    a - b

/-! ## Arithmetic -/

def polyReduce (r : Poly) : Poly := Poly.ofFn fun i => barrettReduce (r.coeff i)

def polyAdd (a b : Poly) : Poly := Poly.ofFn fun i => a.coeff i + b.coeff i

def polySub (a b : Poly) : Poly := Poly.ofFn fun i => a.coeff i - b.coeff i

def polyNtt (r : Poly) : Poly := polyReduce (ntt r)

def polyInvnttTomont (r : Poly) : Poly := invntt r

/-- `poly_basemul_montgomery`: in each group of four coefficients, one product for each sign of the zeta. -/
def polyBasemulMontgomery (a b : Poly) : Poly :=
  Poly.ofFn fun x =>
    let i := x / 4
    let lower := basemul (a.coeff (4 * i)) (a.coeff (4 * i + 1)) (b.coeff (4 * i)) (b.coeff (4 * i + 1))
      (zetaAt (64 + i))
    let upper := basemul (a.coeff (4 * i + 2)) (a.coeff (4 * i + 3)) (b.coeff (4 * i + 2))
      (b.coeff (4 * i + 3)) (-zetaAt (64 + i))
    if x % 4 = 0 then lower.1 else if x % 4 = 1 then lower.2 else if x % 4 = 2 then upper.1 else upper.2

def polyTomont (r : Poly) : Poly :=
  -- `(1ULL << 32) % KYBER_Q`
  let f : Int16 := 1353
  Poly.ofFn fun i => montgomeryReduce ((r.coeff i).toInt32 * f.toInt32)

end HybridPqc.Mlkem
