import HybridPqc.Lib.Loops
import HybridPqc.Mlkem.Polyvec
import HybridPqc.Mlkem.Symmetric

/-!
# The CPA-secure encryption

`indcpa_ref.c`. The rejection sampling of `gen_matrix` reads blocks until a polynomial is full; `fuel` bounds
the number of tests of that loop, and a result is `none` when one of the nine loops needs more.
-/

namespace HybridPqc.Mlkem

/-! ## Sampling of the matrix -/

/-- `rej_uniform`: `r` is the part of the output buffer that is filled, so `ctr` is its length. -/
def rejUniformFrom (len : Nat) : List Int16 → Bytes → List Int16
  | r, b0 :: b1 :: b2 :: buf =>
    if r.length < len then
      let val := twelveBits b0 b1 b2
      let r := if val.1 < 3329 then r ++ [val.1.toInt16] else r
      let r := if r.length < len ∧ val.2 < 3329 then r ++ [val.2.toInt16] else r
      rejUniformFrom len r buf
    else r
  | r, _ => r

def rejUniform (len : Nat) (buf : Bytes) : List Int16 := rejUniformFrom len [] buf

variable (S : Symmetric) (fuel : Nat)

/-- `GEN_MATRIX_NBLOCKS`. -/
abbrev genMatrixNblocks : Nat := 3

/-- One iteration of the loop `while(ctr < KYBER_N)` of `gen_matrix`. -/
def refillCoeffs (s : List Int16 × S.XofState) : Option (List Int16 × S.XofState) :=
  if s.1.length < 256 then
    let out := S.xofSqueezeblocks 1 s.2
    some (s.1 ++ rejUniform (256 - s.1.length) out.1, out.2)
  else none

/-- One polynomial of the matrix. -/
def genEntry (seed : Bytes) (x y : UInt8) : Option Poly :=
  let state := S.xofAbsorb seed x y
  let out := S.xofSqueezeblocks genMatrixNblocks state
  (Loops.loop (refillCoeffs S) fuel (rejUniform 256 out.1, out.2)).map fun s =>
    Poly.ofFn fun i => s.1.getD i 0

/-- A square matrix of polynomials. -/
abbrev Polymat := Vector Polyvec 3

/-- The polynomial `a[i].vec[j]`. -/
def genPoly (seed : Bytes) (transposed : Bool) (i j : Nat) : Option Poly :=
  if transposed then genEntry S fuel seed i.toUInt8 j.toUInt8
  else genEntry S fuel seed j.toUInt8 i.toUInt8

def genRow (seed : Bytes) (transposed : Bool) (i : Nat) : Option Polyvec := do
  let p0 ← genPoly S fuel seed transposed i 0
  let p1 ← genPoly S fuel seed transposed i 1
  let p2 ← genPoly S fuel seed transposed i 2
  some #v[p0, p1, p2]

/-- The matrix of a seed, or its transpose. -/
def genMatrix (seed : Bytes) (transposed : Bool) : Option Polymat := do
  let a0 ← genRow S fuel seed transposed 0
  let a1 ← genRow S fuel seed transposed 1
  let a2 ← genRow S fuel seed transposed 2
  some #v[a0, a1, a2]

/-! ## Serialization -/

def packPk (pk : Polyvec) (seed : Bytes) : Bytes := polyvecTobytes pk ++ seed

def unpackPk (packedpk : Bytes) : Polyvec × Bytes :=
  (polyvecFrombytes packedpk, (packedpk.drop 1152).take 32)

def packSk (sk : Polyvec) : Bytes := polyvecTobytes sk

def unpackSk (packedsk : Bytes) : Polyvec := polyvecFrombytes packedsk

def packCiphertext (b : Polyvec) (v : Poly) : Bytes := polyvecCompress b ++ polyCompress v

def unpackCiphertext (c : Bytes) : Polyvec × Poly := (polyvecDecompress c, polyDecompress (c.drop 960))

/-! ## Key generation, encryption and decryption -/

def polyGetnoiseEta1 (seed : Bytes) (nonce : UInt8) : Poly := cbd2 (S.prf seed nonce).toList

def polyGetnoiseEta2 (seed : Bytes) (nonce : UInt8) : Poly := cbd2 (S.prf seed nonce).toList

/-- Public and secret key of the first 32 bytes of the coins. -/
def indcpaKeypairDerand (coins : Bytes) : Option (Bytes × Bytes) := do
  let buf := (S.hashG (coins.take 32 ++ [3])).toList
  let publicseed := buf.take 32
  let noiseseed := buf.drop 32
  let a ← genMatrix S fuel publicseed false
  let skpv := Polyvec.ofFn fun i => polyGetnoiseEta1 S noiseseed i.val.toUInt8
  let e := Polyvec.ofFn fun i => polyGetnoiseEta1 S noiseseed (3 + i.val).toUInt8
  let skpv := polyvecNtt skpv
  let e := polyvecNtt e
  let pkpv := Polyvec.ofFn fun i => polyTomont (polyvecBasemulAccMontgomery (a.get i) skpv)
  let pkpv := polyvecAdd pkpv e
  let pkpv := polyvecReduce pkpv
  some (packPk pkpv publicseed, packSk skpv)

/-- The ciphertext of a message of 32 bytes. -/
def indcpaEnc (m pk coins : Bytes) : Option Bytes := do
  let (pkpv, seed) := unpackPk pk
  let k := polyFrommsg m
  let matT ← genMatrix S fuel seed true
  let sp := Polyvec.ofFn fun i => polyGetnoiseEta1 S coins i.val.toUInt8
  let ep := Polyvec.ofFn fun i => polyGetnoiseEta2 S coins (3 + i.val).toUInt8
  let epp := polyGetnoiseEta2 S coins 6
  let sp := polyvecNtt sp
  let b := Polyvec.ofFn fun i => polyvecBasemulAccMontgomery (matT.get i) sp
  let v := polyvecBasemulAccMontgomery pkpv sp
  let b := polyvecInvnttTomont b
  let v := polyInvnttTomont v
  let b := polyvecAdd b ep
  let v := polyAdd v epp
  let v := polyAdd v k
  let b := polyvecReduce b
  let v := polyReduce v
  some (packCiphertext b v)

/-- The message of a ciphertext. -/
def indcpaDec (c sk : Bytes) : Bytes :=
  let (b, v) := unpackCiphertext c
  let skpv := unpackSk sk
  let b := polyvecNtt b
  let mp := polyvecBasemulAccMontgomery skpv b
  let mp := polyInvnttTomont mp
  let mp := polySub v mp
  let mp := polyReduce mp
  polyTomsg mp

end HybridPqc.Mlkem
