import Mathlib.Data.ZMod.ValMinAbs
import HybridPqc.Lib.Negacyclic
import HybridPqc.Mlkem.Proofs.MatrixProofs
import HybridPqc.Mlkem.Proofs.MessageProofs

/-!
# A key pair, an encryption and its error

The values that one key pair and one encryption share, and what decryption finds on top of the message: an
expression in the small polynomials and in the errors of the compression, coefficient by coefficient.
-/

namespace HybridPqc.Mlkem

open SplitTransform

/-- The values behind a public key and a ciphertext. -/
structure Transcript where
  a : Polymat
  skpv : Polyvec
  e : Polyvec
  sp : Polyvec
  ep : Polyvec
  epp : Poly
  m : Bytes

namespace Transcript

/-- The public vector, in the transformed domain. -/
def pkpv (t : Transcript) : Polyvec :=
  let skpv := polyvecNtt t.skpv
  let pkpv := Polyvec.ofFn fun i => polyTomont (polyvecBasemulAccMontgomery (t.a.get i) skpv)
  polyvecReduce (polyvecAdd pkpv (polyvecNtt t.e))

/-- The vector of the ciphertext before compression. -/
def b (t : Transcript) : Polyvec :=
  let sp := polyvecNtt t.sp
  let b := Polyvec.ofFn fun i => polyvecBasemulAccMontgomery ((transpose t.a).get i) sp
  polyvecReduce (polyvecAdd (polyvecInvnttTomont b) t.ep)

/-- The polynomial of the ciphertext before compression, for the public vector as it is read from the key. -/
def v (t : Transcript) : Poly :=
  let pkpv := polyvecFrombytes (polyvecTobytes t.pkpv)
  let v := polyInvnttTomont (polyvecBasemulAccMontgomery pkpv (polyvecNtt t.sp))
  polyReduce (polyAdd (polyAdd v t.epp) (polyFrommsg t.m))

/-- The ciphertext. -/
def ct (t : Transcript) : Bytes := packCiphertext t.b t.v

/-- The error of the compressed vector. -/
def bError (t : Transcript) (j : Fin 3) (x : Nat) : Zq :=
  residues ((unpackCiphertext t.ct).1.vec j) x - residues (t.b.vec j) x

/-- The error of the compressed polynomial. -/
def vError (t : Transcript) (x : Nat) : Zq := residues (unpackCiphertext t.ct).2 x - residues t.v x

/-- What decryption finds in coefficient `x` on top of the message. -/
def noise (t : Transcript) (x : Nat) : Zq :=
  residues t.epp x + t.vError x +
    ∑ j, convolution 256 (residues (t.e.vec j)) (residues (t.sp.vec j)) x -
    ∑ j, convolution 256 (residues (t.skpv.vec j)) (fun y => residues (t.ep.vec j) y + t.bError j y) x

/-- No coefficient of the noise leaves the half of the residues that is decoded to the bit of the message. -/
def SmallNoise (t : Transcript) : Prop :=
  ∀ x < 256, -832 ≤ ZMod.valMinAbs (t.noise x) ∧ ZMod.valMinAbs (t.noise x) ≤ 832 - bitAt t.m x

/-- The bit that decryption decodes: the bit of the message as long as the noise is below a quarter of `q`. -/
def decodedBit (t : Transcript) (x : Nat) : Nat :=
  let n : Int := ZMod.valMinAbs (t.noise x)
  let bit := bitAt t.m x
  if -832 ≤ n ∧ n ≤ 832 - bit then bit else 1 - bit

end Transcript

/-- The byte string of 256 bits. -/
def ofBits (b : Nat → Nat) : Bytes := (List.range 32).map fun i => UInt8.ofNat (ofBitsLe (fun j => b (8 * i + j)) 8)

section Coins

variable (S : Symmetric)

/-- The public seed of a key pair. -/
def publicSeed (coins : Bytes) : Bytes := (S.hashG (coins.take 32 ++ [3])).toList.take 32

/-- The noise seed of a key pair. -/
def noiseSeed (coins : Bytes) : Bytes := (S.hashG (coins.take 32 ++ [3])).toList.drop 32

/-- The values of a key pair and an encryption, from their coins. -/
def transcript (a : Polymat) (keyCoins m coins : Bytes) : Transcript where
  a := a
  skpv := Polyvec.ofFn fun i => polyGetnoiseEta1 S (noiseSeed S keyCoins) i.val.toUInt8
  e := Polyvec.ofFn fun i => polyGetnoiseEta1 S (noiseSeed S keyCoins) (3 + i.val).toUInt8
  sp := Polyvec.ofFn fun i => polyGetnoiseEta1 S coins i.val.toUInt8
  ep := Polyvec.ofFn fun i => polyGetnoiseEta2 S coins (3 + i.val).toUInt8
  epp := polyGetnoiseEta2 S coins 6
  m := m

end Coins

end HybridPqc.Mlkem
