import HybridPqc.Mlkem.Indcpa

/-!
# The key encapsulation

`kem_ref.c`, `mlkem_wrapper.c` and the constant-time helpers of `verify_ref.c`.
-/

namespace HybridPqc.Mlkem

/-! ## Constant-time helpers -/

/-- `verify` of two arrays of one length: 0 if they are equal, 1 otherwise. -/
def verify (a b : Bytes) : UInt64 :=
  let r := Bytes.diff a b
  (-r.toUInt64) >>> 63

/-- `cmov`: the bytes of `r` after the call, for a condition bit `b`. -/
def cmov (r x : Bytes) (b : UInt8) : Bytes :=
  let b := -b
  List.zipWith (fun r x => r ^^^ (b &&& (r ^^^ x))) r x

/-! ## Key pairs, encapsulation and decapsulation -/

variable (S : Symmetric) (fuel : Nat)

def cryptoKemKeypairDerand (coins : ByteArr 64) : Option (ByteArr 1184 × ByteArr 2400) := do
  let (pk, sk) ← indcpaKeypairDerand S fuel coins.toList
  let sk := sk ++ pk
  let sk := sk ++ (S.hashH pk).toList
  -- Value z for pseudo-random output on reject
  let sk := sk ++ coins.toList.drop 32
  some (ByteArr.ofBytes 1184 pk, ByteArr.ofBytes 2400 sk)

def cryptoKemEncDerand (pk : ByteArr 1184) (coins : ByteArr 32) : Option (ByteArr 1088 × ByteArr 32) := do
  let buf := coins.toList ++ (S.hashH pk.toList).toList
  let kr := (S.hashG buf).toList
  let ct ← indcpaEnc S fuel (buf.take 32) pk.toList (kr.drop 32)
  some (ByteArr.ofBytes 1088 ct, ByteArr.ofBytes 32 (kr.take 32))

def cryptoKemDec (ct : ByteArr 1088) (sk : ByteArr 2400) : Option (ByteArr 32) := do
  let pk := (sk.toList.drop 1152).take 1184
  let buf := indcpaDec ct.toList sk.toList
  let buf := buf ++ (sk.toList.drop (2400 - 2 * 32)).take 32
  let kr := (S.hashG buf).toList
  let cmp ← indcpaEnc S fuel (buf.take 32) pk (kr.drop 32)
  let fail := verify ct.toList cmp
  let ss := (S.rkprf (sk.toList.drop (2400 - 32)) ct.toList).toList
  -- Copy true key to return buffer if fail is false
  let ss := cmov ss (kr.take 32) (if fail = 0 then 1 else 0)
  some (ByteArr.ofBytes 32 ss)

/-- `mlkem768_keypair`, with the bytes that `randombytes` gives. -/
def mlkem768Keypair (random : ByteArr 64) : Option (ByteArr 1184 × ByteArr 2400) :=
  cryptoKemKeypairDerand S fuel random

/-- `mlkem768_encaps`, with the bytes that `randombytes` gives. -/
def mlkem768Encaps (pk : ByteArr 1184) (random : ByteArr 32) : Option (ByteArr 1088 × ByteArr 32) :=
  cryptoKemEncDerand S fuel pk random

def mlkem768Decaps (ct : ByteArr 1088) (sk : ByteArr 2400) : Option (ByteArr 32) :=
  cryptoKemDec S fuel ct sk

end HybridPqc.Mlkem
