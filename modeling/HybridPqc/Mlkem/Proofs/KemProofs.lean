import HybridPqc.Mlkem.Kem
import HybridPqc.Mlkem.Silent

/-!
# Encapsulation and decapsulation

Decapsulation encrypts again what it decrypted: it returns the key of the message if this gives the ciphertext
back, and a pseudorandom key if it does not.
-/

namespace HybridPqc.Mlkem

/-! ## The constant-time helpers -/

theorem verify_eq_zero {a b : Bytes} (h : a.length = b.length) : verify a b = 0 ↔ a = b := by
  have hbit : ∀ n : Fin 256, ((-(UInt8.ofFin n).toUInt64) >>> 63 = 0) = (UInt8.ofFin n = 0) := by decide +kernel
  rw [← Bytes.diff_eq_zero h, verify]
  exact iff_of_eq (hbit (Bytes.diff a b).toFin)

theorem cmov_one {r x : Bytes} (h : r.length = x.length) : cmov r x 1 = x := by
  have hbyte : ∀ r x : UInt8, r ^^^ (-1 &&& (r ^^^ x)) = x := fun r x => by
    rw [UInt8.neg_one_and, ← UInt8.xor_assoc, UInt8.xor_self, UInt8.zero_xor]
  refine List.ext_getElem (by rw [cmov, List.length_zipWith, h, min_self]) fun i _ _ => ?_
  simp only [cmov, List.getElem_zipWith, hbyte]

theorem cmov_zero {r x : Bytes} (h : r.length = x.length) : cmov r x 0 = r := by
  have hbyte : ∀ r x : UInt8, r ^^^ (-0 &&& (r ^^^ x)) = r := fun r x => by
    rw [UInt8.neg_zero, UInt8.zero_and, UInt8.xor_zero]
  refine List.ext_getElem (by rw [cmov, List.length_zipWith, h, min_self]) fun i _ _ => ?_
  simp only [cmov, List.getElem_zipWith, hbyte]

/-! ## Lengths -/

section Lengths

variable {S : Symmetric} {fuel : Nat}

theorem indcpaEnc_length {m pk coins ct : Bytes} (h : indcpaEnc S fuel m pk coins = some ct) : ct.length = 1088 := by
  simp only [indcpaEnc, Option.bind_eq_bind, Option.bind_eq_some_iff, Option.some.injEq] at h
  rcases h with ⟨matT, -, rfl⟩
  exact packCiphertext_length _ _

theorem Transcript.ct_length (t : Transcript) : t.ct.length = 1088 := packCiphertext_length _ _

theorem indcpaDec_length (c sk : Bytes) : (indcpaDec c sk).length = 32 := polyTomsg_length _

end Lengths

/-! ## Decapsulation -/

section Decapsulation

variable (S : Symmetric) (fuel : Nat)

/-- The key of a message and the coins of its encryption, under the public key with the hash `h`. -/
def keyAndCoins (m h : Bytes) : ByteArr 32 × Bytes :=
  let kr := (S.hashG (m ++ h)).toList
  (ByteArr.ofBytes 32 (kr.take 32), kr.drop 32)

/-- The public key in a secret key. -/
def pkPart (sk : ByteArr 2400) : Bytes := (sk.toList.drop 1152).take 1184

/-- The hash of the public key in a secret key. -/
def hashPart (sk : ByteArr 2400) : Bytes := (sk.toList.drop 2336).take 32

/-- The secret of the pseudorandom answers in a secret key. -/
def zPart (sk : ByteArr 2400) : Bytes := sk.toList.drop 2368

/-- `crypto_kem_dec` for every ciphertext and every secret key. -/
theorem cryptoKemDec_eq (ct : ByteArr 1088) (sk : ByteArr 2400) : cryptoKemDec S fuel ct sk =
    (indcpaEnc S fuel (indcpaDec ct.toList sk.toList) (pkPart sk)
      (keyAndCoins S (indcpaDec ct.toList sk.toList) (hashPart sk)).2).map fun cmp =>
        if cmp = ct.toList then (keyAndCoins S (indcpaDec ct.toList sk.toList) (hashPart sk)).1
        else S.rkprf (zPart sk) ct.toList := by
  have hm := indcpaDec_length ct.toList sk.toList
  set m := indcpaDec ct.toList sk.toList with hmdef
  have htake : (m ++ hashPart sk).take 32 = m := by rw [← hm, List.take_left]
  have hlen : (S.rkprf (zPart sk) ct.toList).toList.length =
      ((S.hashG (m ++ hashPart sk)).toList.take 32).length := by
    rw [List.length_take, List.Vector.toList_length, List.Vector.toList_length]
    rfl
  -- the constant-time choice between the two keys
  have hchoose : ∀ cmp : Bytes, cmp.length = 1088 →
      ByteArr.ofBytes 32 (cmov (S.rkprf (zPart sk) ct.toList).toList ((S.hashG (m ++ hashPart sk)).toList.take 32)
        (if verify ct.toList cmp = 0 then 1 else 0)) =
      if cmp = ct.toList then (keyAndCoins S m (hashPart sk)).1 else S.rkprf (zPart sk) ct.toList := by
    intro cmp hcmp
    have hverify := verify_eq_zero (a := ct.toList) (b := cmp) (by rw [List.Vector.toList_length, hcmp])
    by_cases heq : cmp = ct.toList
    · rw [if_pos (hverify.mpr heq.symm), if_pos heq, cmov_one hlen]
      rfl
    · rw [if_neg fun h => heq (hverify.mp h).symm, if_neg heq, cmov_zero hlen, ByteArr.ofBytes_toList]
  rw [cryptoKemDec]
  simp only [← hmdef, Option.bind_eq_bind]
  show (indcpaEnc S fuel ((m ++ hashPart sk).take 32) (pkPart sk) _).bind _ = _
  rw [htake]
  show (indcpaEnc S fuel m (pkPart sk) (keyAndCoins S m (hashPart sk)).2).bind _ = _
  cases hcmp : indcpaEnc S fuel m (pkPart sk) (keyAndCoins S m (hashPart sk)).2 with
  | none => rfl
  | some cmp => exact congrArg some (hchoose cmp (indcpaEnc_length hcmp))

end Decapsulation

/-! ## Key pairs -/

section Keypair

variable (S : Symmetric) (fuel : Nat)

/-- The public key of the coins, for the matrix `a`. -/
def keyPk (a : Polymat) (coins : Bytes) : Bytes := packPk (transcript S a coins [] []).pkpv (publicSeed S coins)

/-- The public key does not depend on what is encrypted. -/
theorem keyPk_eq (a : Polymat) (coins m c : Bytes) :
    packPk (transcript S a coins m c).pkpv (publicSeed S coins) = keyPk S a coins := by
  rw [keyPk, Transcript.pkpv, Transcript.pkpv, transcript, transcript]

theorem indcpaEnc_keyPk {coins : Bytes} {a : Polymat} (ha : genMatrix S fuel (publicSeed S coins) false = some a)
    (m c : Bytes) : indcpaEnc S fuel m (keyPk S a coins) c = some (transcript S a coins m c).ct := by
  rw [← keyPk_eq S a coins m c]
  exact indcpaEnc_packPk S (publicSeed_length S coins) ha coins m c

/-- The secret key of the coins, for the matrix `a`. -/
def keySk (a : Polymat) (coins : Bytes) : Bytes :=
  packSk (polyvecNtt (transcript S a coins [] []).skpv) ++ keyPk S a coins ++ (S.hashH (keyPk S a coins)).toList ++
    coins.drop 32

theorem keyPk_length (a : Polymat) (coins : Bytes) : (keyPk S a coins).length = 1184 := by
  rw [keyPk, packPk, List.length_append, polyvecTobytes_length, publicSeed_length]

theorem packSk_length (a : Polyvec) : (packSk a).length = 1152 := polyvecTobytes_length a

theorem keySk_length (a : Polymat) (coins : ByteArr 64) : (keySk S a coins.toList).length = 2400 := by
  simp only [keySk, List.length_append, packSk_length, keyPk_length, List.Vector.toList_length, List.length_drop]

theorem cryptoKemKeypairDerand_eq (coins : ByteArr 64) : cryptoKemKeypairDerand S fuel coins =
    (genMatrix S fuel (publicSeed S coins.toList) false).map fun a =>
      (ByteArr.ofBytes 1184 (keyPk S a coins.toList), ByteArr.ofBytes 2400 (keySk S a coins.toList)) := by
  rw [cryptoKemKeypairDerand, indcpaKeypairDerand_eq S fuel coins.toList [] []]
  cases genMatrix S fuel (publicSeed S coins.toList) false <;> rfl

/-- The parts of a generated secret key. -/
theorem parts_keySk (a : Polymat) (coins : ByteArr 64) :
    pkPart (ByteArr.ofBytes 2400 (keySk S a coins.toList)) = keyPk S a coins.toList ∧
    hashPart (ByteArr.ofBytes 2400 (keySk S a coins.toList)) = (S.hashH (keyPk S a coins.toList)).toList ∧
    zPart (ByteArr.ofBytes 2400 (keySk S a coins.toList)) = coins.toList.drop 32 := by
  have hsk := packSk_length (polyvecNtt (transcript S a coins.toList [] []).skpv)
  have hpk := keyPk_length S a coins.toList
  have hh := (S.hashH (keyPk S a coins.toList)).toList_length
  rw [pkPart, hashPart, zPart, ByteArr.toList_ofBytes (keySk_length S a coins), keySk]
  set p := packSk (polyvecNtt (transcript S a coins.toList [] []).skpv)
  set pk := keyPk S a coins.toList
  set h := (S.hashH pk).toList
  refine ⟨?_, ?_, ?_⟩
  · rw [List.append_assoc, List.append_assoc, ← hsk, List.drop_left, ← hpk, List.take_left]
  · rw [List.append_assoc, show 2336 = (p ++ pk).length by rw [List.length_append]; omega, List.drop_left, ← hh,
      List.take_left]
  · rw [show 2368 = (p ++ pk ++ h).length by rw [List.length_append, List.length_append]; omega, List.drop_left]

end Keypair

/-! ## A whole exchange -/

section Exchange

variable (S : Symmetric) (fuel : Nat)

theorem cryptoKemEncDerand_eq (pk : ByteArr 1184) (m : ByteArr 32) : cryptoKemEncDerand S fuel pk m =
    (indcpaEnc S fuel m.toList pk.toList (keyAndCoins S m.toList (S.hashH pk.toList).toList).2).map fun ct =>
      (ByteArr.ofBytes 1088 ct, (keyAndCoins S m.toList (S.hashH pk.toList).toList).1) := by
  have htake : (m.toList ++ (S.hashH pk.toList).toList).take 32 = m.toList := by
    exact List.take_left' m.toList_length
  rw [cryptoKemEncDerand]
  simp only [htake]
  rw [keyAndCoins]
  dsimp only
  cases indcpaEnc S fuel m.toList pk.toList ((S.hashG (m.toList ++ (S.hashH pk.toList).toList)).toList.drop 32) <;>
    rfl

/-- The encapsulation of `m` under the key of the coins. -/
def exchange (a : Polymat) (coins m : Bytes) : Transcript :=
  transcript S a coins m (keyAndCoins S m (S.hashH (keyPk S a coins)).toList).2

/-- The key of a message under the key of the coins. -/
def messageKey (a : Polymat) (coins m : Bytes) : ByteArr 32 :=
  (keyAndCoins S m (S.hashH (keyPk S a coins)).toList).1

/-- What decapsulation answers to an encapsulation: the message is decoded with the noise of the exchange, and
the key of what comes out is given if its encapsulation is the ciphertext. -/
def answer (a : Polymat) (coins m : Bytes) : ByteArr 32 :=
  let t := exchange S a coins m
  let m' := ofBits t.decodedBit
  if (exchange S a coins m').ct = t.ct then messageKey S a coins m' else S.rkprf (coins.drop 32) t.ct

/-- The message of an encapsulation, as it is decrypted under the secret key of the coins. -/
theorem indcpaDec_exchange {seed : Bytes} {a : Polymat} (ha : genMatrix S fuel seed false = some a) (coins m : Bytes) :
    indcpaDec (exchange S a coins m).ct (keySk S a coins) = ofBits (exchange S a coins m).decodedBit := by
  rw [keySk, List.append_assoc, List.append_assoc]
  exact indcpaDec_ct (small_transcript S ha coins m _) _

/-- Key generation, encapsulation and decapsulation, for all coins. -/
theorem cryptoKem_roundTrip (coins : ByteArr 64) (m : ByteArr 32) :
    ((cryptoKemKeypairDerand S fuel coins).bind fun key =>
      (cryptoKemEncDerand S fuel key.1 m).bind fun enc =>
        (cryptoKemDec S fuel enc.1 key.2).map fun ss => (enc.2, ss)) =
    (genMatrix S fuel (publicSeed S coins.toList) false).map fun a =>
      (messageKey S a coins.toList m.toList, answer S a coins.toList m.toList) := by
  rw [cryptoKemKeypairDerand_eq]
  cases ha : genMatrix S fuel (publicSeed S coins.toList) false with
  | none => rfl
  | some a =>
    have henc := fun m c => indcpaEnc_keyPk S fuel ha m c
    have hpk : (ByteArr.ofBytes 1184 (keyPk S a coins.toList)).toList = keyPk S a coins.toList :=
      ByteArr.toList_ofBytes (keyPk_length S a coins.toList)
    have hsk : (ByteArr.ofBytes 2400 (keySk S a coins.toList)).toList = keySk S a coins.toList :=
      ByteArr.toList_ofBytes (keySk_length S a coins)
    rcases parts_keySk S a coins with ⟨hpkPart, hhashPart, hzPart⟩
    set sent := keyAndCoins S m.toList (S.hashH (keyPk S a coins.toList)).toList with hsent
    set t := transcript S a coins.toList m.toList sent.2 with ht
    have hct : (ByteArr.ofBytes 1088 t.ct).toList = t.ct := ByteArr.toList_ofBytes t.ct_length
    have hdec : indcpaDec t.ct (keySk S a coins.toList) = ofBits t.decodedBit :=
      indcpaDec_exchange S fuel ha coins.toList m.toList
    rw [Option.map_some, Option.bind_some, cryptoKemEncDerand_eq, hpk, ← hsent, henc, ← ht, Option.map_some,
      Option.bind_some, cryptoKemDec_eq, hct, hsk, hdec, hpkPart, hhashPart, hzPart, henc]
    rfl

/-- Small noise gives the message back. -/
theorem ofBits_decodedBit {t : Transcript} (hm : t.m.length = 32) (hnoise : t.SmallNoise) :
    ofBits t.decodedBit = t.m := by
  refine eq_of_bitAt (n := 32) (ofBits_length _) hm fun i hi => ?_
  rw [bitAt_ofBits (Transcript.decodedBit_lt _) (by omega), Transcript.decodedBit]
  exact if_pos (hnoise i (by omega))

theorem answer_eq {a : Polymat} {coins m : Bytes} (hm : m.length = 32)
    (hnoise : (exchange S a coins m).SmallNoise) : answer S a coins m = messageKey S a coins m := by
  have hdecoded : ofBits (exchange S a coins m).decodedBit = m := ofBits_decodedBit hm hnoise
  rw [answer]
  simp only [hdecoded, if_true]

/-- As long as no coefficient of the noise leaves the middle half of the residues, decapsulation gives the key of the
encapsulation. -/
theorem cryptoKem_agreement {coins : ByteArr 64} {m : ByteArr 32} {pk : ByteArr 1184} {sk : ByteArr 2400}
    {ct : ByteArr 1088} {ss : ByteArr 32} (hkey : cryptoKemKeypairDerand S fuel coins = some (pk, sk))
    (henc : cryptoKemEncDerand S fuel pk m = some (ct, ss))
    (hnoise : ∀ a, genMatrix S fuel (publicSeed S coins.toList) false = some a →
      (exchange S a coins.toList m.toList).SmallNoise) :
    cryptoKemDec S fuel ct sk = some ss := by
  have hrun := cryptoKem_roundTrip S fuel coins m
  rw [hkey, Option.bind_some, henc, Option.bind_some] at hrun
  cases ha : genMatrix S fuel (publicSeed S coins.toList) false with
  | none =>
    rw [cryptoKemKeypairDerand_eq, ha] at hkey
    cases hkey
  | some a =>
    rw [ha, Option.map_some] at hrun
    rcases Option.map_eq_some_iff.mp hrun with ⟨ss', hdec, hpair⟩
    rcases Prod.mk.inj hpair with ⟨hsent, hanswer⟩
    rw [hdec, hanswer, answer_eq S m.toList_length (hnoise a ha), ← hsent]

/-! ## The silent layer -/

theorem cryptoKemKeypairDerand_silent (coins : ByteArr 64) : cryptoKemKeypairDerand silent 1 coins =
    some (ByteArr.ofBytes 1184 (keyPk silent zeroMatrix coins.toList),
      ByteArr.ofBytes 2400 (keySk silent zeroMatrix coins.toList)) := by
  rw [cryptoKemKeypairDerand_eq, genMatrix_silent, Option.map_some]

/-- The key of a message is the message. -/
theorem keyAndCoins_silent (m : ByteArr 32) (h : Bytes) : (keyAndCoins silent m.toList h).1 = m := by
  have hhash : (silent.hashG (m.toList ++ h)).toList = m.toList ++ List.replicate 32 0 := by
    show (ByteArr.ofBytes 64 ((m.toList ++ h).takeD 32 0 ++ List.replicate 32 0)).toList = _
    rw [List.takeD_left' m.toList_length, ByteArr.toList_ofBytes]
    rw [List.length_append, m.toList_length, List.length_replicate]
  rw [keyAndCoins, hhash, List.take_left' m.toList_length, ByteArr.ofBytes_toList]

theorem cryptoKemEncDerand_silent (coins : ByteArr 64) (m : ByteArr 32) :
    cryptoKemEncDerand silent 1 (ByteArr.ofBytes 1184 (keyPk silent zeroMatrix coins.toList)) m =
      some (ByteArr.ofBytes 1088 (exchange silent zeroMatrix coins.toList m.toList).ct, m) := by
  have hpk := ByteArr.toList_ofBytes (keyPk_length silent zeroMatrix coins.toList)
  have hmatrix := genMatrix_silent (publicSeed silent coins.toList) false
  rw [cryptoKemEncDerand_eq, hpk, indcpaEnc_keyPk silent 1 hmatrix, Option.map_some, keyAndCoins_silent]
  rfl

/-- A message of which every other bit is set. -/
def silentMessage : ByteArr 32 := ByteArr.ofBytes 32 (List.replicate 32 0x55)

theorem cryptoKem_agreement_silent : ∃ pk sk ct, cryptoKemKeypairDerand silent 1 (ByteArr.zero 64) = some (pk, sk) ∧
    cryptoKemEncDerand silent 1 pk silentMessage = some (ct, silentMessage) ∧
    cryptoKemDec silent 1 ct sk = some silentMessage ∧ ∀ z, silent.rkprf z ct.toList ≠ silentMessage := by
  have hkey := cryptoKemKeypairDerand_silent (ByteArr.zero 64)
  have henc := cryptoKemEncDerand_silent (ByteArr.zero 64) silentMessage
  refine ⟨_, _, _, hkey, henc, cryptoKem_agreement silent 1 hkey henc fun a ha => ?_, fun z => ?_⟩
  · exact smallNoise_silent a (canonical_genMatrix ha) _ _ _
  · show ByteArr.ofBytes 32 (List.replicate 32 255) ≠ silentMessage
    decide

end Exchange

end HybridPqc.Mlkem
