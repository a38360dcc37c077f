import HybridPqc.Mlkem.Proofs.KemProofs
import HybridPqc.Mlkem.Proofs.SpongeProofs

/-!
# Rejected ciphertexts

Decapsulation never fails: it gives the key of an encapsulation, or a pseudorandom key that depends on the
ciphertext and a secret of the key pair.
-/

namespace HybridPqc.Mlkem

/-! ## A generated key and any ciphertext -/

section Generated

variable (S : Symmetric) (fuel : Nat)

/-- Under a key pair that was generated, every ciphertext has an answer: the decrypted message is encapsulated again,
and the key of this encapsulation is given if it has the same ciphertext. -/
theorem cryptoKemDec_generated {coins : ByteArr 64} {pk : ByteArr 1184} {sk : ByteArr 2400}
    (hkey : cryptoKemKeypairDerand S fuel coins = some (pk, sk)) (ct : ByteArr 1088) :
    ∃ ct' ss', cryptoKemEncDerand S fuel pk (ByteArr.ofBytes 32 (indcpaDec ct.toList sk.toList)) = some (ct', ss') ∧
      cryptoKemDec S fuel ct sk =
        some (if ct' = ct then ss' else S.rkprf (coins.toList.drop 32) ct.toList) := by
  rw [cryptoKemKeypairDerand_eq, Option.map_eq_some_iff] at hkey
  rcases hkey with ⟨a, ha, hpair⟩
  rcases Prod.mk.inj hpair with ⟨rfl, rfl⟩
  set sk := ByteArr.ofBytes 2400 (keySk S a coins.toList) with hsk
  rcases parts_keySk S a coins with ⟨hpkPart, hhashPart, hzPart⟩
  have hpk : (ByteArr.ofBytes 1184 (keyPk S a coins.toList)).toList = keyPk S a coins.toList :=
    ByteArr.toList_ofBytes (keyPk_length S a coins.toList)
  have hm : (ByteArr.ofBytes 32 (indcpaDec ct.toList sk.toList)).toList = indcpaDec ct.toList sk.toList :=
    ByteArr.toList_ofBytes (indcpaDec_length _ _)
  set kr := keyAndCoins S (indcpaDec ct.toList sk.toList) (S.hashH (keyPk S a coins.toList)).toList with hkr
  set t := transcript S a coins.toList (indcpaDec ct.toList sk.toList) kr.2 with ht
  have henc : indcpaEnc S fuel (indcpaDec ct.toList sk.toList) (keyPk S a coins.toList) kr.2 = some t.ct :=
    indcpaEnc_keyPk S fuel ha _ _
  have hct : (ByteArr.ofBytes 1088 t.ct).toList = t.ct := ByteArr.toList_ofBytes t.ct_length
  have hsame : t.ct = ct.toList ↔ ByteArr.ofBytes 1088 t.ct = ct := by
    rw [← hct, ByteArr.ofBytes_toList]
    exact ⟨fun h => List.Vector.toList_injective h, fun h => by rw [h]⟩
  refine ⟨ByteArr.ofBytes 1088 t.ct, kr.1, ?_, ?_⟩
  · rw [cryptoKemEncDerand_eq, hpk, hm, ← hkr, henc, Option.map_some]
  · rw [cryptoKemDec_eq, hpkPart, hhashPart, hzPart, ← hkr, henc, Option.map_some]
    simp only [hsame]

/-- A ciphertext with a first coefficient that no encapsulation with the silent layer has. -/
def foreignCiphertext : ByteArr 1088 := ByteArr.ofBytes 1088 (1 :: List.replicate 1087 0)

theorem exchange_ne_foreign (coins m : Bytes) :
    ByteArr.ofBytes 1088 (exchange silent zeroMatrix coins m).ct ≠ foreignCiphertext := by
  intro heq
  have hct : (exchange silent zeroMatrix coins m).ct = foreignCiphertext.toList := by
    rw [← heq, ByteArr.toList_ofBytes (Transcript.ct_length _)]
  have hzero := coeff_unpack_silent zeroMatrix (canonical_genMatrix (genMatrix_silent coins false)) coins m
    (keyAndCoins silent m (silent.hashH (keyPk silent zeroMatrix coins)).toList).2
  have hforeign : ((unpackCiphertext foreignCiphertext.toList).1.vec 0).coeff 0 ≠ 0 := by decide +kernel
  rw [← hct] at hforeign
  exact hforeign hzero

/-- The secret key decrypts the message of an encapsulation. -/
theorem indcpaDec_silent (coins : ByteArr 64) (m : ByteArr 32) :
    ByteArr.ofBytes 32 (indcpaDec (ByteArr.ofBytes 1088 (exchange silent zeroMatrix coins.toList m.toList).ct).toList
      (ByteArr.ofBytes 2400 (keySk silent zeroMatrix coins.toList)).toList) = m := by
  have hmatrix := genMatrix_silent (publicSeed silent coins.toList) false
  have hnoise := smallNoise_silent zeroMatrix (canonical_genMatrix hmatrix) coins.toList m.toList
    (keyAndCoins silent m.toList (silent.hashH (keyPk silent zeroMatrix coins.toList)).toList).2
  rw [ByteArr.toList_ofBytes (Transcript.ct_length _), ByteArr.toList_ofBytes (keySk_length silent zeroMatrix coins),
    indcpaDec_exchange silent 1 hmatrix, exchange, ofBits_decodedBit m.toList_length hnoise]
  exact ByteArr.ofBytes_toList m

/-- A ciphertext that is accepted, and one that is rejected. -/
theorem cryptoKemDec_generated_silent : ∃ pk sk ct,
    cryptoKemKeypairDerand silent 1 (ByteArr.zero 64) = some (pk, sk) ∧
    cryptoKemEncDerand silent 1 pk silentMessage = some (ct, silentMessage) ∧
    cryptoKemDec silent 1 ct sk = some silentMessage ∧
    cryptoKemDec silent 1 foreignCiphertext sk = some (ByteArr.ofBytes 32 (List.replicate 32 255)) := by
  have hkey := cryptoKemKeypairDerand_silent (ByteArr.zero 64)
  have henc := cryptoKemEncDerand_silent (ByteArr.zero 64)
  refine ⟨_, _, _, hkey, henc silentMessage, ?_, ?_⟩
  · rcases cryptoKemDec_generated silent 1 hkey
      (ByteArr.ofBytes 1088 (exchange silent zeroMatrix (ByteArr.zero 64).toList silentMessage.toList).ct) with
      ⟨ct', ss', henc', hdec⟩
    rw [indcpaDec_silent, henc silentMessage, Option.some.injEq, Prod.mk.injEq] at henc'
    rw [hdec, if_pos henc'.1.symm, henc'.2]
  · rcases cryptoKemDec_generated silent 1 hkey foreignCiphertext with ⟨ct', ss', henc', hdec⟩
    rw [henc, Option.some.injEq, Prod.mk.injEq] at henc'
    rw [hdec, if_neg (by rw [← henc'.1]; exact exchange_ne_foreign _ _)]
    rfl

end Generated

/-! ## With the functions of FIPS 202 -/

theorem kyberShake256Rkprf_eq (key inp : Bytes) : kyberShake256Rkprf key inp = shake256 32 (key ++ inp) := by
  have hcalls : (kyberShake256Rkprf key inp) ++ [] = (List.range 32).map
      ((keccak 136).hashByte zeroState 0x1F (key ++ (inp ++ []))) := squeezeCalls_foldl rfl 0x1F [key, inp] [32]
  rw [List.append_nil, List.append_nil] at hcalls
  rw [hcalls, (hashes_eq (key ++ inp)).2.1]

theorem sha3512_length (inp : Bytes) : (sha3512 inp).length = 64 := by
  rw [(hashes_eq inp).2.2.2, List.length_map, List.length_range]

/-- `mlkem768_decaps` for every ciphertext and every secret key, with the hash functions that the library uses. -/
theorem mlkem768Decaps_fips202 (fuel : Nat) (ct : ByteArr 1088) (sk : ByteArr 2400) :
    mlkem768Decaps fips202 fuel ct sk =
      let m := indcpaDec ct.toList sk.toList
      let kr := sha3512 (m ++ hashPart sk)
      (indcpaEnc fips202 fuel m (pkPart sk) (kr.drop 32)).map fun cmp =>
        ByteArr.ofBytes 32 (if cmp = ct.toList then kr.take 32 else shake256 32 (zPart sk ++ ct.toList)) := by
  have hg : ∀ m, (fips202.hashG m).toList = sha3512 m := fun m => ByteArr.toList_ofBytes (sha3512_length m)
  have hprf : fips202.rkprf (zPart sk) ct.toList = ByteArr.ofBytes 32 (shake256 32 (zPart sk ++ ct.toList)) :=
    congrArg (ByteArr.ofBytes 32) (kyberShake256Rkprf_eq _ _)
  rw [mlkem768Decaps, cryptoKemDec_eq]
  simp only [keyAndCoins, hg, hprf]
  refine congrArg (Option.map · _) (funext fun cmp => ?_)
  split_ifs <;> rfl

end HybridPqc.Mlkem
