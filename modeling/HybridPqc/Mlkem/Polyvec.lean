import HybridPqc.Mlkem.Poly

/-!
# Vectors of polynomials

`polyvec_ref.c` for `KYBER_K == 3` and `KYBER_POLYVECCOMPRESSEDBYTES == KYBER_K * 320`.
-/

namespace HybridPqc.Mlkem

/-- `polyvec`. -/
abbrev Polyvec := Vector Poly 3

namespace Polyvec

/-- A loop over the polynomials whose iterations are independent. -/
def ofFn (f : Fin 3 → Poly) : Polyvec := Vector.ofFn f

/-- The polynomial `vec[i]`. -/
def vec (a : Polyvec) (i : Fin 3) : Poly := a.get i

@[simp] theorem vec_ofFn (f : Fin 3 → Poly) (i : Fin 3) : vec (ofFn f) i = f i := by
  exact Vector.getElem_ofFn i.isLt

theorem ext_vec {a b : Polyvec} (h : ∀ i, vec a i = vec b i) : a = b := by
  refine Vector.ext fun i hi => ?_
  exact h ⟨i, hi⟩

end Polyvec

/-- The ten bits that `polyvec_compress` keeps of a coefficient. -/
def compress10 (c : Int16) : UInt16 :=
  let t := (positive c).toUInt16
  let d0 : UInt64 := t.toUInt64
  let d0 := d0 <<< 10
  let d0 := d0 + 1665
  let d0 := d0 * 1290167
  let d0 := d0 >>> 32
  (d0 &&& 0x3ff).toUInt16

/-- One polynomial of `polyvec_compress`. -/
def compressRow (a : Poly) : Bytes :=
  (List.range 64).flatMap fun j =>
    let t := fun k => compress10 (a.coeff (4 * j + k))
    [(t 0).toUInt8, ((t 0 >>> 8) ||| (t 1 <<< 2)).toUInt8, ((t 1 >>> 6) ||| (t 2 <<< 4)).toUInt8,
      ((t 2 >>> 4) ||| (t 3 <<< 6)).toUInt8, (t 3 >>> 2).toUInt8]

def polyvecCompress (a : Polyvec) : Bytes :=
  (List.finRange 3).flatMap fun i => compressRow (a.vec i)

/-- `((uint32_t)(t & 0x3FF)*KYBER_Q + 512) >> 10`. -/
def decompress10 (t : UInt16) : Int16 :=
  (((t &&& 0x3FF).toUInt32 * 3329 + 512) >>> 10).toUInt16.toInt16

/-- One polynomial of `polyvec_decompress`, from the bytes at `off` on. -/
def decompressRow (a : Bytes) (off : Nat) : Poly :=
  Poly.ofFn fun x =>
    let b := fun i => (byteAt a (off + 5 * (x / 4) + i)).toUInt16
    let t :=
      if x % 4 = 0 then b 0 ||| (b 1 <<< 8)
      else if x % 4 = 1 then (b 1 >>> 2) ||| (b 2 <<< 6)
      else if x % 4 = 2 then (b 2 >>> 4) ||| (b 3 <<< 4)
      else (b 3 >>> 6) ||| (b 4 <<< 2)
    decompress10 t

def polyvecDecompress (a : Bytes) : Polyvec := Polyvec.ofFn fun i => decompressRow a (320 * i)

def polyvecTobytes (a : Polyvec) : Bytes := (List.finRange 3).flatMap fun i => polyTobytes (a.vec i)

def polyvecFrombytes (a : Bytes) : Polyvec := Polyvec.ofFn fun i => polyFrombytes (a.drop (384 * i))

def polyvecNtt (r : Polyvec) : Polyvec := Polyvec.ofFn fun i => polyNtt (r.vec i)

def polyvecInvnttTomont (r : Polyvec) : Polyvec := Polyvec.ofFn fun i => polyInvnttTomont (r.vec i)

def polyvecBasemulAccMontgomery (a b : Polyvec) : Poly :=
  let r := polyBasemulMontgomery (a.vec 0) (b.vec 0)
  let r := polyAdd r (polyBasemulMontgomery (a.vec 1) (b.vec 1))
  let r := polyAdd r (polyBasemulMontgomery (a.vec 2) (b.vec 2))
  polyReduce r

def polyvecReduce (r : Polyvec) : Polyvec := Polyvec.ofFn fun i => polyReduce (r.vec i)

def polyvecAdd (a b : Polyvec) : Polyvec := Polyvec.ofFn fun i => polyAdd (a.vec i) (b.vec i)

end HybridPqc.Mlkem
