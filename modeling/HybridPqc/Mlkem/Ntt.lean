import HybridPqc.Mlkem.Reduce

/-!
# The number-theoretic transform

`ntt_ref.c`, and the `poly` of `poly.h`. The transforms work in place: every assignment to `r[j]` is a write
to the vector of coefficients, in the order of the C code.
-/

namespace HybridPqc.Mlkem

/-- `poly`: the coefficients of a polynomial, lowest degree first. -/
structure Poly where
  coeffs : Vector Int16 256
  deriving DecidableEq

namespace Poly

/-- The read `r[i]`; zero beyond the array. -/
def coeff (r : Poly) (i : Nat) : Int16 := r.coeffs.getD i 0

/-- The write `r[i] = v`. -/
def set (r : Poly) (i : Nat) (v : Int16) : Poly := ⟨r.coeffs.setIfInBounds i v⟩

/-- A loop `for(i=0;i<256;i++) r[i] = f(i)` whose iterations are independent. -/
def ofFn (f : Nat → Int16) : Poly := ⟨Vector.ofFn fun i : Fin 256 => f i⟩

theorem coeff_ofFn (f : Nat → Int16) {i : Nat} (hi : i < 256) : (ofFn f).coeff i = f i := by
  simp [coeff, ofFn, Vector.getD, hi]

theorem coeff_eq_zero (r : Poly) {i : Nat} (hi : 256 ≤ i) : r.coeff i = 0 := by
  simp [coeff, Vector.getD, hi]

theorem coeff_set (r : Poly) {i : Nat} (v : Int16) (hi : i < 256) (j : Nat) :
    (r.set i v).coeff j = if j = i then v else r.coeff j := by
  by_cases hj : j < 256
  · by_cases heq : j = i
    · simp [coeff, set, Vector.getD, heq, hi]
    · simp [coeff, set, Vector.getD, hj, heq, Ne.symm heq]
  · rw [coeff_eq_zero _ (by omega), coeff_eq_zero _ (by omega), if_neg (by omega)]

theorem ext_coeff {r s : Poly} (h : ∀ i < 256, r.coeff i = s.coeff i) : r = s := by
  rcases r with ⟨r⟩
  rcases s with ⟨s⟩
  congr 1
  refine Vector.ext fun i hi => ?_
  have hcoeff := h i hi
  simpa [coeff, Vector.getD, hi] using hcoeff

end Poly

/-- `zetas`: the powers of 17 in bit-reversed order, in the Montgomery domain. -/
def zetas : Vector Int16 128 :=
  #v[-1044, -758, -359, -1517, 1493, 1422, 287, 202, -171, 622, 1577, 182, 962, -1202, -1474, 1468,
    573, -1325, 264, 383, -829, 1458, -1602, -130, -681, 1017, 732, 608, -1542, 411, -205, -1571,
    1223, 652, -552, 1015, -1293, 1491, -282, -1544, 516, -8, -320, -666, -1618, -1162, 126, 1469,
    -853, -90, -271, 830, 107, -1421, -247, -951, -398, 961, -1508, -725, 448, -1065, 677, -1275,
    -1103, 430, 555, 843, -1251, 871, 1550, 105, 422, 587, 177, -235, -291, -460, 1574, 1653,
    -246, 778, 1159, -147, -777, 1483, -602, 1119, -1590, 644, -872, 349, 418, 329, -156, -75,
    817, 1097, 603, 610, 1322, -1285, -1465, 384, -1215, -136, 1218, -1335, -874, 220, -1187, -1659,
    -1185, -1530, -1278, 794, -1510, -854, -870, 478, -108, -308, 996, 991, 958, -1460, 1522, 1628]

/-- The read `zetas[k]`. -/
def zetaAt (k : Nat) : Int16 := zetas.getD k 0

/-- Multiplication followed by Montgomery reduction. -/
def fqmul (a b : Int16) : Int16 := montgomeryReduce (a.toInt32 * b.toInt32)

/-- The body of the innermost loop of `ntt`. -/
def nttButterfly (len : Nat) (zeta : Int16) (r : Poly) (j : Nat) : Poly :=
  let t := fqmul zeta (r.coeff (j + len))
  let r := r.set (j + len) (r.coeff j - t)
  r.set j (r.coeff j + t)

/-- The loop of `ntt` over `start`, which is `2 * len * b` in iteration `b`; the state keeps `k` and `r`. -/
def nttLayer (s : Nat × Poly) (len : Nat) : Nat × Poly :=
  (List.range (128 / len)).foldl
    (fun p b => (p.1 + 1, (List.range' (2 * len * b) len).foldl (nttButterfly len (zetaAt p.1)) p.2)) s

/-- In-place transform, from standard order to bit-reversed order. -/
def ntt (r : Poly) : Poly := ([128, 64, 32, 16, 8, 4, 2].foldl nttLayer (1, r)).2

/-- The body of the innermost loop of `invntt`. -/
def invnttButterfly (len : Nat) (zeta : Int16) (r : Poly) (j : Nat) : Poly :=
  let t := r.coeff j
  let r := r.set j (barrettReduce (t + r.coeff (j + len)))
  let r := r.set (j + len) (r.coeff (j + len) - t)
  r.set (j + len) (fqmul zeta (r.coeff (j + len)))

/-- The loop of `invntt` over `start`. -/
def invnttLayer (s : Nat × Poly) (len : Nat) : Nat × Poly :=
  (List.range (128 / len)).foldl
    (fun p b => (p.1 - 1, (List.range' (2 * len * b) len).foldl (invnttButterfly len (zetaAt p.1)) p.2)) s

/-- In-place inverse transform, with a multiplication by the Montgomery factor. -/
def invntt (r : Poly) : Poly :=
  -- `mont^2/128`
  let f : Int16 := 1441
  let r := ([2, 4, 8, 16, 32, 64, 128].foldl invnttLayer (127, r)).2
  Poly.ofFn fun j => fqmul (r.coeff j) f

/-- Multiplication of two polynomials modulo `X^2 - zeta`. -/
def basemul (a0 a1 b0 b1 zeta : Int16) : Int16 × Int16 :=
  let r0 := fqmul a1 b1
  let r0 := fqmul r0 zeta
  let r0 := r0 + fqmul a0 b0
  let r1 := fqmul a0 b1
  let r1 := r1 + fqmul a1 b0
  (r0, r1)

end HybridPqc.Mlkem
