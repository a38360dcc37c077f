import Mathlib.Data.ZMod.Basic

/-!
# Reductions modulo `q`

`reduce_ref.c` and the parameters of `params.h` for `KYBER_K == 3`. An `int` intermediate of the C code is
an `Int32`, a store to an `int16_t` is a truncation.
-/

namespace HybridPqc.Mlkem

/-- `KYBER_Q` as an `int`. -/
def kyberQ : Int32 := 3329

/-- `QINV`, the inverse of `q` modulo `2^16`. -/
def qinv : Int16 := -3327

/-- Montgomery reduction: a representative of `a * 2^-16`. -/
def montgomeryReduce (a : Int32) : Int16 :=
  let t : Int16 := a.toInt16 * qinv
  ((a - t.toInt32 * kyberQ) >>> 16).toInt16

/-- Barrett reduction: the centred representative. -/
def barrettReduce (a : Int16) : Int16 :=
  -- `((1<<26) + KYBER_Q/2)/KYBER_Q`
  let v : Int32 := 20159
  let t : Int16 := ((v * a.toInt32 + 33554432) >>> 26).toInt16
  let t := t * kyberQ.toInt16
  a - t

/-! ## Residues -/

/-- The residue ring modulo `q`. -/
abbrev Zq := ZMod 3329

/-- The residue that a coefficient stands for. -/
def residue (a : Int16) : Zq := (a.toInt : Zq)

/-- The residue of `2^16`, the factor of the Montgomery domain. -/
def mont : Zq := 2285

/-- The inverse of `mont`. -/
def montInv : Zq := 169

theorem mont_mul_montInv : mont * montInv = 1 := by decide

end HybridPqc.Mlkem
