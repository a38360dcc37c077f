import Mathlib.Data.ZMod.Defs
import HybridPqc.Lib.Sponge

/-!
# Keccak-f[1600]

The step mappings on a state of 5 by 5 lanes; the rotation offsets and the round constants come from their rules.
-/

namespace Keccak

/-- The lane in column `x` and row `y`. -/
abbrev State : Type := Fin 5 → Fin 5 → UInt64

def rotl (a : UInt64) (n : Nat) : UInt64 := ⟨a.toBitVec.rotateLeft n⟩

/-- The parity of a column. -/
def parity (A : State) (x : Fin 5) : UInt64 := A x 0 ^^^ A x 1 ^^^ A x 2 ^^^ A x 3 ^^^ A x 4

def theta (A : State) : State := fun x y => A x y ^^^ (parity A (x - 1) ^^^ rotl (parity A (x + 1)) 1)

/-- The walk through the lanes that gives the rotation offsets. -/
def walk : Nat → Fin 5 × Fin 5
  | 0 => (1, 0)
  | t + 1 => ((walk t).2, 2 * (walk t).1 + 3 * (walk t).2)

/-- The lane of step `t` is rotated by the triangular number `(t + 1) * (t + 2) / 2`. -/
def offset (x y : Fin 5) : Nat :=
  match (List.range 24).find? fun t => walk t = (x, y) with
  | some t => (t + 1) * (t + 2) / 2 % 64
  | none => 0

def rho (A : State) : State := fun x y => rotl (A x y) (offset x y)

def pi (A : State) : State := fun x y => A (x + 3 * y) x

def chi (A : State) : State := fun x y => A x y ^^^ (~~~A (x + 1) y &&& A (x + 2) y)

/-- The shift register of the round constants. -/
def lfsr (R : Nat) : Nat := if 2 * R < 256 then 2 * R else (2 * R) ^^^ 0x171

/-- The output of the register after `t` steps. -/
def rc (t : Nat) : Nat := lfsr^[t] 1 % 2

/-- The constant of round `i`: the bits `2^j - 1` are output bits of the register. -/
def roundConstant (i : Nat) : UInt64 :=
  (List.range 7).foldl (fun RC j => RC ||| (rc (j + 7 * i)).toUInt64 <<< (2 ^ j - 1).toUInt64) 0

def iota (i : Nat) (A : State) : State := fun x y => if x = 0 ∧ y = 0 then A x y ^^^ roundConstant i else A x y

def round (i : Nat) (A : State) : State := iota i (chi (pi (rho (theta A))))

/-- The permutation with `n` rounds. -/
def permute (n : Nat) (A : State) : State := (List.range n).foldl (fun A i => round i A) A

theorem permute_succ (n : Nat) (A : State) : permute (n + 1) A = round n (permute n A) := by
  rw [permute, List.range_succ, List.foldl_append]
  rfl

/-- The position of a byte in the state: its lane and its place in the lane. -/
def lane (i : Nat) : Fin 5 × Fin 5 := (Fin.ofNat 5 (i / 8), Fin.ofNat 5 (i / 8 / 5))

/-- The sponge of the functions of SHA-3 at the rate `r`. -/
def sponge (r : Nat) : Sponge State where
  rate := r
  permute := permute 24
  absorbAt A i b := fun x y => if (x, y) = lane i then A x y ^^^ b.toUInt64 <<< (8 * (i % 8)).toUInt64 else A x y
  readAt A i := (A (lane i).1 (lane i).2 >>> (8 * (i % 8)).toUInt64).toUInt8

end Keccak
