import Mathlib.Data.List.GetD
import Mathlib.Logic.Function.Iterate
import Mathlib.Tactic.Ring

/-!
# Sponges

The sponge construction over any state type, byte by byte. A state goes with the number of bytes of its block that
have been absorbed or squeezed; however the input and the output are cut into calls, the bytes are the same.
-/

/-- A permutation with the access to the first `rate` bytes of its state. -/
structure Sponge (σ : Type) where
  rate : Nat
  permute : σ → σ
  /-- The state with a byte xored in at a position. -/
  absorbAt : σ → Nat → UInt8 → σ
  readAt : σ → Nat → UInt8

namespace Sponge

variable {σ : Type} (K : Sponge σ)

/-- A full block is permuted. -/
def settle (st : σ × Nat) : σ × Nat := if st.2 = K.rate then (K.permute st.1, 0) else st

def absorbByte (st : σ × Nat) (b : UInt8) : σ × Nat := K.settle (K.absorbAt st.1 st.2 b, st.2 + 1)

def absorb (st : σ × Nat) (l : List UInt8) : σ × Nat := l.foldl K.absorbByte st

/-- The bytes of `l` at the positions from `pos` on, without a permutation. -/
def absorbRange (s : σ) (pos : Nat) : List UInt8 → σ
  | [] => s
  | b :: l => absorbRange (K.absorbAt s pos b) (pos + 1) l

/-- `n` bytes of output; a block is permuted before the next one is read. -/
def squeeze : Nat → σ × Nat → List UInt8 × (σ × Nat)
  | 0, st => ([], st)
  | n + 1, st =>
    let st := K.settle st
    let rest := squeeze n (st.1, st.2 + 1)
    (K.readAt st.1 st.2 :: rest.1, rest.2)

/-- Byte `n` of the output of a state that is read from the position `pos` on. -/
def outputByte (st : σ × Nat) (n : Nat) : UInt8 :=
  K.readAt (K.permute^[(st.2 + n) / K.rate] st.1) ((st.2 + n) % K.rate)

variable {K}

/-! ## Absorbing -/

theorem absorb_append (st : σ × Nat) (l l' : List UInt8) : K.absorb st (l ++ l') = K.absorb (K.absorb st l) l' :=
  List.foldl_append

theorem absorbRange_append (s : σ) (pos : Nat) (l l' : List UInt8) :
    K.absorbRange s pos (l ++ l') = K.absorbRange (K.absorbRange s pos l) (pos + l.length) l' := by
  induction l generalizing s pos with
  | nil => rfl
  | cons b l ih =>
    rw [List.cons_append, absorbRange, ih, absorbRange, List.length_cons, Nat.add_assoc, Nat.add_comm 1]

theorem settle_of_lt {st : σ × Nat} (h : st.2 < K.rate) : K.settle st = st := if_neg (by omega)

theorem settle_lt (hr : 0 < K.rate) {st : σ × Nat} (h : st.2 ≤ K.rate) : (K.settle st).2 < K.rate := by
  rw [settle]
  split_ifs with heq
  · exact hr
  · omega

theorem absorbByte_lt (hr : 0 < K.rate) {st : σ × Nat} (h : st.2 < K.rate) (b : UInt8) :
    (K.absorbByte st b).2 < K.rate := settle_lt hr h

theorem absorb_lt (hr : 0 < K.rate) {st : σ × Nat} (h : st.2 < K.rate) (l : List UInt8) :
    (K.absorb st l).2 < K.rate := by
  induction l generalizing st with
  | nil => exact h
  | cons b l ih => exact ih (absorbByte_lt hr h b)

/-- Bytes that stay within the block. -/
theorem absorb_of_lt {st : σ × Nat} {l : List UInt8} (h : st.2 + l.length < K.rate) :
    K.absorb st l = (K.absorbRange st.1 st.2 l, st.2 + l.length) := by
  induction l generalizing st with
  | nil => rfl
  | cons b l ih =>
    rw [List.length_cons] at h
    have hnext : K.absorbByte st b = (K.absorbAt st.1 st.2 b, st.2 + 1) :=
      settle_of_lt (by show st.2 + 1 < K.rate; omega)
    rw [absorb, List.foldl_cons, hnext]
    show K.absorb _ l = _
    rw [ih (by show st.2 + 1 + l.length < K.rate; omega), absorbRange, List.length_cons]
    simp only [Prod.mk.injEq, true_and]
    omega

/-- Bytes that fill the block. -/
theorem absorb_of_eq {st : σ × Nat} {l : List UInt8} (hlt : st.2 < K.rate) (h : st.2 + l.length = K.rate) :
    K.absorb st l = (K.permute (K.absorbRange st.1 st.2 l), 0) := by
  have hne : l ≠ [] := by
    rintro rfl
    rw [List.length_nil] at h
    omega
  have hlen : l.dropLast.length + 1 = l.length := by
    rw [List.length_dropLast]
    have := List.length_pos_iff.mpr hne
    omega
  have hinit : K.absorb st l.dropLast = (K.absorbRange st.1 st.2 l.dropLast, st.2 + l.dropLast.length) :=
    absorb_of_lt (by omega)
  rw [← List.dropLast_concat_getLast hne, absorb_append, hinit, absorbRange_append]
  show K.settle (_, st.2 + l.dropLast.length + 1) = _
  rw [settle, if_pos (by show st.2 + l.dropLast.length + 1 = K.rate; omega)]
  rfl

/-! ## Squeezing -/

theorem squeeze_length (n : Nat) (st : σ × Nat) : (K.squeeze n st).1.length = n := by
  induction n generalizing st with
  | zero => rfl
  | succ n ih => rw [squeeze, List.length_cons, ih]

/-- Two calls give the bytes of one. -/
theorem squeeze_add (m n : Nat) (st : σ × Nat) : K.squeeze (m + n) st =
    ((K.squeeze m st).1 ++ (K.squeeze n (K.squeeze m st).2).1, (K.squeeze n (K.squeeze m st).2).2) := by
  induction m generalizing st with
  | zero => rw [Nat.zero_add, squeeze, List.nil_append]
  | succ m ih =>
    rw [Nat.succ_add, squeeze, squeeze]
    simp only [ih, List.cons_append]

theorem settle_settle (hr : 0 < K.rate) {st : σ × Nat} (h : st.2 ≤ K.rate) : K.settle (K.settle st) = K.settle st :=
  settle_of_lt (settle_lt hr h)

theorem squeeze_settle (hr : 0 < K.rate) {st : σ × Nat} (h : st.2 ≤ K.rate) {n : Nat} (hn : 0 < n) :
    K.squeeze n (K.settle st) = K.squeeze n st := by
  cases n with
  | zero => omega
  | succ n => rw [squeeze, squeeze, settle_settle hr h]

/-- Bytes of one block. -/
theorem squeeze_of_le {st : σ × Nat} {n : Nat} (h : st.2 + n ≤ K.rate) (hpos : 0 < n → st.2 < K.rate) :
    K.squeeze n st = ((List.range n).map fun i => K.readAt st.1 (st.2 + i), (st.1, st.2 + n)) := by
  induction n generalizing st with
  | zero => rfl
  | succ n ih =>
    rw [squeeze, settle_of_lt (hpos (Nat.succ_pos n))]
    rw [ih (by show st.2 + 1 + n ≤ K.rate; omega) (fun hn => by show st.2 + 1 < K.rate; omega),
      List.range_succ_eq_map, List.map_cons, List.map_map]
    simp only [Function.comp_def, Nat.add_zero, Nat.succ_eq_add_one, Nat.add_assoc, Nat.add_comm 1]

theorem outputByte_settle (hr : 0 < K.rate) (st : σ × Nat) (n : Nat) :
    K.outputByte ((K.settle st).1, (K.settle st).2 + 1) n = K.outputByte st (n + 1) := by
  rw [settle, outputByte, outputByte]
  split_ifs with heq
  · have hsum : st.2 + (n + 1) = 0 + 1 + n + K.rate := by omega
    simp only
    rw [hsum, Nat.add_div_right _ hr, Nat.add_mod_right, Function.iterate_succ_apply]
  · simp only
    rw [show st.2 + 1 + n = st.2 + (n + 1) by omega]

/-- What is squeezed, byte by byte. -/
theorem squeeze_eq (hr : 0 < K.rate) (n : Nat) {st : σ × Nat} (h : st.2 ≤ K.rate) :
    (K.squeeze n st).1 = (List.range n).map (K.outputByte st) := by
  induction n generalizing st with
  | zero => rfl
  | succ n ih =>
    have hlt := settle_lt hr h
    have hfirst : K.readAt (K.settle st).1 (K.settle st).2 = K.outputByte st 0 := by
      rw [settle, outputByte, Nat.add_zero]
      split_ifs with heq
      · rw [heq, Nat.div_self hr, Nat.mod_self]
        rfl
      · rw [Nat.div_eq_of_lt (by omega), Nat.mod_eq_of_lt (by omega)]
        rfl
    rw [squeeze, List.range_succ_eq_map, List.map_cons, List.map_map, hfirst]
    simp only
    rw [ih (by show (K.settle st).2 + 1 ≤ K.rate; omega)]
    congr 1
    exact List.map_congr_left fun i _ => outputByte_settle hr st i

/-! ## Padding -/

/-- The padding of a message of `len` bytes: the byte `p`, zeros, and the top bit of the last byte of the block. -/
def padding (rate : Nat) (p : UInt8) (len : Nat) : List UInt8 :=
  let n := rate - len % rate
  if n = 1 then [p ^^^ 0x80] else p :: List.replicate (n - 2) 0 ++ [0x80]

variable (K) in
/-- The output of the sponge for the padded message, byte `n`. -/
def hashByte (s0 : σ) (p : UInt8) (inp : List UInt8) (n : Nat) : UInt8 :=
  K.outputByte (K.absorb (s0, 0) (inp ++ padding K.rate p inp.length)) n

theorem padding_length {rate : Nat} (hr : 0 < rate) (p : UInt8) (len : Nat) :
    (padding rate p len).length = rate - len % rate := by
  have hlt : len % rate < rate := Nat.mod_lt _ hr
  rw [padding]
  split_ifs with h
  · rw [h]
    rfl
  · rw [List.length_append, List.length_cons, List.length_replicate, List.length_singleton]
    omega

theorem absorb_pos (hr : 0 < K.rate) {st : σ × Nat} (h : st.2 < K.rate) (l : List UInt8) :
    (K.absorb st l).2 = (st.2 + l.length) % K.rate := by
  induction l generalizing st with
  | nil => exact (Nat.mod_eq_of_lt h).symm
  | cons b l ih =>
    have hnext : (K.absorbByte st b).2 = if st.2 + 1 = K.rate then 0 else st.2 + 1 := by
      rw [absorbByte, settle]
      split_ifs <;> rfl
    show (K.absorb (K.absorbByte st b) l).2 = _
    rw [ih (absorbByte_lt hr h b), hnext, List.length_cons]
    split_ifs with heq
    · rw [show st.2 + (l.length + 1) = 0 + l.length + K.rate by omega, Nat.add_mod_right]
    · rw [show st.2 + 1 + l.length = st.2 + (l.length + 1) by omega]

variable (K) in
/-- Absorbing at one position is the xor of the bytes. -/
structure Lawful : Prop where
  absorbAt_zero : ∀ s i, K.absorbAt s i 0 = s
  absorbAt_absorbAt : ∀ s i a b, K.absorbAt (K.absorbAt s i a) i b = K.absorbAt s i (a ^^^ b)

variable (K) in
/-- The state after the last bits of the padding are put in, before it is permuted. -/
def finish (st : σ × Nat) (p : UInt8) : σ := K.absorbAt (K.absorbAt st.1 st.2 p) (K.rate - 1) 0x80

theorem absorbRange_zeros (hK : K.Lawful) (s : σ) (pos n : Nat) :
    K.absorbRange s pos (List.replicate n 0) = s := by
  induction n generalizing pos with
  | zero => rfl
  | succ n ih => rw [List.replicate_succ, absorbRange, hK.absorbAt_zero, ih]

/-- The padding fills the block. -/
theorem absorb_padding (hK : K.Lawful) {st : σ × Nat} (h : st.2 < K.rate) (p : UInt8) {len : Nat}
    (hlen : len % K.rate = st.2) : K.absorb st (padding K.rate p len) = (K.permute (K.finish st p), 0) := by
  have hfill : st.2 + (padding K.rate p len).length = K.rate := by
    rw [padding_length (by omega), hlen]
    omega
  rw [absorb_of_eq h hfill, padding, hlen, finish]
  split_ifs with hone
  · rw [absorbRange, absorbRange, show K.rate - 1 = st.2 by omega, hK.absorbAt_absorbAt]
  · have hzeros : K.absorbRange st.1 st.2 (p :: List.replicate (K.rate - st.2 - 2) 0) = K.absorbAt st.1 st.2 p :=
      absorbRange_zeros hK _ _ _
    rw [absorbRange_append, hzeros, absorbRange, absorbRange, List.length_cons, List.length_replicate,
      show st.2 + (K.rate - st.2 - 2 + 1) = K.rate - 1 by omega]

/-- Hashing is absorbing, finishing, and reading. -/
theorem hashByte_eq (hK : K.Lawful) (hr : 0 < K.rate) (s0 : σ) (p : UInt8) (inp : List UInt8) (n : Nat) :
    K.hashByte s0 p inp n = K.outputByte (K.finish (K.absorb (s0, 0) inp) p, K.rate) n := by
  have hpos : (K.absorb (s0, 0) inp).2 = (0 + inp.length) % K.rate := absorb_pos hr hr inp
  have hlt : (K.absorb (s0, 0) inp).2 < K.rate := absorb_lt hr hr inp
  rw [Nat.zero_add] at hpos
  rw [hashByte, absorb_append, absorb_padding hK hlt p hpos.symm, outputByte, outputByte]
  simp only
  rw [Nat.add_comm K.rate n, Nat.add_div_right _ hr, Nat.add_mod_right, Function.iterate_succ_apply,
    Nat.zero_add]

/-! ## Sponges on other states -/

/-- Two sponges whose states correspond. -/
structure Hom {τ : Type} (K : Sponge σ) (L : Sponge τ) (φ : σ → τ) : Prop where
  rate : L.rate = K.rate
  permute : ∀ s, φ (K.permute s) = L.permute (φ s)
  absorbAt : ∀ s i b, i < K.rate → φ (K.absorbAt s i b) = L.absorbAt (φ s) i b
  readAt : ∀ s i, i < K.rate → K.readAt s i = L.readAt (φ s) i

namespace Hom

variable {τ : Type} {L : Sponge τ} {φ : σ → τ} (h : Hom K L φ)
include h

theorem settle (st : σ × Nat) : Prod.map φ id (K.settle st) = L.settle (Prod.map φ id st) := by
  rw [Sponge.settle, Sponge.settle, h.rate]
  show _ = if st.2 = K.rate then _ else _
  split_ifs
  · rw [Prod.map_apply, h.permute]
    rfl
  · rfl

theorem absorb (hr : 0 < K.rate) {st : σ × Nat} (hpos : st.2 < K.rate) (l : List UInt8) :
    Prod.map φ id (K.absorb st l) = L.absorb (Prod.map φ id st) l := by
  induction l generalizing st with
  | nil => rfl
  | cons b l ih =>
    have hbyte : Prod.map φ id (K.absorbByte st b) = L.absorbByte (Prod.map φ id st) b := by
      rw [absorbByte, absorbByte, h.settle, Prod.map_apply, h.absorbAt _ _ _ hpos]
      rfl
    show Prod.map φ id (K.absorb (K.absorbByte st b) l) = L.absorb (L.absorbByte _ b) l
    rw [ih (absorbByte_lt hr hpos b), hbyte]

theorem permute_iterate (n : Nat) (s : σ) : φ (K.permute^[n] s) = L.permute^[n] (φ s) := by
  induction n generalizing s with
  | zero => rfl
  | succ n ih => rw [Function.iterate_succ_apply, ih, h.permute, Function.iterate_succ_apply]

/-- Corresponding sponges give the same output. -/
theorem hashByte (hr : 0 < K.rate) (s0 : σ) (p : UInt8) (inp : List UInt8) (n : Nat) :
    K.hashByte s0 p inp n = L.hashByte (φ s0) p inp n := by
  have habsorb : (φ (K.absorb (s0, 0) (inp ++ padding K.rate p inp.length)).1,
      (K.absorb (s0, 0) (inp ++ padding K.rate p inp.length)).2) =
        L.absorb (φ s0, 0) (inp ++ padding K.rate p inp.length) := h.absorb hr hr _
  rw [Sponge.hashByte, Sponge.hashByte, outputByte, outputByte, h.rate, ← habsorb, h.readAt _ _ (Nat.mod_lt _ hr),
    h.permute_iterate]

end Hom

end Sponge
