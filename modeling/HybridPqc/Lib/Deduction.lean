import HybridPqc.Lib.GuardedRuns
import Mathlib.Data.List.Induction
import Mathlib.Data.Set.Basic

/-!
# Deduction over a network

An attacker who sees every message and derives new ones by inference rules. What it can derive is bounded by
a set that the rules do not leave; in a system whose parties only receive derivable messages, such a set
bounds every message of every run.
-/

namespace Deduction

variable {M : Type*}

/-- What the rules `R`, given by their premises and conclusion, derive from the messages of `K`. -/
inductive Derives (R : List M → M → Prop) (K : Set M) : M → Prop where
  | known {m : M} (h : m ∈ K) : Derives R K m
  | infer {ps : List M} {m : M} (hr : R ps m) (h : ∀ p ∈ ps, Derives R K p) : Derives R K m

/-- The rules do not lead out of the set. -/
def Closed (R : List M → M → Prop) (S : Set M) : Prop := ∀ ps m, R ps m → (∀ p ∈ ps, p ∈ S) → m ∈ S

variable {R : List M → M → Prop} {K K' S : Set M} {m : M}

theorem Derives.cut (h : Derives R K' m) (hK : ∀ k ∈ K', Derives R K k) : Derives R K m := by
  induction h with
  | known h => exact hK _ h
  | infer hr _ ih => exact .infer hr ih

theorem Derives.mono (hK : K ⊆ K') (h : Derives R K m) : Derives R K' m :=
  h.cut fun _ hk => .known (hK hk)

/-- The closed-set rule: what is derived lies in every closed set that holds what is known. -/
theorem Derives.mem (hS : Closed R S) (hK : K ⊆ S) (h : Derives R K m) : m ∈ S := by
  induction h with
  | known h => exact hK h
  | infer hr _ ih => exact hS _ _ hr ih

/-! ## Runs -/

open GuardedRuns

variable {σ ε : Type} {step : σ → ε → σ}

/-- The messages that an event hands to a party are derivable from those on the network. -/
def Delivers (R : List M → M → Prop) (network : σ → List M) (received : ε → Option M) (s : σ) (e : ε) : Prop :=
  ∀ m, received e = some m → Derives R {t | t ∈ network s} m

/-- The run rule: `J` keeps the network within a closed set, so every message that is received lies in it, and
each step of the run has to keep `J` for such messages only. -/
theorem run_closed {network : σ → List M} {received : ε → Option M} {J : σ → Prop} (hS : Closed R S)
    (hJ : ∀ s, J s → ∀ m ∈ network s, m ∈ S) {s : σ} {es : List ε} (hs : J s)
    (hg : Guarded step (Delivers R network received) s es)
    (hstep : ∀ p e q, es = p ++ e :: q → J (run step s p) → (∀ m, received e = some m → m ∈ S) →
      J (step (run step s p) e)) :
    J (run step s es) := by
  induction es using List.reverseRecOn with
  | nil => exact hs
  | append_singleton es e ih =>
    obtain ⟨hes, hlast⟩ := guarded_append.mp hg
    have hrun : J (run step s es) := by
      refine ih hes fun p e' q heq => hstep p e' (q ++ [e]) ?_
      rw [heq, List.append_assoc, List.cons_append]
    rw [run_append]
    exact hstep es e [] rfl hrun fun m hm => (hlast.1 m hm).mem hS (hJ _ hrun)

end Deduction
