import Mathlib.Algebra.Order.Archimedean.Basic
import Mathlib.Logic.Function.Iterate
import Mathlib.Tactic.FieldSimp
import Mathlib.Tactic.Linarith
import Mathlib.Tactic.Positivity
import Mathlib.Topology.MetricSpace.Contracting

/-!
# Iteration Until Two Values Are Close

The loop that applies a function until it stops moving.

Numerical code solves an equation `x = f(x)` by applying `f` over and over and
leaving when two successive values differ by less than a tolerance. Such a loop
has no counter and no bound, so nothing in its text says that it ends, and the
test it leaves by says nothing about the distance to a solution. Both come from
`f` being a contraction. The successive differences then shrink like a geometric
sequence, which ends the loop, and a small difference bounds the distance to any
fixed point, because applying `f` brings two points closer by the same factor.

`settle` is the loop with a bound on the number of rounds. A run that leaves the
loop does so with every larger bound as well (`settle_mono`), so the unbounded
loop ends exactly if `settle` returns for some bound.

Everything but the existence of a fixed point holds over an ordered field; the
fixed point itself needs the completeness of the reals.

## Main definitions

* `settle`: Applying a function until two successive values are close.
* `Contracts`: A function that shrinks distances by a factor.

## Theorems

* `settle_mono`: A result does not depend on the bound.
* `settle_spec`: What a result is.
* `settle_semiconj`: Two loops in step.
* `iterate_step_le`: Successive differences shrink geometrically.
* `settle_rounds`: How many rounds the loop takes at most.
* `settle_terminates`: On a contraction the loop ends.
* `settle_residual`: A result nearly solves the equation.
* `settle_near`: A result is near every solution.
* `existsUnique_fixed`: A contraction of the reals has one fixed point.
-/

namespace Toolkit

namespace FixedPoint

variable {K : Type} [Field K] [LinearOrder K]

/-- The loop `for (;;) { y = x; x = f(x); if (|x - y| < tol) break; }`, given up
    after a number of rounds. -/
def settle (f : K → K) (tol : K) : Nat → K → Option K
  | 0, _ => none
  | n + 1, x => if |f x - x| < tol then some (f x) else settle f tol n (f x)

/-- The function brings two points closer by the factor. -/
def Contracts (f : K → K) (q : K) : Prop := ∀ a b, |f a - f b| ≤ q * |a - b|

/-- A result does not depend on the bound. -/
theorem settle_mono (f : K → K) (tol : K) (n m : Nat) (x y : K) (h : settle f tol n x = some y)
    (hnm : n ≤ m) : settle f tol m x = some y := by
  induction n generalizing m x with
  | zero => exact absurd h (by simp only [settle, reduceCtorEq, not_false_eq_true])
  | succ n ih =>
      cases m with
      | zero => omega
      | succ m =>
          rw [settle] at h ⊢
          by_cases hclose : |f x - x| < tol
          · rw [if_pos hclose] at h ⊢
            exact h
          · -- Both loops go on from the same value.
            rw [if_neg hclose] at h ⊢
            exact ih m (f x) h (by omega)

/-- A result is the image of a value it is close to. -/
theorem settle_spec (f : K → K) (tol : K) (n : Nat) (x y : K) (h : settle f tol n x = some y) :
    ∃ x', y = f x' ∧ |y - x'| < tol := by
  induction n generalizing x with
  | zero => exact absurd h (by simp only [settle, reduceCtorEq, not_false_eq_true])
  | succ n ih =>
      rw [settle] at h
      by_cases hclose : |f x - x| < tol
      · rw [if_pos hclose, Option.some.injEq] at h
        exact ⟨x, h.symm, by rwa [← h]⟩
      · rw [if_neg hclose] at h
        exact ih (f x) h

/-- The loop ends at the latest where two successive iterates are close. -/
theorem settle_of_close (f : K → K) (tol : K) (n : Nat) (x : K)
    (h : |f^[n + 1] x - f^[n] x| < tol) : ∃ y, settle f tol (n + 1) x = some y := by
  induction n generalizing x with
  | zero => exact ⟨f x, if_pos h⟩
  | succ n ih =>
      rw [settle]
      by_cases hclose : |f x - x| < tol
      · exact ⟨f x, if_pos hclose⟩
      · rw [if_neg hclose]
        exact ih (f x) h

/-- Two loops that a map keeping differences carries into each other go in step. -/
theorem settle_semiconj (f f' g : K → K) (tol : K) (hfg : Function.Semiconj g f f')
    (hg : ∀ a b, g a - g b = a - b) (n : Nat) (x : K) :
    settle f' tol n (g x) = (settle f tol n x).map g := by
  induction n generalizing x with
  | zero => rfl
  | succ n ih =>
      rw [settle, settle, ← hfg x, hg]
      by_cases hclose : |f x - x| < tol
      · rw [if_pos hclose, if_pos hclose, Option.map_some]
      · rw [if_neg hclose, if_neg hclose]
        exact ih (f x)

variable [IsStrictOrderedRing K]

/-- Successive differences shrink geometrically. -/
theorem iterate_step_le (f : K → K) (q : K) (hq : 0 ≤ q) (hf : Contracts f q) (n : Nat) (x : K) :
    |f^[n + 1] x - f^[n] x| ≤ q ^ n * |f x - x| := by
  induction n with
  | zero => rw [pow_zero, one_mul, Function.iterate_one, Function.iterate_zero_apply]
  | succ n ih =>
      calc |f^[n + 1 + 1] x - f^[n + 1] x| = |f (f^[n + 1] x) - f (f^[n] x)| := by
            rw [Function.iterate_succ_apply' f (n + 1), ← Function.iterate_succ_apply' f n]
        _ ≤ q * |f^[n + 1] x - f^[n] x| := hf _ _
        _ ≤ q * (q ^ n * |f x - x|) := mul_le_mul_of_nonneg_left ih hq
        _ = q ^ (n + 1) * |f x - x| := by rw [pow_succ']; ring

/-- The loop takes no more rounds than the first difference needs to shrink. -/
theorem settle_rounds (f : K → K) (q tol : K) (hq : 0 ≤ q) (hf : Contracts f q) (n : Nat) (x : K)
    (h : q ^ n * |f x - x| < tol) : ∃ y, settle f tol (n + 1) x = some y :=
  settle_of_close f tol n x (lt_of_le_of_lt (iterate_step_le f q hq hf n x) h)

/-- On a contraction the loop ends. -/
theorem settle_terminates [Archimedean K] (f : K → K) (q tol : K) (hq : 0 ≤ q) (hq1 : q < 1)
    (htol : 0 < tol) (hf : Contracts f q) (x : K) :
    ∃ (N : Nat) (y : K), ∀ n, N ≤ n → settle f tol n x = some y := by
  -- Some power of the factor brings the first difference below the tolerance.
  have hpow : ∃ n : Nat, q ^ n * |f x - x| < tol := by
    by_cases hzero : |f x - x| = 0
    · exact ⟨0, by rwa [hzero, mul_zero]⟩
    · have hpos : 0 < |f x - x| := lt_of_le_of_ne (abs_nonneg _) (Ne.symm hzero)
      rcases exists_pow_lt_of_lt_one (div_pos htol hpos) hq1 with ⟨n, hn⟩
      exact ⟨n, (lt_div_iff₀ hpos).mp hn⟩
  rcases hpow with ⟨n, hn⟩
  rcases settle_rounds f q tol hq hf n x hn with ⟨y, hy⟩
  exact ⟨n + 1, y, fun m hm => settle_mono f tol (n + 1) m x y hy hm⟩

/-- A result nearly solves the equation. -/
theorem settle_residual (f : K → K) (q tol : K) (hq : 0 ≤ q) (hf : Contracts f q) (n : Nat)
    (x y : K) (h : settle f tol n x = some y) : |y - f y| ≤ q * tol := by
  rcases settle_spec f tol n x y h with ⟨x', hy, hclose⟩
  calc |y - f y| = |f x' - f y| := by rw [← hy]
    _ ≤ q * |x' - y| := hf x' y
    _ ≤ q * tol := by
        rw [abs_sub_comm]
        exact mul_le_mul_of_nonneg_left hclose.le hq

/-- A result is near every solution. -/
theorem settle_near (f : K → K) (q tol : K) (hq : 0 ≤ q) (hq1 : q < 1) (hf : Contracts f q)
    (n : Nat) (x y z : K) (h : settle f tol n x = some y) (hz : z = f z) :
    |y - z| ≤ q / (1 - q) * tol := by
  have hgap : 0 < 1 - q := sub_pos.mpr hq1
  have hresidual := settle_residual f q tol hq hf n x y h
  -- The way to the solution is the residual and the image of that way.
  have htriangle : |y - z| ≤ |y - f y| + |f y - f z| := by
    have hsplit : y - z = (y - f y) + (f y - f z) := by
      rw [← hz]
      ring
    rw [hsplit]
    exact abs_add_le _ _
  have hcontract := hf y z
  rw [div_mul_eq_mul_div, le_div_iff₀ hgap]
  linarith

omit [Field K] [LinearOrder K] [IsStrictOrderedRing K] in
/-- A contraction of the reals has exactly one fixed point. -/
theorem existsUnique_fixed (f : ℝ → ℝ) (q : ℝ) (hq : 0 ≤ q) (hq1 : q < 1) (hf : Contracts f q) :
    ∃ z, z = f z ∧ ∀ z', z' = f z' → z' = z := by
  have hcontracting : ContractingWith ⟨q, hq⟩ f :=
    ⟨hq1, LipschitzWith.of_dist_le_mul hf⟩
  exact ⟨hcontracting.fixedPoint, hcontracting.fixedPoint_isFixedPt.symm,
    fun z' hz' => hcontracting.fixedPoint_unique hz'.symm⟩

end FixedPoint

end Toolkit
