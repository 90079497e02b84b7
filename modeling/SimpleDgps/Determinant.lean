import SimpleDgps.Inverse
import Mathlib.LinearAlgebra.Matrix.Determinant.Basic

/-!
# The Determinant Recursion and the Determinant

What `clacDeterminant` computes, set against what it is named after.

Laplace expansion along the first row weights each entry of the row with its own
minor, the determinant of the matrix without that row and column. The recursion
has the signs and the entries right, but it never removes anything: the level
below is asked about the same matrix again, so every entry is weighted with one
and the same number. Unfolded down to the single entry this number is a product
of alternating sums over longer and longer beginnings of the first row, and
`prefixProduct` is that product.

The comparison is then a comparison of weights. `clacDeterminant_det_iff` says
that the code is right exactly if replacing every minor by the common number
leaves the alternating sum alone. In dimension one there is nothing to remove,
and the condition holds by itself.

## Main definitions

* `prefixProduct`: The product of the alternating prefix sums of the first row.

## Theorems

* `detFn_prefixProduct`: The recursion computes that product.
* `clacDeterminant_prefixProduct`: The same, of the code.
* `prefixProduct_succ`: One level of it as a Laplace sum with a common weight.
* `clacDeterminant_det_iff`: When the code computes the determinant.
-/

namespace SimpleDgps

open Toolkit Loop Memory

variable {K : Type} [Field K] (chk : Check)

/-- The product of the first `k` alternating prefix sums of the first row. -/
def prefixProduct {n : Nat} (A : Matrix (Fin n) (Fin n) K) (k : Nat) : K :=
  ∏ l ∈ Finset.range k, ∑ f ∈ Finset.range (l + 1), (-1) ^ f * entry A 0 f

/-- The recursion computes the product. -/
theorem detFn_prefixProduct {n : Nat} (A : Matrix (Fin n) (Fin n) K) (k : Nat) :
    detFn (entry A) (k + 1) = prefixProduct A (k + 1) := by
  induction k with
  | zero =>
      -- A single entry is a sum of one term, in a product of one factor.
      simp only [detFn, prefixProduct, Finset.prod_range_succ, Finset.prod_range_zero,
        Finset.sum_range_succ, Finset.sum_range_zero, pow_zero, one_mul, zero_add]
  | succ k ih =>
      rw [prefixProduct, Finset.prod_range_succ, ← prefixProduct, ← ih, mul_comm]
      rfl

/-- What the code returns, for every dimension. -/
theorem clacDeterminant_prefixProduct (n : Nat) (A : Matrix (Fin (n + 1)) (Fin (n + 1)) K) :
    clacDeterminant chk (ofMatrix A) (n + 1) = .ok (prefixProduct A (n + 1)) := by
  rw [← detFn_prefixProduct]
  exact clacDeterminant_ofFn chk _ _ (entry A) (Nat.succ_pos n) (n + 1) (Nat.le_refl _)

/-- One level of the recursion is a Laplace sum in which all minors are the
    same. -/
theorem prefixProduct_succ (n : Nat) (A : Matrix (Fin (n + 1)) (Fin (n + 1)) K) :
    prefixProduct A (n + 1) = ∑ f : Fin (n + 1), (-1) ^ (f : Nat) * A 0 f * prefixProduct A n := by
  have hrow : ∑ f ∈ Finset.range (n + 1), (-1) ^ f * entry A 0 f
      = ∑ f : Fin (n + 1), (-1) ^ (f : Nat) * A 0 f := by
    rw [Finset.sum_range]
    refine Finset.sum_congr rfl (fun f _ => ?_)
    rw [← entry_eq A 0 f]
    rfl
  rw [prefixProduct, Finset.prod_range_succ, ← prefixProduct, hrow, mul_comm, Finset.sum_mul]

/-- The code computes the determinant exactly if the alternating first row
    cannot tell the minors from the product that stands in for all of them. -/
theorem clacDeterminant_det_iff (n : Nat) (A : Matrix (Fin (n + 1)) (Fin (n + 1)) K) :
    clacDeterminant chk (ofMatrix A) (n + 1) = .ok A.det ↔
      ∑ f : Fin (n + 1), (-1) ^ (f : Nat) * A 0 f *
        ((A.submatrix Fin.succ f.succAbove).det - prefixProduct A n) = 0 := by
  rw [clacDeterminant_prefixProduct, Except.ok.injEq, prefixProduct_succ,
    Matrix.det_succ_row_zero, eq_comm, ← sub_eq_zero, ← Finset.sum_sub_distrib]
  -- Term by term the two sums share the signed entry.
  simp only [mul_sub]

/-- The matrix of the repository's own test. -/
theorem clacDeterminant_misses :
    let A : Matrix (Fin 3) (Fin 3) ℚ := !![6, 1, 1; 4, -2, 5; 2, 8, 7]
    clacDeterminant .buffer (ofMatrix A) 3 = .ok 180 ∧ A.det = -306 := by
  intro A
  constructor
  · rw [clacDeterminant_prefixProduct .buffer 2 A, ← detFn_prefixProduct, detFn_three]
    change Except.ok (A 0 0 * (A 0 0 - A 0 1) * (A 0 0 - A 0 1 + A 0 2)) = _
    simp only [A, Matrix.of_apply, Matrix.cons_val]
    norm_num
  · rw [Matrix.det_fin_three]
    simp only [A, Matrix.of_apply, Matrix.cons_val]
    norm_num

end SimpleDgps
