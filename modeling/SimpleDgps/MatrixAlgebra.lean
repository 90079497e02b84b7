import SimpleDgps.LeastSquares

/-!
# The Algebra of the Kernels

The matrix routines as operations on matrices.

`multiplyMatrices`, `multiplyMatrixByVector` and `transpose2DimMatrix` were
written separately, each as a nest of loops of its own. Nothing in one of them
says that it means the same by rows and columns as the others do. What they have
to agree on are the laws of matrix algebra, and each law compares two different
orders of calls.

The comparison goes through the matrices themselves. On a matrix in memory every
routine returns the matrix in memory that the operation it is named after
yields: `multiplyMatrices_ofMatrix`, `multiplyMatrixByVector_ofMatrix` and
`transpose2DimMatrix_ofMatrix`. Two orders of calls then end in the same place
because the two sides of the law are the same matrix. Two orders `Agree` only if
both of them end, so a law is never kept by a fault on both sides.

## Main definitions

* `Agree`: Two computations end with the same result.

## Theorems

* `multiplyMatrices_ofMatrix`: The product is the matrix product.
* `multiplyMatrixByVector_ofMatrix`: So is the product with a vector.
* `transpose2DimMatrix_ofMatrix`: The transposed matrix is the transpose.
* `multiplyMatrices_assoc`: Three factors can be bracketed either way.
* `multiplyMatrixByVector_mul`: A product is applied one factor at a time.
* `transpose2DimMatrix_mul`: Transposing a product exchanges the factors.
* `transpose2DimMatrix_twice`: Transposing twice gives the matrix back.
* `kernels_consistent`: All four.
-/

namespace SimpleDgps

open Toolkit Loop Memory
open scoped Matrix

variable {K : Type} [Field K] (chk : Check)

/-- Two computations that both end, with the same result. -/
def Agree {α : Type} (x y : Except Fault α) : Prop := ∃ a, x = .ok a ∧ y = .ok a

/-! ### The routines on matrices in memory -/

/-- The product, with as many rows as the left factor has. -/
theorem multiplyMatrices_ofMatrix {r : Nat} (A : Matrix (Fin r) (Fin 3) K)
    (B : Matrix (Fin 3) (Fin 3) K) :
    multiplyMatrices chk (ofMatrix A) (ofMatrix B) r = .ok (ofMatrix (A * B)) := by
  unfold ofMatrix
  rw [multiplyMatrices_ofFn chk r r 3 3 3 _ _ (Nat.le_refl r) (by omega) (by omega) (by omega)]
  refine congrArg Except.ok (ofFn_eq_ofMatrix _ _ (fun i j => ?_))
  rw [Matrix.mul_apply, mulFn, Finset.sum_range]
  exact Finset.sum_congr rfl (fun k _ => by rw [← entry_eq A i k, ← entry_eq B k j])

theorem multiplyMatrixByVector_ofMatrix (A : Matrix (Fin 3) (Fin 3) K) (v : Fin 3 → K) :
    multiplyMatrixByVector chk (ofMatrix A) (List.ofFn v) = .ok (List.ofFn (A *ᵥ v)) := by
  have hentries : (fun i : Fin 3 => mulVecFn (entry A) (entryVec v) i) = A *ᵥ v := by
    funext i
    rw [Matrix.mulVec, dotProduct, mulVecFn, Finset.sum_range]
    exact Finset.sum_congr rfl (fun k _ => by rw [← entry_eq A i k, ← entryVec_eq v k])
  unfold ofMatrix
  rw [vec_eq_ofFn v, multiplyMatrixByVector_ofFn chk 3 3 3 _ _ (by omega) (by omega) (by omega),
    ← ofFn_eq_vec, hentries]

theorem transpose2DimMatrix_ofMatrix {m n : Nat} (A : Matrix (Fin m) (Fin n) K) :
    transpose2DimMatrix chk (ofMatrix A) m n = .ok (ofMatrix Aᵀ) := by
  unfold ofMatrix
  rw [transpose2DimMatrix_ofFn chk m n (entry A)]
  exact congrArg Except.ok (ofFn_eq_ofMatrix _ Aᵀ (fun i j => entry_eq A j i))

/-! ### The laws -/

/-- Three factors can be bracketed either way. -/
theorem multiplyMatrices_assoc {r : Nat} (M : Matrix (Fin r) (Fin 3) K)
    (N P : Matrix (Fin 3) (Fin 3) K) :
    Agree
      (do
        let MN ← multiplyMatrices chk (ofMatrix M) (ofMatrix N) r
        multiplyMatrices chk MN (ofMatrix P) r)
      (do
        let NP ← multiplyMatrices chk (ofMatrix N) (ofMatrix P) 3
        multiplyMatrices chk (ofMatrix M) NP r) := by
  refine ⟨ofMatrix (M * N * P), ?_, ?_⟩
  · rw [multiplyMatrices_ofMatrix, ok_bind, multiplyMatrices_ofMatrix]
  · rw [multiplyMatrices_ofMatrix, ok_bind, multiplyMatrices_ofMatrix, Matrix.mul_assoc]

/-- A product is applied to a vector one factor at a time. -/
theorem multiplyMatrixByVector_mul (M N : Matrix (Fin 3) (Fin 3) K) (v : Fin 3 → K) :
    Agree
      (do
        let MN ← multiplyMatrices chk (ofMatrix M) (ofMatrix N) 3
        multiplyMatrixByVector chk MN (List.ofFn v))
      (do
        let Nv ← multiplyMatrixByVector chk (ofMatrix N) (List.ofFn v)
        multiplyMatrixByVector chk (ofMatrix M) Nv) := by
  refine ⟨List.ofFn ((M * N) *ᵥ v), ?_, ?_⟩
  · rw [multiplyMatrices_ofMatrix, ok_bind, multiplyMatrixByVector_ofMatrix]
  · rw [multiplyMatrixByVector_ofMatrix, ok_bind, multiplyMatrixByVector_ofMatrix,
      Matrix.mulVec_mulVec]

/-- The transpose of a product is the product of the transposes, the other way
    round. -/
theorem transpose2DimMatrix_mul (M N : Matrix (Fin 3) (Fin 3) K) :
    Agree
      (do
        let MN ← multiplyMatrices chk (ofMatrix M) (ofMatrix N) 3
        transpose2DimMatrix chk MN 3 3)
      (do
        let NT ← transpose2DimMatrix chk (ofMatrix N) 3 3
        let MT ← transpose2DimMatrix chk (ofMatrix M) 3 3
        multiplyMatrices chk NT MT 3) := by
  refine ⟨ofMatrix (M * N)ᵀ, ?_, ?_⟩
  · rw [multiplyMatrices_ofMatrix, ok_bind, transpose2DimMatrix_ofMatrix]
  · rw [transpose2DimMatrix_ofMatrix, ok_bind, transpose2DimMatrix_ofMatrix, ok_bind,
      multiplyMatrices_ofMatrix, Matrix.transpose_mul]

/-- Transposing twice gives the matrix back. -/
theorem transpose2DimMatrix_twice {m n : Nat} (A : Matrix (Fin m) (Fin n) K) :
    (do
      let AT ← transpose2DimMatrix chk (ofMatrix A) m n
      transpose2DimMatrix chk AT n m) = .ok (ofMatrix A) := by
  rw [transpose2DimMatrix_ofMatrix, ok_bind, transpose2DimMatrix_ofMatrix,
    Matrix.transpose_transpose]

/-- The three routines mean the same by rows and columns. -/
theorem kernels_consistent :
    (∀ (r : Nat) (M : Matrix (Fin r) (Fin 3) K) (N P : Matrix (Fin 3) (Fin 3) K),
      Agree
        (do
          let MN ← multiplyMatrices chk (ofMatrix M) (ofMatrix N) r
          multiplyMatrices chk MN (ofMatrix P) r)
        (do
          let NP ← multiplyMatrices chk (ofMatrix N) (ofMatrix P) 3
          multiplyMatrices chk (ofMatrix M) NP r)) ∧
    (∀ (M N : Matrix (Fin 3) (Fin 3) K) (v : Fin 3 → K),
      Agree
        (do
          let MN ← multiplyMatrices chk (ofMatrix M) (ofMatrix N) 3
          multiplyMatrixByVector chk MN (List.ofFn v))
        (do
          let Nv ← multiplyMatrixByVector chk (ofMatrix N) (List.ofFn v)
          multiplyMatrixByVector chk (ofMatrix M) Nv)) ∧
    (∀ M N : Matrix (Fin 3) (Fin 3) K,
      Agree
        (do
          let MN ← multiplyMatrices chk (ofMatrix M) (ofMatrix N) 3
          transpose2DimMatrix chk MN 3 3)
        (do
          let NT ← transpose2DimMatrix chk (ofMatrix N) 3 3
          let MT ← transpose2DimMatrix chk (ofMatrix M) 3 3
          multiplyMatrices chk NT MT 3)) ∧
    ∀ (m n : Nat) (A : Matrix (Fin m) (Fin n) K),
      (do
        let AT ← transpose2DimMatrix chk (ofMatrix A) m n
        transpose2DimMatrix chk AT n m) = .ok (ofMatrix A) :=
  ⟨fun _ M N P => multiplyMatrices_assoc chk M N P, multiplyMatrixByVector_mul chk,
    transpose2DimMatrix_mul chk, fun _ _ A => transpose2DimMatrix_twice chk A⟩

end SimpleDgps
