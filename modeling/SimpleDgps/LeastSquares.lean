import SimpleDgps.Inverse
import Mathlib.Data.Matrix.Mul
import Mathlib.LinearAlgebra.Matrix.Notation

/-!
# Least Squares

The regression step: transpose, normal matrix, inverse, and two products.

On a system of at least three rows the steps compose to something short.
Only the first three rows enter the normal matrix, the inverse is a
checkerboard, and so the result is always a multiple of the vector
`(1, -1, 1)`: `leastSquareReg_ofFn`. Whether that multiple solves the least
squares problem is then a question about the problem.
`leastSquareReg_normal_iff` answers it: the true solution has to lie on that
line and the scale the code computes has to be its coordinate there.

The later rows are the measurements beyond the third. A result that takes
account of all of them has sums over all rows where the code has sums over
three, and `leastSquareReg_counts_iff` says that this makes no difference
exactly if the later rows are zero: otherwise the squares of some column add up
to more than the code has seen.

A system of fewer rows is indexed past its end, and a normal matrix whose
determinant converts to zero yields a null inverse that the next product
indexes. Neither case is checked for. Apart from these two every access stays
inside its matrix and reads what was written: `leastSquareReg_inExtent`.

## Main definitions

* `leastSquareReg`: The regression as a chain of matrix routines.
* `normalMatrix`: Its first two steps, up to the matrix that is inverted.
* `gramFn`: The normal matrix of the first three rows.
* `alternating`: The component along `(1, -1, 1)`.
* `scaleFn`: The multiple of `(1, -1, 1)` that is returned.
* `LiesOnCheckerboard`: The systems that the code solves.
* `NullInverse`: The normal matrix is reported as singular.

## Theorems

* `leastSquareReg_normalMatrix`: The normal matrix is what gets inverted.
* `leastSquareReg_ofFn`: What the regression returns.
* `leastSquareReg_short`: Fewer than three rows are indexed past their end.
* `leastSquareReg_null`: A null inverse is indexed.
* `vec_eq_ofFn`: A vector in memory.
* `leastSquareReg_normal_iff`: When the normal equations are solved.
* `leastSquareReg_product`: The result as the inverse applied to a vector.
* `leastSquareReg_counts_iff`: When every measurement counts.
* `normalMatrix_unit`: Rows after the unit rows leave no trace.
* `nullInverse_iff`: When it is.
* `NullInverse.indexed`: What the regression does then.
* `leastSquareReg_inExtent`: The regression stays inside its matrices.
-/

namespace SimpleDgps

open Toolkit Loop Memory
open scoped Matrix

variable {K : Type} [Field K] [LinearOrder K] [FloorRing K] [DoubleToInt K] (chk : Check)

open DoubleToInt (toInt)

def leastSquareReg (matrixA : GridPtr K) (vectorB : List K) (matrixArows matrixAcol : Nat) :
    Except Fault (Printed (List K)) := do
  let matrixATransposed ← transpose2DimMatrix chk matrixA matrixArows matrixAcol
  let matrixATransposedA ← multiplyMatrices chk matrixATransposed matrixA matrixAcol
  let matrixATransposedAInverse ← calcInverse chk matrixATransposedA matrixArows
  let matrixATransposedAAdd ←
    multiplyMatrices chk matrixATransposedAInverse.value matrixATransposed matrixArows
  let finalX ← multiplyMatrixByVector chk matrixATransposedAAdd vectorB
  .ok { value := finalX, cout := matrixATransposedAInverse.cout }

/-! ### The result in closed form -/

section ClosedForm

omit [LinearOrder K] [FloorRing K] [DoubleToInt K]

/-- The first two steps of the regression, up to the matrix it inverts. -/
def normalMatrix (matrixA : GridPtr K) (matrixArows matrixAcol : Nat) :
    Except Fault (GridPtr K) := do
  let matrixATransposed ← transpose2DimMatrix chk matrixA matrixArows matrixAcol
  multiplyMatrices chk matrixATransposed matrixA matrixAcol

/-- Entries of the normal matrix the code forms: the first three rows only. -/
def gramFn (a : Nat → Nat → K) : Nat → Nat → K := mulFn (fun i j => a j i) a

/-- The normal matrix the code forms sums over three rows. -/
theorem normalMatrix_ofFn (m : Nat) (a : Nat → Nat → K) (hm : 3 ≤ m) :
    normalMatrix chk (some (ofFn m 3 a)) m 3 = .ok (some (ofFn 3 3 (gramFn a))) := by
  unfold normalMatrix gramFn
  rw [transpose2DimMatrix_ofFn chk m 3 a, ok_bind]
  exact multiplyMatrices_ofFn chk 3 3 m m 3 _ a (by omega) hm hm (by omega)

/-- The component of a row along `(1, -1, 1)`. -/
def alternating (x y z : K) : K := x - y + z

end ClosedForm

/-- The multiple of `(1, -1, 1)` that the regression returns. -/
def scaleFn (a : Nat → Nat → K) (b : Nat → K) : K :=
  detFn (gramFn a) 2 / (toInt (detFn (gramFn a) 3) : K) *
    ∑ r ∈ Finset.range 3, alternating (a r 0) (a r 1) (a r 2) * b r

theorem mulVecFn_inverse (g at' : Nat → Nat → K) (b : Nat → K) (i : Nat) :
    mulVecFn (mulFn (inverseFn g) at') b i
      = (-1) ^ i * (detFn g 2 / (toInt (detFn g 3) : K) *
          ∑ r ∈ Finset.range 3, alternating (at' 0 r) (at' 1 r) (at' 2 r) * b r) := by
  simp only [mulVecFn_eq, mulFn_eq, inverseFn, alternating, Finset.sum_range_succ,
    Finset.sum_range_zero, pow_add, pow_zero, pow_one]
  ring

/-- The matrix that the regression inverts is the normal matrix. -/
theorem leastSquareReg_normalMatrix (matrixA : GridPtr K) (vectorB : List K) (rows col : Nat)
    (G : GridPtr K) (hnormal : normalMatrix chk matrixA rows col = .ok G) :
    ∃ T, transpose2DimMatrix chk matrixA rows col = .ok T ∧
      leastSquareReg chk matrixA vectorB rows col = (do
        let inverse ← calcInverse chk G rows
        let product ← multiplyMatrices chk inverse.value T rows
        let finalX ← multiplyMatrixByVector chk product vectorB
        .ok { value := finalX, cout := inverse.cout }) := by
  unfold normalMatrix at hnormal
  unfold leastSquareReg
  cases htrans : transpose2DimMatrix chk matrixA rows col with
  | error e =>
      rw [htrans, error_bind] at hnormal
      exact absurd hnormal (by simp only [reduceCtorEq, not_false_eq_true])
  | ok T =>
      rw [htrans, ok_bind] at hnormal
      refine ⟨T, rfl, ?_⟩
      rw [ok_bind, hnormal, ok_bind]

/-- What the regression returns on at least three rows: a multiple of
    `(1, -1, 1)`, unless the inverse is null and gets indexed. -/
theorem leastSquareReg_ofFn (m n : Nat) (a : Nat → Nat → K) (b : Nat → K) (hm : 3 ≤ m)
    (hn : 3 ≤ n) : leastSquareReg chk (some (ofFn m 3 a)) (vec n b) m 3
      = if toInt (detFn (gramFn a) 3) = 0 then .error .nullPointer
        else .ok { value := vec 3 (fun i => (-1) ^ i * scaleFn a b), cout := [] } := by
  rcases leastSquareReg_normalMatrix chk _ (vec n b) m 3 _ (normalMatrix_ofFn chk m a hm)
    with ⟨T, htrans, hrun⟩
  rw [transpose2DimMatrix_ofFn chk m 3 a, Except.ok.injEq] at htrans
  rw [hrun, ← htrans, calcInverse_ofFn chk m 3 3 (gramFn a) (by omega) (by omega)]
  by_cases hzero : toInt (detFn (gramFn a) 3) = 0
  · -- The null pointer goes straight into the next product.
    rw [if_pos hzero, if_pos hzero, ok_bind, multiplyMatrices_null chk m _ (by omega), error_bind]
  · rw [if_neg hzero, if_neg hzero, ok_bind,
      multiplyMatrices_ofFn chk m m 3 3 m _ _ (by omega) (by omega) (by omega) hm, ok_bind,
      multiplyMatrixByVector_ofFn chk m 3 n _ b hm (by omega) hn, ok_bind]
    have hvec : vec 3 (mulVecFn (mulFn (inverseFn (gramFn a)) (fun i j => a j i)) b)
        = vec 3 (fun i => (-1) ^ i * scaleFn a b) :=
      vec_congr 3 _ _ (fun i _ => mulVecFn_inverse (gramFn a) (fun i j => a j i) b i)
    rw [hvec]

/-- A system of fewer rows is indexed past its last one. -/
theorem leastSquareReg_short (m : Nat) (a : Nat → Nat → K) (vectorB : List K) (hm : m < 3) :
    leastSquareReg chk (some (ofFn m 3 a)) vectorB m 3 = .error .outOfRange := by
  unfold leastSquareReg
  rw [transpose2DimMatrix_ofFn chk m 3 a, ok_bind,
    multiplyMatrices_short chk 3 3 m m 3 _ a (by omega) (by omega) (by omega) hm (by omega),
    error_bind]

/-- A null result of `calcInverse` is handed on to the next product. -/
theorem leastSquareReg_null (matrixA : GridPtr K) (vectorB : List K) (rows col : Nat)
    (hrows : 0 < rows) (G : GridPtr K) (out : List String)
    (hnormal : normalMatrix chk matrixA rows col = .ok G)
    (hnull : calcInverse chk G rows = .ok { value := none, cout := out }) :
    leastSquareReg chk matrixA vectorB rows col = .error .nullPointer := by
  rcases leastSquareReg_normalMatrix chk matrixA vectorB rows col G hnormal with ⟨T, _, hrun⟩
  rw [hrun, hnull, ok_bind, multiplyMatrices_null chk rows T hrows, error_bind]

/-! ### The normal equations -/

section Vectors

omit [LinearOrder K] [FloorRing K] [DoubleToInt K]

/-- The entries of a vector, zero outside it. -/
def entryVec {m : Nat} (b : Fin m → K) (i : Nat) : K := if h : i < m then b ⟨i, h⟩ else 0

theorem entryVec_eq {m : Nat} (b : Fin m → K) (i : Fin m) : entryVec b i = b i :=
  dif_pos i.isLt

/-- A vector in memory. -/
theorem vec_eq_ofFn {m : Nat} (b : Fin m → K) : List.ofFn b = vec m (entryVec b) := by
  refine List.ext_getElem? (fun k => ?_)
  rw [List.getElem?_ofFn, vec, List.getElem?_map]
  by_cases hk : k < m
  · rw [dif_pos hk, List.getElem?_range hk, Option.map_some, entryVec, dif_pos hk]
  · rw [dif_neg hk, List.getElem?_eq_none (by rw [List.length_range]; omega), Option.map_none]

/-- The direction of every result. -/
def checkerboard : Fin 3 → K := ![1, -1, 1]

theorem vec_checkerboard (t : K) :
    vec 3 (fun i => (-1) ^ i * t) = List.ofFn (t • (checkerboard : Fin 3 → K)) := by
  rw [vec_eq_ofFn]
  refine vec_congr 3 _ _ (fun i hi => ?_)
  have hentry : entryVec (t • (checkerboard : Fin 3 → K)) i = t * checkerboard ⟨i, hi⟩ :=
    dif_pos hi
  rw [hentry]
  have hcol : i = 0 ∨ i = 1 ∨ i = 2 := by omega
  rcases hcol with rfl | rfl | rfl
  · change (-1) ^ 0 * t = t * 1
    ring
  · change (-1) ^ 1 * t = t * (-1)
    ring
  · change (-1) ^ 2 * t = t * 1
    ring

end Vectors

/-- The systems on which the regression solves the normal equations: the true
    solution is a multiple `t` of `(1, -1, 1)`, and `t` is the scale that the
    first three rows produce. `g0`, `g1` and `g2` are the first row of their
    normal matrix. -/
def LiesOnCheckerboard {m : Nat} (hm : 3 ≤ m) (A : Matrix (Fin m) (Fin 3) K) (b : Fin m → K) :
    Prop :=
  let row : Fin 3 → Fin m := Fin.castLE hm
  let g0 := ∑ r, A (row r) 0 * A (row r) 0
  let g1 := ∑ r, A (row r) 0 * A (row r) 1
  let g2 := ∑ r, A (row r) 0 * A (row r) 2
  let det : Int := toInt (g0 * (g0 - g1) * (g0 - g1 + g2))
  det ≠ 0 ∧ ∃ t : K, (Aᵀ * A) *ᵥ (t • checkerboard) = Aᵀ *ᵥ b ∧
    t * det = g0 * (g0 - g1) *
      ∑ r, alternating (A (row r) 0) (A (row r) 1) (A (row r) 2) * b (row r)

section Entries

omit [LinearOrder K] [FloorRing K] [DoubleToInt K]

theorem entry_row {m : Nat} (hm : 3 ≤ m) (A : Matrix (Fin m) (Fin 3) K) (r j : Fin 3) :
    entry A r j = A (Fin.castLE hm r) j :=
  entry_eq A (Fin.castLE hm r) j

theorem gramFn_entry {m : Nat} (hm : 3 ≤ m) (A : Matrix (Fin m) (Fin 3) K) (i j : Fin 3) :
    gramFn (entry A) i j = ∑ r, A (Fin.castLE hm r) i * A (Fin.castLE hm r) j := by
  unfold gramFn mulFn
  rw [Finset.sum_range]
  exact Finset.sum_congr rfl (fun r _ => by rw [← entry_row hm A r i, ← entry_row hm A r j])

/-- The value the code takes for the determinant of the normal matrix. -/
theorem detFn_entry {m : Nat} (hm : 3 ≤ m) (A : Matrix (Fin m) (Fin 3) K) :
    detFn (gramFn (entry A)) 3
      = (∑ r, A (Fin.castLE hm r) 0 * A (Fin.castLE hm r) 0) *
          (∑ r, A (Fin.castLE hm r) 0 * A (Fin.castLE hm r) 0 -
            ∑ r, A (Fin.castLE hm r) 0 * A (Fin.castLE hm r) 1) *
          (∑ r, A (Fin.castLE hm r) 0 * A (Fin.castLE hm r) 0 -
            ∑ r, A (Fin.castLE hm r) 0 * A (Fin.castLE hm r) 1 +
            ∑ r, A (Fin.castLE hm r) 0 * A (Fin.castLE hm r) 2) := by
  rw [detFn_three, ← gramFn_entry hm A 0 0, ← gramFn_entry hm A 0 1, ← gramFn_entry hm A 0 2]
  rfl

theorem sum_alternating {m : Nat} (hm : 3 ≤ m) (A : Matrix (Fin m) (Fin 3) K) (b : Fin m → K) :
    ∑ r ∈ Finset.range 3, alternating (entry A r 0) (entry A r 1) (entry A r 2) * entryVec b r
      = ∑ r, alternating (A (Fin.castLE hm r) 0) (A (Fin.castLE hm r) 1) (A (Fin.castLE hm r) 2) *
          b (Fin.castLE hm r) := by
  rw [Finset.sum_range]
  refine Finset.sum_congr rfl (fun r _ => ?_)
  rw [← entry_row hm A r 0, ← entry_row hm A r 1, ← entry_row hm A r 2,
    ← entryVec_eq b (Fin.castLE hm r)]
  rfl

end Entries

/-- The regression returns a solution of the normal equations exactly on the
    systems whose solution lies on the checkerboard line at the right scale. -/
theorem leastSquareReg_normal_iff [IsStrictOrderedRing K] {m : Nat} (hm : 3 ≤ m)
    (A : Matrix (Fin m) (Fin 3) K) (b : Fin m → K) :
    (∃ (x : Fin 3 → K) (out : List String),
      leastSquareReg chk (ofMatrix A) (List.ofFn b) m 3
          = .ok { value := List.ofFn x, cout := out } ∧
        (Aᵀ * A) *ᵥ x = Aᵀ *ᵥ b) ↔ LiesOnCheckerboard hm A b := by
  have hrun := leastSquareReg_ofFn chk m m (entry A) (entryVec b) hm hm
  rw [← vec_eq_ofFn b, vec_checkerboard] at hrun
  have hminor : detFn (gramFn (entry A)) 2
      = (∑ r, A (Fin.castLE hm r) 0 * A (Fin.castLE hm r) 0) *
          (∑ r, A (Fin.castLE hm r) 0 * A (Fin.castLE hm r) 0 -
            ∑ r, A (Fin.castLE hm r) 0 * A (Fin.castLE hm r) 1) := by
    rw [detFn_two, ← gramFn_entry hm A 0 0, ← gramFn_entry hm A 0 1]
    rfl
  unfold LiesOnCheckerboard ofMatrix
  simp only
  -- Everything is now said in terms of the entries the code computes with.
  rw [hrun, ← detFn_entry hm A, ← hminor, ← sum_alternating hm A b]
  by_cases hzero : toInt (detFn (gramFn (entry A)) 3) = 0
  · -- The inverse is null and gets indexed, so nothing is returned.
    rw [if_pos hzero]
    constructor
    · rintro ⟨x, out, hx, _⟩
      exact absurd hx (by simp only [reduceCtorEq, not_false_eq_true])
    · intro h
      exact absurd hzero h.1
  · rw [if_neg hzero]
    have hcast : ((toInt (detFn (gramFn (entry A)) 3) : Int) : K) ≠ 0 := Int.cast_ne_zero.mpr hzero
    constructor
    · rintro ⟨x, out, hx, hnormal⟩
      -- What is returned lies on the line, so the solution does.
      simp only [Except.ok.injEq, Printed.mk.injEq] at hx
      refine ⟨hzero, scaleFn (entry A) (entryVec b), ?_, ?_⟩
      · rw [List.ofFn_injective hx.1]
        exact hnormal
      · unfold scaleFn
        field_simp
    · rintro ⟨_, t, hnormal, ht⟩
      -- The coordinate of the true solution is the scale of the result.
      have hscale : scaleFn (entry A) (entryVec b) = t := by
        unfold scaleFn
        rw [div_mul_eq_mul_div, ← ht, mul_div_assoc, div_self hcast, mul_one]
      exact ⟨t • checkerboard, [], by rw [hscale], hnormal⟩

/-- The identity system, whose solution is its right-hand side. -/
theorem leastSquareReg_identity :
    let A : Matrix (Fin 3) (Fin 3) ℚ := 1
    let b : Fin 3 → ℚ := ![1, 0, 0]
    leastSquareReg .buffer (ofMatrix A) (List.ofFn b) 3 3
        = .ok { value := List.ofFn ![1, -1, 1], cout := [] } ∧
      (Aᵀ * A) *ᵥ ![1, -1, 1] ≠ Aᵀ *ᵥ b := by
  decide +kernel

/-- A system of full rank that lies on the line, at the right scale. -/
theorem leastSquareReg_normal_iff_example :
    let A : Matrix (Fin 3) (Fin 3) ℚ := !![1, 0, 0; 1, 1, 0; 0, 1, 1]
    let b : Fin 3 → ℚ := ![1, 0, 0]
    ∃ (x : Fin 3 → ℚ) (out : List String),
      leastSquareReg .buffer (ofMatrix A) (List.ofFn b) 3 3
          = .ok { value := List.ofFn x, cout := out } ∧
        (Aᵀ * A) *ᵥ x = Aᵀ *ᵥ b :=
  (leastSquareReg_normal_iff .buffer (Nat.le_refl 3) _ _).mpr
    ⟨by decide +kernel, 1, by decide +kernel, by decide +kernel⟩

/-! ### The measurements that count -/

section Rows

omit [FloorRing K] [DoubleToInt K]

omit [LinearOrder K] in
/-- Rows after the third that contribute nothing can be left out of a sum. -/
theorem sum_rows {m : Nat} (hm : 3 ≤ m) (f : Fin m → K)
    (hrest : ∀ r : Fin m, 3 ≤ (r : Nat) → f r = 0) : ∑ r, f r = ∑ r, f (Fin.castLE hm r) := by
  rcases Nat.exists_eq_add_of_le hm with ⟨n, rfl⟩
  rw [Fin.sum_univ_add]
  have hzero : ∑ r, f (Fin.natAdd 3 r) = 0 :=
    Finset.sum_eq_zero (fun r _ => hrest _ (Nat.le_add_right 3 r))
  rw [hzero, add_zero]
  rfl

/-- Rows of non-negative terms that can be left out contribute nothing. -/
theorem rows_eq_zero [IsStrictOrderedRing K] {m : Nat} (hm : 3 ≤ m) (f : Fin m → K)
    (hnonneg : ∀ r, 0 ≤ f r) (hsum : ∑ r, f r = ∑ r, f (Fin.castLE hm r)) (r : Fin m)
    (hr : 3 ≤ (r : Nat)) : f r = 0 := by
  rcases Nat.exists_eq_add_of_le hm with ⟨n, rfl⟩
  rw [Fin.sum_univ_add] at hsum
  have hzero : ∑ r, f (Fin.natAdd 3 r) = 0 := add_eq_left.mp hsum
  have hterms := (Finset.sum_eq_zero_iff_of_nonneg (fun r _ => hnonneg (Fin.natAdd 3 r))).mp hzero
  -- Every row after the third is one of those.
  have hterm := hterms ⟨r - 3, by omega⟩ (Finset.mem_univ _)
  have hindex : Fin.natAdd 3 (⟨r - 3, by omega⟩ : Fin n) = r := by
    refine Fin.ext ?_
    rw [Fin.natAdd_mk]
    exact Nat.add_sub_of_le hr
  rwa [hindex] at hterm

end Rows

section Entries

omit [LinearOrder K] [FloorRing K] [DoubleToInt K]

/-- A vector in memory, from its entries. -/
theorem ofFn_eq_vec (n : Nat) (f : Nat → K) : List.ofFn (fun i : Fin n => f i) = vec n f := by
  rw [vec_eq_ofFn]
  exact vec_congr n _ _ (fun i hi => dif_pos hi)

/-- The two products of the regression, with the right-hand side multiplied by the
    transposed matrix first. -/
theorem mulVecFn_mulFn {m : Nat} (hm : 3 ≤ m) (x : Nat → Nat → K) (A : Matrix (Fin m) (Fin 3) K)
    (b : Fin m → K) (i : Nat) :
    mulVecFn (mulFn x (fun i j => entry A j i)) (entryVec b) i
      = ∑ k : Fin 3, x i k * ∑ r, A (Fin.castLE hm r) k * b (Fin.castLE hm r) := by
  have hrow : ∀ k : Fin 3, ∑ r : Fin 3, A (Fin.castLE hm r) k * b (Fin.castLE hm r)
      = ∑ r ∈ Finset.range 3, entry A r k * entryVec b r := by
    intro k
    rw [Finset.sum_range]
    refine Finset.sum_congr rfl (fun r _ => ?_)
    rw [← entry_row hm A r k, ← entryVec_eq b (Fin.castLE hm r)]
    rfl
  simp only [hrow, mulVecFn, mulFn]
  rw [← Finset.sum_range (fun k => x i k * ∑ r ∈ Finset.range 3, entry A r k * entryVec b r)]
  simp only [Finset.sum_mul, Finset.mul_sum]
  rw [Finset.sum_comm]
  exact Finset.sum_congr rfl (fun k _ => Finset.sum_congr rfl (fun r _ => mul_assoc _ _ _))

end Entries

/-- The result as the returned inverse applied to three rows of the right-hand
    side. -/
theorem leastSquareReg_product {m : Nat} (hm : 3 ≤ m) (A : Matrix (Fin m) (Fin 3) K)
    (b : Fin m → K) (hdet : toInt (detFn (gramFn (entry A)) 3) ≠ 0) :
    leastSquareReg chk (ofMatrix A) (List.ofFn b) m 3
      = .ok { value := List.ofFn (fun i : Fin 3 => ∑ k : Fin 3, inverseFn (gramFn (entry A)) i k *
                ∑ r, A (Fin.castLE hm r) k * b (Fin.castLE hm r)), cout := [] } := by
  have hrun := leastSquareReg_ofFn chk m m (entry A) (entryVec b) hm hm
  rw [if_neg hdet, ← vec_eq_ofFn b] at hrun
  unfold ofMatrix
  rw [hrun, ofFn_eq_vec 3 (fun i => ∑ k : Fin 3, inverseFn (gramFn (entry A)) i k *
    ∑ r, A (Fin.castLE hm r) k * b (Fin.castLE hm r))]
  have hvec : vec 3 (fun i => (-1) ^ i * scaleFn (entry A) (entryVec b))
      = vec 3 (fun i => ∑ k : Fin 3, inverseFn (gramFn (entry A)) i k *
          ∑ r, A (Fin.castLE hm r) k * b (Fin.castLE hm r)) := by
    refine vec_congr 3 _ _ (fun i _ => ?_)
    rw [← mulVecFn_mulFn hm, mulVecFn_inverse, scaleFn]
  rw [hvec]

/-- Every measurement counts exactly if there is none after the third that
    could: a row that is left out of the sums has to be zero. -/
theorem leastSquareReg_counts_iff [IsStrictOrderedRing K] {m : Nat} (hm : 3 ≤ m)
    (A : Matrix (Fin m) (Fin 3) K) (b : Fin m → K) (G : GridPtr K) (X : Grid K)
    (out : List String) (hnormal : normalMatrix chk (ofMatrix A) m 3 = .ok G)
    (hinv : calcInverse chk G m = .ok { value := some X, cout := out }) :
    ((∀ i j : Fin 3, GridPtr.read chk G i j = .ok (∑ r, A r i * A r j)) ∧
      ∃ x : Fin 3 → K,
        leastSquareReg chk (ofMatrix A) (List.ofFn b) m 3
          = .ok { value := List.ofFn x, cout := out } ∧
        ∀ i : Fin 3, ∃ row : Fin 3 → K,
          (∀ k : Fin 3, GridPtr.read chk (some X) i k = .ok (row k)) ∧
          x i = ∑ k, row k * ∑ r, A r k * b r) ↔
      ∀ r : Fin m, 3 ≤ (r : Nat) → A r = 0 := by
  have hcode : normalMatrix chk (ofMatrix A) m 3 = .ok (some (ofFn 3 3 (gramFn (entry A)))) :=
    normalMatrix_ofFn chk m (entry A) hm
  rw [hcode, Except.ok.injEq] at hnormal
  rw [← hnormal] at hinv ⊢
  rw [calcInverse_ofFn chk m 3 3 (gramFn (entry A)) (by omega) (by omega)] at hinv
  have hread : ∀ i j : Fin 3,
      GridPtr.read chk (some (ofFn 3 3 (gramFn (entry A)))) i j
        = .ok (∑ r, A (Fin.castLE hm r) i * A (Fin.castLE hm r) j) := by
    intro i j
    rw [read_ofFn chk 3 3 _ i j i.isLt j.isLt, gramFn_entry hm A i j]
  split_ifs at hinv with hzero
  · -- A null inverse is excluded.
    simp only [Except.ok.injEq, Printed.mk.injEq, reduceCtorEq, false_and] at hinv
  simp only [Except.ok.injEq, Printed.mk.injEq, Option.some.injEq] at hinv
  rcases hinv with ⟨hX, hout⟩
  constructor
  · rintro ⟨hmatrix, _⟩ r hr
    funext j
    -- The squares of a column have the same sum over all rows as over the first three.
    have hsum : ∑ r, A r j * A r j = ∑ r, A (Fin.castLE hm r) j * A (Fin.castLE hm r) j := by
      have hj := hmatrix j j
      rw [hread j j, Except.ok.injEq] at hj
      exact hj.symm
    exact mul_self_eq_zero.mp
      (rows_eq_zero hm (fun r => A r j * A r j) (fun r => mul_self_nonneg _) hsum r hr)
  · intro hrest
    have hentry : ∀ (r : Fin m) (j : Fin 3), 3 ≤ (r : Nat) → A r j = 0 :=
      fun r j hr => congrFun (hrest r hr) j
    have hrun := leastSquareReg_product chk hm A b hzero
    rw [← hout]
    refine ⟨fun i j => ?_, _, hrun, fun i => ⟨fun k => inverseFn (gramFn (entry A)) i k, ?_, ?_⟩⟩
    · rw [hread i j, sum_rows hm (fun r => A r i * A r j)
        (fun r hr => by rw [hentry r i hr, zero_mul])]
    · intro k
      rw [← hX]
      exact read_ofFn chk m 3 _ i k (by omega) k.isLt
    · refine Finset.sum_congr rfl (fun k _ => ?_)
      rw [sum_rows hm (fun r => A r k * b r) (fun r hr => by rw [hentry r k hr, zero_mul])]

section Entries

omit [LinearOrder K] [FloorRing K] [DoubleToInt K]

/-- The normal matrix of a system that starts with the unit rows is the
    identity, whatever its other rows are. -/
theorem normalMatrix_unit {m : Nat} (hm : 3 ≤ m) (A : Matrix (Fin m) (Fin 3) K)
    (h : ∀ r j : Fin 3, A (Fin.castLE hm r) j = (1 : Matrix (Fin 3) (Fin 3) K) r j) :
    normalMatrix chk (ofMatrix A) m 3 = .ok (ofMatrix (1 : Matrix (Fin 3) (Fin 3) K)) := by
  have hgram : ∀ i j : Fin 3, gramFn (entry A) i j = (1 : Matrix (Fin 3) (Fin 3) K) i j := by
    intro i j
    have hsum : ∑ r, A (Fin.castLE hm r) i * A (Fin.castLE hm r) j
        = ((1 : Matrix (Fin 3) (Fin 3) K)ᵀ * (1 : Matrix (Fin 3) (Fin 3) K) :
            Matrix (Fin 3) (Fin 3) K) i j := by
      rw [Matrix.mul_apply]
      exact Finset.sum_congr rfl (fun r _ => by rw [h r i, h r j, Matrix.transpose_apply])
    rw [gramFn_entry hm A i j, hsum, Matrix.mul_one, Matrix.transpose_one]
  unfold ofMatrix
  rw [normalMatrix_ofFn chk m (entry A) hm]
  exact congrArg Except.ok (ofFn_eq_ofMatrix _ 1 hgram)

end Entries

/-- A fourth row that repeats the first one is one of those. -/
theorem normalMatrix_repeated :
    normalMatrix chk (ofMatrix (!![1, 0, 0; 0, 1, 0; 0, 0, 1; 1, 0, 0] : Matrix (Fin 4) (Fin 3) ℚ))
      4 3 = .ok (ofMatrix (1 : Matrix (Fin 3) (Fin 3) ℚ)) := by
  refine normalMatrix_unit chk (by decide) _ (fun r j => ?_)
  fin_cases r <;> fin_cases j <;> rfl

/-- Three unit rows and a fourth row that repeats the first. -/
theorem leastSquareReg_drops_row :
    let A : Matrix (Fin 4) (Fin 3) ℚ := !![1, 0, 0; 0, 1, 0; 0, 0, 1; 1, 0, 0]
    normalMatrix .buffer (ofMatrix A) 4 3 = .ok (ofMatrix (1 : Matrix (Fin 3) (Fin 3) ℚ)) ∧
      (∃ X, calcInverse .buffer (ofMatrix (1 : Matrix (Fin 3) (Fin 3) ℚ)) 4
        = .ok { value := some X, cout := [] }) ∧
      GridPtr.read .buffer (ofMatrix (1 : Matrix (Fin 3) (Fin 3) ℚ)) 0 0 = .ok 1 ∧
      ∑ r, A r 0 * A r 0 = 2 := by
  intro A
  refine ⟨normalMatrix_repeated .buffer, ⟨_, calcInverse_one .buffer 4⟩,
    read_ofFn .buffer 3 3 _ 0 0 (by decide) (by decide), ?_⟩
  rw [Fin.sum_univ_four]
  simp only [A, Matrix.of_apply, Matrix.cons_val]
  norm_num

/-- The same system, and one whose fourth row is zero. -/
theorem leastSquareReg_counts_iff_example :
    let counts : Matrix (Fin 4) (Fin 3) ℚ → Prop := fun A =>
      (∀ i j : Fin 3, GridPtr.read .buffer (ofMatrix (1 : Matrix (Fin 3) (Fin 3) ℚ)) i j
          = .ok (∑ r, A r i * A r j)) ∧
        ∃ x : Fin 3 → ℚ,
          leastSquareReg .buffer (ofMatrix A) (List.ofFn ![1, 1, 1, 1]) 4 3
            = .ok { value := List.ofFn x, cout := [] } ∧
          ∀ i : Fin 3, ∃ row : Fin 3 → ℚ,
            (∀ k : Fin 3, GridPtr.read .buffer (some (ofFn 4 3 (fun i j => (-1) ^ (i + j)))) i k
              = .ok (row k)) ∧
            x i = ∑ k, row k * ∑ r, A r k * ![1, 1, 1, 1] r
    ¬counts !![1, 0, 0; 0, 1, 0; 0, 0, 1; 1, 0, 0] ∧
      counts !![1, 0, 0; 0, 1, 0; 0, 0, 1; 0, 0, 0] := by
  intro counts
  constructor
  · intro h
    have hrest := (leastSquareReg_counts_iff .buffer (by decide) _ ![1, 1, 1, 1] _ _ []
      (normalMatrix_repeated .buffer) (calcInverse_one .buffer 4)).mp h
    -- The fourth row starts with a one.
    have hlast : (1 : ℚ) = 0 := congrFun (hrest 3 (by decide)) 0
    exact one_ne_zero hlast
  · have hunit := normalMatrix_unit .buffer (by decide)
      (!![1, 0, 0; 0, 1, 0; 0, 0, 1; 0, 0, 0] : Matrix (Fin 4) (Fin 3) ℚ)
      (fun r j => by fin_cases r <;> fin_cases j <;> rfl)
    refine (leastSquareReg_counts_iff .buffer (by decide) _ ![1, 1, 1, 1] _ _ [] hunit
      (calcInverse_one .buffer 4)).mpr (fun r hr => ?_)
    -- The only row after the third is the fourth.
    have hlast : r = 3 := Fin.ext (Nat.le_antisymm (Nat.lt_succ_iff.mp r.isLt) hr)
    rw [hlast]
    funext j
    fin_cases j <;> rfl

/-! ### A null inverse -/

/-- `calcInverse` returns null for the normal matrix of a system. -/
def NullInverse {m : Nat} (A : Matrix (Fin m) (Fin 3) K) : Prop :=
  ∃ out, (normalMatrix chk (ofMatrix A) m 3 >>= fun G => calcInverse chk G m)
    = .ok { value := none, cout := out }

/-- It does so exactly if the determinant converts to zero. -/
theorem nullInverse_iff {m : Nat} (hm : 3 ≤ m) (A : Matrix (Fin m) (Fin 3) K) :
    NullInverse chk A ↔ toInt (detFn (gramFn (entry A)) 3) = 0 := by
  have hnormal : normalMatrix chk (ofMatrix A) m 3 = .ok (some (ofFn 3 3 (gramFn (entry A)))) :=
    normalMatrix_ofFn chk m (entry A) hm
  unfold NullInverse
  rw [hnormal, ok_bind, calcInverse_ofFn chk m 3 3 (gramFn (entry A)) (by omega) (by omega)]
  by_cases hzero : toInt (detFn (gramFn (entry A)) 3) = 0
  · rw [if_pos hzero]
    exact iff_of_true ⟨_, rfl⟩ hzero
  · rw [if_neg hzero]
    refine iff_of_false ?_ hzero
    rintro ⟨out, hout⟩
    simp only [Except.ok.injEq, Printed.mk.injEq, reduceCtorEq, false_and] at hout

/-- A null inverse is indexed. -/
theorem NullInverse.indexed {m : Nat} (A : Matrix (Fin m) (Fin 3) K) (vectorB : List K)
    (hm : 0 < m) (h : NullInverse chk A) :
    leastSquareReg chk (ofMatrix A) vectorB m 3 = .error .nullPointer := by
  rcases h with ⟨out, hrun⟩
  rcases bind_eq_ok _ _ _ hrun with ⟨G, hnormal, hnull⟩
  exact leastSquareReg_null chk _ vectorB m 3 hm G out hnormal hnull

/-! ### Accesses in extent -/

omit [Field K] [LinearOrder K] [FloorRing K] [DoubleToInt K] in
/-- A list is the array of its own entries. -/
theorem list_eq_vec [Zero K] (l : List K) : l = vec l.length (fun i => l.getD i 0) := by
  refine List.ext_getElem? (fun k => ?_)
  rw [vec, List.getElem?_map]
  by_cases hk : k < l.length
  · rw [List.getElem?_range hk, Option.map_some, List.getD_eq_getElem?_getD,
      List.getElem?_eq_getElem hk, Option.getD_some]
  · rw [List.getElem?_eq_none (Nat.le_of_not_lt hk),
      List.getElem?_eq_none (by rw [List.length_range]; omega), Option.map_none]

/-- On at least three rows the regression ends under the `extent` reading,
    unless the inverse is null, and it gets as far as the inverse in any case.
    The other two parts say what that excludes: an access that passes is inside
    its matrix and reads a written cell only, and the cells of a matrix do not
    overlap. -/
theorem leastSquareReg_inExtent {m : Nat} (hm : 3 ≤ m) (A : Matrix (Fin m) (Fin 3) K)
    (vectorB : List K) (hb : 3 ≤ vectorB.length) :
    (∃ (G : GridPtr K) (inverse : Printed (GridPtr K)),
      normalMatrix .extent (ofMatrix A) m 3 = .ok G ∧ calcInverse .extent G m = .ok inverse ∧
        (inverse.value ≠ none →
          ∃ result, leastSquareReg .extent (ofMatrix A) vectorB m 3 = .ok result)) ∧
      (∀ (p : GridPtr K) (i j : Nat) (x : K),
        (GridPtr.read .extent p i j = .ok x → ∃ g : Grid K, p = some g ∧ i < g.row ∧ j < g.col ∧
          g.data[i * g.col + j]? = some (some x)) ∧
        ∀ p' : GridPtr K, GridPtr.write .extent p i j x = .ok p' →
          ∃ g : Grid K, p = some g ∧ i < g.row ∧ j < g.col) ∧
      ∀ (g : Grid K) (i j i' j' : Nat), i < g.row → j < g.col → i' < g.row → j' < g.col →
        g.offset .extent i j = g.offset .extent i' j' → i = i' ∧ j = j' := by
  refine ⟨?_, fun p i j x => ⟨read_extent p i j x, fun p' => write_extent p p' i j x⟩,
    fun g i j i' j' hi hj hi' hj' => offset_injective .extent g i j i' j' hj hj' hi hi'⟩
  have hinv := calcInverse_ofFn .extent m 3 3 (gramFn (entry A)) (by omega) (by omega)
  have hrun := leastSquareReg_ofFn .extent m vectorB.length (entry A)
    (fun i => vectorB.getD i 0) hm hb
  rw [← list_eq_vec vectorB] at hrun
  by_cases hzero : toInt (detFn (gramFn (entry A)) 3) = 0
  · -- The inverse is null, and nothing is said about the rest.
    rw [if_pos hzero] at hinv
    exact ⟨_, _, normalMatrix_ofFn .extent m (entry A) hm, hinv, fun h => absurd rfl h⟩
  · rw [if_neg hzero] at hinv hrun
    exact ⟨_, _, normalMatrix_ofFn .extent m (entry A) hm, hinv, fun _ => ⟨_, hrun⟩⟩

/-- Four measurements, the last one repeating the first. -/
theorem leastSquareReg_inExtent_example :
    let A : Matrix (Fin 4) (Fin 3) ℚ := !![1, 0, 0; 0, 1, 0; 0, 0, 1; 1, 0, 0]
    ∃ result, leastSquareReg .extent (ofMatrix A) [1, 1, 1, 1] 4 3 = .ok result := by
  intro A
  rcases (leastSquareReg_inExtent (by decide) A [1, 1, 1, 1] (by decide)).1
    with ⟨G, inverse, hnormal, hinv, hresult⟩
  rw [normalMatrix_repeated .extent, Except.ok.injEq] at hnormal
  rw [← hnormal, calcInverse_one .extent 4, Except.ok.injEq] at hinv
  refine hresult ?_
  rw [← hinv]
  simp only [ne_eq, reduceCtorEq, not_false_eq_true]

end SimpleDgps
