import SimpleDgps.Types
import SimpleDgps.Toolkit.Memory
import Mathlib.Algebra.BigOperators.Intervals
import Mathlib.Tactic.Linarith

/-!
# Matrix Kernels

The matrix routines of the library, loop by loop.

A matrix is a pointer to a grid. Every routine allocates its result with the
column count it needs, but three of them take the row count as an argument and
keep the inner dimension at the constant `posMTrillatASize`. Multiplying two
matrices therefore sums over three products whatever the shapes are, and this
is where a larger system loses its remaining rows.

Each routine is given twice. The definition follows the source, with the
accesses checked by `Toolkit.Memory`. The theorem named after it says what it
returns on fully written matrices of sufficient extent, as an equation, so a
caller rewrites with it and never unfolds the loops again. `chk` is the reading
of "in range" the accesses are tested against, and the equations hold for both.

## Main definitions

* `posMTrillatASize`: The constant dimension.
* `allocate2Ddouble`: A fresh matrix.
* `multiplyMatrices`: The product of two matrices.
* `multiplyMatrixByVector`: The product of a matrix and a vector.
* `transpose2DimMatrix`: The transposed matrix.

## Theorems

* `multiplyMatrices_ofFn`: The product sums over the first three products.
* `multiplyMatrices_short`: A right factor of fewer rows is indexed past its end.
* `multiplyMatrices_null`: A null left factor is indexed.
* `multiplyMatrixByVector_ofFn`: The product with a vector.
* `transpose2DimMatrix_ofFn`: The transposed matrix, entry by entry.
-/

namespace SimpleDgps

open Toolkit Loop Memory

variable {K : Type} [Field K] (chk : Check)

/-- The matrix dimension the library is written for. -/
def posMTrillatASize : Nat := 3

omit [Field K] in
def allocate2Ddouble (row col : Nat) : GridPtr K := some (Grid.alloc row col)

/-- The innermost loop of `multiplyMatrices`, for one entry of the product. -/
def multiplyEntry (matrixA matrixB : GridPtr K) (i j : Nat) (outputMatrix : GridPtr K) :
    Except Fault (GridPtr K) :=
  upTo posMTrillatASize (fun k outputMatrix => do
    let acc ← GridPtr.read chk outputMatrix i j
    let a ← GridPtr.read chk matrixA i k
    let b ← GridPtr.read chk matrixB k j
    GridPtr.write chk outputMatrix i j (acc + a * b)) outputMatrix

def multiplyMatrices (matrixA matrixB : GridPtr K) (matrixArows : Nat) :
    Except Fault (GridPtr K) := do
  -- Initializing elements of matrix mult to 0.
  let outputMatrix ← nest matrixArows posMTrillatASize
    (fun i j outputMatrix => GridPtr.write chk outputMatrix i j 0)
    (allocate2Ddouble matrixArows posMTrillatASize)
  nest matrixArows posMTrillatASize (multiplyEntry chk matrixA matrixB) outputMatrix

/-- The result is a local array; it is returned by value here, where the source
    returns its address. -/
def multiplyMatrixByVector (matrixA : GridPtr K) (vectorB : List K) : Except Fault (List K) :=
  nest posMTrillatASize posMTrillatASize (fun i j vectorRes => do
    let acc ← get vectorRes i
    let a ← GridPtr.read chk matrixA i j
    let b ← get vectorB j
    set vectorRes i (acc + a * b)) (vec posMTrillatASize (fun _ => 0))

omit [Field K] in
def transpose2DimMatrix (inputArr : GridPtr K) (matrixArows transpose2DimMatrix : Nat) :
    Except Fault (GridPtr K) :=
  nest matrixArows transpose2DimMatrix (fun i j outputArr => do
    let x ← GridPtr.read chk inputArr i j
    GridPtr.write chk outputArr j i x) (allocate2Ddouble transpose2DimMatrix matrixArows)

/-! ### Products -/

/-- One entry of a product of functions, over the constant inner dimension. -/
def mulFn (a b : Nat → Nat → K) (i j : Nat) : K := ∑ k ∈ Finset.range 3, a i k * b k j

theorem mulFn_eq (a b : Nat → Nat → K) (i j : Nat) :
    mulFn a b i j = a i 0 * b 0 j + a i 1 * b 1 j + a i 2 * b 2 j := by
  simp only [mulFn, Finset.sum_range_succ, Finset.sum_range_zero, zero_add]

/-- The zeroed output that the product accumulates into. -/
theorem multiplyMatrices_init (rows : Nat) :
    nest rows posMTrillatASize (fun i j out => GridPtr.write chk out i j (0 : K))
        (allocate2Ddouble rows posMTrillatASize)
      = .ok (some (ofFn rows 3 (fun _ _ => 0))) := by
  unfold allocate2Ddouble posMTrillatASize
  rw [alloc_eq]
  exact nest_fill rows 3 _ _ _ (fun i j c hi hj _ => write_ofCells chk rows 3 c i j 0 hi hj)

/-- One accumulation step, while both factors still have the index. -/
theorem multiplyEntry_step (rows r1 c1 r2 c2 i j k : Nat) (a b : Nat → Nat → K)
    (c : Nat → Nat → Option K) (s : K) (hi : i < rows) (hj : j < 3) (hir : i < r1)
    (hkc : k < c1) (hkr : k < r2) (hjc : j < c2) :
    (do
      let acc ← GridPtr.read chk (some (ofCells rows 3 (put c i j s))) i j
      let x ← GridPtr.read chk (some (ofFn r1 c1 a)) i k
      let y ← GridPtr.read chk (some (ofFn r2 c2 b)) k j
      GridPtr.write chk (some (ofCells rows 3 (put c i j s))) i j (acc + x * y))
      = .ok (some (ofCells rows 3 (put c i j (s + a i k * b k j)))) := by
  rw [read_ofCells chk rows 3 _ i j s hi hj (put_self c i j s), read_ofFn chk r1 c1 a i k hir hkc,
    read_ofFn chk r2 c2 b k j hkr hjc]
  simp only [ok_bind]
  rw [write_ofCells chk rows 3 _ i j _ hi hj, put_put]

/-- The product of two matrices whose rows and columns reach the constant
    dimension: three products are summed, whatever the inner extents are. -/
theorem multiplyMatrices_ofFn (rows r1 c1 r2 c2 : Nat) (a b : Nat → Nat → K) (hr1 : rows ≤ r1)
    (hc1 : 3 ≤ c1) (hr2 : 3 ≤ r2) (hc2 : 3 ≤ c2) :
    multiplyMatrices chk (some (ofFn r1 c1 a)) (some (ofFn r2 c2 b)) rows
      = .ok (some (ofFn rows 3 (mulFn a b))) := by
  unfold multiplyMatrices
  rw [multiplyMatrices_init, ok_bind]
  refine nest_fill rows 3 (fun _ _ => some 0) _ _ (fun i j c hi hj hc => ?_)
  -- The cell holds the partial sum over the products already added.
  let S : Nat → GridPtr K := fun k =>
    some (ofCells rows 3 (put c i j (∑ l ∈ Finset.range k, a i l * b l j)))
  have hstart : (some (ofCells rows 3 c) : GridPtr K) = S 0 := by
    simp only [S, Finset.sum_range_zero]
    rw [put_same c i j 0 hc]
  rw [hstart]
  refine upTo_eq S 3 _ (fun k hk => ?_)
  simp only [S, Finset.sum_range_succ]
  exact multiplyEntry_step chk rows r1 c1 r2 c2 i j k a b c _ hi hj (by omega) (by omega)
    (by omega) (by omega)

/-- A right factor with fewer rows than the constant dimension is indexed past
    its last row. -/
theorem multiplyMatrices_short (rows r1 c1 r2 c2 : Nat) (a b : Nat → Nat → K) (hrows : 0 < rows)
    (hr1 : 0 < r1) (hc1 : r2 ≤ c1) (hr2 : r2 < 3) (hc2 : 0 < c2) :
    multiplyMatrices chk (some (ofFn r1 c1 a)) (some (ofFn r2 c2 b)) rows
      = .error .outOfRange := by
  unfold multiplyMatrices
  rw [multiplyMatrices_init, ok_bind]
  -- The very first entry already runs into the missing row.
  refine nest_error_zero rows _ _ _ _ hrows (by decide) ?_
  let c : Nat → Nat → Option K := fun _ _ => some 0
  let S : Nat → GridPtr K := fun k =>
    some (ofCells rows 3 (put c 0 0 (∑ l ∈ Finset.range k, a 0 l * b l 0)))
  have hstart : (some (ofFn rows 3 (fun _ _ => 0)) : GridPtr K) = S 0 := by
    simp only [S, Finset.sum_range_zero]
    rw [put_same c 0 0 0 rfl]
    rfl
  rw [hstart]
  refine upTo_error S 3 r2 _ Fault.outOfRange hr2 (fun k hk => ?_) ?_
  · simp only [S, Finset.sum_range_succ]
    exact multiplyEntry_step chk rows r1 c1 r2 c2 0 0 k a b c _ hrows (by omega) hr1 (by omega)
      hk hc2
  · -- The left factor may or may not still have the column; the right one has no such row.
    simp only [S]
    rw [read_ofCells chk rows 3 _ 0 0 _ hrows (by omega) (put_self c 0 0 _), ok_bind]
    rcases read_ofFn_or chk r1 c1 a 0 r2 with ⟨x, hx⟩ | hx
    · rw [hx, ok_bind, read_row_error chk _ r2 0 (Nat.le_refl r2), error_bind]
    · rw [hx, error_bind]

/-- A null left factor is indexed as soon as there is a row to compute. -/
theorem multiplyMatrices_null (rows : Nat) (matrixB : GridPtr K) (hrows : 0 < rows) :
    multiplyMatrices chk none matrixB rows = .error .nullPointer := by
  unfold multiplyMatrices
  rw [multiplyMatrices_init, ok_bind]
  refine nest_error_zero rows _ _ _ _ hrows (by decide) ?_
  refine upTo_error (fun _ => some (ofFn rows 3 (fun _ _ => 0))) 3 0 _ Fault.nullPointer
    (by decide) (fun i hi => absurd hi (Nat.not_lt_zero i)) ?_
  rw [read_ofFn chk rows 3 _ 0 0 hrows (by decide), ok_bind]
  rfl

/-! ### Vectors -/

/-- One entry of the product of a matrix and a vector. -/
def mulVecFn (a : Nat → Nat → K) (b : Nat → K) (i : Nat) : K := ∑ j ∈ Finset.range 3, a i j * b j

theorem mulVecFn_eq (a : Nat → Nat → K) (b : Nat → K) (i : Nat) :
    mulVecFn a b i = a i 0 * b 0 + a i 1 * b 1 + a i 2 * b 2 := by
  simp only [mulVecFn, Finset.sum_range_succ, Finset.sum_range_zero, zero_add]

theorem multiplyMatrixByVector_ofFn (r c n : Nat) (a : Nat → Nat → K) (b : Nat → K) (hr : 3 ≤ r)
    (hc : 3 ≤ c) (hn : 3 ≤ n) :
    multiplyMatrixByVector chk (some (ofFn r c a)) (vec n b) = .ok (vec 3 (mulVecFn a b)) := by
  unfold multiplyMatrixByVector posMTrillatASize
  -- Entries before `i` are complete, entry `i` holds a partial sum, the rest is zero.
  let S : Nat → Nat → List K := fun i j => vec 3 (fun i' =>
    if i' < i then mulVecFn a b i' else if i' = i then ∑ l ∈ Finset.range j, a i' l * b l else 0)
  have hstart : vec 3 (fun _ => (0 : K)) = S 0 0 := by
    refine vec_congr 3 _ _ (fun i' _ => ?_)
    rw [if_neg (by omega), Finset.sum_range_zero, ite_self]
  have hend : vec 3 (mulVecFn a b) = S 3 0 :=
    vec_congr 3 _ _ (fun i' hi' => by rw [if_pos hi'])
  rw [hstart, hend]
  refine nest_eq S 3 3 _ (fun i hi => ?_) (fun i j hi hj => ?_)
  · -- A complete sum is an entry of the product, and the next one starts at zero.
    refine vec_congr 3 _ _ (fun i' _ => ?_)
    by_cases hlt : i' < i
    · rw [if_pos hlt, if_pos (by omega)]
    · rw [if_neg hlt]
      by_cases hii : i' = i
      · rw [if_pos hii, if_pos (by omega)]
        rfl
      · rw [if_neg hii, if_neg (by omega), Finset.sum_range_zero, ite_self]
  · have hget : get (S i j) i = .ok (∑ l ∈ Finset.range j, a i l * b l) := by
      rw [get_vec 3 _ i hi, if_neg (by omega), if_pos rfl]
    rw [hget, read_ofFn chk r c a i j (by omega) (by omega), get_vec n b j (by omega)]
    simp only [ok_bind, S]
    rw [set_vec 3 _ i _ hi]
    refine congrArg Except.ok (vec_congr 3 _ _ (fun i' _ => ?_))
    by_cases hii : i' = i
    · rw [if_pos hii, if_neg (by omega), if_pos hii, Finset.sum_range_succ, hii]
    · rw [if_neg hii, if_neg hii, if_neg hii]

/-! ### Transposition -/

omit [Field K] in
/-- The transposed matrix, entry by entry. -/
theorem transpose2DimMatrix_ofFn (m n : Nat) (a : Nat → Nat → K) :
    transpose2DimMatrix chk (some (ofFn m n a)) m n = .ok (some (ofFn n m (fun i j => a j i))) := by
  unfold transpose2DimMatrix allocate2Ddouble
  rw [alloc_eq]
  -- The output is filled column by column, the loops running over the input.
  let cells : Nat → Nat → Nat → Nat → Option K := fun i j q p =>
    if p < i ∨ (p = i ∧ q < j) then some (a p q) else none
  have hstart : ofCells n m (fun _ _ => (none : Option K)) = ofCells n m (cells 0 0) :=
    ofCells_congr n m _ _ (fun q p _ _ => by simp only [cells]; rw [if_neg (by omega)])
  have hend : ofFn n m (fun i j => a j i) = ofCells n m (cells m 0) :=
    ofCells_congr n m _ _ (fun q p _ hp => by simp only [cells]; rw [if_pos (by omega)])
  rw [hstart, hend]
  refine nest_eq (fun i j => some (ofCells n m (cells i j))) m n _ (fun i hi => ?_)
    (fun i j hi hj => ?_)
  · -- A finished input row is a finished output column.
    refine congrArg some (ofCells_congr n m _ _ (fun q p hq _ => ?_))
    simp only [cells]
    by_cases hlt : p < i + 1
    · rw [if_pos (by omega), if_pos (by omega)]
    · rw [if_neg (by omega), if_neg (by omega)]
  · rw [read_ofFn chk m n a i j hi hj, ok_bind, write_ofCells chk n m _ j i _ hj hi]
    refine congrArg (fun g => Except.ok (some g)) (ofCells_congr n m _ _ (fun q p _ _ => ?_))
    simp only [cells, put]
    by_cases hqp : q = j ∧ p = i
    · rw [if_pos hqp, if_pos (by omega), hqp.1, hqp.2]
    · rw [if_neg hqp]
      by_cases hlt : p < i ∨ (p = i ∧ q < j)
      · rw [if_pos hlt, if_pos (by omega)]
      · rw [if_neg hlt, if_neg (by omega)]

end SimpleDgps
