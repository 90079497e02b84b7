import SimpleDgps.Kernels
import Mathlib.Data.Matrix.Basic
import Mathlib.Tactic.FieldSimp
import Mathlib.Tactic.FinCases

/-!
# Determinant, Adjoint and Inverse

The routines that are meant to invert the normal matrix.

The determinant recursion passes its own matrix down, not a minor of it. Every
level therefore scales the alternating sum of the first row by the value of the
level below, and the whole computation reads the first row only: `detFn` is its
closed form. The adjoint asks for the same two-by-two value in every entry and
gives it alternating signs. What `calcInverse` returns is thus one number in a
checkerboard of signs, a matrix of rank one, and it is never an inverse:
`calcInverse_not_inverse`.

The determinant is stored in an `int`. The test for singularity and the
division both see the converted value, and `calcInverse_divides_iff` says when
that is the determinant itself.

## Main definitions

* `clacDeterminant`: The determinant recursion.
* `calcAdjoint`: The adjoint.
* `calcInverse`: The inverse, or null for a determinant converted to zero.
* `detFn`: Closed form of the recursion.
* `inverseFn`: Entries of the returned matrix.
* `entry`, `ofMatrix`: A matrix as the routines see it.
* `UsesDeterminant`: Null test and division go by the computed determinant.

## Theorems

* `clacDeterminant_ofFn`: The recursion computes `detFn`.
* `detFn_three`: The three-by-three value, in terms of the first row.
* `calcAdjoint_ofFn`: The adjoint is a checkerboard.
* `calcInverse_ofFn`: What `calcInverse` returns.
* `inverseFn_row`, `inverseFn_col`: Neighbouring entries differ in sign only.
* `calcInverse_not_inverse`: A returned matrix is an inverse on neither side.
* `calcInverse_one`: What is returned for the identity.
* `calcInverse_divides_iff`: When the conversion does no harm.
-/

namespace SimpleDgps

open Toolkit Loop Memory

variable {K : Type} [Field K] (chk : Check)

/-- The determinant recursion; the level below is asked about the same matrix. -/
def clacDeterminant (A : GridPtr K) : Nat → Except Fault K
  | 0 => .ok 0
  | 1 => GridPtr.read chk A 0 0
  | rows + 2 => do
    -- The loop state is the pair of `D` and `sign`.
    let s ← upTo (rows + 2) (fun f (s : K × Int) => do
      let a ← GridPtr.read chk A 0 f
      let minor ← clacDeterminant A (rows + 1)
      .ok (s.1 + (s.2 : K) * a * minor, -s.2)) (0, 1)
    .ok s.1

def calcAdjoint (A : GridPtr K) (matrixArows : Nat) : Except Fault (GridPtr K) :=
  nest matrixArows posMTrillatASize (fun i j adj => do
    let sign : Int := if (i + j) % 2 = 0 then 1 else -1
    -- The same value in every round: neither `i` nor `j` is passed on.
    let minor ← clacDeterminant chk A (posMTrillatASize - 1)
    GridPtr.write chk adj i j (sign * minor)) (allocate2Ddouble matrixArows posMTrillatASize)

/-! ### Closed forms -/

/-- What the determinant recursion computes: each level multiplies the
    alternating sum of the first row into the level below. -/
def detFn (a : Nat → Nat → K) : Nat → K
  | 0 => 0
  | 1 => a 0 0
  | n + 2 => (∑ f ∈ Finset.range (n + 2), (-1) ^ f * a 0 f) * detFn a (n + 1)

theorem detFn_two (a : Nat → Nat → K) : detFn a 2 = a 0 0 * (a 0 0 - a 0 1) := by
  simp only [detFn, Finset.sum_range_succ, Finset.sum_range_zero]
  ring

theorem detFn_three (a : Nat → Nat → K) :
    detFn a 3 = a 0 0 * (a 0 0 - a 0 1) * (a 0 0 - a 0 1 + a 0 2) := by
  simp only [detFn, Finset.sum_range_succ, Finset.sum_range_zero]
  ring

theorem clacDeterminant_ofFn (r c : Nat) (a : Nat → Nat → K) (hr : 0 < r) (n : Nat)
    (hn : n ≤ c) : clacDeterminant chk (some (ofFn r c a)) n = .ok (detFn a n) := by
  induction n with
  | zero => rfl
  | succ k ih =>
      cases k with
      | zero => exact read_ofFn chk r c a 0 0 hr (by omega)
      | succ n =>
          -- After `f` rounds the sum covers the entries before `f`, and the sign is theirs.
          let S : Nat → K × Int := fun f =>
            (∑ l ∈ Finset.range f, (-1) ^ l * a 0 l * detFn a (n + 1), (-1) ^ f)
          have hstart : ((0 : K), (1 : Int)) = S 0 := by
            simp only [S, Finset.sum_range_zero, pow_zero]
          unfold clacDeterminant
          rw [hstart, upTo_eq S (n + 2) _ (fun f hf => ?_)]
          · simp only [ok_bind, S, detFn, Finset.sum_mul]
          · rw [read_ofFn chk r c a 0 f hr (by omega), ok_bind, ih (by omega), ok_bind]
            simp only [S, Finset.sum_range_succ, pow_succ]
            push_cast
            rw [mul_neg_one]

theorem sign_cast (i j : Nat) :
    (((if (i + j) % 2 = 0 then 1 else -1 : Int) : Int) : K) = (-1) ^ (i + j) := by
  by_cases h : (i + j) % 2 = 0
  · rw [if_pos h, Int.cast_one, Even.neg_one_pow (Nat.even_iff.mpr h)]
  · rw [if_neg h, Int.cast_neg, Int.cast_one, Odd.neg_one_pow (Nat.odd_iff.mpr (by omega))]

/-- The adjoint is one value in a checkerboard of signs. -/
theorem calcAdjoint_ofFn (rows r c : Nat) (a : Nat → Nat → K) (hr : 0 < r) (hc : 2 ≤ c) :
    calcAdjoint chk (some (ofFn r c a)) rows
      = .ok (some (ofFn rows 3 (fun i j => (-1) ^ (i + j) * detFn a 2))) := by
  unfold calcAdjoint allocate2Ddouble
  rw [alloc_eq]
  refine nest_fill rows 3 _ _ _ (fun i j cells hi hj _ => ?_)
  have hdet : clacDeterminant chk (some (ofFn r c a)) (posMTrillatASize - 1) = .ok (detFn a 2) :=
    clacDeterminant_ofFn chk r c a hr 2 hc
  simp only [hdet, ok_bind]
  rw [sign_cast]
  exact write_ofCells chk rows 3 cells i j _ hi hj

/-! ### The inverse -/

section Conversion

variable [LinearOrder K] [FloorRing K] [DoubleToInt K]

open DoubleToInt (toInt)

def calcInverse (A : GridPtr K) (matrixArows : Nat) : Except Fault (Printed (GridPtr K)) := do
  let inverse := allocate2Ddouble matrixArows posMTrillatASize
  let determinant ← clacDeterminant chk A posMTrillatASize
  -- The variable is an `int`, so the fraction is gone before the test.
  let det : Int := toInt determinant
  if det = 0 then
    .ok { value := none, cout := ["Singular matrix, can't find its inverse"] }
  else
    let adj ← calcAdjoint chk A matrixArows
    let inverse ← nest matrixArows posMTrillatASize (fun i j inverse => do
      let x ← GridPtr.read chk adj i j
      GridPtr.write chk inverse i j (x / (det : K))) inverse
    .ok { value := inverse, cout := [] }

/-- Entries of the matrix `calcInverse` returns. -/
def inverseFn (a : Nat → Nat → K) (i j : Nat) : K :=
  (-1) ^ (i + j) * detFn a 2 / (toInt (detFn a 3) : K)

/-- What `calcInverse` returns: null if the determinant converts to zero, and
    otherwise one value in a checkerboard of signs. -/
theorem calcInverse_ofFn (rows r c : Nat) (a : Nat → Nat → K) (hr : 0 < r) (hc : 3 ≤ c) :
    calcInverse chk (some (ofFn r c a)) rows
      = if toInt (detFn a 3) = 0 then
          .ok { value := none, cout := ["Singular matrix, can't find its inverse"] }
        else .ok { value := some (ofFn rows 3 (inverseFn a)), cout := [] } := by
  unfold calcInverse
  have hdet : clacDeterminant chk (some (ofFn r c a)) posMTrillatASize = .ok (detFn a 3) :=
    clacDeterminant_ofFn chk r c a hr 3 hc
  simp only [hdet, ok_bind]
  by_cases hzero : toInt (detFn a 3) = 0
  · rw [if_pos hzero, if_pos hzero]
  · rw [if_neg hzero, if_neg hzero, calcAdjoint_ofFn chk rows r c a hr (by omega), ok_bind]
    -- The division fills a second checkerboard from the first.
    have hfill : nest rows posMTrillatASize (fun i j inverse => do
          let x ← GridPtr.read chk
            (some (ofFn rows 3 (fun i j => (-1) ^ (i + j) * detFn a 2))) i j
          GridPtr.write chk inverse i j (x / (toInt (detFn a 3) : K)))
          (allocate2Ddouble rows posMTrillatASize)
        = .ok (some (ofFn rows 3 (inverseFn a))) := by
      unfold allocate2Ddouble posMTrillatASize
      rw [alloc_eq]
      refine nest_fill rows 3 _ _ _ (fun i j cells hi hj _ => ?_)
      rw [read_ofFn chk rows 3 _ i j hi hj, ok_bind]
      exact write_ofCells chk rows 3 cells i j _ hi hj
    rw [hfill, ok_bind]

/-- Entries next to each other in a row differ in sign only. -/
theorem inverseFn_row (a : Nat → Nat → K) (i j : Nat) :
    inverseFn a i (j + 1) = -inverseFn a i j := by
  unfold inverseFn
  rw [← Nat.add_assoc, pow_succ]
  ring

/-- Entries next to each other in a column differ in sign only. -/
theorem inverseFn_col (a : Nat → Nat → K) (i j : Nat) :
    inverseFn a (i + 1) j = -inverseFn a i j := by
  unfold inverseFn
  rw [Nat.add_right_comm, pow_succ]
  ring

theorem mulFn_inverseFn_row (a b : Nat → Nat → K) (i j : Nat) :
    mulFn b (inverseFn a) i (j + 1) = -mulFn b (inverseFn a) i j := by
  simp only [mulFn_eq, inverseFn_row]
  ring

theorem mulFn_inverseFn_col (a b : Nat → Nat → K) (i j : Nat) :
    mulFn (inverseFn a) b (i + 1) j = -mulFn (inverseFn a) b i j := by
  simp only [mulFn_eq, inverseFn_col]
  ring

end Conversion

/-! ### Matrices -/

/-- The entries of a matrix, zero outside it. -/
def entry {m n : Nat} (A : Matrix (Fin m) (Fin n) K) (i j : Nat) : K :=
  if h : i < m ∧ j < n then A ⟨i, h.1⟩ ⟨j, h.2⟩ else 0

/-- A matrix in memory. -/
def ofMatrix {m n : Nat} (A : Matrix (Fin m) (Fin n) K) : GridPtr K := some (ofFn m n (entry A))

theorem entry_eq {m n : Nat} (A : Matrix (Fin m) (Fin n) K) (i : Fin m) (j : Fin n) :
    entry A i j = A i j :=
  dif_pos ⟨i.isLt, j.isLt⟩

/-- Fully written grids of one extent are equal exactly when their entries are. -/
theorem ofFn_entry_eq {m n : Nat} (f : Nat → Nat → K) (B : Matrix (Fin m) (Fin n) K)
    (h : (some (ofFn m n f) : GridPtr K) = ofMatrix B) (i : Fin m) (j : Fin n) :
    f i j = B i j := by
  -- Equal grids give equal values at every read.
  have hread := congrArg (fun p => GridPtr.read Check.buffer p i j) h
  simp only [ofMatrix] at hread
  rw [read_ofFn .buffer m n f i j i.isLt j.isLt, read_ofFn .buffer m n _ i j i.isLt j.isLt,
    Except.ok.injEq] at hread
  rw [hread, entry_eq]

/-- A fully written grid is the matrix of its entries. -/
theorem ofFn_eq_ofMatrix {m n : Nat} (f : Nat → Nat → K) (B : Matrix (Fin m) (Fin n) K)
    (h : ∀ (i : Fin m) (j : Fin n), f i j = B i j) : some (ofFn m n f) = ofMatrix B := by
  unfold ofMatrix ofFn
  refine congrArg some (ofCells_congr m n _ _ (fun i j hi hj => ?_))
  rw [entry, dif_pos ⟨hi, hj⟩, ← h ⟨i, hi⟩ ⟨j, hj⟩]

variable [LinearOrder K] [FloorRing K] [DoubleToInt K]

open DoubleToInt (toInt)

/-- Whenever `calcInverse` returns a matrix, it is an inverse on neither side. -/
theorem calcInverse_not_inverse (A : Matrix (Fin 3) (Fin 3) K) (X : Grid K) (out : List String)
    (h : calcInverse chk (ofMatrix A) 3 = .ok { value := some X, cout := out }) :
    multiplyMatrices chk (ofMatrix A) (some X) 3 ≠ .ok (ofMatrix (1 : Matrix (Fin 3) (Fin 3) K)) ∧
      multiplyMatrices chk (some X) (ofMatrix A) 3
        ≠ .ok (ofMatrix (1 : Matrix (Fin 3) (Fin 3) K)) := by
  -- The returned matrix is the checkerboard.
  have hX : X = ofFn 3 3 (inverseFn (entry A)) := by
    unfold ofMatrix at h
    rw [calcInverse_ofFn chk 3 3 3 (entry A) (by omega) (by omega)] at h
    split_ifs at h with hzero
    · -- A null result is excluded.
      simp only [Except.ok.injEq, Printed.mk.injEq, reduceCtorEq, false_and] at h
    · simp only [Except.ok.injEq, Printed.mk.injEq, Option.some.injEq] at h
      exact h.1.symm
  rw [hX]
  unfold ofMatrix
  rw [multiplyMatrices_ofFn chk 3 3 3 3 3 _ _ (by omega) (by omega) (by omega) (by omega),
    multiplyMatrices_ofFn chk 3 3 3 3 3 _ _ (by omega) (by omega) (by omega) (by omega)]
  constructor
  · -- Row 0 of the product alternates in sign, so it is not a row of the identity.
    intro hprod
    have hone := ofFn_entry_eq _ (1 : Matrix (Fin 3) (Fin 3) K) (Except.ok.inj hprod)
    have h00 : mulFn (entry A) (inverseFn (entry A)) 0 0 = 1 := hone 0 0
    have h01 : mulFn (entry A) (inverseFn (entry A)) 0 1 = 0 := hone 0 1
    rw [mulFn_inverseFn_row (entry A) (entry A) 0 0, h00] at h01
    exact absurd h01 (neg_ne_zero.mpr one_ne_zero)
  · -- Column 0 of the other product does.
    intro hprod
    have hone := ofFn_entry_eq _ (1 : Matrix (Fin 3) (Fin 3) K) (Except.ok.inj hprod)
    have h00 : mulFn (inverseFn (entry A)) (entry A) 0 0 = 1 := hone 0 0
    have h10 : mulFn (inverseFn (entry A)) (entry A) 1 0 = 0 := hone 1 0
    rw [mulFn_inverseFn_col (entry A) (entry A) 0 0, h00] at h10
    exact absurd h10 (neg_ne_zero.mpr one_ne_zero)

omit [LinearOrder K] [FloorRing K] [DoubleToInt K] in
theorem entry_one : entry (1 : Matrix (Fin 3) (Fin 3) K) 0 0 = 1 ∧
    entry (1 : Matrix (Fin 3) (Fin 3) K) 0 1 = 0 ∧ entry (1 : Matrix (Fin 3) (Fin 3) K) 0 2 = 0 :=
  ⟨rfl, rfl, rfl⟩

omit [LinearOrder K] [FloorRing K] [DoubleToInt K] in
/-- The determinants of the identity come out right. -/
theorem detFn_one : detFn (entry (1 : Matrix (Fin 3) (Fin 3) K)) 2 = 1 ∧
    detFn (entry (1 : Matrix (Fin 3) (Fin 3) K)) 3 = 1 := by
  rw [detFn_two, detFn_three, entry_one.1, entry_one.2.1, entry_one.2.2, sub_zero, add_zero,
    mul_one, mul_one]
  exact ⟨rfl, rfl⟩

/-- What the code takes for the inverse of the identity. -/
theorem calcInverse_one [IsStrictOrderedRing K] (rows : Nat) :
    calcInverse chk (ofMatrix (1 : Matrix (Fin 3) (Fin 3) K)) rows
      = .ok { value := some (ofFn rows 3 (fun i j => (-1) ^ (i + j))), cout := [] } := by
  have hone : toInt (1 : K) = 1 := by
    have h := toInt_intCast (K := K) 1 (by decide) (by decide)
    rwa [Int.cast_one] at h
  have hentries : inverseFn (entry (1 : Matrix (Fin 3) (Fin 3) K)) = fun i j => (-1) ^ (i + j) := by
    funext i j
    rw [inverseFn, detFn_one.1, detFn_one.2, hone, Int.cast_one, mul_one, div_one]
  unfold ofMatrix
  rw [calcInverse_ofFn chk rows 3 3 _ (by decide) (by decide), detFn_one.2, hone,
    if_neg one_ne_zero, hentries]

/-- The identity has a checkerboard for an inverse. -/
theorem calcInverse_identity :
    calcInverse .buffer (ofMatrix (1 : Matrix (Fin 3) (Fin 3) ℚ)) 3
        = .ok { value := some (ofFn 3 3 (fun i j => (-1) ^ (i + j))), cout := [] } ∧
      multiplyMatrices .buffer (ofMatrix (1 : Matrix (Fin 3) (Fin 3) ℚ))
        (some (ofFn 3 3 (fun i j => (-1) ^ (i + j)))) 3
        ≠ .ok (ofMatrix (1 : Matrix (Fin 3) (Fin 3) ℚ)) := by
  refine ⟨calcInverse_one .buffer 3, fun hprod => ?_⟩
  rw [ofMatrix, multiplyMatrices_ofFn .buffer 3 3 3 3 3 _ _ (by decide) (by decide) (by decide)
    (by decide)] at hprod
  have hone := ofFn_entry_eq _ (1 : Matrix (Fin 3) (Fin 3) ℚ) (Except.ok.inj hprod)
  -- The product repeats the checkerboard, which has -1 next to its first corner.
  have h01 : mulFn (entry (1 : Matrix (Fin 3) (Fin 3) ℚ)) (fun i j => (-1) ^ (i + j)) 0 1 = 0 :=
    hone 0 1
  rw [mulFn_eq, entry_one.1, entry_one.2.1, entry_one.2.2] at h01
  norm_num at h01

theorem calcInverse_not_inverse_example :
    let A : Matrix (Fin 3) (Fin 3) ℚ := !![6, 1, 1; 4, -2, 5; 2, 8, 7]
    let X : Grid ℚ := ofFn 3 3 (fun i j => (-1) ^ (i + j) / 6)
    multiplyMatrices .buffer (ofMatrix A) (some X) 3
        ≠ .ok (ofMatrix (1 : Matrix (Fin 3) (Fin 3) ℚ)) ∧
      multiplyMatrices .buffer (some X) (ofMatrix A) 3
        ≠ .ok (ofMatrix (1 : Matrix (Fin 3) (Fin 3) ℚ)) :=
  calcInverse_not_inverse .buffer _ _ [] (by decide +kernel)

/-! ### The conversion in between -/

/-- `calcInverse` decides singularity and divides by the determinant that
    `clacDeterminant` computes, and the variable in between loses nothing. -/
def UsesDeterminant (A : Matrix (Fin 3) (Fin 3) K) : Prop :=
  ∃ (d : K) (adj : GridPtr K),
    clacDeterminant chk (ofMatrix A) 3 = .ok d ∧ calcAdjoint chk (ofMatrix A) 3 = .ok adj ∧
    ((∃ out, calcInverse chk (ofMatrix A) 3 = .ok { value := none, cout := out }) ↔ d = 0) ∧
    (-2 ^ 31 ≤ trunc d ∧ trunc d < 2 ^ 31 ∧ (toInt d : K) = d) ∧
    (d ≠ 0 → ∃ (X : Grid K) (out : List String),
      calcInverse chk (ofMatrix A) 3 = .ok { value := some X, cout := out } ∧
      ∀ i j, i < 3 → j < 3 → ∃ x y, GridPtr.read chk (some X) i j = .ok x ∧
        GridPtr.read chk adj i j = .ok y ∧ x * d = y)

/-- The determinant of the code goes through the `int` unharmed exactly if it
    is an `int`, and it is a product of three terms of the first row. -/
theorem calcInverse_divides_iff [IsStrictOrderedRing K] (A : Matrix (Fin 3) (Fin 3) K) :
    UsesDeterminant chk A ↔
      ∃ n : Int, -2 ^ 31 ≤ n ∧ n < 2 ^ 31 ∧
        A 0 0 * (A 0 0 - A 0 1) * (A 0 0 - A 0 1 + A 0 2) = n := by
  have hdet : clacDeterminant chk (ofMatrix A) 3 = .ok (detFn (entry A) 3) :=
    clacDeterminant_ofFn chk 3 3 (entry A) (by omega) 3 (by omega)
  have hadj : calcAdjoint chk (ofMatrix A) 3 = .ok
      (some (ofFn 3 3 (fun i j => (-1) ^ (i + j) * detFn (entry A) 2))) :=
    calcAdjoint_ofFn chk 3 3 3 (entry A) (by omega) (by omega)
  have hinv := calcInverse_ofFn chk 3 3 3 (entry A) (by omega) (by omega)
  have hrow : detFn (entry A) 3 = A 0 0 * (A 0 0 - A 0 1) * (A 0 0 - A 0 1 + A 0 2) :=
    detFn_three (entry A)
  rw [← hrow, ← lossless_iff]
  constructor
  · rintro ⟨d, adj, hd, _, _, hlossless, _⟩
    rw [hdet, Except.ok.injEq] at hd
    rw [hd]
    exact hlossless
  · intro hlossless
    refine ⟨detFn (entry A) 3, _, hdet, hadj, ?_, hlossless, fun hne => ?_⟩
    · -- Without loss the converted value is zero exactly if the determinant is.
      have hzero : toInt (detFn (entry A) 3) = 0 ↔ detFn (entry A) 3 = 0 := by
        rw [← Int.cast_eq_zero (α := K), hlossless.2.2]
      unfold ofMatrix
      rw [hinv, ← hzero]
      by_cases h : toInt (detFn (entry A) 3) = 0
      · rw [if_pos h]
        exact iff_of_true ⟨_, rfl⟩ h
      · rw [if_neg h]
        refine iff_of_false ?_ h
        rintro ⟨out, hout⟩
        exact absurd hout (by simp only [Except.ok.injEq, Printed.mk.injEq, reduceCtorEq, false_and,
          not_false_eq_true])
    · have h : toInt (detFn (entry A) 3) ≠ 0 := by
        intro h
        rw [h, Int.cast_zero] at hlossless
        exact hne hlossless.2.2.symm
      refine ⟨ofFn 3 3 (inverseFn (entry A)), [], by unfold ofMatrix; rw [hinv, if_neg h], ?_⟩
      intro i j hi hj
      refine ⟨_, _, read_ofFn chk 3 3 _ i j hi hj, read_ofFn chk 3 3 _ i j hi hj, ?_⟩
      unfold inverseFn
      rw [hlossless.2.2]
      exact div_mul_cancel₀ _ hne

/-- A determinant of one half is taken for zero. -/
theorem calcInverse_truncates :
    let A : Matrix (Fin 3) (Fin 3) ℚ := !![1 / 2, -1 / 2, 0; 0, 1, 0; 0, 0, 1]
    clacDeterminant .buffer (ofMatrix A) 3 = .ok (1 / 2) ∧
      calcInverse .buffer (ofMatrix A) 3
        = .ok { value := none, cout := ["Singular matrix, can't find its inverse"] } := by
  decide +kernel

theorem calcInverse_divides_iff_example :
    UsesDeterminant .buffer (!![6, 1, 1; 4, -2, 5; 2, 8, 7] : Matrix (Fin 3) (Fin 3) ℚ) :=
  (calcInverse_divides_iff .buffer _).mpr ⟨180, by norm_num, by norm_num, by
    simp only [Matrix.of_apply, Matrix.cons_val]
    norm_num⟩

end SimpleDgps
