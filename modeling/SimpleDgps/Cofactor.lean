import SimpleDgps.MatrixAlgebra
import Mathlib.LinearAlgebra.Matrix.Adjugate

/-!
# Cofactors and the Adjugate

The routine that builds a minor, and the routine that should have called it.

`getCofactor` copies the entries of a matrix that lie neither in a given row nor
in a given column. Two indices advance through the result while the loops run
over the source, and `Cursor` says where they are: the position in the result is
the number of entries copied so far, written in base `n - 1`. The rows of the
result have `n - 1` entries, but they are allocated with the constant
`posMTrillatASize`. Up to dimension four they fit. From dimension five on the end
of a row and the beginning of the next one are the same cells, and from dimension
eight on the last row leaves the buffer: `getCofactor_minor_iff`.

Nothing calls `getCofactor`. `calcAdjoint` takes the same number for every minor,
so it returns the adjugate exactly if all nine minors are that number. If the
number is not zero, the product with the matrix shows what this means: every row
and every column has alternating sum zero. If it is zero, there is no minor left
and the matrix is an outer product. `calcAdjoint_adjugate_iff` says that there is
nothing in between.

## Main definitions

* `getCofactor`: The minor of an entry.
* `copyEntry`: Its loop body.
* `skip`, `kept`: Indices with and without the one that is left out.
* `Cursor`: What every iteration keeps.
* `BuildsMinor`: The result is the minor.
* `SharedCellsAgree`: Entries that end up in one cell are equal.
* `ReturnsAdjugate`: The adjoint is the adjugate.

## Theorems

* `cursor_step`: An iteration keeps position and shape.
* `copied_step`: A fitting iteration succeeds and keeps the copied entries.
* `getCofactor_fits`, `getCofactor_shared`: What a minor that was built needs.
* `getCofactor_copies`: That this is enough.
* `getCofactor_minor_iff`: When the minor is built.
* `returnsAdjugate_iff_minors`: All minors have to be one number.
* `outer_of_minors`: A matrix without a minor is an outer product.
* `mulVec_checkerboard`: What a checkerboard adjugate says about the rows.
* `minors_of_alternating`: Alternating sums zero make all minors equal.
* `calcAdjoint_adjugate_iff`: When the adjoint is the adjugate.
-/

namespace SimpleDgps

open Toolkit Loop Memory
open scoped Matrix

variable {K : Type} (chk : Check)

/-! ### The loops of the minor -/

/-- The matrix under construction and the position of its next entry. -/
structure CofactorState (K : Type) where
  temp : GridPtr K
  i : Nat
  j : Nat

/-- The position after the next entry; a filled row starts the next one. -/
def CofactorState.advance (s : CofactorState K) (temp : GridPtr K) (n : Nat) : CofactorState K :=
  if s.j + 1 = n - 1 then { temp := temp, i := s.i + 1, j := 0 }
  else { temp := temp, i := s.i, j := s.j + 1 }

/-- The loop body: an entry that is in neither the given row nor the given
    column is copied. -/
def copyEntry (A : GridPtr K) (p q n row col : Nat) (s : CofactorState K) :
    Except Fault (CofactorState K) :=
  if row ≠ p ∧ col ≠ q then do
    let x ← GridPtr.read chk A row col
    let temp ← GridPtr.write chk s.temp s.i s.j x
    .ok (s.advance temp n)
  else .ok s

def getCofactor (A : GridPtr K) (p q n : Nat) : Except Fault (GridPtr K) := do
  let s ← nest n n (copyEntry chk A p q n)
    { temp := allocate2Ddouble n posMTrillatASize, i := 0, j := 0 }
  .ok s.temp

/-- The index that the `r`-th remaining row or column had before `p` was left
    out. -/
def skip (p r : Nat) : Nat := if r < p then r else r + 1

/-- How many of the first `row` rows or columns remain without `p`. -/
def kept (p row : Nat) : Nat := if row ≤ p then row else row - 1

theorem skip_lt (p r n : Nat) (hr : r < n - 1) : skip p r < n := by
  unfold skip
  split_ifs <;> omega

theorem skip_ne (p r : Nat) : skip p r ≠ p := by
  unfold skip
  split_ifs <;> omega

theorem kept_skip (p r : Nat) : kept p (skip p r) = r := by
  unfold kept skip
  split_ifs <;> omega

theorem skip_kept (p row : Nat) (h : row ≠ p) : skip p (kept p row) = row := by
  unfold kept skip
  split_ifs <;> omega

theorem kept_succ (p row : Nat) (h : row ≠ p) : kept p (row + 1) = kept p row + 1 := by
  unfold kept
  split_ifs <;> omega

theorem kept_self_succ (p : Nat) : kept p (p + 1) = kept p p := by
  unfold kept
  split_ifs <;> omega

theorem kept_lt (p row n : Nat) (hp : p < n) (hrow : row < n) (h : row ≠ p) :
    kept p row < n - 1 := by
  unfold kept
  split_ifs <;> omega

theorem kept_end (p n : Nat) (hp : p < n) : kept p n = n - 1 := by
  unfold kept
  split_ifs <;> omega

/-- How many entries have been copied when the loops are at `(row, col)`. -/
def copied (p q n row col : Nat) : Nat :=
  kept p row * (n - 1) + if row = p then 0 else kept q col

/-- What every iteration keeps: the position is the one of the next entry, and
    the matrix has the shape it was allocated with. -/
structure Cursor (p q n row col : Nat) (s : CofactorState K) : Prop where
  position : s.i * (n - 1) + s.j = copied p q n row col
  column : s.j < n - 1
  shape : ∃ g : Grid K, s.temp = some g ∧ g.row = n ∧ g.col = 3

theorem copied_row (p q n row : Nat) (hq : q < n) :
    copied p q n row n = copied p q n (row + 1) 0 := by
  have hzero : ∀ r, (if r = p then 0 else kept q 0) = 0 := by
    intro r
    split_ifs
    · rfl
    · exact if_pos (Nat.zero_le q)
  unfold copied
  rw [hzero (row + 1), kept_end q n hq]
  by_cases hrow : row = p
  · rw [if_pos hrow, hrow, kept_self_succ]
  · rw [if_neg hrow, kept_succ p row hrow]
    ring

theorem copied_skip (p q n row col : Nat) (h : ¬(row ≠ p ∧ col ≠ q)) :
    copied p q n row (col + 1) = copied p q n row col := by
  unfold copied
  by_cases hrow : row = p
  · rw [if_pos hrow, if_pos hrow]
  · have hcol : col = q := by
      by_contra hcol
      exact h ⟨hrow, hcol⟩
    rw [if_neg hrow, if_neg hrow, hcol, kept_self_succ]

theorem copied_copy (p q n row col : Nat) (hrow : row ≠ p) (hcol : col ≠ q) :
    copied p q n row (col + 1) = copied p q n row col + 1 := by
  unfold copied
  rw [if_neg hrow, if_neg hrow, kept_succ q col hcol, Nat.add_assoc]

theorem cursor_start (p q n : Nat) (hn : 2 ≤ n) :
    Cursor p q n 0 0
      ({ temp := allocate2Ddouble n posMTrillatASize, i := 0, j := 0 } : CofactorState K) := by
  refine ⟨?_, by simp only; omega, ⟨_, rfl, rfl, rfl⟩⟩
  have hkept : ∀ k, kept k 0 = 0 := fun k => if_pos (Nat.zero_le k)
  unfold copied
  rw [hkept, hkept, ite_self]

theorem cursor_skip (p q n row col : Nat) (s : CofactorState K) (h : ¬(row ≠ p ∧ col ≠ q))
    (hs : Cursor p q n row col s) : Cursor p q n row (col + 1) s :=
  ⟨by rw [copied_skip p q n row col h, hs.position], hs.column, hs.shape⟩

theorem cursor_row (p q n row : Nat) (hq : q < n) (s : CofactorState K)
    (hs : Cursor p q n row n s) : Cursor p q n (row + 1) 0 s :=
  ⟨by rw [← copied_row p q n row hq, hs.position], hs.column, hs.shape⟩

theorem cursor_advance (p q n row col : Nat) (s : CofactorState K) (g : Grid K) (hrow : row ≠ p)
    (hcol : col ≠ q) (hg : g.row = n) (hg' : g.col = 3) (hs : Cursor p q n row col s) :
    Cursor p q n row (col + 1) (s.advance (some g) n) := by
  have hposition := hs.position
  have hcolumn := hs.column
  unfold CofactorState.advance
  split_ifs with hfull
  · refine ⟨?_, by simp only; omega, ⟨g, rfl, hg, hg'⟩⟩
    rw [copied_copy p q n row col hrow hcol, ← hposition, Nat.add_assoc, hfull, Nat.add_zero,
      Nat.succ_mul]
  · refine ⟨?_, by simp only; omega, ⟨g, rfl, hg, hg'⟩⟩
    rw [copied_copy p q n row col hrow hcol, ← hposition, Nat.add_assoc]

/-- The position is the one of the entry in the matrix without `p` and `q`. -/
theorem cursor_position (p q n row col : Nat) (s : CofactorState K) (hq : q < n) (hcoln : col < n)
    (hrow : row ≠ p) (hcol : col ≠ q) (hs : Cursor p q n row col s) :
    s.i = kept p row ∧ s.j = kept q col := by
  have hposition := hs.position
  unfold copied at hposition
  rw [if_neg hrow] at hposition
  have hkept := kept_lt q col n hq hcoln hcol
  constructor
  · rw [← cell_div s.i s.j (n - 1) hs.column, hposition, cell_div _ _ _ hkept]
  · rw [← cell_mod s.i s.j (n - 1) hs.column, hposition, cell_mod _ _ _ hkept]

theorem advance_temp (s : CofactorState K) (temp : GridPtr K) (n : Nat) :
    (s.advance temp n).temp = temp := by
  unfold CofactorState.advance
  split_ifs <;> rfl

theorem copyEntry_skip (A : GridPtr K) (p q n row col : Nat) (s : CofactorState K)
    (h : ¬(row ≠ p ∧ col ≠ q)) : copyEntry chk A p q n row col s = .ok s :=
  if_neg h

/-! ### The minor -/

variable [Field K]

/-- The result is the matrix without row `p` and column `q`, and no write has
    left its buffer. -/
def BuildsMinor {n : Nat} (A : Matrix (Fin n) (Fin n) K) (p q : Nat) : Prop :=
  ∃ temp, getCofactor .buffer (ofMatrix A) p q n = .ok temp ∧
    ∀ r c, r < n - 1 → c < n - 1 →
      GridPtr.read .buffer temp r c = .ok (entry A (skip p r) (skip q c))

/-- An entry that stays is copied to where it belongs in the minor. -/
theorem copyEntry_copy {n : Nat} (A : Matrix (Fin n) (Fin n) K) (p q row col : Nat)
    (s : CofactorState K) (hq : q < n) (hrown : row < n) (hcoln : col < n) (hrow : row ≠ p)
    (hcol : col ≠ q) (hs : Cursor p q n row col s) :
    copyEntry chk (ofMatrix A) p q n row col s
      = (GridPtr.write chk s.temp (kept p row) (kept q col) (entry A row col) >>= fun temp =>
          .ok (s.advance temp n)) := by
  rcases cursor_position p q n row col s hq hcoln hrow hcol hs with ⟨hi, hj⟩
  unfold copyEntry ofMatrix
  rw [if_pos ⟨hrow, hcol⟩, read_ofFn chk n n (entry A) row col hrown hcoln, ok_bind, hi, hj]

/-- Every iteration that passes keeps the position and the shape. -/
theorem cursor_step {n : Nat} (A : Matrix (Fin n) (Fin n) K) (p q row col : Nat)
    (s s' : CofactorState K) (hq : q < n) (hrown : row < n) (hcoln : col < n)
    (hs : Cursor p q n row col s) (hstep : copyEntry chk (ofMatrix A) p q n row col s = .ok s') :
    Cursor p q n row (col + 1) s' := by
  by_cases h : row ≠ p ∧ col ≠ q
  · rw [copyEntry_copy chk A p q row col s hq hrown hcoln h.1 h.2 hs] at hstep
    rcases bind_eq_ok _ _ _ hstep with ⟨temp, hwrite, hnext⟩
    rcases hs.shape with ⟨g, hg, hgrow, hgcol⟩
    rw [hg] at hwrite
    rcases write_ok chk g _ _ _ temp hwrite with ⟨k, hoff⟩
    rcases read_write chk g _ _ k (entry A row col) hoff with ⟨g', hwrite', hrow', hcol', _⟩
    rw [hwrite', Except.ok.injEq] at hwrite
    rw [← hwrite, Except.ok.injEq] at hnext
    rw [← hnext]
    exact cursor_advance p q n row col s g' h.1 h.2 (hrow'.trans hgrow) (hcol'.trans hgcol) hs
  · rw [copyEntry_skip chk _ p q n row col s h, Except.ok.injEq] at hstep
    rw [← hstep]
    exact cursor_skip p q n row col s h hs

/-- Cells that two entries of the minor share hold the same value. -/
def SharedCellsAgree {n : Nat} (A : Matrix (Fin n) (Fin n) K) (p q : Nat) : Prop :=
  ∀ r c, r + 1 < n - 1 → c + 3 < n - 1 →
    entry A (skip p r) (skip q (c + 3)) = entry A (skip p (r + 1)) (skip q c)

/-- The entries copied so far can be read where they belong. -/
def Copied {n : Nat} (A : Matrix (Fin n) (Fin n) K) (p q row col : Nat) (s : CofactorState K) :
    Prop :=
  ∀ r c, r < n - 1 → c < n - 1 → r * (n - 1) + c < copied p q n row col →
    GridPtr.read .buffer s.temp r c = .ok (entry A (skip p r) (skip q c))

/-- An entry that shares its cell with an earlier one belongs to the next row. -/
theorem shared_cell (N r c r' c' : Nat) (hN : N ≤ 6) (hc : c < N) (hc' : c' < N)
    (hbefore : r * N + c < r' * N + c') (hcell : r * 3 + c = r' * 3 + c') :
    r' = r + 1 ∧ c = c' + 3 := by
  have hrow : r ≤ r' := by
    rw [← cell_div r c N hc, ← cell_div r' c' N hc']
    exact Nat.div_le_div_right (Nat.le_of_lt hbefore)
  by_cases hrr : r = r'
  · -- In one row, different columns are different cells.
    rw [hrr] at hbefore hcell
    omega
  · omega

/-- While the matrix is small enough and shared cells agree, an iteration copies
    its entry and keeps the ones before. -/
theorem copied_step {n : Nat} (A : Matrix (Fin n) (Fin n) K) (p q row col : Nat)
    (s : CofactorState K) (hn : n ≤ 7) (hagree : SharedCellsAgree A p q) (hp : p < n) (hq : q < n)
    (hrown : row < n) (hcoln : col < n) (hs : Cursor p q n row col s)
    (hcopied : Copied A p q row col s) :
    ∃ s', copyEntry .buffer (ofMatrix A) p q n row col s = .ok s' ∧
      Cursor p q n row (col + 1) s' ∧ Copied A p q row (col + 1) s' := by
  by_cases h : row ≠ p ∧ col ≠ q
  · rcases h with ⟨hrow, hcol⟩
    have hkr := kept_lt p row n hp hrown hrow
    have hkc := kept_lt q col n hq hcoln hcol
    rcases hs.shape with ⟨g, hg, hgrow, hgcol⟩
    have hoff : g.offset .buffer (kept p row) (kept q col)
        = some (kept p row * 3 + kept q col) := by
      unfold Grid.offset
      rw [hgrow, hgcol, if_pos ⟨by omega, by omega, fun h => absurd h (by decide)⟩]
    rcases read_write .buffer g _ _ _ (entry A row col) hoff
      with ⟨g', hwrite, hrow', hcol', hread⟩
    refine ⟨s.advance (some g') n, ?_,
      cursor_advance p q n row col s g' hrow hcol (hrow'.trans hgrow) (hcol'.trans hgcol) hs, ?_⟩
    · rw [copyEntry_copy .buffer A p q row col s hq hrown hcoln hrow hcol hs, hg, hwrite, ok_bind]
    · intro r c hr hc hbefore
      rw [advance_temp, hread r c]
      rw [copied_copy p q n row col hrow hcol] at hbefore
      have hcount : copied p q n row col = kept p row * (n - 1) + kept q col := by
        unfold copied
        rw [if_neg hrow]
      by_cases hlast : r * (n - 1) + c = copied p q n row col
      · -- This is the entry of this iteration.
        rw [hcount] at hlast
        have hrr : r = kept p row := by
          rw [← cell_div r c (n - 1) hc, hlast, cell_div _ _ _ hkc]
        have hcc : c = kept q col := by
          rw [← cell_mod r c (n - 1) hc, hlast, cell_mod _ _ _ hkc]
        rw [hrr, hcc, if_pos hoff, skip_kept p row hrow, skip_kept q col hcol]
      · have hold := hcopied r c hr hc (by omega)
        by_cases hcell : g.offset .buffer r c = some (kept p row * 3 + kept q col)
        · -- An entry in the same cell is an earlier one, and has the same value.
          rw [if_pos hcell]
          have hflat : r * 3 + c = kept p row * 3 + kept q col := by
            have hk := (offset_some .buffer g r c _ hcell).2.2.2
            rwa [hgcol] at hk
          rcases shared_cell (n - 1) r c _ _ (by omega) hc hkc (by omega) hflat with ⟨hr', hc'⟩
          have hvalue := hagree r (kept q col) (by omega) (by omega)
          rw [← hr', skip_kept p row hrow, skip_kept q col hcol, ← hc'] at hvalue
          rw [hvalue]
        · rw [if_neg hcell, ← hg, hold]
  · refine ⟨s, copyEntry_skip .buffer _ p q n row col s h, cursor_skip p q n row col s h hs, ?_⟩
    intro r c hr hc hbefore
    rw [copied_skip p q n row col h] at hbefore
    exact hcopied r c hr hc hbefore

/-- A run that ended went through every iteration at the position that the
    counters say. -/
theorem getCofactor_rounds (n : Nat) (hn : 2 ≤ n) (A : Matrix (Fin n) (Fin n) K) (p q : Nat)
    (hq : q < n) (temp : GridPtr K) (hrun : getCofactor chk (ofMatrix A) p q n = .ok temp) :
    (∃ g : Grid K, temp = some g ∧ g.row = n ∧ g.col = 3) ∧
      ∀ row col, row < n → col < n → ∃ u v : CofactorState K, Cursor p q n row col u ∧
        copyEntry chk (ofMatrix A) p q n row col u = .ok v := by
  unfold getCofactor at hrun
  rcases bind_eq_ok _ _ _ hrun with ⟨s, hloop, htemp⟩
  rw [Except.ok.injEq] at htemp
  rcases nest_rounds (Cursor p q n) n n _ _ s (cursor_start p q n hn)
    (fun row s _ hs => cursor_row p q n row hq s hs)
    (fun row col s s' hrow hcol hs => cursor_step chk A p q row col s s' hq hrow hcol hs) hloop
    with ⟨hs, hrounds⟩
  rw [← htemp]
  exact ⟨hs.shape, hrounds⟩

/-- The last entry of the minor is written inside the buffer up to dimension
    seven only. -/
theorem getCofactor_fits (n : Nat) (hn : 2 ≤ n) (A : Matrix (Fin n) (Fin n) K) (p q : Nat)
    (hq : q < n) (temp : GridPtr K) (hrun : getCofactor .buffer (ofMatrix A) p q n = .ok temp) :
    n ≤ 7 := by
  have hrow : skip p (n - 2) < n := skip_lt p _ n (by omega)
  have hcol : skip q (n - 2) < n := skip_lt q _ n (by omega)
  rcases (getCofactor_rounds .buffer n hn A p q hq temp hrun).2 _ _ hrow hcol
    with ⟨u, v, hu, hstep⟩
  rw [copyEntry_copy .buffer A p q _ _ u hq hrow hcol (skip_ne p _) (skip_ne q _) hu] at hstep
  rcases bind_eq_ok _ _ _ hstep with ⟨temp', hwrite, _⟩
  rcases hu.shape with ⟨g, hg, hgrow, hgcol⟩
  rw [hg] at hwrite
  rcases write_ok .buffer g _ _ _ temp' hwrite with ⟨k, hoff⟩
  have hin := (offset_some .buffer g _ _ k hoff).2.1
  rw [hgrow, hgcol, kept_skip, kept_skip] at hin
  omega

/-- Entries that share a cell are read from it both. -/
theorem getCofactor_shared (n : Nat) (hn : 2 ≤ n) (A : Matrix (Fin n) (Fin n) K) (p q : Nat)
    (hq : q < n) (h : BuildsMinor A p q) : SharedCellsAgree A p q := by
  rcases h with ⟨temp, hrun, hread⟩
  rcases (getCofactor_rounds .buffer n hn A p q hq temp hrun).1 with ⟨g, hg, hgrow, hgcol⟩
  rw [hg] at hread
  intro r c hr hc
  have hsame := read_same_cell g r (c + 3) (r + 1) c (by omega) (by omega) (by rw [hgcol]; ring)
  rw [hread r (c + 3) (by omega) hc, hread (r + 1) c hr (by omega), Except.ok.injEq] at hsame
  exact hsame

/-- A matrix that is small enough, and whose shared cells agree, has its minor
    built. -/
theorem getCofactor_copies (n : Nat) (hn : 2 ≤ n) (A : Matrix (Fin n) (Fin n) K) (p q : Nat)
    (hp : p < n) (hq : q < n) (hsmall : n ≤ 7) (hagree : SharedCellsAgree A p q) :
    BuildsMinor A p q := by
  have hstart : Cursor p q n 0 0
      ({ temp := allocate2Ddouble n posMTrillatASize, i := 0, j := 0 } : CofactorState K) :=
    cursor_start p q n hn
  have hnone : Copied A p q 0 0
      ({ temp := allocate2Ddouble n posMTrillatASize, i := 0, j := 0 } : CofactorState K) := by
    intro r c _ _ hbefore
    rw [← hstart.position] at hbefore
    simp only at hbefore
    omega
  have hrow : ∀ row s, row < n → Cursor p q n row n s ∧ Copied A p q row n s →
      Cursor p q n (row + 1) 0 s ∧ Copied A p q (row + 1) 0 s := by
    rintro row s _ ⟨hs, hcopied⟩
    refine ⟨cursor_row p q n row hq s hs, fun r c hr hc hbefore => ?_⟩
    rw [← copied_row p q n row hq] at hbefore
    exact hcopied r c hr hc hbefore
  rcases nest_total (fun row col s => Cursor p q n row col s ∧ Copied A p q row col s) n n
    (copyEntry .buffer (ofMatrix A) p q n) _ ⟨hstart, hnone⟩ hrow
    (fun row col s hrown hcoln h =>
      copied_step A p q row col s hsmall hagree hp hq hrown hcoln h.1 h.2)
    with ⟨s, hloop, _, hcopied⟩
  -- At the end everything has been copied.
  have hend : copied p q n n 0 = (n - 1) * (n - 1) := by
    unfold copied
    rw [kept_end p n hp, if_neg (by omega), kept, if_pos (Nat.zero_le q), Nat.add_zero]
  refine ⟨s.temp, by unfold getCofactor; rw [hloop, ok_bind], fun r c hr hc => ?_⟩
  exact hcopied r c hr hc (by rw [hend]; exact cell_lt r c _ _ hr hc)

/-- The minor is built exactly in the dimensions that fit the buffer, and there
    only from entries that do not get in each other's way. -/
theorem getCofactor_minor_iff (n : Nat) (hn : 2 ≤ n) (A : Matrix (Fin n) (Fin n) K) (p q : Nat)
    (hp : p < n) (hq : q < n) : BuildsMinor A p q ↔ n ≤ 7 ∧ SharedCellsAgree A p q := by
  constructor
  · intro h
    have hshared := getCofactor_shared n hn A p q hq h
    rcases h with ⟨temp, hrun, _⟩
    exact ⟨getCofactor_fits n hn A p q hq temp hrun, hshared⟩
  · rintro ⟨hsmall, hagree⟩
    exact getCofactor_copies n hn A p q hp hq hsmall hagree

/-- The repository's test matrix, without its first row and second column. -/
theorem getCofactor_minor_iff_example :
    BuildsMinor (!![6, 1, 1; 4, -2, 5; 2, 8, 7] : Matrix (Fin 3) (Fin 3) ℚ) 0 1 :=
  (getCofactor_minor_iff 3 (by decide) _ 0 1 (by decide) (by decide)).mpr
    ⟨by decide, fun r c _ hc => absurd hc (by omega)⟩

/-- In dimension five the fourth entry of a row is overwritten by the next row,
    and in dimension eight the last row leaves the buffer. -/
theorem getCofactor_overlaps :
    ¬BuildsMinor (Matrix.of fun i j : Fin 5 => (5 * (i : Nat) + j : ℚ)) 0 0 ∧
      ¬BuildsMinor (0 : Matrix (Fin 8) (Fin 8) ℚ) 0 0 := by
  constructor
  · intro h
    -- The entries 9 and 11 end up in one cell.
    have hshared := getCofactor_shared 5 (by decide) _ 0 0 (by decide) h 0 0 (by decide) (by decide)
    norm_num [entry, skip] at hshared
  · rintro ⟨temp, hrun, _⟩
    exact absurd (getCofactor_fits 8 (by decide) _ 0 0 (by decide) temp hrun) (by decide)

/-! ### The adjugate -/

/-- Every entry of the adjoint is a signed minor, and the product with it is
    the determinant times the identity. -/
def ReturnsAdjugate (A : Matrix (Fin 3) (Fin 3) K) : Prop :=
  ∃ adj, calcAdjoint chk (ofMatrix A) 3 = .ok adj ∧
    (∀ i j : Fin 3, GridPtr.read chk adj i j
      = .ok ((-1) ^ ((i : Nat) + j) * (A.submatrix j.succAbove i.succAbove).det)) ∧
    multiplyMatrices chk (ofMatrix A) adj 3
      = .ok (ofMatrix (A.det • (1 : Matrix (Fin 3) (Fin 3) K)))

/-- The value in every entry of the adjoint. -/
theorem calcAdjoint_entry (A : Matrix (Fin 3) (Fin 3) K) :
    calcAdjoint chk (ofMatrix A) 3
      = .ok (some (ofFn 3 3 (fun i j => (-1) ^ (i + j) * (A 0 0 * (A 0 0 - A 0 1))))) := by
  unfold ofMatrix
  rw [calcAdjoint_ofFn chk 3 3 3 (entry A) (by omega) (by omega), detFn_two]
  rfl

/-- If all minors are one number, the adjugate is that number in a checkerboard
    of signs. -/
theorem adjugate_of_minors (A : Matrix (Fin 3) (Fin 3) K) (d : K)
    (h : ∀ i j : Fin 3, (A.submatrix i.succAbove j.succAbove).det = d) (i j : Fin 3) :
    A.adjugate i j = (-1) ^ ((i : Nat) + j) * d := by
  rw [Matrix.adjugate_fin_succ_eq_det_submatrix, h j i, Nat.add_comm]

/-- The adjoint is the adjugate exactly if all nine minors are one number. -/
theorem returnsAdjugate_iff_minors (A : Matrix (Fin 3) (Fin 3) K) :
    ReturnsAdjugate chk A ↔
      ∀ i j : Fin 3, (A.submatrix i.succAbove j.succAbove).det = A 0 0 * (A 0 0 - A 0 1) := by
  constructor
  · rintro ⟨adj, hadj, hread, _⟩ i j
    rw [calcAdjoint_entry, Except.ok.injEq] at hadj
    have hij := hread j i
    rw [← hadj, read_ofFn chk 3 3 _ j i j.isLt i.isLt, Except.ok.injEq] at hij
    exact (mul_left_cancel₀ (pow_ne_zero _ (neg_ne_zero.mpr one_ne_zero)) hij).symm
  · intro hminors
    have hentry : ∀ i j : Fin 3, (-1) ^ ((i : Nat) + j) * (A 0 0 * (A 0 0 - A 0 1))
        = A.adjugate i j := fun i j => (adjugate_of_minors A _ hminors i j).symm
    refine ⟨_, calcAdjoint_entry chk A, fun i j => ?_, ?_⟩
    · rw [read_ofFn chk 3 3 _ i j i.isLt j.isLt, hminors j i]
    · rw [ofFn_eq_ofMatrix _ A.adjugate hentry, multiplyMatrices_ofMatrix, Matrix.mul_adjugate]

/-- Two different rows are the ones that some row leaves over. -/
theorem succAbove_pair : ∀ r i : Fin 3, r ≠ i → ∃ k : Fin 3,
    (k.succAbove 0 = r ∧ k.succAbove 1 = i) ∨ (k.succAbove 0 = i ∧ k.succAbove 1 = r) := by
  decide

/-- A matrix without a minor is an outer product. -/
theorem outer_of_minors (A : Matrix (Fin 3) (Fin 3) K)
    (h : ∀ i j : Fin 3, (A.submatrix i.succAbove j.succAbove).det = 0) :
    ∃ u w : Fin 3 → K, A = Matrix.vecMulVec u w := by
  have hcross : ∀ r i c j : Fin 3, A r c * A i j = A r j * A i c := by
    intro r i c j
    by_cases hri : r = i
    · rw [hri, mul_comm]
    by_cases hcj : c = j
    · rw [hcj]
    rcases succAbove_pair r i hri with ⟨k, hk⟩
    rcases succAbove_pair c j hcj with ⟨l, hl⟩
    have hkl := h k l
    rw [Matrix.det_fin_two] at hkl
    simp only [Matrix.submatrix_apply] at hkl
    rcases hk with ⟨hk0, hk1⟩ | ⟨hk0, hk1⟩ <;> rcases hl with ⟨hl0, hl1⟩ | ⟨hl0, hl1⟩ <;>
      rw [hk0, hk1, hl0, hl1] at hkl
    · linear_combination hkl
    · linear_combination -hkl
    · linear_combination -hkl
    · linear_combination hkl
  by_cases hzero : ∀ i j, A i j = 0
  · refine ⟨0, 0, Matrix.ext (fun i j => ?_)⟩
    rw [hzero i j, Matrix.vecMulVec_apply, Pi.zero_apply, zero_mul]
  · push Not at hzero
    rcases hzero with ⟨i, j, hij⟩
    refine ⟨fun r => A r j, fun c => A i c / A i j, Matrix.ext (fun r c => ?_)⟩
    rw [Matrix.vecMulVec_apply, ← mul_div_assoc, eq_div_iff hij]
    exact hcross r i c j

theorem mulVec_checkerboard_apply (A : Matrix (Fin 3) (Fin 3) K) (i : Fin 3) :
    (A *ᵥ checkerboard) i = A i 0 - A i 1 + A i 2 := by
  rw [Matrix.mulVec, dotProduct, Fin.sum_univ_three]
  simp only [checkerboard, Matrix.cons_val]
  ring

/-- An adjugate that is one non-zero value in a checkerboard leaves nothing of
    the alternating sums of the rows. -/
theorem mulVec_checkerboard (A : Matrix (Fin 3) (Fin 3) K) (d : K) (hd : d ≠ 0)
    (h : ∀ i j : Fin 3, A.adjugate i j = (-1) ^ ((i : Nat) + j) * d) : A *ᵥ checkerboard = 0 := by
  have hoff : ∀ i j : Fin 3, i ≠ j → (A * A.adjugate) i j = 0 := by
    intro i j hij
    rw [Matrix.mul_adjugate, Matrix.smul_apply, Matrix.one_apply_ne hij, smul_zero]
  have hnext : ∀ i : Fin 3, i ≠ i + 1 := by decide
  funext i
  have hi := hoff i (i + 1) (hnext i)
  rw [Matrix.mul_apply, Fin.sum_univ_three, h, h, h] at hi
  have hprod : (-1) ^ ((i + 1 : Fin 3) : Nat) * d * (A i 0 - A i 1 + A i 2) = 0 := by
    rw [← hi]
    simp only [Fin.val_zero, Fin.val_one, Fin.val_two, pow_add, pow_zero, pow_one]
    ring
  rw [mulVec_checkerboard_apply, Pi.zero_apply]
  exact (mul_eq_zero.mp hprod).resolve_left
    (mul_ne_zero (pow_ne_zero _ (neg_ne_zero.mpr one_ne_zero)) hd)

/-- A matrix whose rows and columns all have alternating sum zero has the same
    minor everywhere. -/
theorem minors_of_alternating (A : Matrix (Fin 3) (Fin 3) K) (hrow : A *ᵥ checkerboard = 0)
    (hcol : checkerboard ᵥ* A = 0) (i j : Fin 3) :
    (A.submatrix i.succAbove j.succAbove).det = A 0 0 * A 1 1 - A 0 1 * A 1 0 := by
  have hlast : ∀ r, A r 2 = A r 1 - A r 0 := by
    intro r
    have hr := congrFun hrow r
    rw [mulVec_checkerboard_apply, Pi.zero_apply] at hr
    linear_combination hr
  have hbottom : ∀ c, A 2 c = A 1 c - A 0 c := by
    intro c
    have hc := congrFun hcol c
    rw [← Matrix.mulVec_transpose, mulVec_checkerboard_apply, Pi.zero_apply] at hc
    simp only [Matrix.transpose_apply] at hc
    linear_combination hc
  rw [Matrix.det_fin_two]
  simp only [Matrix.submatrix_apply]
  -- The nine minors, each in terms of the block of the first two rows and columns.
  have h00 : (0 : Fin 3).succAbove 0 = 1 := rfl
  have h01 : (0 : Fin 3).succAbove 1 = 2 := rfl
  have h10 : (1 : Fin 3).succAbove 0 = 0 := rfl
  have h11 : (1 : Fin 3).succAbove 1 = 2 := rfl
  have h20 : (2 : Fin 3).succAbove 0 = 0 := rfl
  have h21 : (2 : Fin 3).succAbove 1 = 1 := rfl
  have hcases : ∀ k : Fin 3, k = 0 ∨ k = 1 ∨ k = 2 := by decide
  rcases hcases i with rfl | rfl | rfl <;> rcases hcases j with rfl | rfl | rfl <;>
    simp only [h00, h01, h10, h11, h20, h21, hbottom, hlast] <;> ring

theorem minors_of_outer (u w : Fin 3 → K) (i j : Fin 3) :
    ((Matrix.vecMulVec u w).submatrix i.succAbove j.succAbove).det = 0 := by
  rw [Matrix.det_fin_two]
  simp only [Matrix.submatrix_apply, Matrix.vecMulVec_apply]
  ring

/-- The adjoint is the adjugate on these two kinds of matrices and on no
    others. -/
theorem calcAdjoint_adjugate_iff (A : Matrix (Fin 3) (Fin 3) K) :
    ReturnsAdjugate chk A ↔
      (A *ᵥ checkerboard = 0 ∧ checkerboard ᵥ* A = 0 ∧
        A 0 0 * A 1 1 - A 0 1 * A 1 0 = A 0 0 * (A 0 0 - A 0 1)) ∨
      ((∃ u w : Fin 3 → K, A = Matrix.vecMulVec u w) ∧ A 0 0 * (A 0 0 - A 0 1) = 0) := by
  rw [returnsAdjugate_iff_minors]
  constructor
  · intro hminors
    by_cases hd : A 0 0 * (A 0 0 - A 0 1) = 0
    · -- The common value is zero, and a matrix without a minor is an outer product.
      exact Or.inr ⟨outer_of_minors A (fun i j => by rw [hminors i j, hd]), hd⟩
    · -- The columns are the rows of the transposed matrix.
      have hadj := adjugate_of_minors A _ hminors
      have hadjT : ∀ i j : Fin 3,
          Aᵀ.adjugate i j = (-1) ^ ((i : Nat) + j) * (A 0 0 * (A 0 0 - A 0 1)) := by
        intro i j
        rw [← Matrix.adjugate_transpose, Matrix.transpose_apply, hadj j i, Nat.add_comm]
      have hrow := mulVec_checkerboard A _ hd hadj
      have hcol := mulVec_checkerboard Aᵀ _ hd hadjT
      rw [Matrix.mulVec_transpose] at hcol
      refine Or.inl ⟨hrow, hcol, ?_⟩
      rw [← minors_of_alternating A hrow hcol 0 0, hminors 0 0]
  · rintro (⟨hrow, hcol, hblock⟩ | ⟨⟨u, w, hA⟩, hzero⟩) i j
    · rw [minors_of_alternating A hrow hcol i j, hblock]
    · rw [hzero, hA, minors_of_outer]

/-- The repository's test matrix again. Its first minor is -54, and the code
    has 30 in every entry. -/
theorem calcAdjoint_misses :
    ¬ReturnsAdjugate .buffer (!![6, 1, 1; 4, -2, 5; 2, 8, 7] : Matrix (Fin 3) (Fin 3) ℚ) := by
  rw [returnsAdjugate_iff_minors]
  intro hminors
  have hfirst := hminors 0 0
  have h0 : (0 : Fin 3).succAbove 0 = 1 := rfl
  have h1 : (0 : Fin 3).succAbove 1 = 2 := rfl
  rw [Matrix.det_fin_two] at hfirst
  simp only [Matrix.submatrix_apply, h0, h1, Matrix.of_apply, Matrix.cons_val] at hfirst
  norm_num at hfirst

end SimpleDgps
