import SimpleDgps.Toolkit.Loop
import Mathlib.Algebra.Order.Group.Nat
import Mathlib.Tactic.Ring

/-!
# Checked Arrays

Arrays as a C program sees them, with the accesses that C leaves undefined
turned into faults.

A two-dimensional array is one flat buffer and a table of row pointers: row `i`
starts `i * col` cells into the buffer. Allocation does not clear the buffer, so
a cell holds `none` until it is first written, and reading it before that is a
fault of its own. An index past the row's own columns need not leave the buffer:
it lands in the next row. `Check` says which of the two readings of "in range"
an access is tested against. Under `buffer` an access is a fault only if C gives
it no meaning; under `extent` it must also respect the column count the array
was allocated with. A result that holds for both is a result about the program,
and the `extent` half is what a claim about array bounds is made of.

`ofCells` writes a grid down by the contents of its cells, and the theorems say
what a read and a write do in that form. A loop that fills a grid is then a
sequence of cell functions, which is what `Loop.nest_eq` asks for.

## Main definitions

* `Fault`: What an access can do wrong.
* `Check`: Which accesses count as in range.
* `Grid`: A flat buffer seen as rows of equal length.
* `Grid.offset`: The buffer cell an index pair addresses, if it is in range.
* `GridPtr`: A pointer to a grid, possibly null.
* `ofCells`: The grid with given cell contents.
* `ofFn`: The fully written grid with given entries.
* `put`: Cell contents with one cell overwritten.
* `get`, `set`: Access to a one-dimensional array.
* `vec`: The array with given entries.

## Theorems

* `offset_some`: What having an offset says about an index pair.
* `offset_injective`: Distinct index pairs in extent address distinct cells.
* `alloc_eq`: A fresh grid has no written cell.
* `ofCells_congr`: A grid is determined by the cells in its extent.
* `read_ofCells`, `write_ofCells`: Access in extent, under either check.
* `read_row_error`: Indexing a row that does not exist is out of range.
* `read_ofFn_or`: Reading a fully written grid can only go out of range.
* `read_write`, `read_same_cell`: Access by the cell that is addressed.
* `read_ok`, `write_ok`: An access that passes addresses a cell.
* `read_extent`, `write_extent`: What an access that passes under `extent` did.
* `nest_fill`: A nest that writes every cell once fills the grid.
* `get_vec`, `set_vec`: Access to an array given by its entries.
-/

namespace Toolkit

namespace Memory

/-- What an access can do wrong. -/
inductive Fault
  | nullPointer
  | outOfRange
  | uninitialised
  | endIterator
  deriving DecidableEq, Repr

/-- Which accesses count as in range: those that stay inside the buffer, or
    only those that also stay inside their own row. -/
inductive Check
  | buffer
  | extent
  deriving DecidableEq, Repr

/-- A buffer of `row * col` cells, row `i` starting at cell `i * col`. -/
structure Grid (α : Type) where
  row : Nat
  col : Nat
  data : List (Option α)
  size : data.length = row * col
  deriving DecidableEq

variable {α : Type}

/-- An uninitialised buffer. -/
def Grid.alloc (row col : Nat) : Grid α :=
  { row := row, col := col, data := List.replicate (row * col) none,
    size := List.length_replicate }

/-- The cell that the index pair addresses: the row pointer must exist and the
    cell must lie in the buffer, and under `extent` the column in its row. -/
def Grid.offset (chk : Check) (g : Grid α) (i j : Nat) : Option Nat :=
  if i < g.row ∧ i * g.col + j < g.row * g.col ∧ (chk = .extent → j < g.col) then
    some (i * g.col + j)
  else none

/-- A pointer to a grid, `none` being the null pointer. -/
abbrev GridPtr (α : Type) := Option (Grid α)

/-- The value of `p[i][j]`. -/
def GridPtr.read (chk : Check) (p : GridPtr α) (i j : Nat) : Except Fault α :=
  match p with
  | none => .error .nullPointer
  | some g => match g.offset chk i j with
    | none => .error .outOfRange
    | some k => match g.data[k]? with
      | some (some x) => .ok x
      | _ => .error .uninitialised

/-- The assignment `p[i][j] = x`. -/
def GridPtr.write (chk : Check) (p : GridPtr α) (i j : Nat) (x : α) : Except Fault (GridPtr α) :=
  match p with
  | none => .error .nullPointer
  | some g => match g.offset chk i j with
    | none => .error .outOfRange
    | some k => .ok (some { g with
        data := g.data.set k (some x), size := by rw [List.length_set, g.size] })

/-- The value of `v[i]`. -/
def get (v : List α) (i : Nat) : Except Fault α :=
  match v[i]? with
  | none => .error .outOfRange
  | some x => .ok x

/-- The assignment `v[i] = x`. -/
def set (v : List α) (i : Nat) (x : α) : Except Fault (List α) :=
  if i < v.length then .ok (v.set i x) else .error .outOfRange

/-! ### Offsets -/

theorem cell_lt (i j m n : Nat) (hi : i < m) (hj : j < n) : i * n + j < m * n := by
  have hrow : i * n + n ≤ m * n := by
    rw [← Nat.succ_mul]
    exact Nat.mul_le_mul_right n hi
  omega

theorem cell_div (i j n : Nat) (hj : j < n) : (i * n + j) / n = i := by
  rw [Nat.mul_comm, Nat.mul_add_div (by omega), Nat.div_eq_of_lt hj, Nat.add_zero]

theorem cell_mod (i j n : Nat) (hj : j < n) : (i * n + j) % n = j := by
  rw [Nat.mul_comm, Nat.mul_add_mod, Nat.mod_eq_of_lt hj]

theorem offset_eq (chk : Check) (g : Grid α) (i j : Nat) (hi : i < g.row) (hj : j < g.col) :
    g.offset chk i j = some (i * g.col + j) :=
  if_pos ⟨hi, cell_lt i j g.row g.col hi hj, fun _ => hj⟩

/-- What having an offset says about an index pair. -/
theorem offset_some (chk : Check) (g : Grid α) (i j k : Nat) (h : g.offset chk i j = some k) :
    i < g.row ∧ i * g.col + j < g.row * g.col ∧ (chk = .extent → j < g.col) ∧
      i * g.col + j = k := by
  unfold Grid.offset at h
  by_cases hin : i < g.row ∧ i * g.col + j < g.row * g.col ∧ (chk = .extent → j < g.col)
  · rw [if_pos hin, Option.some.injEq] at h
    exact ⟨hin.1, hin.2.1, hin.2.2, h⟩
  · rw [if_neg hin] at h
    exact absurd h (by simp only [reduceCtorEq, not_false_eq_true])

/-- Distinct index pairs in extent address distinct cells. -/
theorem offset_injective (chk : Check) (g : Grid α) (i j i' j' : Nat) (hj : j < g.col)
    (hj' : j' < g.col) (hi : i < g.row) (hi' : i' < g.row)
    (h : g.offset chk i j = g.offset chk i' j') : i = i' ∧ j = j' := by
  rw [offset_eq chk g i j hi hj, offset_eq chk g i' j' hi' hj', Option.some.injEq] at h
  -- Row and column are quotient and remainder of the offset.
  constructor
  · rw [← cell_div i j g.col hj, h, cell_div i' j' g.col hj']
  · rw [← cell_mod i j g.col hj, h, cell_mod i' j' g.col hj']

/-! ### Grids by their cells -/

/-- The grid whose cell `(i, j)` holds `c i j`. -/
def ofCells (m n : Nat) (c : Nat → Nat → Option α) : Grid α :=
  { row := m, col := n, data := (List.range (m * n)).map (fun k => c (k / n) (k % n)),
    size := by rw [List.length_map, List.length_range] }

/-- The fully written grid with entries `f i j`. -/
def ofFn (m n : Nat) (f : Nat → Nat → α) : Grid α :=
  ofCells m n (fun i j => some (f i j))

theorem alloc_eq (m n : Nat) : (Grid.alloc m n : Grid α) = ofCells m n (fun _ _ => none) := by
  simp only [Grid.alloc, ofCells, List.map_const', List.length_range]

theorem ofCells_data (m n : Nat) (c : Nat → Nat → Option α) (k : Nat) (hk : k < m * n) :
    (ofCells m n c).data[k]? = some (c (k / n) (k % n)) := by
  simp only [ofCells, List.getElem?_map, List.getElem?_range hk, Option.map_some]

/-- A grid is determined by the cells in its extent. -/
theorem ofCells_congr (m n : Nat) (c c' : Nat → Nat → Option α)
    (h : ∀ i j, i < m → j < n → c i j = c' i j) : ofCells m n c = ofCells m n c' := by
  have hdata : (List.range (m * n)).map (fun k => c (k / n) (k % n))
      = (List.range (m * n)).map (fun k => c' (k / n) (k % n)) := by
    refine List.map_congr_left (fun k hk => ?_)
    have hlt : k < m * n := List.mem_range.mp hk
    -- A grid with a cell has a column.
    have hn : 0 < n := Nat.pos_of_ne_zero (fun h0 => by rw [h0] at hlt; omega)
    exact h _ _ (Nat.div_lt_of_lt_mul (by rwa [Nat.mul_comm])) (Nat.mod_lt k hn)
  simp only [ofCells, hdata]

theorem read_ofCells (chk : Check) (m n : Nat) (c : Nat → Nat → Option α) (i j : Nat) (x : α)
    (hi : i < m) (hj : j < n) (hx : c i j = some x) :
    GridPtr.read chk (some (ofCells m n c)) i j = .ok x := by
  have hoff : (ofCells m n c).offset chk i j = some (i * n + j) := offset_eq chk _ i j hi hj
  have hcell : (ofCells m n c).data[i * n + j]? = some (some x) := by
    rw [ofCells_data m n c _ (cell_lt i j m n hi hj), cell_div i j n hj, cell_mod i j n hj, hx]
  simp only [GridPtr.read, hoff, hcell]

theorem read_ofFn (chk : Check) (m n : Nat) (f : Nat → Nat → α) (i j : Nat) (hi : i < m)
    (hj : j < n) : GridPtr.read chk (some (ofFn m n f)) i j = .ok (f i j) :=
  read_ofCells chk m n _ i j (f i j) hi hj rfl

/-- Cell contents with cell `(i, j)` overwritten. -/
def put (c : Nat → Nat → Option α) (i j : Nat) (x : α) : Nat → Nat → Option α :=
  fun i' j' => if i' = i ∧ j' = j then some x else c i' j'

theorem put_self (c : Nat → Nat → Option α) (i j : Nat) (x : α) : put c i j x i j = some x :=
  if_pos ⟨rfl, rfl⟩

theorem put_put (c : Nat → Nat → Option α) (i j : Nat) (x y : α) :
    put (put c i j x) i j y = put c i j y := by
  funext i' j'
  unfold put
  by_cases h : i' = i ∧ j' = j
  · rw [if_pos h, if_pos h]
  · rw [if_neg h, if_neg h, if_neg h]

/-- Overwriting a cell with what it holds changes nothing. -/
theorem put_same (c : Nat → Nat → Option α) (i j : Nat) (x : α) (h : c i j = some x) :
    put c i j x = c := by
  funext i' j'
  unfold put
  by_cases hij : i' = i ∧ j' = j
  · rw [if_pos hij, hij.1, hij.2, h]
  · rw [if_neg hij]

theorem write_ofCells (chk : Check) (m n : Nat) (c : Nat → Nat → Option α) (i j : Nat) (x : α)
    (hi : i < m) (hj : j < n) :
    GridPtr.write chk (some (ofCells m n c)) i j x = .ok (some (ofCells m n (put c i j x))) := by
  have hoff : (ofCells m n c).offset chk i j = some (i * n + j) := offset_eq chk _ i j hi hj
  have hdata : (ofCells m n c).data.set (i * n + j) (some x)
      = (ofCells m n (put c i j x)).data := by
    refine List.ext_getElem? (fun k => ?_)
    by_cases hk : k < m * n
    · rw [ofCells_data m n _ k hk, List.getElem?_set, ofCells_data m n c k hk]
      unfold put
      -- The written cell is the only one whose quotient and remainder are `i` and `j`.
      by_cases hkij : i * n + j = k
      · have hlen : i * n + j < (ofCells m n c).data.length := by
          rw [(ofCells m n c).size, hkij]
          exact hk
        rw [if_pos hkij, if_pos hlen, if_pos]
        rw [← hkij]
        exact ⟨cell_div i j n hj, cell_mod i j n hj⟩
      · rw [if_neg hkij, if_neg]
        rintro ⟨hdiv, hmod⟩
        exact hkij (by rw [← hdiv, ← hmod, Nat.mul_comm]; exact Nat.div_add_mod k n)
    · -- Past the buffer neither list has an entry.
      rw [List.getElem?_eq_none, List.getElem?_eq_none]
      · rw [(ofCells m n _).size]
        exact Nat.le_of_not_lt hk
      · rw [List.length_set, (ofCells m n c).size]
        exact Nat.le_of_not_lt hk
  simp only [GridPtr.write, hoff, hdata]
  rfl

/-- Indexing a row that does not exist is out of range. -/
theorem read_row_error (chk : Check) (g : Grid α) (i j : Nat) (hi : g.row ≤ i) :
    GridPtr.read chk (some g) i j = .error .outOfRange := by
  have hoff : g.offset chk i j = none := if_neg (fun h => absurd h.1 (by omega))
  simp only [GridPtr.read, hoff]

/-- Reading a fully written grid can only go out of range. -/
theorem read_ofFn_or (chk : Check) (m n : Nat) (f : Nat → Nat → α) (i j : Nat) :
    (∃ x, GridPtr.read chk (some (ofFn m n f)) i j = .ok x) ∨
      GridPtr.read chk (some (ofFn m n f)) i j = .error .outOfRange := by
  by_cases hin : i < m ∧ i * n + j < m * n ∧ (chk = .extent → j < n)
  · have hoff : (ofFn m n f).offset chk i j = some (i * n + j) := if_pos hin
    have hcell : (ofFn m n f).data[i * n + j]?
        = some (some (f ((i * n + j) / n) ((i * n + j) % n))) :=
      ofCells_data m n _ _ hin.2.1
    refine Or.inl ⟨f ((i * n + j) / n) ((i * n + j) % n), ?_⟩
    simp only [GridPtr.read, hoff, hcell]
  · have hoff : (ofFn m n f).offset chk i j = none := if_neg hin
    refine Or.inr ?_
    simp only [GridPtr.read, hoff]

/-- A write that succeeds keeps the shape and changes the one cell it addresses,
    under whatever index pairs that cell can be read. -/
theorem read_write (chk : Check) (g : Grid α) (i j k : Nat) (x : α)
    (hoff : g.offset chk i j = some k) :
    ∃ g' : Grid α, GridPtr.write chk (some g) i j x = .ok (some g') ∧ g'.row = g.row ∧
      g'.col = g.col ∧ ∀ i' j', GridPtr.read chk (some g') i' j'
        = if g.offset chk i' j' = some k then .ok x else GridPtr.read chk (some g) i' j' := by
  have hk : k < g.data.length := by
    rcases offset_some chk g i j k hoff with ⟨_, hcell, _, hk⟩
    rw [g.size, ← hk]
    exact hcell
  refine ⟨{ g with data := g.data.set k (some x), size := by rw [List.length_set, g.size] },
    by simp only [GridPtr.write, hoff], rfl, rfl, fun i' j' => ?_⟩
  have hsame : Grid.offset chk { g with
      data := g.data.set k (some x), size := by rw [List.length_set, g.size] } i' j'
        = g.offset chk i' j' := rfl
  unfold GridPtr.read
  simp only [hsame]
  cases hoff' : g.offset chk i' j' with
  | none => rw [if_neg (by simp only [reduceCtorEq, not_false_eq_true])]
  | some k' =>
      simp only [List.getElem?_set]
      by_cases hkk : k = k'
      · rw [if_pos hkk, if_pos hk, if_pos (by rw [hkk])]
      · rw [if_neg hkk, if_neg (fun h => hkk (Option.some.inj h).symm)]

/-- A read that passes addresses a written cell. -/
theorem read_ok (chk : Check) (g : Grid α) (i j : Nat) (x : α)
    (h : GridPtr.read chk (some g) i j = .ok x) :
    ∃ k, g.offset chk i j = some k ∧ g.data[k]? = some (some x) := by
  simp only [GridPtr.read] at h
  cases hoff : g.offset chk i j with
  | none =>
      rw [hoff] at h
      exact absurd h (by simp only [reduceCtorEq, not_false_eq_true])
  | some k =>
      refine ⟨k, rfl, ?_⟩
      simp only [hoff] at h
      -- Of all a cell can hold, only a written value passes.
      rcases hcell : g.data[k]? with _ | _ | y
      · rw [hcell] at h
        exact absurd h (by simp only [reduceCtorEq, not_false_eq_true])
      · rw [hcell] at h
        exact absurd h (by simp only [reduceCtorEq, not_false_eq_true])
      · rw [hcell] at h
        simp only [Except.ok.injEq] at h
        rw [h]

/-- A write that passes addresses a cell. -/
theorem write_ok (chk : Check) (g : Grid α) (i j : Nat) (x : α) (p : GridPtr α)
    (h : GridPtr.write chk (some g) i j x = .ok p) : ∃ k, g.offset chk i j = some k := by
  simp only [GridPtr.write] at h
  cases hoff : g.offset chk i j with
  | none =>
      rw [hoff] at h
      exact absurd h (by simp only [reduceCtorEq, not_false_eq_true])
  | some k => exact ⟨k, rfl⟩

/-- A read that passes under `extent` stays inside its matrix and finds a cell
    that was written. -/
theorem read_extent (p : GridPtr α) (i j : Nat) (x : α)
    (h : GridPtr.read .extent p i j = .ok x) :
    ∃ g : Grid α, p = some g ∧ i < g.row ∧ j < g.col ∧
      g.data[i * g.col + j]? = some (some x) := by
  cases p with
  | none => exact absurd h (by simp only [GridPtr.read, reduceCtorEq, not_false_eq_true])
  | some g =>
      rcases read_ok .extent g i j x h with ⟨k, hoff, hcell⟩
      rcases offset_some .extent g i j k hoff with ⟨hi, _, hj, hk⟩
      rw [← hk] at hcell
      exact ⟨g, rfl, hi, hj rfl, hcell⟩

/-- A write that passes under `extent` stays inside its matrix. -/
theorem write_extent (p p' : GridPtr α) (i j : Nat) (x : α)
    (h : GridPtr.write .extent p i j x = .ok p') :
    ∃ g : Grid α, p = some g ∧ i < g.row ∧ j < g.col := by
  cases p with
  | none => exact absurd h (by simp only [GridPtr.write, reduceCtorEq, not_false_eq_true])
  | some g =>
      rcases write_ok .extent g i j x p' h with ⟨k, hoff⟩
      rcases offset_some .extent g i j k hoff with ⟨hi, _, hj, _⟩
      exact ⟨g, rfl, hi, hj rfl⟩

/-- Index pairs that address the same cell of the buffer read the same. -/
theorem read_same_cell (g : Grid α) (i j i' j' : Nat) (hi : i < g.row) (hi' : i' < g.row)
    (h : i * g.col + j = i' * g.col + j') :
    GridPtr.read .buffer (some g) i j = GridPtr.read .buffer (some g) i' j' := by
  have hoff : g.offset .buffer i j = g.offset .buffer i' j' := by
    unfold Grid.offset
    simp only [hi, hi', h, reduceCtorEq, false_implies, true_and, and_true]
  unfold GridPtr.read
  simp only [hoff]

/-- A nest of loops over all cells, each round writing its own cell to `v`,
    fills the grid. A round may rely on its cell still holding what it held at
    the start. -/
theorem nest_fill (m n : Nat) (u : Nat → Nat → Option α) (v : Nat → Nat → α)
    (body : Nat → Nat → GridPtr α → Except Fault (GridPtr α))
    (h : ∀ i j c, i < m → j < n → c i j = u i j →
      body i j (some (ofCells m n c)) = .ok (some (ofCells m n (put c i j (v i j))))) :
    Loop.nest m n body (some (ofCells m n u)) = .ok (some (ofFn m n v)) := by
  -- After `i` rows and `j` cells the cells before `(i, j)` in row order are done.
  let cells : Nat → Nat → Nat → Nat → Option α := fun i j i' j' =>
    if i' < i ∨ (i' = i ∧ j' < j) then some (v i' j') else u i' j'
  have hstart : ofCells m n u = ofCells m n (cells 0 0) :=
    ofCells_congr m n _ _ (fun i' j' _ _ => by simp only [cells]; rw [if_neg (by omega)])
  have hend : ofFn m n v = ofCells m n (cells m 0) :=
    ofCells_congr m n _ _ (fun i' j' hi' _ => by simp only [cells]; rw [if_pos (by omega)])
  rw [hstart, hend]
  refine Loop.nest_eq (fun i j => some (ofCells m n (cells i j))) m n body (fun i hi => ?_)
    (fun i j hi hj => ?_)
  · -- A finished row is the start of the next one.
    refine congrArg some (ofCells_congr m n _ _ (fun i' j' _ hj' => ?_))
    simp only [cells]
    by_cases hlt : i' < i + 1
    · rw [if_pos (by omega), if_pos (by omega)]
    · rw [if_neg (by omega), if_neg (by omega)]
  · -- The cell of this round is the first one that is not done.
    have hcell : cells i j i j = u i j := by
      simp only [cells]
      rw [if_neg (by omega)]
    rw [h i j _ hi hj hcell]
    refine congrArg (fun g => Except.ok (some g)) (ofCells_congr m n _ _ (fun i' j' _ _ => ?_))
    simp only [cells, put]
    by_cases hij : i' = i ∧ j' = j
    · rw [if_pos hij, if_pos (by omega), hij.1, hij.2]
    · rw [if_neg hij]
      by_cases hlt : i' < i ∨ (i' = i ∧ j' < j)
      · rw [if_pos hlt, if_pos (by omega)]
      · rw [if_neg hlt, if_neg (by omega)]

/-! ### One-dimensional arrays -/

/-- The array with entries `f 0`, `f 1`, up to `f (n - 1)`. -/
def vec (n : Nat) (f : Nat → α) : List α := (List.range n).map f

theorem vec_congr (n : Nat) (f f' : Nat → α) (h : ∀ i, i < n → f i = f' i) :
    vec n f = vec n f' :=
  List.map_congr_left (fun i hi => h i (List.mem_range.mp hi))

theorem get_vec (n : Nat) (f : Nat → α) (i : Nat) (hi : i < n) : get (vec n f) i = .ok (f i) := by
  simp only [get, vec, List.getElem?_map, List.getElem?_range hi, Option.map_some]

theorem set_vec (n : Nat) (f : Nat → α) (i : Nat) (x : α) (hi : i < n) :
    set (vec n f) i x = .ok (vec n (fun i' => if i' = i then x else f i')) := by
  have hlen : i < (vec n f).length := by
    rw [vec, List.length_map, List.length_range]
    exact hi
  have hset : (vec n f).set i x = vec n (fun i' => if i' = i then x else f i') := by
    refine List.ext_getElem? (fun k => ?_)
    rw [List.getElem?_set]
    by_cases hik : i = k
    · rw [if_pos hik, if_pos hlen, vec, List.getElem?_map, ← hik, List.getElem?_range hi,
        Option.map_some, if_pos rfl]
    · -- Another entry keeps its value, if there is one.
      rw [if_neg hik, vec, vec, List.getElem?_map, List.getElem?_map]
      cases hk : (List.range n)[k]? with
      | none => rfl
      | some k' =>
          have hkk : k' = k := by
            rcases List.getElem?_eq_some_iff.mp hk with ⟨hlt, hget⟩
            rw [← hget, List.getElem_range]
          rw [Option.map_some, Option.map_some, hkk, if_neg (fun h => hik h.symm)]
  rw [set, if_pos hlen, hset]

/-- Writing past the end of an array. -/
theorem set_vec_error (n : Nat) (f : Nat → α) (i : Nat) (x : α) (hi : n ≤ i) :
    set (vec n f) i x = .error .outOfRange := by
  refine if_neg ?_
  rw [vec, List.length_map, List.length_range]
  omega

end Memory

end Toolkit
