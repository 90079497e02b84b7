import SimpleDgps.LeastSquares
import SimpleDgps.Geodesy

/-!
# Trilateration

From satellite positions and ranges to a position.

Subtracting the Earth sphere from a satellite's range sphere gives an equation
that is linear in the receiver's position. `trillatPosFromRange` writes one row
of it per satellite, in id order, and hands the system to the regression.

Two extents meet in the loop. The matrix has a row per satellite, while the
right-hand side is a local array of the constant dimension. With more
satellites the fourth right-hand side is written past the array, and with
fewer the regression indexes rows that are not there, so every run on a number
of satellites other than three goes out of range:
`trillatPosFromRange_ne_three`. A run ends there; what the loop looks up when it
goes on all the same is the subject of `Overrun`. On three satellites
`trillatPosFromRange_three` gives the result, a multiple of `(1, -1, 1)` as for
every regression, and `trillat_returns_iff` turns that into the exact condition for
a given position to come out.

The signs are the second thing. The row of a satellite is minus twice its
position, but the right-hand side is that of plus twice its position, so the
system that is solved is the one of the antipode.

## Main definitions

* `coefficient`, `rightHandSide`: One row of the system.
* `trillatRow`: One round of the loop.
* `trillatPosFromRange`: The position computed from ranges.
* `trillatLoop`: Its loop, up to the system it leaves behind.
* `rowFn`, `rhsFn`: The system the loop leaves behind.
* `satSum`: A sum over the satellites.
* `normalMinor`, `normalDet`: The two values the code derives from the normal
  matrix.
* `rangeMoment`: The right-hand side weighted along `(1, -1, 1)`.

## Theorems

* `trillatRow_step`: One round fills one row.
* `trillatRow_missing`: A round on a satellite without a range.
* `trillatLoop_le`: The loop over at most three satellites.
* `trillatLoop_gt`: The loop over more than three satellites.
* `systemAfter_row`: What the loop leaves in the row of a satellite.
* `trillatPosFromRange_ne_three`: Any other number goes out of range.
* `trillatPosFromRange_three`: The result for three satellites.
* `trillat_returns_iff`: When a given position comes out.
* `trillat_in_extent_iff`: When every index stays in its array.
-/

namespace SimpleDgps

open Toolkit Loop Memory

variable {K : Type} [Field K]

/-- `Am`, `Bm` and `Cm`, the coefficients of a satellite's row. -/
def coefficient (s : EcefPos K) (j : Nat) : K :=
  match j with
  | 0 => -2 * s.x
  | 1 => -2 * s.y
  | _ => -2 * s.z

/-- `Dm`, the right-hand side of a satellite's row. -/
def rightHandSide (s : EcefPos K) (range : K) : K :=
  earthRadiusKm * earthRadiusKm + (s.x ^ 2 + s.y ^ 2 + s.z ^ 2) - range ^ 2

/-- What the loop has built so far. -/
structure LinearSystem (K : Type) where
  matrixA : GridPtr K
  vectorB : List K
  i : Nat

/-- One round of the loop. The range of an id is read through the result of the
    lookup, which is past the end if the id has none; the test after it looks
    at the loop's own iterator and always passes. -/
def trillatRow (chk : Check) (finalSatRanges : SatRanges K) (s : LinearSystem K)
    (it : Int × EcefPos K) : Except Fault (LinearSystem K) :=
  match finalSatRanges.ranges.find it.1 with
  | none => .error .endIterator
  | some range => do
    let matrixA ← GridPtr.write chk s.matrixA s.i 0 (coefficient it.2 0)
    let matrixA ← GridPtr.write chk matrixA s.i 1 (coefficient it.2 1)
    let matrixA ← GridPtr.write chk matrixA s.i 2 (coefficient it.2 2)
    let vectorB ← set s.vectorB s.i (rightHandSide it.2 range)
    .ok { matrixA := matrixA, vectorB := vectorB, i := s.i + 1 }

def trillatPosFromRange [LinearOrder K] [FloorRing K] [DoubleToInt K] (chk : Check)
    (finalSatPos : SatLocation K) (finalSatRanges : SatRanges K) :
    Except Fault (Printed (EcefPos K)) := do
  let nSat := finalSatPos.locations.size
  let matrixAcol := posMTrillatASize
  let matrixArows := nSat
  let s ← finalSatPos.locations.entries.foldlM (trillatRow chk finalSatRanges)
    { matrixA := allocate2Ddouble nSat 3, vectorB := vec posMTrillatASize (fun _ => 0), i := 0 }
  -- least square regression
  let finalECEF ← leastSquareReg chk s.matrixA s.vectorB matrixArows matrixAcol
  let x ← get finalECEF.value 0
  let y ← get finalECEF.value 1
  let z ← get finalECEF.value 2
  .ok { value := { x := x, y := y, z := z }, cout := finalECEF.cout }

/-! ### The loop -/

/-- The loop of `trillatPosFromRange`, from the fresh arrays to the system. -/
def trillatLoop (chk : Check) (finalSatPos : SatLocation K) (finalSatRanges : SatRanges K) :
    Except Fault (LinearSystem K) :=
  finalSatPos.locations.entries.foldlM (trillatRow chk finalSatRanges)
    { matrixA := allocate2Ddouble finalSatPos.locations.size 3
      vectorB := vec posMTrillatASize (fun _ => 0)
      i := 0 }

/-- The entry the loop meets in round `i`. -/
def satEntry (p : SatLocation K) (i : Nat) : Int × EcefPos K :=
  p.locations.entries.getD i (0, { x := 0, y := 0, z := 0 })

/-- The range under an id, zero if there is none. -/
def rangeOf (r : SatRanges K) (k : Int) : K := (r.ranges.find k).getD 0

/-- The matrix the loop leaves behind. -/
def rowFn (p : SatLocation K) (i j : Nat) : K := coefficient (satEntry p i).2 j

/-- The right-hand side the loop leaves behind. -/
def rhsFn (p : SatLocation K) (r : SatRanges K) (i : Nat) : K :=
  rightHandSide (satEntry p i).2 (rangeOf r (satEntry p i).1)

/-- The system after `t` rounds, for as many rounds as the arrays allow. -/
def systemAfter (p : SatLocation K) (r : SatRanges K) (t : Nat) : LinearSystem K :=
  { matrixA := some (ofCells p.locations.size 3
      (fun i j => if i < t then some (rowFn p i j) else none))
    vectorB := vec 3 (fun i => if i < t then rhsFn p r i else 0)
    i := t }

/-- Every satellite has a range. -/
def HasRanges (p : SatLocation K) (r : SatRanges K) : Prop :=
  ∀ k s, p.locations.find k = some s → ∃ range, r.ranges.find k = some range

theorem satEntry_eq (p : SatLocation K) (t : Nat) (ht : t < p.locations.entries.length) :
    satEntry p t = p.locations.entries[t] := by
  unfold satEntry
  rw [List.getD_eq_getElem?_getD, List.getElem?_eq_getElem ht, Option.getD_some]

theorem rangeOf_find (p : SatLocation K) (r : SatRanges K) (h : HasRanges p r) (k : Int)
    (s : EcefPos K) (hs : p.locations.find k = some s) :
    r.ranges.find k = some (rangeOf r k) := by
  rcases h k s hs with ⟨range, hrange⟩
  rw [rangeOf, hrange, Option.getD_some]

theorem rangeOf_entry (p : SatLocation K) (r : SatRanges K) (h : HasRanges p r) (t : Nat)
    (ht : t < p.locations.entries.length) :
    r.ranges.find p.locations.entries[t].1 = some (rangeOf r p.locations.entries[t].1) :=
  rangeOf_find p r h _ p.locations.entries[t].2
    ((SortedMap.find_eq_some_iff p.locations _ _).mpr (List.getElem_mem ht))

/-- Filling the three cells of a row, whatever happens to the right-hand side. -/
theorem trillatRow_cells (chk : Check) (p : SatLocation K) (t : Nat)
    (ht : t < p.locations.size) (x : EcefPos K) (hx : (satEntry p t).2 = x) :
    (do
      let matrixA ← GridPtr.write chk (some (ofCells p.locations.size 3
        (fun i j => if i < t then some (rowFn p i j) else none))) t 0 (coefficient x 0)
      let matrixA ← GridPtr.write chk matrixA t 1 (coefficient x 1)
      GridPtr.write chk matrixA t 2 (coefficient x 2))
      = .ok (some (ofCells p.locations.size 3
          (fun i j => if i < t + 1 then some (rowFn p i j) else none))) := by
  rw [write_ofCells chk _ 3 _ t 0 _ ht (by decide), ok_bind,
    write_ofCells chk _ 3 _ t 1 _ ht (by decide), ok_bind,
    write_ofCells chk _ 3 _ t 2 _ ht (by decide)]
  refine congrArg (fun g => Except.ok (some g)) (ofCells_congr _ 3 _ _ (fun i j _ hj => ?_))
  simp only [put]
  by_cases hit : i = t
  · -- The three writes cover the three columns of the new row.
    rw [hit, if_pos (Nat.lt_succ_self t)]
    have hcol : j = 0 ∨ j = 1 ∨ j = 2 := by omega
    rcases hcol with rfl | rfl | rfl
    · rw [if_neg (by omega), if_neg (by omega), if_pos ⟨rfl, rfl⟩, rowFn, hx]
    · rw [if_neg (by omega), if_pos ⟨rfl, rfl⟩, rowFn, hx]
    · rw [if_pos ⟨rfl, rfl⟩, rowFn, hx]
  · rw [if_neg (by omega), if_neg (by omega), if_neg (by omega)]
    by_cases hlt : i < t
    · rw [if_pos hlt, if_pos (by omega)]
    · rw [if_neg hlt, if_neg (by omega)]

/-- A round on satellite `t`, up to its write to the right-hand side. -/
theorem trillatRow_eq (chk : Check) (p : SatLocation K) (r : SatRanges K) (t : Nat)
    (ht : t < p.locations.entries.length)
    (hrange : r.ranges.find p.locations.entries[t].1
      = some (rangeOf r p.locations.entries[t].1)) :
    trillatRow chk r (systemAfter p r t) p.locations.entries[t]
      = set (systemAfter p r t).vectorB t (rhsFn p r t) >>= fun vectorB =>
          .ok { systemAfter p r (t + 1) with vectorB := vectorB } := by
  have hcells := trillatRow_cells chk p t ht p.locations.entries[t].2
    (congrArg Prod.snd (satEntry_eq p t ht))
  have hrhs : rhsFn p r t
      = rightHandSide p.locations.entries[t].2 (rangeOf r p.locations.entries[t].1) := by
    rw [rhsFn, satEntry_eq p t ht]
  unfold trillatRow
  rw [hrange, hrhs]
  -- The three cell writes come first, and none of them looks at the right-hand side.
  simp only [← bind_assoc] at hcells ⊢
  simp only [systemAfter] at hcells ⊢
  rw [hcells]
  rfl

/-- One round fills one row. -/
theorem trillatRow_step (chk : Check) (p : SatLocation K) (r : SatRanges K) (t : Nat)
    (ht : t < p.locations.entries.length)
    (hrange : r.ranges.find p.locations.entries[t].1
      = some (rangeOf r p.locations.entries[t].1)) (hthree : t < 3) :
    trillatRow chk r (systemAfter p r t) p.locations.entries[t]
      = .ok (systemAfter p r (t + 1)) := by
  have hset : set (systemAfter p r t).vectorB t (rhsFn p r t)
      = .ok (systemAfter p r (t + 1)).vectorB := by
    unfold systemAfter
    simp only
    rw [set_vec 3 _ t _ hthree]
    refine congrArg Except.ok (vec_congr 3 _ _ (fun i _ => ?_))
    by_cases hit : i = t
    · rw [if_pos hit, if_pos (by omega), hit]
    · rw [if_neg hit]
      by_cases hlt : i < t
      · rw [if_pos hlt, if_pos (by omega)]
      · rw [if_neg hlt, if_neg (by omega)]
  rw [trillatRow_eq chk p r t ht hrange, hset, ok_bind]

/-- The fourth satellite has no room on the right-hand side. -/
theorem trillatRow_overflow (chk : Check) (p : SatLocation K) (r : SatRanges K)
    (ht : 3 < p.locations.entries.length)
    (hrange : r.ranges.find p.locations.entries[3].1
      = some (rangeOf r p.locations.entries[3].1)) :
    trillatRow chk r (systemAfter p r 3) p.locations.entries[3] = .error .outOfRange := by
  have hset : set (systemAfter p r 3).vectorB 3 (rhsFn p r 3) = .error .outOfRange :=
    set_vec_error 3 _ 3 _ (Nat.le_refl 3)
  rw [trillatRow_eq chk p r 3 ht hrange, hset, error_bind]

/-- A satellite without a range is read through the end of the other map. -/
theorem trillatRow_missing (chk : Check) (r : SatRanges K) (s : LinearSystem K)
    (it : Int × EcefPos K) (h : r.ranges.find it.1 = none) :
    trillatRow chk r s it = .error .endIterator := by
  unfold trillatRow
  rw [h]

/-- The loop starts with a fresh matrix and a zero right-hand side. -/
theorem systemAfter_zero (p : SatLocation K) (r : SatRanges K) :
    systemAfter p r 0 = { matrixA := allocate2Ddouble p.locations.size 3,
                          vectorB := vec posMTrillatASize (fun _ => 0), i := 0 } := by
  unfold systemAfter allocate2Ddouble posMTrillatASize
  rw [alloc_eq]
  simp only [Nat.not_lt_zero, if_false]

/-- The loop over at most three satellites runs to its end. -/
theorem trillatLoop_le (chk : Check) (p : SatLocation K) (r : SatRanges K) (h : HasRanges p r)
    (hsize : p.locations.size ≤ 3) :
    trillatLoop chk p r = .ok (systemAfter p r p.locations.size) := by
  unfold trillatLoop
  rw [← systemAfter_zero p r]
  exact walk_eq _ p.locations.entries (systemAfter p r) (fun t ht =>
    trillatRow_step chk p r t ht (rangeOf_entry p r h t ht) (Nat.lt_of_lt_of_le ht hsize))

/-- The loop over more than three satellites does not, even if only the first
    four of them have a range. -/
theorem trillatLoop_gt (chk : Check) (p : SatLocation K) (r : SatRanges K)
    (hsize : 3 < p.locations.size)
    (h : ∀ t (ht : t < p.locations.entries.length), t < 4 →
      r.ranges.find p.locations.entries[t].1 = some (rangeOf r p.locations.entries[t].1)) :
    trillatLoop chk p r = .error .outOfRange := by
  unfold trillatLoop
  rw [← systemAfter_zero p r]
  exact walk_error _ _ p.locations.entries (systemAfter p r) 3 hsize
    (fun t hthree ht => trillatRow_step chk p r t ht (h t ht (by omega)) hthree)
    (trillatRow_overflow chk p r hsize (h 3 hsize (by omega)))

/-- A finished loop leaves a fully written matrix. -/
theorem systemAfter_matrixA (p : SatLocation K) (r : SatRanges K) :
    (systemAfter p r p.locations.size).matrixA
      = some (ofFn p.locations.size 3 (rowFn p)) :=
  congrArg some (ofCells_congr _ 3 _ _ (fun _ _ hi _ => if_pos hi))

/-- What the loop leaves in the row of a satellite. -/
theorem systemAfter_row (chk : Check) (p : SatLocation K) (r : SatRanges K)
    (hsize : p.locations.size ≤ 3) (t : Nat) (ht : t < p.locations.entries.length) :
    (∀ j, j < 3 → GridPtr.read chk (systemAfter p r p.locations.size).matrixA t j
        = .ok (coefficient p.locations.entries[t].2 j)) ∧
      get (systemAfter p r p.locations.size).vectorB t
        = .ok (rightHandSide p.locations.entries[t].2 (rangeOf r p.locations.entries[t].1)) := by
  have hentry : satEntry p t = p.locations.entries[t] := satEntry_eq p t ht
  constructor
  · intro j hj
    rw [systemAfter_matrixA, read_ofFn chk p.locations.size 3 _ t j ht hj, rowFn, hentry]
  · have hthree : t < 3 := Nat.lt_of_lt_of_le ht hsize
    have hcount : t < p.locations.size := ht
    unfold systemAfter
    simp only
    rw [get_vec 3 _ t hthree, if_pos hcount, rhsFn, hentry]

/-! ### The result -/

section Conversion

variable [LinearOrder K] [FloorRing K] [DoubleToInt K]

open DoubleToInt (toInt)

/-- The loop, and what follows it. -/
theorem trillatPosFromRange_eq (chk : Check) (p : SatLocation K) (r : SatRanges K) :
    trillatPosFromRange chk p r = (do
      let s ← trillatLoop chk p r
      let finalECEF ← leastSquareReg chk s.matrixA s.vectorB p.locations.size posMTrillatASize
      let x ← get finalECEF.value 0
      let y ← get finalECEF.value 1
      let z ← get finalECEF.value 2
      .ok { value := { x := x, y := y, z := z }, cout := finalECEF.cout }) := rfl

/-- Every number of satellites but three goes out of range. -/
theorem trillatPosFromRange_ne_three (chk : Check) (p : SatLocation K) (r : SatRanges K)
    (h : HasRanges p r) (hsize : p.locations.size ≠ 3) :
    trillatPosFromRange chk p r = .error .outOfRange := by
  rw [trillatPosFromRange_eq]
  by_cases hgt : 3 < p.locations.size
  · rw [trillatLoop_gt chk p r hgt (fun t ht _ => rangeOf_entry p r h t ht), error_bind]
  · rw [trillatLoop_le chk p r h (by omega), ok_bind, systemAfter_matrixA]
    -- The regression meets fewer rows than it multiplies.
    have hshort := leastSquareReg_short chk p.locations.size (rowFn p)
      (systemAfter p r p.locations.size).vectorB (by omega)
    unfold posMTrillatASize
    rw [hshort, error_bind]

/-- Three satellites yield a multiple of `(1, -1, 1)`, or a null inverse that
    is indexed. -/
theorem trillatPosFromRange_three (chk : Check) (p : SatLocation K) (r : SatRanges K)
    (h : HasRanges p r) (hsize : p.locations.size = 3) :
    trillatPosFromRange chk p r
      = if toInt (detFn (gramFn (rowFn p)) 3) = 0 then .error .nullPointer
        else .ok { value := { x := scaleFn (rowFn p) (rhsFn p r)
                              y := -scaleFn (rowFn p) (rhsFn p r)
                              z := scaleFn (rowFn p) (rhsFn p r) }, cout := [] } := by
  rw [trillatPosFromRange_eq, trillatLoop_le chk p r h (by omega), ok_bind, systemAfter_matrixA]
  have hvec : (systemAfter p r p.locations.size).vectorB = vec 3 (rhsFn p r) := by
    unfold systemAfter
    exact vec_congr 3 _ _ (fun i hi => if_pos (Nat.lt_of_lt_of_eq hi hsize.symm))
  rw [hvec, posMTrillatASize, leastSquareReg_ofFn chk _ 3 _ _ (by omega) (by omega)]
  by_cases hzero : toInt (detFn (gramFn (rowFn p)) 3) = 0
  · rw [if_pos hzero, if_pos hzero, error_bind]
  · rw [if_neg hzero, if_neg hzero, ok_bind, get_vec 3 _ 0 (by omega), get_vec 3 _ 1 (by omega),
      get_vec 3 _ 2 (by omega)]
    simp only [ok_bind, pow_zero, pow_one, one_mul, neg_one_mul, even_two, Even.neg_pow, one_pow]

end Conversion

/-! ### The result as sums over the satellites -/

/-- A sum over the satellites, in id order. -/
def satSum (p : SatLocation K) (f : Int → EcefPos K → K) : K :=
  (p.locations.entries.map (fun it => f it.1 it.2)).sum

/-- The two-by-two value of the normal matrix. -/
def normalMinor (p : SatLocation K) : K :=
  let xx := satSum p (fun _ s => 4 * s.x * s.x)
  let xy := satSum p (fun _ s => 4 * s.x * s.y)
  xx * (xx - xy)

/-- The three-by-three value of the normal matrix. -/
def normalDet (p : SatLocation K) : K :=
  let xx := satSum p (fun _ s => 4 * s.x * s.x)
  let xy := satSum p (fun _ s => 4 * s.x * s.y)
  let xz := satSum p (fun _ s => 4 * s.x * s.z)
  xx * (xx - xy) * (xx - xy + xz)

/-- The right-hand side weighted with the rows' components along `(1, -1, 1)`. -/
def rangeMoment (p : SatLocation K) (r : SatRanges K) : K :=
  satSum p (fun k s => -2 * alternating s.x s.y s.z * rightHandSide s (rangeOf r k))

theorem satSum_eq (p : SatLocation K) (f : Int → EcefPos K → K) (hsize : p.locations.size = 3) :
    satSum p f = ∑ i ∈ Finset.range 3, f (satEntry p i).1 (satEntry p i).2 := by
  have hlen : p.locations.entries.length = 3 := hsize
  unfold satSum
  -- A sum over the list is a sum over its indices.
  rw [← Fin.sum_univ_fun_getElem, ← hlen, Finset.sum_range]
  exact Finset.sum_congr rfl (fun i _ => by rw [satEntry_eq p i i.isLt])

/-- A sum that agrees with another one on every satellite. -/
theorem satSum_congr (p : SatLocation K) (f g : Int → EcefPos K → K)
    (h : ∀ k s, p.locations.find k = some s → f k s = g k s) : satSum p f = satSum p g :=
  congrArg List.sum (List.map_congr_left (fun it hit =>
    h it.1 it.2 ((SortedMap.find_eq_some_iff p.locations _ _).mpr hit)))

theorem satSum_mul (p : SatLocation K) (c : K) (f : Int → EcefPos K → K) :
    satSum p (fun k s => c * f k s) = c * satSum p f :=
  List.sum_map_mul_left p.locations.entries (fun it => f it.1 it.2) c

/-- The first row of the normal matrix. -/
theorem gramFn_rowFn (p : SatLocation K) (hsize : p.locations.size = 3) (j : Nat) :
    gramFn (rowFn p) 0 j = satSum p (fun _ s => -2 * s.x * coefficient s j) := by
  rw [satSum_eq p _ hsize]
  rfl

theorem detFn_rowFn_two (p : SatLocation K) (hsize : p.locations.size = 3) :
    detFn (gramFn (rowFn p)) 2 = normalMinor p := by
  rw [detFn_two, gramFn_rowFn p hsize 0, gramFn_rowFn p hsize 1]
  simp only [coefficient, normalMinor]
  ring_nf

theorem detFn_rowFn_three (p : SatLocation K) (hsize : p.locations.size = 3) :
    detFn (gramFn (rowFn p)) 3 = normalDet p := by
  rw [detFn_three, gramFn_rowFn p hsize 0, gramFn_rowFn p hsize 1, gramFn_rowFn p hsize 2]
  simp only [coefficient, normalDet]
  ring_nf

theorem rangeMoment_eq (p : SatLocation K) (r : SatRanges K) (hsize : p.locations.size = 3) :
    ∑ i ∈ Finset.range 3, alternating (rowFn p i 0) (rowFn p i 1) (rowFn p i 2) * rhsFn p r i
      = rangeMoment p r := by
  rw [rangeMoment, satSum_eq p _ hsize]
  refine Finset.sum_congr rfl (fun i _ => ?_)
  simp only [rowFn, rhsFn, coefficient, alternating]
  ring

section Conversion

variable [LinearOrder K] [FloorRing K] [DoubleToInt K]

open DoubleToInt (toInt)

/-- The scale of the result. -/
theorem scaleFn_rowFn (p : SatLocation K) (r : SatRanges K) (hsize : p.locations.size = 3) :
    scaleFn (rowFn p) (rhsFn p r)
      = normalMinor p * rangeMoment p r / (toInt (normalDet p) : K) := by
  rw [scaleFn, rangeMoment_eq p r hsize, detFn_rowFn_two p hsize, detFn_rowFn_three p hsize]
  exact div_mul_eq_mul_div _ _ _

/-- When a given position comes out. -/
theorem trillat_returns_iff [IsStrictOrderedRing K] (chk : Check) (p : SatLocation K)
    (r : SatRanges K) (h : HasRanges p r) (q : EcefPos K) :
    (∃ out, trillatPosFromRange chk p r = .ok { value := q, cout := out }) ↔
      p.locations.size = 3 ∧ toInt (normalDet p) ≠ 0 ∧ q.y = -q.x ∧ q.z = q.x ∧
        q.x * (toInt (normalDet p) : K) = normalMinor p * rangeMoment p r := by
  by_cases hsize : p.locations.size = 3
  · rw [trillatPosFromRange_three chk p r h hsize, detFn_rowFn_three p hsize]
    have hscale := scaleFn_rowFn p r hsize
    by_cases hzero : toInt (normalDet p) = 0
    · -- Nothing is returned.
      rw [if_pos hzero]
      constructor
      · rintro ⟨out, hout⟩
        exact absurd hout (by simp only [reduceCtorEq, not_false_eq_true])
      · intro hq
        exact absurd hzero hq.2.1
    · have hcast : (toInt (normalDet p) : K) ≠ 0 := Int.cast_ne_zero.mpr hzero
      rw [if_neg hzero, hscale]
      simp only [Except.ok.injEq, Printed.mk.injEq, exists_and_left]
      constructor
      · rintro ⟨hq, _⟩
        rw [← hq]
        exact ⟨hsize, hzero, rfl, rfl, div_mul_cancel₀ _ hcast⟩
      · rintro ⟨_, _, hy, hz, hx⟩
        -- The equation makes the first coordinate the scale, the line gives the others.
        refine ⟨?_, [], rfl⟩
        rw [← hx, mul_div_cancel_right₀ _ hcast, ← hy]
        cases q with
        | mk x y z => simp only at hz; rw [hz]
  · rw [trillatPosFromRange_ne_three chk p r h hsize]
    constructor
    · rintro ⟨out, hout⟩
      exact absurd hout (by simp only [reduceCtorEq, not_false_eq_true])
    · intro hq
      exact absurd hq.1 hsize

/-- Every index stays in its array exactly for three satellites whose
    determinant does not convert to zero. The determinant is the exact one, as
    all numbers here are. -/
theorem trillat_in_extent_iff (p : SatLocation K) (r : SatRanges K) (h : HasRanges p r) :
    (trillatPosFromRange .extent p r ≠ .error .outOfRange ∧
        trillatPosFromRange .extent p r ≠ .error .nullPointer) ↔
      p.locations.size = 3 ∧ toInt (normalDet p) ≠ 0 := by
  by_cases hsize : p.locations.size = 3
  · rw [trillatPosFromRange_three .extent p r h hsize, detFn_rowFn_three p hsize]
    by_cases hzero : toInt (normalDet p) = 0
    · rw [if_pos hzero]
      constructor
      · intro hne
        exact absurd rfl hne.2
      · intro hne
        exact absurd hzero hne.2
    · rw [if_neg hzero]
      exact iff_of_true ⟨by simp only [ne_eq, reduceCtorEq, not_false_eq_true],
        by simp only [ne_eq, reduceCtorEq, not_false_eq_true]⟩ ⟨hsize, hzero⟩
  · rw [trillatPosFromRange_ne_three .extent p r h hsize]
    constructor
    · intro hne
      exact absurd rfl hne.1
    · intro hne
      exact absurd hne.1 hsize

end Conversion

/-- Four satellites with a range each, seen from the point `(1, 1, 1)`. -/
theorem trillat_overflows :
    let three : SortedMap Int (EcefPos ℚ) :=
      ((SortedMap.empty.insert 1 ⟨3, 1, 1⟩).insert 2 ⟨1, 3, 1⟩).insert 3 ⟨1, 1, 3⟩
    let satPos : SatLocation ℚ := { locations := three.insert 4 ⟨-1, 1, 1⟩ }
    let ranges : SatRanges ℚ := { ranges :=
      (((SortedMap.empty.insert 1 2).insert 2 2).insert 3 2).insert 4 2 }
    (∀ e ∈ satPos.locations.entries, (ranges.ranges.find e.1).isSome) ∧
      trillatPosFromRange .extent satPos ranges = .error .outOfRange := by
  decide +kernel

theorem trillat_in_extent_iff_example :
    let satPos : SatLocation ℚ := { locations :=
      ((SortedMap.empty.insert 1 ⟨3, 1, 1⟩).insert 2 ⟨1, 3, 1⟩).insert 3 ⟨1, 1, 3⟩ }
    let ranges : SatRanges ℚ := { ranges := ((SortedMap.empty.insert 1 2).insert 2 2).insert 3 2 }
    trillatPosFromRange .extent satPos ranges ≠ .error .outOfRange ∧
      trillatPosFromRange .extent satPos ranges ≠ .error .nullPointer := by
  intro satPos ranges
  refine (trillat_in_extent_iff satPos ranges ?_).mpr (by decide +kernel)
  refine (SortedMap.forall_find satPos.locations _).mpr (fun e he => ?_)
  have hall : ∀ e ∈ satPos.locations.entries, (ranges.ranges.find e.1).isSome := by decide +kernel
  exact Option.isSome_iff_exists.mp (hall e he)

end SimpleDgps
