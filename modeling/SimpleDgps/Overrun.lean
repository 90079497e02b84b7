import SimpleDgps.Outcomes
import Mathlib.Data.Nat.Find

/-!
# Past the Right-Hand Side

Trilateration on any number of satellites, the stores past `vectorB` included.

`trillatPosFromRange` ends a run at the fourth satellite, whose right-hand side has
no room. The source does not: the store lands somewhere, and the loop goes on with
the fifth satellite. What such a store does is nothing the language says, so it is
a parameter here. An `Overrun` may leave anything in the three entries and says
nothing of the memory behind them; the matrix and the counter keep their values.
Every result below holds for every overrun, and `trillatPosFromRangeOn_le` says that
none takes part in a run on three satellites or fewer.

In this reading the loop looks up the range of every satellite. The first one that
has none is read through the end of the range map, `trillatOn_missing`, and if all of
them have one no read goes there, `trillatOn_no_endIterator`. `trillat_common_iff`
compares a run with the run on the satellites that both maps know, which is what
skipping the others would amount to.

## Main definitions

* `Overrun`: What a store past the array does to the array.
* `trillatRowOn`, `trillatPosFromRangeOn`: The loop that goes on, and the position.
* `rhsOn`, `systemOn`: The right-hand side and the system after some rounds.
* `commonSats`, `commonRanges`: The two maps restricted to their common ids.

## Theorems

* `trillatRowOn_step`: One round fills one row, however many there are.
* `trillatPosFromRangeOn_le`: Up to three satellites there is no overrun.
* `trillatOn_missing`: A missing range is read.
* `trillatOn_no_endIterator`: Otherwise nothing is read through the end of the map.
* `trillat_common_iff`: When the satellites without a range make no difference.
-/

namespace SimpleDgps

open Toolkit Loop Memory

variable {K : Type} [Field K]

variable (K) in
/-- What a store past the end of an array leaves in the array. -/
structure Overrun where
  store : List K → Nat → K → List K
  length_store (v : List K) (i : Nat) (x : K) : (store v i x).length = v.length

/-- The assignment `vectorB[i] = x`, past the end as well. -/
def Overrun.assign (o : Overrun K) (v : List K) (i : Nat) (x : K) : List K :=
  if i < v.length then v.set i x else o.store v i x

omit [Field K] in
@[simp] theorem Overrun.length_assign (o : Overrun K) (v : List K) (i : Nat) (x : K) :
    (o.assign v i x).length = v.length := by
  unfold Overrun.assign
  split_ifs
  · exact List.length_set
  · exact o.length_store v i x

omit [Field K] in
/-- Inside the array it is the checked assignment. -/
theorem Overrun.set_eq (o : Overrun K) (v : List K) (i : Nat) (x : K) (hi : i < v.length) :
    Memory.set v i x = .ok (o.assign v i x) := by
  unfold Memory.set Overrun.assign
  rw [if_pos hi, if_pos hi]

/-- One round of the loop, going on after a store past `vectorB`. -/
def trillatRowOn (o : Overrun K) (chk : Check) (finalSatRanges : SatRanges K)
    (s : LinearSystem K) (it : Int × EcefPos K) : Except Fault (LinearSystem K) :=
  match finalSatRanges.ranges.find it.1 with
  | none => .error .endIterator
  | some range => do
    let matrixA ← GridPtr.write chk s.matrixA s.i 0 (coefficient it.2 0)
    let matrixA ← GridPtr.write chk matrixA s.i 1 (coefficient it.2 1)
    let matrixA ← GridPtr.write chk matrixA s.i 2 (coefficient it.2 2)
    .ok { matrixA := matrixA
          vectorB := o.assign s.vectorB s.i (rightHandSide it.2 range)
          i := s.i + 1 }

def trillatPosFromRangeOn [LinearOrder K] [FloorRing K] [DoubleToInt K] (o : Overrun K)
    (chk : Check) (finalSatPos : SatLocation K) (finalSatRanges : SatRanges K) :
    Except Fault (Printed (EcefPos K)) := do
  let nSat := finalSatPos.locations.size
  let matrixAcol := posMTrillatASize
  let matrixArows := nSat
  let s ← finalSatPos.locations.entries.foldlM (trillatRowOn o chk finalSatRanges)
    { matrixA := allocate2Ddouble nSat 3, vectorB := vec posMTrillatASize (fun _ => 0), i := 0 }
  -- least square regression
  let finalECEF ← leastSquareReg chk s.matrixA s.vectorB matrixArows matrixAcol
  let x ← get finalECEF.value 0
  let y ← get finalECEF.value 1
  let z ← get finalECEF.value 2
  .ok { value := { x := x, y := y, z := z }, cout := finalECEF.cout }

/-! ### The loop -/

/-- The right-hand side after `t` rounds. -/
def rhsOn (o : Overrun K) (p : SatLocation K) (r : SatRanges K) : Nat → List K
  | 0 => vec posMTrillatASize (fun _ => 0)
  | t + 1 => o.assign (rhsOn o p r t) t (rhsFn p r t)

@[simp] theorem length_rhsOn (o : Overrun K) (p : SatLocation K) (r : SatRanges K) (t : Nat) :
    (rhsOn o p r t).length = 3 := by
  induction t with
  | zero =>
      unfold rhsOn vec posMTrillatASize
      rw [List.length_map, List.length_range]
  | succ t ih => rw [rhsOn, Overrun.length_assign, ih]

/-- The system after `t` rounds, for any number of rounds. -/
def systemOn (o : Overrun K) (p : SatLocation K) (r : SatRanges K) (t : Nat) : LinearSystem K :=
  { systemAfter p r t with vectorB := rhsOn o p r t }

theorem systemOn_zero (o : Overrun K) (p : SatLocation K) (r : SatRanges K) :
    systemOn o p r 0 = { matrixA := allocate2Ddouble p.locations.size 3,
                         vectorB := vec posMTrillatASize (fun _ => 0), i := 0 } := by
  unfold systemOn
  rw [systemAfter_zero p r]
  rfl

/-- One round fills one row, however many there are. -/
theorem trillatRowOn_step (o : Overrun K) (chk : Check) (p : SatLocation K) (r : SatRanges K)
    (t : Nat) (ht : t < p.locations.entries.length)
    (hrange : r.ranges.find p.locations.entries[t].1
      = some (rangeOf r p.locations.entries[t].1)) :
    trillatRowOn o chk r (systemOn o p r t) p.locations.entries[t]
      = .ok (systemOn o p r (t + 1)) := by
  have hcells := trillatRow_cells chk p t ht p.locations.entries[t].2
    (congrArg Prod.snd (satEntry_eq p t ht))
  have hrhs : rhsFn p r t
      = rightHandSide p.locations.entries[t].2 (rangeOf r p.locations.entries[t].1) := by
    rw [rhsFn, satEntry_eq p t ht]
  unfold trillatRowOn
  rw [hrange]
  -- The three cell writes come first, and none of them looks at the right-hand side.
  simp only [← bind_assoc] at hcells ⊢
  simp only [systemOn, systemAfter, rhsOn] at hcells ⊢
  rw [hcells, ← hrhs]
  rfl

/-- A satellite without a range is read through the end of the other map. -/
theorem trillatRowOn_missing (o : Overrun K) (chk : Check) (r : SatRanges K) (s : LinearSystem K)
    (it : Int × EcefPos K) (h : r.ranges.find it.1 = none) :
    trillatRowOn o chk r s it = .error .endIterator := by
  unfold trillatRowOn
  rw [h]

/-- The loop ends if every satellite has a range. -/
theorem trillatLoopOn_eq (o : Overrun K) (chk : Check) (p : SatLocation K) (r : SatRanges K)
    (h : HasRanges p r) :
    p.locations.entries.foldlM (trillatRowOn o chk r) (systemOn o p r 0)
      = .ok (systemOn o p r p.locations.size) :=
  walk_eq _ p.locations.entries (systemOn o p r) (fun t ht =>
    trillatRowOn_step o chk p r t ht (rangeOf_entry p r h t ht))

/-- The first satellite without a range ends it. -/
theorem trillatLoopOn_missing (o : Overrun K) (chk : Check) (p : SatLocation K)
    (r : SatRanges K) (h : ¬HasRanges p r) :
    p.locations.entries.foldlM (trillatRowOn o chk r) (systemOn o p r 0)
      = .error .endIterator := by
  have hexists : ∃ t, ∃ ht : t < p.locations.entries.length,
      r.ranges.find p.locations.entries[t].1 = none := by
    by_contra hall
    refine h ((SortedMap.forall_find p.locations _).mpr (fun e he => ?_))
    rcases List.getElem_of_mem he with ⟨t, ht, rfl⟩
    exact Option.ne_none_iff_exists'.mp (fun hnone => hall ⟨t, ht, hnone⟩)
  rcases Nat.find_spec hexists with ⟨ht, hnone⟩
  refine walk_error _ _ p.locations.entries (systemOn o p r) (Nat.find hexists) ht
    (fun i hi hlen => trillatRowOn_step o chk p r i hlen ?_)
    (trillatRowOn_missing o chk r _ _ hnone)
  -- Every satellite before it has a range.
  have hsome : r.ranges.find p.locations.entries[i].1 ≠ none :=
    fun hi' => Nat.find_min hexists hi ⟨hlen, hi'⟩
  rcases Option.ne_none_iff_exists'.mp hsome with ⟨range, hrange⟩
  rw [rangeOf, hrange, Option.getD_some]

/-- A round that has room on the right-hand side is the checked one. -/
theorem trillatRowOn_eq (o : Overrun K) (chk : Check) (r : SatRanges K) (s : LinearSystem K)
    (it : Int × EcefPos K) (hroom : s.i < s.vectorB.length) :
    trillatRowOn o chk r s it = trillatRow chk r s it := by
  unfold trillatRowOn trillatRow
  cases r.ranges.find it.1 with
  | none => rfl
  | some range => simp only [o.set_eq s.vectorB s.i _ hroom, ok_bind]

/-- A round counts one row and keeps the length of the right-hand side. -/
theorem trillatRowOn_count (o : Overrun K) (chk : Check) (r : SatRanges K)
    (s s' : LinearSystem K) (it : Int × EcefPos K) (h : trillatRowOn o chk r s it = .ok s') :
    s'.i = s.i + 1 ∧ s'.vectorB.length = s.vectorB.length := by
  unfold trillatRowOn at h
  split at h
  · exact absurd h (by simp only [reduceCtorEq, not_false_eq_true])
  · rcases bind_eq_ok _ _ _ h with ⟨_, _, h⟩
    rcases bind_eq_ok _ _ _ h with ⟨_, _, h⟩
    rcases bind_eq_ok _ _ _ h with ⟨_, _, h⟩
    rw [← Except.ok.inj h]
    exact ⟨rfl, o.length_assign _ _ _⟩

/-- A loop that has room for all its rows is the checked one. -/
theorem trillatLoopOn_room (o : Overrun K) (chk : Check) (r : SatRanges K)
    (l : List (Int × EcefPos K)) (s : LinearSystem K) (hroom : s.i + l.length ≤ s.vectorB.length) :
    l.foldlM (trillatRowOn o chk r) s = l.foldlM (trillatRow chk r) s := by
  -- What is left of the list fits into what is left of the array.
  refine walk_congr_on (fun rest s => s.i + rest.length ≤ s.vectorB.length) _ _
    (fun it rest s hroom => ?_) (fun it rest s s' hroom hrow => ?_) l s hroom
  · rw [List.length_cons] at hroom
    exact trillatRowOn_eq o chk r s it (by omega)
  · rw [List.length_cons] at hroom
    rcases trillatRowOn_count o chk r s s' it hrow with ⟨hi, hlen⟩
    omega

section Conversion

variable [LinearOrder K] [FloorRing K] [DoubleToInt K] (o : Overrun K) (chk : Check)

/-- The loop, and what follows it. -/
theorem trillatPosFromRangeOn_eq (p : SatLocation K) (r : SatRanges K) :
    trillatPosFromRangeOn o chk p r = (do
      let s ← p.locations.entries.foldlM (trillatRowOn o chk r) (systemOn o p r 0)
      let finalECEF ← leastSquareReg chk s.matrixA s.vectorB p.locations.size posMTrillatASize
      let x ← get finalECEF.value 0
      let y ← get finalECEF.value 1
      let z ← get finalECEF.value 2
      .ok { value := { x := x, y := y, z := z }, cout := finalECEF.cout }) := by
  rw [systemOn_zero]
  rfl

/-- A missing range is read through the end of the range map. -/
theorem trillatOn_missing (p : SatLocation K) (r : SatRanges K) (h : ¬HasRanges p r) :
    trillatPosFromRangeOn o chk p r = .error .endIterator := by
  rw [trillatPosFromRangeOn_eq, trillatLoopOn_missing o chk p r h, error_bind]

/-- Up to three satellites no store is past the array. -/
theorem trillatPosFromRangeOn_le (p : SatLocation K) (r : SatRanges K)
    (hsize : p.locations.size ≤ 3) :
    trillatPosFromRangeOn o chk p r = trillatPosFromRange chk p r := by
  have hroom : (systemOn o p r 0).i + p.locations.entries.length
      ≤ (systemOn o p r 0).vectorB.length := by
    have hlen : p.locations.entries.length ≤ 3 := hsize
    have hrhs : (systemOn o p r 0).vectorB.length = 3 := length_rhsOn o p r 0
    rw [hrhs]
    change 0 + p.locations.entries.length ≤ 3
    omega
  rw [trillatPosFromRangeOn_eq, trillatLoopOn_room o chk r p.locations.entries _ hroom,
    systemOn_zero]
  rfl

/-- If every satellite has a range, nothing is read through the end of the map. -/
theorem trillatOn_no_endIterator (p : SatLocation K) (r : SatRanges K) (h : HasRanges p r) :
    trillatPosFromRangeOn o chk p r ≠ .error .endIterator := by
  have hlist := list_eq_vec (rhsOn o p r p.locations.size)
  rw [length_rhsOn] at hlist
  have hmatrix : (systemOn o p r p.locations.size).matrixA
      = some (ofFn p.locations.size 3 (rowFn p)) := systemAfter_matrixA p r
  have hrhs : (systemOn o p r p.locations.size).vectorB
      = vec 3 (fun i => (rhsOn o p r p.locations.size).getD i 0) := hlist
  rw [trillatPosFromRangeOn_eq, trillatLoopOn_eq o chk p r h, ok_bind, hmatrix, hrhs,
    posMTrillatASize]
  by_cases hsize : p.locations.size < 3
  · rw [leastSquareReg_short chk _ (rowFn p) _ hsize, error_bind]
    simp only [ne_eq, Except.error.injEq, reduceCtorEq, not_false_eq_true]
  · rw [leastSquareReg_ofFn chk _ 3 (rowFn p) _ (by omega) (Nat.le_refl 3)]
    split_ifs
    · rw [error_bind]
      simp only [ne_eq, Except.error.injEq, reduceCtorEq, not_false_eq_true]
    · rw [ok_bind, get_vec 3 _ 0 (by omega), get_vec 3 _ 1 (by omega), get_vec 3 _ 2 (by omega)]
      simp only [ok_bind, ne_eq, reduceCtorEq, not_false_eq_true]

/-! ### The common satellites -/

omit [LinearOrder K] [FloorRing K] [DoubleToInt K] in
/-- The satellites that have a range. -/
def commonSats (p : SatLocation K) (r : SatRanges K) : SatLocation K :=
  { locations := p.locations.filter (fun k => (r.ranges.find k).isSome) }

omit [LinearOrder K] [FloorRing K] [DoubleToInt K] in
/-- The ranges that have a satellite. -/
def commonRanges (p : SatLocation K) (r : SatRanges K) : SatRanges K :=
  { ranges := r.ranges.filter (fun k => (p.locations.find k).isSome) }

omit [Field K] [LinearOrder K] [FloorRing K] [DoubleToInt K] in
/-- If every satellite has a range, they are all common. -/
theorem commonSats_eq_self (p : SatLocation K) (r : SatRanges K) (h : HasRanges p r) :
    commonSats p r = p := by
  have hfilter : p.locations.filter (fun k => (r.ranges.find k).isSome) = p.locations :=
    SortedMap.filter_eq_self _ p.locations (fun e he => Option.isSome_iff_exists.mpr
      ((SortedMap.forall_find p.locations _).mp h e he))
  unfold commonSats
  rw [hfilter]

omit [Field K] [LinearOrder K] [FloorRing K] [DoubleToInt K] in
/-- The range of a satellite is common if there is one. -/
theorem commonRanges_find (p : SatLocation K) (r : SatRanges K) (e : Int × EcefPos K)
    (he : e ∈ p.locations.entries) :
    (commonRanges p r).ranges.find e.1 = r.ranges.find e.1 := by
  have hfind := (SortedMap.find_eq_some_iff p.locations e.1 e.2).mpr he
  unfold commonRanges
  rw [SortedMap.find_filter, hfind, Option.isSome_some, if_pos rfl]

/-- Only the ranges of the satellites' own ids matter. -/
theorem trillatOn_congr (p : SatLocation K) (r r' : SatRanges K)
    (h : ∀ e ∈ p.locations.entries, r.ranges.find e.1 = r'.ranges.find e.1) :
    trillatPosFromRangeOn o chk p r = trillatPosFromRangeOn o chk p r' := by
  have hloop : p.locations.entries.foldlM (trillatRowOn o chk r) (systemOn o p r 0)
      = p.locations.entries.foldlM (trillatRowOn o chk r') (systemOn o p r' 0) := by
    refine walk_congr _ _ p.locations.entries _ (fun e he s => ?_)
    unfold trillatRowOn
    rw [h e he]
  rw [trillatPosFromRangeOn_eq, trillatPosFromRangeOn_eq, hloop]

/-- Satellites without a range and ranges without a satellite make no difference
    exactly if every satellite has a range, whatever the stores past the
    right-hand side do. -/
theorem trillat_common_iff (p : SatLocation K) (r : SatRanges K) :
    (trillatPosFromRangeOn o chk p r ≠ .error .endIterator ∧
        trillatPosFromRangeOn o chk p r
          = trillatPosFromRangeOn o chk (commonSats p r) (commonRanges p r)) ↔
      HasRanges p r := by
  constructor
  · intro h
    by_contra hranges
    exact h.1 (trillatOn_missing o chk p r hranges)
  · intro hranges
    refine ⟨trillatOn_no_endIterator o chk p r hranges, ?_⟩
    -- No satellite is dropped, and no range of a satellite.
    rw [commonSats_eq_self p r hranges]
    exact trillatOn_congr o chk p r _ (fun e he => (commonRanges_find p r e he).symm)

end Conversion

/-- A fourth satellite without a range, beside three that have one. It is read
    before any store is past the right-hand side. -/
theorem trillat_reads_missing :
    let three : SortedMap Int (EcefPos ℚ) :=
      ((SortedMap.empty.insert 1 ⟨3, 1, 1⟩).insert 2 ⟨1, 3, 1⟩).insert 3 ⟨1, 1, 3⟩
    let satPos : SatLocation ℚ := { locations := three.insert 4 ⟨-1, 1, 1⟩ }
    let ranges : SatRanges ℚ := { ranges := ((SortedMap.empty.insert 1 2).insert 2 2).insert 3 2 }
    (commonSats satPos ranges).locations.size = 3 ∧
      trillatPosFromRange .buffer satPos ranges = .error .endIterator ∧
      ∀ o : Overrun ℚ, trillatPosFromRangeOn o .buffer satPos ranges = .error .endIterator ∧
        trillatPosFromRangeOn o .buffer (commonSats satPos ranges) (commonRanges satPos ranges)
          ≠ .error .endIterator := by
  intro three satPos ranges
  refine ⟨by decide +kernel, by decide +kernel, fun o => ⟨?_, ?_⟩⟩
  · refine trillatOn_missing o .buffer satPos ranges (fun h => ?_)
    rcases h 4 ⟨-1, 1, 1⟩ (by decide +kernel) with ⟨range, hrange⟩
    have hnone : ranges.ranges.find 4 = none := by decide +kernel
    rw [hnone] at hrange
    exact absurd hrange (by simp only [reduceCtorEq, not_false_eq_true])
  · rw [trillatPosFromRangeOn_le o .buffer _ _ (by decide +kernel)]
    decide +kernel

/-- A fifth one, which the loop still comes to. -/
example (o : Overrun ℚ) :
    trillatPosFromRangeOn o .buffer
      { locations := ((((SortedMap.empty.insert 1 ⟨3, 1, 1⟩).insert 2 ⟨1, 3, 1⟩).insert 3
          ⟨1, 1, 3⟩).insert 4 ⟨-1, 1, 1⟩).insert 5 ⟨1, -1, 1⟩ }
      { ranges := (((SortedMap.empty.insert 1 2).insert 2 2).insert 3 2).insert 4 2 }
      = .error .endIterator := by
  rfl

end SimpleDgps
