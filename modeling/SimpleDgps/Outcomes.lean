import SimpleDgps.Receiver

/-!
# Every Outcome of Trilateration

What `trillatPosFromRange` does on any two maps at all.

A run has a result exactly if every satellite has a range, there are three of
them and the determinant of the normal matrix does not convert to zero:
`trillat_ends_iff`. All results lie on one line, `trillat_shape`, and
`axis_reaches` is the converse: three satellites on the axes reach every point of
that line with ranges of their own.

So no result is left over for a singular geometry. `Reported` says what a report
would be, a run that does not index a null matrix and ends with a result that only
singular inputs have. `singular_never_reported` says that there is none, neither
where `calcInverse` returns null nor for satellites in a plane through the centre
that it does not recognise.

## Main definitions

* `Reported`: The outcome of a run tells that the input is singular.
* `Measurements`: The inputs of the regression.
* `satMatrix`: The matrix of the satellites, one row each.
* `SingularGeometry`: The satellites span no space, or their inverse is null.

## Theorems

* `trillat_ends_hasRanges`: A run that ends has looked up every range.
* `trillat_ends_iff`: When a position comes out.
* `trillat_shape`: All positions lie on one line.
* `trillat_congr`: Only the ranges of the satellites' own ids matter.
* `satMatrix_null_iff`: When the inverse of the satellites is null.
* `axis_reaches`: Every point of the line comes out of a geometry that is fine.
* `singular_never_reported`: A singular geometry is not reported.
-/

namespace SimpleDgps

open Toolkit Loop Memory

variable {K : Type} [Field K] [LinearOrder K] [FloorRing K] [DoubleToInt K] (chk : Check)

open DoubleToInt (toInt)

/-- A run that ends has looked up every range. -/
theorem trillat_ends_hasRanges (p : SatLocation K) (r : SatRanges K)
    (result : Printed (EcefPos K)) (h : trillatPosFromRange chk p r = .ok result) :
    HasRanges p r := by
  rw [trillatPosFromRange_eq] at h
  rcases bind_eq_ok _ _ _ h with ⟨s, hloop, _⟩
  refine (SortedMap.forall_find p.locations _).mpr (fun e he => ?_)
  rcases walk_rounds _ p.locations.entries _ s hloop e he with ⟨u, v, hround⟩
  cases hfind : r.ranges.find e.1 with
  | none =>
      -- Its round would have read past the end of the map.
      rw [trillatRow_missing chk r u e hfind] at hround
      exact absurd hround (by simp only [reduceCtorEq, not_false_eq_true])
  | some range => exact ⟨range, rfl⟩

/-- A position comes out exactly for three satellites, each with a range, whose
    determinant does not convert to zero. The determinant is the exact one, as
    all numbers here are. -/
theorem trillat_ends_iff (p : SatLocation K) (r : SatRanges K) :
    (∃ result, trillatPosFromRange chk p r = .ok result) ↔
      HasRanges p r ∧ p.locations.size = 3 ∧ toInt (normalDet p) ≠ 0 := by
  by_cases hranges : HasRanges p r
  · by_cases hsize : p.locations.size = 3
    · rw [trillatPosFromRange_three chk p r hranges hsize, detFn_rowFn_three p hsize]
      by_cases hzero : toInt (normalDet p) = 0
      · rw [if_pos hzero]
        exact iff_of_false (error_no_result _) (fun h => h.2.2 hzero)
      · rw [if_neg hzero]
        exact iff_of_true ⟨_, rfl⟩ ⟨hranges, hsize, hzero⟩
    · rw [trillatPosFromRange_ne_three chk p r hranges hsize]
      exact iff_of_false (error_no_result _) (fun h => hsize h.2.1)
  · refine iff_of_false ?_ (fun h => hranges h.1)
    rintro ⟨result, hresult⟩
    exact hranges (trillat_ends_hasRanges chk p r result hresult)

/-- All positions lie on one line through the centre. -/
theorem trillat_shape (p : SatLocation K) (r : SatRanges K) (result : Printed (EcefPos K))
    (h : trillatPosFromRange chk p r = .ok result) :
    ∃ x, result = { value := { x := x, y := -x, z := x }, cout := [] } := by
  rcases (trillat_ends_iff chk p r).mp ⟨result, h⟩ with ⟨hranges, hsize, hdet⟩
  rw [trillatPosFromRange_three chk p r hranges hsize, detFn_rowFn_three p hsize,
    if_neg hdet, Except.ok.injEq] at h
  exact ⟨_, h.symm⟩

/-- Only the ranges of the satellites' own ids matter. -/
theorem trillat_congr (p : SatLocation K) (r r' : SatRanges K)
    (h : ∀ e ∈ p.locations.entries, r.ranges.find e.1 = r'.ranges.find e.1) :
    trillatPosFromRange chk p r = trillatPosFromRange chk p r' := by
  have hloop : trillatLoop chk p r = trillatLoop chk p r' := by
    unfold trillatLoop
    refine walk_congr _ _ p.locations.entries _ (fun e he s => ?_)
    unfold trillatRow
    rw [h e he]
  rw [trillatPosFromRange_eq, trillatPosFromRange_eq, hloop]

/-! ### The report of a singular matrix -/

/-- The outcome of a run tells its caller that the input is singular: nothing is
    read through a null matrix, and the run ends with a result that no regular input
    has. -/
structure Reported {ι ρ : Type} (run : ι → Except Fault ρ) (singular : ι → Prop) (i : ι) :
    Prop where
  unindexed : run i ≠ .error .nullPointer
  reaches : ∃ result, run i = .ok result ∧ ∀ j, ¬singular j → run j ≠ .ok result

omit [Field K] [LinearOrder K] [FloorRing K] [DoubleToInt K] in
variable (K) in
/-- A system of at least three rows, the input of the regression. -/
structure Measurements where
  rows : Nat
  three_le : 3 ≤ rows
  A : Matrix (Fin rows) (Fin 3) K
  b : Fin rows → K

/-- The call of the regression that `trillatPosFromRange` makes. -/
def Measurements.solve (s : Measurements K) : Except Fault (Printed (List K)) :=
  leastSquareReg chk (ofMatrix s.A) (List.ofFn s.b) s.rows posMTrillatASize

omit [LinearOrder K] [FloorRing K] [DoubleToInt K] in
/-- The matrix of the satellites, one row each in id order. -/
def satMatrix (p : SatLocation K) : Matrix (Fin p.locations.size) (Fin 3) K :=
  fun i j => rowFn p i j

/-- All satellites lie in one plane through the centre, or `calcInverse` returns
    null for their normal matrix. -/
def SingularGeometry (p : SatLocation K) : Prop :=
  ¬SpansSpace p ∨ NullInverse chk (satMatrix p)

omit [LinearOrder K] [FloorRing K] [DoubleToInt K] in
theorem gramFn_satMatrix (p : SatLocation K) (hsize : p.locations.size = 3) (j : Nat)
    (hj : j < 3) : gramFn (entry (satMatrix p)) 0 j = gramFn (rowFn p) 0 j := by
  have hentry : ∀ i k, i < 3 → k < 3 → entry (satMatrix p) i k = rowFn p i k := by
    intro i k hi hk
    exact entry_eq (satMatrix p) ⟨i, by omega⟩ ⟨k, hk⟩
  unfold gramFn mulFn
  refine Finset.sum_congr rfl (fun i hi => ?_)
  have hrow : i < 3 := Finset.mem_range.mp hi
  simp only [hentry i 0 hrow (by omega), hentry i j hrow hj]

/-- The inverse of three satellites is null exactly if their determinant converts
    to zero. -/
theorem satMatrix_null_iff (p : SatLocation K) (hsize : p.locations.size = 3) :
    NullInverse chk (satMatrix p) ↔ toInt (normalDet p) = 0 := by
  rw [nullInverse_iff chk (by omega) (satMatrix p), detFn_three,
    gramFn_satMatrix p hsize 0 (by omega), gramFn_satMatrix p hsize 1 (by omega),
    gramFn_satMatrix p hsize 2 (by omega), ← detFn_three, detFn_rowFn_three p hsize]

section Axis

omit [FloorRing K] [DoubleToInt K]

omit [LinearOrder K] in
theorem axisSats_minor : normalMinor (axisSats K) = 16 := by
  unfold normalMinor satSum
  rw [axisSats_entries]
  simp only [List.map_cons, List.map_nil, List.sum_cons, List.sum_nil]
  ring

omit [LinearOrder K] in
theorem axisSats_det : normalDet (axisSats K) = 64 := by
  unfold normalDet satSum
  rw [axisSats_entries]
  simp only [List.map_cons, List.map_nil, List.sum_cons, List.sum_nil]
  ring

/-- Some ranges give the right-hand side of the axes any weight. The first satellite
    is where it is measured from, and the squares of the other two ranges differ by
    what is missing. -/
theorem axisSats_moment [IsStrictOrderedRing K] (x : K) :
    ∃ r, HasRanges (axisSats K) r ∧ rangeMoment (axisSats K) r = 4 * x := by
  let d : K := (2 * x + earthRadiusKm * earthRadiusKm + 1) / (12 / 5 * earthRadiusKm)
  have hradius : (earthRadiusKm : K) ≠ 0 := ne_of_gt earthRadiusKm_pos
  have hd : 12 / 5 * earthRadiusKm * d = 2 * x + earthRadiusKm * earthRadiusKm + 1 :=
    mul_div_cancel₀ _ (mul_ne_zero (by norm_num) hradius)
  let r : SatRanges K := { ranges :=
    ((SortedMap.empty.insert 1 0).insert 2 |(d - 1) / 2|).insert 3 |(d + 1) / 2| }
  have hone : rangeOf r 1 = 0 := rfl
  have htwo : rangeOf r 2 = |(d - 1) / 2| := rfl
  have hthree : rangeOf r 3 = |(d + 1) / 2| := rfl
  refine ⟨r, ?_, ?_⟩
  · refine (SortedMap.forall_find (axisSats K).locations _).mpr ?_
    rw [axisSats_entries]
    simp only [List.forall_mem_cons]
    exact ⟨⟨_, rfl⟩, ⟨_, rfl⟩, ⟨_, rfl⟩, List.forall_mem_nil _⟩
  · unfold rangeMoment satSum
    rw [axisSats_entries]
    simp only [List.map_cons, List.map_nil, List.sum_cons, List.sum_nil, hone, htwo, hthree,
      rightHandSide, alternating, sq_abs]
    linear_combination 2 * hd

end Axis

theorem axisSats_toInt [IsStrictOrderedRing K] : toInt (normalDet (axisSats K)) = 64 := by
  rw [axisSats_det]
  exact_mod_cast toInt_intCast (K := K) 64 (by decide) (by decide)

theorem axisSats_regular [IsStrictOrderedRing K] : ¬SingularGeometry chk (axisSats K) := by
  rintro (hplane | hnull)
  · exact hplane axisSats_spans
  · rw [satMatrix_null_iff chk (axisSats K) rfl, axisSats_toInt] at hnull
    exact absurd hnull (by decide)

/-- Every point of the line comes out of a geometry that is not singular. -/
theorem axis_reaches [IsStrictOrderedRing K] (x : K) :
    ∃ r, trillatPosFromRange chk (axisSats K) r
      = .ok { value := { x := x, y := -x, z := x }, cout := [] } := by
  rcases axisSats_moment x with ⟨r, hranges, hmoment⟩
  have hdet : toInt (normalDet (axisSats K)) ≠ 0 := by
    rw [axisSats_toInt]
    decide
  have hscale : x * (toInt (normalDet (axisSats K)) : K)
      = normalMinor (axisSats K) * rangeMoment (axisSats K) r := by
    rw [axisSats_toInt, axisSats_minor, hmoment]
    push_cast
    ring
  rcases (trillat_returns_iff chk (axisSats K) r hranges { x := x, y := -x, z := x }).mpr
    ⟨rfl, hdet, rfl, rfl, hscale⟩ with ⟨out, hout⟩
  -- Nothing is printed on the way to a position.
  rcases trillat_shape chk _ _ _ hout with ⟨x', hshape⟩
  exact ⟨r, by rw [hout, (Printed.mk.inj hshape).2]⟩

/-- A singular geometry is not reported, by the regression or by trilateration. -/
theorem singular_never_reported [IsStrictOrderedRing K] :
    (∀ s : Measurements K, NullInverse chk s.A →
      ¬Reported (Measurements.solve chk) (fun s => NullInverse chk s.A) s) ∧
    ∀ (p : SatLocation K) (r : SatRanges K), SingularGeometry chk p →
      ¬Reported (fun i : SatLocation K × SatRanges K => trillatPosFromRange chk i.1 i.2)
        (fun i => SingularGeometry chk i.1) (p, r) := by
  constructor
  · intro s hnull hreported
    have hpos : 0 < s.rows := Nat.lt_of_lt_of_le (by decide) s.three_le
    exact hreported.unindexed (NullInverse.indexed chk s.A (List.ofFn s.b) hpos hnull)
  · intro p r hsingular hreported
    rcases hreported.reaches with ⟨result, hrun, hother⟩
    rcases hsingular with hplane | hnull
    · -- The result is one that the axes produce as well.
      rcases trillat_shape chk p r result hrun with ⟨x, hshape⟩
      rcases axis_reaches chk x with ⟨r', hother'⟩
      refine hother (axisSats K, r') (axisSats_regular chk) ?_
      rw [hshape]
      exact hother'
    · -- There is no result, because the null matrix is indexed before.
      rcases (trillat_ends_iff chk p r).mp ⟨result, hrun⟩ with ⟨_, hsize, hdet⟩
      exact hdet ((satMatrix_null_iff chk p hsize).mp hnull)

/-- Three satellites in the plane of the second and third axis. -/
theorem singular_is_indexed :
    let satPos : SatLocation ℚ := { locations :=
      ((SortedMap.empty.insert 1 ⟨0, 1, 0⟩).insert 2 ⟨0, 0, 1⟩).insert 3 ⟨0, 1, 1⟩ }
    let ranges : SatRanges ℚ := { ranges := ((SortedMap.empty.insert 1 1).insert 2 1).insert 3 1 }
    let A : Matrix (Fin 3) (Fin 3) ℚ := !![0, -2, 0; 0, 0, -2; 0, -2, -2]
    (∀ e ∈ satPos.locations.entries, e.2.x = 0) ∧
      (normalMatrix .buffer (ofMatrix A) 3 3 >>= fun G => calcInverse .buffer G 3)
        = .ok { value := none, cout := ["Singular matrix, can't find its inverse"] } ∧
      leastSquareReg .buffer (ofMatrix A) (List.ofFn ![1, 1, 1]) 3 3 = .error .nullPointer ∧
      trillatPosFromRange .buffer satPos ranges = .error .nullPointer := by
  decide +kernel

/-- The matrix of those three, and three satellites in the plane of the first and
    second axis, which the code takes for regular. -/
theorem singular_never_reported_example :
    let s : Measurements ℚ := { rows := 3, three_le := Nat.le_refl 3,
                                A := !![0, -2, 0; 0, 0, -2; 0, -2, -2], b := ![1, 1, 1] }
    let satPos : SatLocation ℚ := { locations :=
      ((SortedMap.empty.insert 1 ⟨1, 0, 0⟩).insert 2 ⟨0, 1, 0⟩).insert 3 ⟨1, 1, 0⟩ }
    let ranges : SatRanges ℚ := { ranges := ((SortedMap.empty.insert 1 1).insert 2 1).insert 3 1 }
    ¬Reported (Measurements.solve .buffer) (fun s => NullInverse .buffer s.A) s ∧
      (∃ q, trillatPosFromRange .buffer satPos ranges = .ok { value := q, cout := [] }) ∧
      ¬Reported (fun i : SatLocation ℚ × SatRanges ℚ => trillatPosFromRange .buffer i.1 i.2)
        (fun i => SingularGeometry .buffer i.1) (satPos, ranges) := by
  intro s satPos ranges
  have hnull : NullInverse .buffer s.A :=
    (nullInverse_iff .buffer s.three_le s.A).mpr (by decide +kernel)
  have hplane : ¬SpansSpace satPos := by
    intro hspans
    -- The third axis is orthogonal to all of them.
    have hzero := hspans 0 0 1 ((SortedMap.forall_find satPos.locations _).mpr (by decide +kernel))
    exact one_ne_zero hzero.2.2
  have hall : ∀ e ∈ satPos.locations.entries, (ranges.ranges.find e.1).isSome := by decide +kernel
  have hranges : HasRanges satPos ranges := (SortedMap.forall_find satPos.locations _).mpr
    (fun e he => Option.isSome_iff_exists.mp (hall e he))
  refine ⟨(singular_never_reported .buffer).1 s hnull, ?_,
    (singular_never_reported .buffer).2 satPos ranges (Or.inl hplane)⟩
  rcases (trillat_ends_iff .buffer satPos ranges).mpr ⟨hranges, by decide, by decide +kernel⟩
    with ⟨result, hresult⟩
  rcases trillat_shape .buffer _ _ _ hresult with ⟨x, hshape⟩
  exact ⟨_, by rw [hresult, hshape]⟩

end SimpleDgps
