import SimpleDgps.Correction
import SimpleDgps.Trilateration
import Mathlib.Analysis.SpecialFunctions.Trigonometric.Arctan

/-!
# Finding the Receiver

What trilateration is for: ranges are measured from a receiver, and the
position that comes out should be the receiver's.

`ExactRanges` is the measurement, every satellite's range being its exact
distance from the receiver. It determines the right-hand side of the system
(`rightHandSide_exact`), and with it the condition for the receiver to be
found, `trillat_finds_iff`. The receiver has to lie on the line of the results,
and one equation between the satellites and its coordinate there has to hold.

Two receivers are of interest. One lies on the Earth sphere that the
right-hand side is built from, and the equation loses its coordinate:
`trillat_recovers_iff`. The other is a station given by its geodetic
coordinates, with ranges from the forward model. Its distance from the centre
is that of the ellipsoid in metres and not the radius in kilometres, and the
difference of the two squares stays in the equation:
`trillat_inverts_range_iff`.

The system itself can be asked the same question before it is solved. A
receiver on the sphere satisfies a row up to its sign, so it satisfies all of
them only if every satellite stands at a right angle to it:
`systemSatisfied_iff`.

All three conditions can be met, but only in special positions. `lineSats` finds a
receiver on the sphere and a station on the ellipsoid, and `sideSats` stand at a
right angle to theirs.

## Main definitions

* `sqDist`: Squared distance of two points.
* `scalarProduct`: Scalar product of two position vectors.
* `SpansSpace`: The satellites are not all in one plane through the centre.
* `ExactRanges`: Ranges measured from a receiver.
* `measured`: The ranges it measures.
* `SystemSatisfied`: The receiver satisfies the system the loop leaves behind.
* `axisSats`, `sideSats`, `lineSats`: Three sets of satellites.

## Theorems

* `rightHandSide_exact`: The right-hand side that a receiver produces.
* `trillat_finds_iff`: When the receiver comes out.
* `measured_exact`: Every receiver has exact ranges.
* `trillat_recovers_iff`: The same for a receiver on the Earth sphere.
* `calcSatToStationRange_exact`: The forward model measures exact ranges.
* `trillat_inverts_range_iff`: The same for a station.
* `row_satisfied_iff`: When the receiver satisfies the row of a satellite.
* `systemSatisfied_iff`: When it satisfies all of them.
-/

namespace SimpleDgps

open Toolkit Memory

variable {K : Type} [Field K]

/-- Squared distance of two points. -/
def sqDist (a b : EcefPos K) : K := (a.x - b.x) ^ 2 + (a.y - b.y) ^ 2 + (a.z - b.z) ^ 2

/-- Scalar product of two position vectors. -/
def scalarProduct (a b : EcefPos K) : K := a.x * b.x + a.y * b.y + a.z * b.z

/-- No direction is orthogonal to every satellite. -/
def SpansSpace (p : SatLocation K) : Prop :=
  ∀ a b c : K, (∀ k s, p.locations.find k = some s → a * s.x + b * s.y + c * s.z = 0) →
    a = 0 ∧ b = 0 ∧ c = 0

/-- Every satellite's range is its exact distance from the receiver. -/
def ExactRanges [LE K] (p : SatLocation K) (r : SatRanges K) (receiver : EcefPos K) : Prop :=
  ∀ k s, p.locations.find k = some s →
    ∃ range, r.ranges.find k = some range ∧ 0 ≤ range ∧ range ^ 2 = sqDist s receiver

/-- The ranges that a receiver measures. -/
def measured [CMath K] (p : SatLocation K) (receiver : EcefPos K) : SatRanges K :=
  { ranges := p.locations.entries.foldl
      (fun ranges it => ranges.insert it.1 (CMath.sqrt (sqDist it.2 receiver)))
      SortedMap.empty }

/-- The right-hand side that a receiver produces. On the Earth sphere only the
    last summand is left. -/
theorem rightHandSide_exact (s receiver : EcefPos K) (range : K)
    (h : range ^ 2 = sqDist s receiver) :
    rightHandSide s range
      = earthRadiusKm ^ 2 - (receiver.x ^ 2 + receiver.y ^ 2 + receiver.z ^ 2) +
        2 * (receiver.x * s.x + receiver.y * s.y + receiver.z * s.z) := by
  unfold rightHandSide
  rw [h, sqDist]
  ring

theorem ExactRanges.hasRanges [LE K] (p : SatLocation K) (r : SatRanges K) (receiver : EcefPos K)
    (h : ExactRanges p r receiver) : HasRanges p r := by
  intro k s hs
  rcases h k s hs with ⟨range, hrange, _⟩
  exact ⟨range, hrange⟩

/-- On the line of the results the right-hand side depends on a satellite
    through its component along that line. -/
theorem rangeMoment_exact [LE K] (p : SatLocation K) (r : SatRanges K) (receiver : EcefPos K)
    (h : ExactRanges p r receiver) (hy : receiver.y = -receiver.x) (hz : receiver.z = receiver.x) :
    rangeMoment p r
      = satSum p (fun _ s => -2 * alternating s.x s.y s.z *
          (earthRadiusKm ^ 2 - 3 * receiver.x ^ 2 +
            2 * receiver.x * alternating s.x s.y s.z)) := by
  refine satSum_congr p _ _ (fun k s hs => ?_)
  rcases h k s hs with ⟨range, hrange, _, hsq⟩
  -- The range the loop looks up is the measured one.
  have hrangeOf : rangeOf r k = range := by rw [rangeOf, hrange, Option.getD_some]
  rw [hrangeOf, rightHandSide_exact s receiver range hsq, hy, hz]
  unfold alternating
  ring

/-- The sphere cancels the part of the sum that has no factor of the
    coordinate. -/
theorem satSum_on_sphere (p : SatLocation K) (x : K) (hx : 3 * x ^ 2 = earthRadiusKm ^ 2) :
    satSum p (fun _ s => -2 * alternating s.x s.y s.z *
        (earthRadiusKm ^ 2 - 3 * x ^ 2 + 2 * x * alternating s.x s.y s.z))
      = x * satSum p (fun _ s => -4 * alternating s.x s.y s.z ^ 2) := by
  rw [← satSum_mul, hx]
  exact satSum_congr p _ _ (fun _ s _ => by ring)

section Conversion

variable [LinearOrder K] [IsStrictOrderedRing K] [FloorRing K] [DoubleToInt K] (chk : Check)

open DoubleToInt (toInt)

/-- When the receiver comes out. -/
theorem trillat_finds_iff (p : SatLocation K) (r : SatRanges K) (receiver : EcefPos K)
    (h : ExactRanges p r receiver) :
    (∃ out, trillatPosFromRange chk p r = .ok { value := receiver, cout := out }) ↔
      p.locations.size = 3 ∧ toInt (normalDet p) ≠ 0 ∧
        receiver.y = -receiver.x ∧ receiver.z = receiver.x ∧
        receiver.x * (toInt (normalDet p) : K)
          = normalMinor p * satSum p (fun _ s => -2 * alternating s.x s.y s.z *
              (earthRadiusKm ^ 2 - 3 * receiver.x ^ 2 +
                2 * receiver.x * alternating s.x s.y s.z)) := by
  rw [trillat_returns_iff chk p r h.hasRanges receiver]
  refine and_congr_right (fun _ => and_congr_right (fun _ => ?_))
  refine and_congr_right (fun hy => and_congr_right (fun hz => ?_))
  rw [rangeMoment_exact p r receiver h hy hz]

omit [FloorRing K] [DoubleToInt K] in
theorem coordinate_ne_zero (x : K) (hx : 3 * x ^ 2 = earthRadiusKm ^ 2) : x ≠ 0 := by
  intro h
  have hradius : (earthRadiusKm : K) ^ 2 ≠ 0 := pow_ne_zero 2 (ne_of_gt earthRadiusKm_pos)
  exact hradius (by rw [← hx, h]; ring)

/-- A receiver on the Earth sphere comes out exactly if it lies on the line of
    the results and the determinant converts to one value, which depends on the
    satellites only. -/
theorem trillat_recovers_iff (p : SatLocation K) (r : SatRanges K) (receiver : EcefPos K)
    (hsphere : receiver.x ^ 2 + receiver.y ^ 2 + receiver.z ^ 2 = earthRadiusKm ^ 2)
    (h : ExactRanges p r receiver) :
    (∃ out, trillatPosFromRange chk p r = .ok { value := receiver, cout := out }) ↔
      p.locations.size = 3 ∧ receiver.y = -receiver.x ∧ receiver.z = receiver.x ∧
        toInt (normalDet p) ≠ 0 ∧
        (toInt (normalDet p) : K)
          = normalMinor p * satSum p (fun _ s => -4 * alternating s.x s.y s.z ^ 2) := by
  rw [trillat_finds_iff chk p r receiver h]
  -- On the line the sphere fixes the square of the coordinate, so it is not zero.
  have hcoordinate : receiver.y = -receiver.x → receiver.z = receiver.x →
      3 * receiver.x ^ 2 = (earthRadiusKm : K) ^ 2 := by
    intro hy hz
    rw [← hsphere, hy, hz]
    ring
  constructor
  · rintro ⟨hsize, hdet, hy, hz, heq⟩
    rw [satSum_on_sphere p receiver.x (hcoordinate hy hz)] at heq
    -- Both sides have the coordinate as a factor, and it can be cancelled.
    refine ⟨hsize, hy, hz, hdet, mul_left_cancel₀ (coordinate_ne_zero _ (hcoordinate hy hz)) ?_⟩
    rw [heq, mul_left_comm]
  · rintro ⟨hsize, hy, hz, hdet, heq⟩
    refine ⟨hsize, hdet, hy, hz, ?_⟩
    rw [satSum_on_sphere p receiver.x (hcoordinate hy hz), heq, mul_left_comm]

omit [FloorRing K] [DoubleToInt K] in
/-- Every receiver has exact ranges. -/
theorem measured_exact [CMath K] [LawfulCMath K] (p : SatLocation K) (receiver : EcefPos K) :
    ExactRanges p (measured p receiver) receiver := by
  intro k s hs
  have hnonneg : 0 ≤ sqDist s receiver :=
    add_nonneg (add_nonneg (sq_nonneg _) (sq_nonneg _)) (sq_nonneg _)
  refine ⟨CMath.sqrt (sqDist s receiver), ?_, LawfulCMath.sqrt_nonneg _,
    LawfulCMath.sq_sqrt _ hnonneg⟩
  have hfind := SortedMap.find_foldl_insertIf
    (fun _ s => some (CMath.sqrt (sqDist s receiver))) p.locations k
  rw [hs, Option.bind_some] at hfind
  exact hfind

omit [FloorRing K] [DoubleToInt K] in
/-- The forward model measures exact ranges. -/
theorem calcSatToStationRange_exact [CMath K] [LawfulCMath K] (p : SatLocation K)
    (r : SatRanges K) (q : LatLonAltPos K)
    (h : ∀ k s, p.locations.find k = some s →
      r.ranges.find k = some (calcSatToStationRange s q)) :
    ExactRanges p r (latLonAltToEcef q) :=
  fun k s hs => ⟨calcSatToStationRange s q, h k s hs, LawfulCMath.sqrt_nonneg _,
    sq_calcSatToStationRange s q⟩

/-- Trilateration inverts the forward model exactly if the station lies on the
    line of the results and the determinant converts to a value that makes up
    for the two Earth models. -/
theorem trillat_inverts_range_iff [CMath K] [LawfulCMath K] (p : SatLocation K)
    (r : SatRanges K) (q : LatLonAltPos K) (hsize : p.locations.size = 3)
    (h : ∀ k s, p.locations.find k = some s →
      r.ranges.find k = some (calcSatToStationRange s q)) :
    (∃ out, trillatPosFromRange chk p r = .ok { value := latLonAltToEcef q, cout := out }) ↔
      toInt (normalDet p) ≠ 0 ∧
        (latLonAltToEcef q).y = -(latLonAltToEcef q).x ∧
        (latLonAltToEcef q).z = (latLonAltToEcef q).x ∧
        (latLonAltToEcef q).x * (toInt (normalDet p) : K)
          = normalMinor p * satSum p (fun _ s => -2 * alternating s.x s.y s.z *
              (earthRadiusKm ^ 2 - 3 * (latLonAltToEcef q).x ^ 2 +
                2 * (latLonAltToEcef q).x * alternating s.x s.y s.z)) := by
  have hfind := trillat_finds_iff chk p r _ (calcSatToStationRange_exact p r q h)
  rw [hfind]
  exact and_iff_right hsize

end Conversion

/-! ### The system before it is solved -/

section System

variable [LinearOrder K] [IsStrictOrderedRing K] (chk : Check)

/-- A receiver on the Earth sphere satisfies the row of a satellite exactly if
    it sees the satellite at a right angle from the centre: there the two signs
    agree. -/
theorem row_satisfied_iff (s receiver : EcefPos K) (range : K)
    (hsphere : receiver.x ^ 2 + receiver.y ^ 2 + receiver.z ^ 2 = earthRadiusKm ^ 2)
    (h : range ^ 2 = sqDist s receiver) :
    coefficient s 0 * receiver.x + coefficient s 1 * receiver.y + coefficient s 2 * receiver.z
        = rightHandSide s range ↔ scalarProduct s receiver = 0 := by
  have hrow : coefficient s 0 * receiver.x + coefficient s 1 * receiver.y +
      coefficient s 2 * receiver.z = -2 * scalarProduct s receiver := by
    simp only [coefficient, scalarProduct]
    ring
  have hrhs : rightHandSide s range = 2 * scalarProduct s receiver := by
    rw [rightHandSide_exact s receiver range h, hsphere, sub_self, zero_add, scalarProduct]
    ring
  rw [hrow, hrhs]
  constructor
  · intro heq
    linarith
  · intro hzero
    rw [hzero]
    ring

/-- The loop ends with one row for each satellite, in id order, built from that
    satellite and its range, and the receiver satisfies every row. -/
def SystemSatisfied (p : SatLocation K) (r : SatRanges K) (receiver : EcefPos K) : Prop :=
  ∃ s : LinearSystem K, trillatLoop chk p r = .ok s ∧ s.i = p.locations.size ∧
    ∀ t (ht : t < p.locations.entries.length), ∃ a b c d range : K,
      GridPtr.read chk s.matrixA t 0 = .ok a ∧ GridPtr.read chk s.matrixA t 1 = .ok b ∧
      GridPtr.read chk s.matrixA t 2 = .ok c ∧ get s.vectorB t = .ok d ∧
      -- The row belongs to the satellite of its round.
      r.ranges.find p.locations.entries[t].1 = some range ∧
      a = coefficient p.locations.entries[t].2 0 ∧ b = coefficient p.locations.entries[t].2 1 ∧
      c = coefficient p.locations.entries[t].2 2 ∧
      d = rightHandSide p.locations.entries[t].2 range ∧
      a * receiver.x + b * receiver.y + c * receiver.z = d

/-- The receiver satisfies the system exactly if all satellites stand at a right
    angle to it. -/
theorem systemSatisfied_iff (p : SatLocation K) (r : SatRanges K) (receiver : EcefPos K)
    (hsphere : receiver.x ^ 2 + receiver.y ^ 2 + receiver.z ^ 2 = earthRadiusKm ^ 2)
    (hsize : p.locations.size ≤ posMTrillatASize) (h : ExactRanges p r receiver) :
    SystemSatisfied chk p r receiver ↔
      ∀ k s, p.locations.find k = some s → scalarProduct s receiver = 0 := by
  have hranges : HasRanges p r := h.hasRanges
  have hloop := trillatLoop_le chk p r hranges hsize
  -- The condition on the entries is one on the rows.
  rw [SortedMap.forall_find p.locations (fun _ s => scalarProduct s receiver = 0)]
  have hrow : ∀ t (ht : t < p.locations.entries.length),
      coefficient p.locations.entries[t].2 0 * receiver.x +
          coefficient p.locations.entries[t].2 1 * receiver.y +
          coefficient p.locations.entries[t].2 2 * receiver.z
        = rightHandSide p.locations.entries[t].2 (rangeOf r p.locations.entries[t].1) ↔
      scalarProduct p.locations.entries[t].2 receiver = 0 := by
    intro t ht
    have hfind : p.locations.find p.locations.entries[t].1 = some p.locations.entries[t].2 :=
      (SortedMap.find_eq_some_iff p.locations _ _).mpr (List.getElem_mem ht)
    rcases h _ _ hfind with ⟨range, hrange, _, hsq⟩
    have hrangeOf : rangeOf r p.locations.entries[t].1 = range := by
      rw [rangeOf, hrange, Option.getD_some]
    rw [hrangeOf]
    exact row_satisfied_iff _ receiver range hsphere hsq
  constructor
  · rintro ⟨s, _, _, hrows⟩ e he
    rcases List.getElem_of_mem he with ⟨t, ht, rfl⟩
    rcases hrows t ht with ⟨a, b, c, d, range, _, _, _, _, hrange, ha, hb, hc, hd, heq⟩
    rw [rangeOf_entry p r hranges t ht, Option.some.injEq] at hrange
    rw [ha, hb, hc, hd, ← hrange] at heq
    exact (hrow t ht).mp heq
  · intro hzero
    refine ⟨_, hloop, rfl, fun t ht => ?_⟩
    rcases systemAfter_row chk p r hsize t ht with ⟨hread, hget⟩
    exact ⟨_, _, _, _, _, hread 0 (by omega), hread 1 (by omega), hread 2 (by omega), hget,
      rangeOf_entry p r hranges t ht, rfl, rfl, rfl, rfl,
      (hrow t ht).mpr (hzero _ (List.getElem_mem ht))⟩

end System

/-! ### A receiver on the first axis -/

section Axis

/-- Three satellites on the axes. -/
def axisSats (K : Type) [Field K] : SatLocation K :=
  { locations := ((SortedMap.empty.insert 1 { x := 1, y := 0, z := 0 }).insert 2
      { x := 0, y := 12 / 5 * earthRadiusKm, z := 0 }).insert 3
      { x := 0, y := 0, z := 12 / 5 * earthRadiusKm } }

theorem axisSats_entries : (axisSats K).locations.entries
    = [(1, { x := 1, y := 0, z := 0 }), (2, { x := 0, y := 12 / 5 * earthRadiusKm, z := 0 }),
        (3, { x := 0, y := 0, z := 12 / 5 * earthRadiusKm })] := rfl

theorem axisSats_spans [LinearOrder K] [IsStrictOrderedRing K] : SpansSpace (axisSats K) := by
  intro a b c h
  have hall := (SortedMap.forall_find (axisSats K).locations _).mp h
  rw [axisSats_entries] at hall
  simp only [List.forall_mem_cons, mul_one, mul_zero, add_zero, zero_add] at hall
  have hcoordinate : (12 / 5 * earthRadiusKm : K) ≠ 0 :=
    mul_ne_zero (by norm_num) (ne_of_gt earthRadiusKm_pos)
  exact ⟨hall.1, (mul_eq_zero.mp hall.2.1).resolve_right hcoordinate,
    (mul_eq_zero.mp hall.2.2.1).resolve_right hcoordinate⟩

def axisReceiver : EcefPos ℚ := { x := earthRadiusKm, y := 0, z := 0 }

/-- The exact ranges from the receiver. -/
def axisRanges : SatRanges ℚ :=
  { ranges := ((SortedMap.empty.insert 1 (earthRadiusKm - 1)).insert 2
      (13 / 5 * earthRadiusKm)).insert 3 (13 / 5 * earthRadiusKm) }

theorem axisReceiver_sphere :
    axisReceiver.x ^ 2 + axisReceiver.y ^ 2 + axisReceiver.z ^ 2 = earthRadiusKm ^ 2 := by
  decide +kernel

theorem axisRanges_exact : ExactRanges (axisSats ℚ) axisRanges axisReceiver := by
  refine (SortedMap.forall_find (axisSats ℚ).locations _).mpr ?_
  rw [axisSats_entries]
  simp only [List.forall_mem_cons]
  refine ⟨⟨earthRadiusKm - 1, ?_⟩, ⟨13 / 5 * earthRadiusKm, ?_⟩, ⟨13 / 5 * earthRadiusKm, ?_⟩,
    List.forall_mem_nil _⟩ <;> decide +kernel

/-- The position that comes out is the receiver's mirror image, spread over all
    three axes. -/
theorem trillat_misses_receiver :
    SpansSpace (axisSats ℚ) ∧ ExactRanges (axisSats ℚ) axisRanges axisReceiver ∧
      axisReceiver.x ^ 2 + axisReceiver.y ^ 2 + axisReceiver.z ^ 2 = earthRadiusKm ^ 2 ∧
      trillatPosFromRange .buffer (axisSats ℚ) axisRanges
        = .ok { value := { x := -earthRadiusKm, y := earthRadiusKm, z := -earthRadiusKm }
                cout := [] } ∧
      axisReceiver ≠ { x := -earthRadiusKm, y := earthRadiusKm, z := -earthRadiusKm } :=
  ⟨axisSats_spans, axisRanges_exact, axisReceiver_sphere, by decide +kernel, by decide +kernel⟩

/-- The satellites to the side of the receiver. -/
def sideSats : SatLocation ℚ :=
  { locations := (SortedMap.empty.insert 1 { x := 0, y := 12 / 5 * earthRadiusKm, z := 0 }).insert
      2 { x := 0, y := 0, z := 12 / 5 * earthRadiusKm } }

def sideRanges : SatRanges ℚ :=
  { ranges := (SortedMap.empty.insert 1 (13 / 5 * earthRadiusKm)).insert 2
      (13 / 5 * earthRadiusKm) }

theorem sideRanges_exact : ExactRanges sideSats sideRanges axisReceiver := by
  have hentries : sideSats.locations.entries
      = [(1, { x := 0, y := 12 / 5 * earthRadiusKm, z := 0 }),
          (2, { x := 0, y := 0, z := 12 / 5 * earthRadiusKm })] := rfl
  refine (SortedMap.forall_find sideSats.locations _).mpr ?_
  rw [hentries]
  simp only [List.forall_mem_cons]
  refine ⟨⟨13 / 5 * earthRadiusKm, ?_⟩, ⟨13 / 5 * earthRadiusKm, ?_⟩,
    List.forall_mem_nil _⟩ <;> decide +kernel

/-- The first satellite stands straight above the receiver, and its row gives
    the receiver the opposite sign. -/
theorem system_of_antipode :
    ExactRanges (axisSats ℚ) axisRanges axisReceiver ∧
      axisReceiver.x ^ 2 + axisReceiver.y ^ 2 + axisReceiver.z ^ 2 = earthRadiusKm ^ 2 ∧
      ∃ s : LinearSystem ℚ, trillatLoop .buffer (axisSats ℚ) axisRanges = .ok s ∧
        GridPtr.read .buffer s.matrixA 0 0 = .ok (-2) ∧
        GridPtr.read .buffer s.matrixA 0 1 = .ok 0 ∧ GridPtr.read .buffer s.matrixA 0 2 = .ok 0 ∧
        get s.vectorB 0 = .ok (2 * earthRadiusKm) ∧
        -2 * axisReceiver.x + 0 * axisReceiver.y + 0 * axisReceiver.z ≠ 2 * earthRadiusKm := by
  have hloop := trillatLoop_le .buffer (axisSats ℚ) axisRanges axisRanges_exact.hasRanges
    (by decide)
  exact ⟨axisRanges_exact, axisReceiver_sphere, _, hloop, by decide +kernel, by decide +kernel,
    by decide +kernel, by decide +kernel, by decide +kernel⟩

/-- The same receiver with the first satellite, and with two that it sees at a
    right angle. -/
theorem systemSatisfied_iff_example :
    ¬SystemSatisfied .buffer (axisSats ℚ) axisRanges axisReceiver ∧
      SystemSatisfied .buffer sideSats sideRanges axisReceiver := by
  constructor
  · rw [systemSatisfied_iff .buffer (axisSats ℚ) axisRanges axisReceiver axisReceiver_sphere
      (by decide) axisRanges_exact]
    intro h
    exact absurd (h 1 { x := 1, y := 0, z := 0 } rfl) (by decide +kernel)
  · refine (systemSatisfied_iff .buffer sideSats sideRanges axisReceiver axisReceiver_sphere
      (by decide) sideRanges_exact).mpr ?_
    exact (SortedMap.forall_find sideSats.locations _).mpr (by decide +kernel)

/-- The station on the equator at the zero meridian. -/
def axisStation : LatLonAltPos ℝ := { lat := 0, lon := 0, alt := 0 }

theorem axisStation_ecef : latLonAltToEcef axisStation = { x := 6378137, y := 0, z := 0 } := by
  have hsin : CMath.sin (0 : ℝ) = 0 := Real.sin_zero
  have hcos : CMath.cos (0 : ℝ) = 1 := Real.cos_zero
  have hsqrt : CMath.sqrt (1 : ℝ) = 1 := Real.sqrt_one
  simp only [latLonAltToEcef, axisStation, hsin, hcos, mul_zero, sub_zero, hsqrt, semiMajorAxis,
    div_one, add_zero, mul_one]

theorem trueRangeLoop_of_sat (p : SatLocation ℝ) (q : LatLonAltPos ℝ) (k : Int) (s : EcefPos ℝ)
    (hs : p.locations.find k = some s) :
    (trueRangeLoop p q).ranges.find k = some (calcSatToStationRange s q) := by
  rw [trueRangeLoop_find, hs, Option.map_some]

/-- A station whose own ranges do not lead back to it. -/
theorem trillat_misses_station :
    SpansSpace (axisSats ℝ) ∧ (axisSats ℝ).locations.size = 3 ∧
      (∀ k s, (axisSats ℝ).locations.find k = some s →
        (trueRangeLoop (axisSats ℝ) axisStation).ranges.find k
          = some (calcSatToStationRange s axisStation)) ∧
      ¬∃ out, trillatPosFromRange .buffer (axisSats ℝ) (trueRangeLoop (axisSats ℝ) axisStation)
        = .ok { value := latLonAltToEcef axisStation, cout := out } := by
  have hranges := trueRangeLoop_of_sat (axisSats ℝ) axisStation
  refine ⟨axisSats_spans, rfl, hranges, ?_⟩
  have hexact := calcSatToStationRange_exact (axisSats ℝ) _ axisStation hranges
  -- The station is not on the line of the results.
  rw [trillat_finds_iff .buffer _ _ _ hexact, axisStation_ecef]
  rintro ⟨_, _, hy, _⟩
  norm_num at hy

end Axis

/-! ### Receivers that are found -/

section Line

/-- Three satellites whose components along the line of the results add up to
    zero, so that the Earth radius cancels in their sum. -/
def lineSats (K : Type) [Field K] : SatLocation K :=
  { locations := ((SortedMap.empty.insert 1 { x := 0, y := -1, z := 1 }).insert 2
      { x := 1, y := 1, z := -1 }).insert 3 { x := 5, y := 1, z := -5 } }

theorem lineSats_entries : (lineSats K).locations.entries
    = [(1, { x := 0, y := -1, z := 1 }), (2, { x := 1, y := 1, z := -1 }),
        (3, { x := 5, y := 1, z := -5 })] := rfl

theorem lineSats_minor : normalMinor (lineSats K) = 8320 := by
  unfold normalMinor satSum
  rw [lineSats_entries]
  simp only [List.map_cons, List.map_nil, List.sum_cons, List.sum_nil]
  ring

theorem lineSats_det : normalDet (lineSats K) = -199680 := by
  unfold normalDet satSum
  rw [lineSats_entries]
  simp only [List.map_cons, List.map_nil, List.sum_cons, List.sum_nil]
  ring

/-- On the line the sum has no part but the coordinate's. -/
theorem lineSats_sum (c x : K) :
    satSum (lineSats K) (fun _ s => -2 * alternating s.x s.y s.z *
      (c + 2 * x * alternating s.x s.y s.z)) = -24 * x := by
  unfold satSum
  rw [lineSats_entries]
  simp only [List.map_cons, List.map_nil, List.sum_cons, List.sum_nil, alternating]
  ring

theorem lineSats_toInt [LinearOrder K] [IsStrictOrderedRing K] [FloorRing K] [DoubleToInt K] :
    DoubleToInt.toInt (normalDet (lineSats K)) = -199680 := by
  rw [lineSats_det]
  exact_mod_cast toInt_intCast (K := K) (-199680) (by decide) (by decide)

/-- A receiver on the Earth sphere beside the line of the results, and one on it. -/
theorem trillat_recovers_iff_example :
    (¬∃ out, trillatPosFromRange .buffer (axisSats ℚ) axisRanges
      = .ok { value := axisReceiver, cout := out }) ∧
      ∃ receiver : EcefPos ℝ,
        receiver.x ^ 2 + receiver.y ^ 2 + receiver.z ^ 2 = earthRadiusKm ^ 2 ∧
        ∃ out, trillatPosFromRange .buffer (lineSats ℝ) (measured (lineSats ℝ) receiver)
          = .ok { value := receiver, cout := out } := by
  constructor
  · rw [trillat_recovers_iff .buffer (axisSats ℚ) axisRanges axisReceiver axisReceiver_sphere
      axisRanges_exact]
    rintro ⟨_, hy, _⟩
    exact absurd hy (by decide +kernel)
  · -- The point of the line at the distance of the Earth radius.
    let x : ℝ := earthRadiusKm / Real.sqrt 3
    have hx : 3 * x ^ 2 = earthRadiusKm ^ 2 := by
      have hsq : Real.sqrt 3 ^ 2 = 3 := Real.sq_sqrt (by norm_num)
      rw [div_pow, hsq]
      ring
    have hsphere : x ^ 2 + (-x) ^ 2 + x ^ 2 = earthRadiusKm ^ 2 := by
      rw [← hx]
      ring
    have hsum : satSum (lineSats ℝ) (fun _ s => -4 * alternating s.x s.y s.z ^ 2) = -24 := by
      have hline := (lineSats_sum (0 : ℝ) 1).trans (mul_one _)
      rw [← hline]
      exact satSum_congr _ _ _ (fun _ s _ => by ring)
    refine ⟨{ x := x, y := -x, z := x }, hsphere, (trillat_recovers_iff .buffer (lineSats ℝ) _ _
      hsphere (measured_exact _ _)).mpr ⟨rfl, rfl, rfl, ?_, ?_⟩⟩
    · rw [lineSats_toInt]
      decide
    · rw [lineSats_toInt, lineSats_minor, hsum]
      norm_num

/-- There is a station of altitude zero on the line. -/
theorem lineStation_exists : ∃ q : LatLonAltPos ℝ, q.alt = 0 ∧
    (latLonAltToEcef q).y = -(latLonAltToEcef q).x ∧
    (latLonAltToEcef q).z = (latLonAltToEcef q).x := by
  have hone : (1 - eccentricitySq : ℝ) ≠ 0 := sub_ne_zero.mpr eccentricitySq_lt_one.ne'
  let slope : ℝ := Real.sqrt 2 / 2 / (1 - eccentricitySq)
  refine ⟨{ lat := Real.arctan slope, lon := -(Real.pi / 4), alt := 0 }, rfl, ?_, ?_⟩
  · have hsin : CMath.sin (-(Real.pi / 4)) = -CMath.cos (-(Real.pi / 4)) := by
      change Real.sin (-(Real.pi / 4)) = -Real.cos (-(Real.pi / 4))
      rw [Real.sin_neg, Real.cos_neg, Real.sin_pi_div_four, Real.cos_pi_div_four]
    rw [latLonAltToEcef_eq, hsin, mul_neg]
  · have hlat : CMath.sin (Real.arctan slope) = slope * CMath.cos (Real.arctan slope) := by
      change Real.sin (Real.arctan slope) = slope * Real.cos (Real.arctan slope)
      rw [← Real.tan_mul_cos (Real.cos_arctan_pos slope).ne', Real.tan_arctan]
    have hlon : CMath.cos (-(Real.pi / 4)) = Real.sqrt 2 / 2 := by
      change Real.cos (-(Real.pi / 4)) = _
      rw [Real.cos_neg, Real.cos_pi_div_four]
    rw [latLonAltToEcef_eq]
    simp only [add_zero]
    rw [hlat, hlon]
    have hslope : (1 - eccentricitySq) * slope = Real.sqrt 2 / 2 := mul_div_cancel₀ _ hone
    rw [mul_assoc, ← mul_assoc (1 - eccentricitySq), hslope]
    ring

/-- A station on the first axis, and one on the line of the results. -/
theorem trillat_inverts_range_iff_example :
    (¬∃ out, trillatPosFromRange .buffer (axisSats ℝ) (trueRangeLoop (axisSats ℝ) axisStation)
      = .ok { value := latLonAltToEcef axisStation, cout := out }) ∧
      ∃ q : LatLonAltPos ℝ, q.alt = 0 ∧
        ∃ out, trillatPosFromRange .buffer (lineSats ℝ) (trueRangeLoop (lineSats ℝ) q)
          = .ok { value := latLonAltToEcef q, cout := out } := by
  constructor
  · rw [trillat_inverts_range_iff .buffer (axisSats ℝ) _ axisStation rfl
      (trueRangeLoop_of_sat (axisSats ℝ) axisStation), axisStation_ecef]
    rintro ⟨_, hy, _⟩
    norm_num at hy
  · rcases lineStation_exists with ⟨q, halt, hy, hz⟩
    refine ⟨q, halt, (trillat_inverts_range_iff .buffer (lineSats ℝ) _ q rfl
      (trueRangeLoop_of_sat (lineSats ℝ) q)).mpr ⟨?_, hy, hz, ?_⟩⟩
    · rw [lineSats_toInt]
      decide
    · rw [lineSats_toInt, lineSats_minor, lineSats_sum]
      push_cast
      ring

end Line

end SimpleDgps
