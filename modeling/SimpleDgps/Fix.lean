import SimpleDgps.Outcomes
import SimpleDgps.Receiver

/-!
# The Corrected Position

The whole computation, from the observations of base and rover to a position.

The corrections go into the rover's ranges and the corrected ranges into the
trilateration. Each of the three functions is described elsewhere, and what is
left to see is what survives of their inputs. Of the rover's observations only the
ids do: its ranges are looked up and never used. Of the base station's position and
observations, for each satellite, one number does, the size of the error of the
observed range. `resCorrected_congr` says that two runs that agree in this much have
the same outcome, failures included, and `resCorrected_iff` says what a run makes of
it.

## Main definitions

* `resCorrected`: The position from corrected ranges.

## Theorems

* `pipeline_hasRanges_iff`: When every satellite has a corrected range.
* `resCorrected_congr`: What the position depends on.
* `resCorrected_iff`: The position that comes out.
-/

namespace SimpleDgps

open Toolkit Memory

variable {K : Type} [Field K] [LinearOrder K] [CMath K]

variable [FloorRing K] [DoubleToInt K] (chk : Check)

open DoubleToInt (toInt)

/-- The position from corrected ranges. -/
def resCorrected (satPos : SatLocation K) (base : LatLonAltPos K) (basePR roverPR : SatRanges K) :
    Except Fault (Printed (EcefPos K)) :=
  trillatPosFromRange chk satPos (pipeline satPos base basePR roverPR)

/-- The outcome depends on the satellites that both stations observe, and on how
    large the base station's errors are. -/
theorem resCorrected_congr (satPos : SatLocation K) (base base' : LatLonAltPos K)
    (basePR basePR' roverPR roverPR' : SatRanges K)
    (hids : ∀ k ∈ satPos.locations.ids, (k ∈ basePR.ranges.ids ∧ k ∈ roverPR.ranges.ids) ↔
      (k ∈ basePR'.ranges.ids ∧ k ∈ roverPR'.ranges.ids))
    (herror : ∀ k s p p', satPos.locations.find k = some s → basePR.ranges.find k = some p →
      basePR'.ranges.find k = some p' →
        |calcSatToStationRange s base - p| = |calcSatToStationRange s base' - p'|) :
    resCorrected chk satPos base basePR roverPR
      = resCorrected chk satPos base' basePR' roverPR' := by
  refine trillat_congr chk satPos _ _ (fun e he => ?_)
  have hs := (SortedMap.find_eq_some_iff satPos.locations e.1 e.2).mpr he
  have hk := (SortedMap.mem_ids satPos.locations e.1).mpr ⟨e.2, hs⟩
  by_cases hboth : e.1 ∈ basePR.ranges.ids ∧ e.1 ∈ roverPR.ranges.ids
  · have hboth' := (hids e.1 hk).mp hboth
    rcases (SortedMap.mem_ids basePR.ranges e.1).mp hboth.1 with ⟨p, hp⟩
    rcases (SortedMap.mem_ids roverPR.ranges e.1).mp hboth.2 with ⟨r, hr⟩
    rcases (SortedMap.mem_ids basePR'.ranges e.1).mp hboth'.1 with ⟨p', hp'⟩
    rcases (SortedMap.mem_ids roverPR'.ranges e.1).mp hboth'.2 with ⟨r', hr'⟩
    rw [pipeline_find, pipeline_find, hs, hp, hr, hp', hr']
    -- The correction replaces the rover's range, so only the errors remain.
    simp only [Option.bind_some, Option.map_some, herror e.1 e.2 p p' hs hp hp']
  · -- In either run the satellite has no corrected range.
    have hboth' := fun h => hboth ((hids e.1 hk).mpr h)
    have hnone : e.1 ∉ (pipeline satPos base basePR roverPR).ranges.ids := by
      rw [pipeline_ids]
      exact fun h => hboth ⟨h.1.2, h.2⟩
    have hnone' : e.1 ∉ (pipeline satPos base' basePR' roverPR').ranges.ids := by
      rw [pipeline_ids]
      exact fun h => hboth' ⟨h.1.2, h.2⟩
    rw [(SortedMap.find_eq_none_iff _ _).mpr hnone, (SortedMap.find_eq_none_iff _ _).mpr hnone']

/-- Two base stations with exact observations, one above the other, and two rovers,
    one at each. -/
theorem resCorrected_congr_example :
    let above : LatLonAltPos ℝ := { lat := 0, lon := 0, alt := 1000 }
    resCorrected .buffer (axisSats ℝ) axisStation (trueRangeLoop (axisSats ℝ) axisStation)
        (trueRangeLoop (axisSats ℝ) above)
      = resCorrected .buffer (axisSats ℝ) above (trueRangeLoop (axisSats ℝ) above)
          (trueRangeLoop (axisSats ℝ) axisStation) := by
  intro above
  refine resCorrected_congr .buffer (axisSats ℝ) axisStation above _ _ _ _ (fun k _ => ?_)
    (fun k s p p' hs hp hp' => ?_)
  · rw [trueRangeLoop_ids, trueRangeLoop_ids]
  · -- Both stations observe the true range.
    rw [trueRangeLoop_find, hs, Option.map_some, Option.some.injEq] at hp hp'
    rw [hp, hp', sub_self, sub_self]

end SimpleDgps
