import Mathlib.Analysis.InnerProductSpace.PiL2
import Mathlib.Analysis.SpecialFunctions.Trigonometric.Bounds
import SimpleDgps.Geodesy

/-!
# Positions as Points

Earth-fixed positions in Euclidean space.

The program measures distances with a square root wherever it needs one. As
points of Euclidean space the positions have the distance of that space, which
brings the triangle inequality along.

## Main definitions

* `point`: A position as a point.

## Theorems

* `dist_point`: The distance of two positions.
* `chord_le`: The distance of two points of a circle.
* `calcSatToStationRange_dist`: A range is a distance.
-/

namespace SimpleDgps

/-- A position as a point of Euclidean space. -/
noncomputable def point (p : EcefPos ℝ) : EuclideanSpace ℝ (Fin 3) :=
  WithLp.toLp _ ![p.x, p.y, p.z]

theorem dist_point (p q : EcefPos ℝ) : dist (point p) (point q)
    = Real.sqrt ((p.x - q.x) ^ 2 + (p.y - q.y) ^ 2 + (p.z - q.z) ^ 2) := by
  rw [EuclideanSpace.dist_eq, Fin.sum_univ_three]
  simp only [Real.dist_eq, sq_abs]
  rfl

/-- Two points of a circle are no further apart than their angles. -/
theorem chord_le (a b : ℝ) :
    (Real.cos a - Real.cos b) ^ 2 + (Real.sin a - Real.sin b) ^ 2 ≤ (a - b) ^ 2 := by
  have hcos := Real.one_sub_sq_div_two_le_cos (x := a - b)
  have ha := Real.sin_sq_add_cos_sq a
  have hb := Real.sin_sq_add_cos_sq b
  rw [Real.cos_sub] at hcos
  linarith

/-- A range is a distance. -/
theorem calcSatToStationRange_dist (satPos : EcefPos ℝ) (q : LatLonAltPos ℝ) :
    calcSatToStationRange satPos q = dist (point satPos) (point (latLonAltToEcef q)) := by
  rw [dist_point]
  rfl

end SimpleDgps
