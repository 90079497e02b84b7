import Mathlib.Analysis.InnerProductSpace.PiL2
import Mathlib.Analysis.SpecialFunctions.Trigonometric.Angle
import Mathlib.Geometry.Euclidean.Angle.Unoriented.TriangleInequality
import SimpleDgps.GreatCircle

/-!
# The Sphere Behind the Haversine Formula

What the great circle distance is a distance of.

A latitude and a longitude name a direction from the centre, the one in which
the normal of the ellipsoid points as well. The haversine formula is written
with halves of angle differences, but its radicand depends on the two directions
only: it is half of what their scalar product falls short of one, which is the
squared sine of half the angle between them. So the distance is the Earth radius
times that angle, `calcGeodeticDistance_angle`. Everything a distance should
satisfy then comes from angles between vectors, the triangle inequality among
it, which cannot be seen from the formula.

## Main definitions

* `direction`: The unit vector of a latitude and a longitude.

## Theorems

* `inner_direction`: The scalar product of two directions.
* `haversine_direction`: The radicand from the scalar product.
* `calcGeodeticDistance_angle`: The distance is the angle times the radius.
* `calcGeodeticDistance_triangle`: No detour is shorter.
* `calcGeodeticDistance_eq_zero_iff`: Zero means the same direction.
* `direction_injective`: The names of one direction.
* `calcGeodeticDistance_definite`: Zero means the same point.
-/

namespace SimpleDgps

open InnerProductGeometry

/-- The unit vector of a latitude and a longitude. -/
noncomputable def direction (lat lon : ℝ) : EuclideanSpace ℝ (Fin 3) :=
  WithLp.toLp _ ![Real.cos lat * Real.cos lon, Real.cos lat * Real.sin lon, Real.sin lat]

theorem inner_direction (lat1 lon1 lat2 lon2 : ℝ) :
    inner ℝ (direction lat1 lon1) (direction lat2 lon2)
      = Real.cos lat1 * Real.cos lat2 * Real.cos (lon2 - lon1) + Real.sin lat1 * Real.sin lat2 := by
  simp only [direction, PiLp.inner_apply, Fin.sum_univ_three, RCLike.inner_apply, conj_trivial,
    Real.cos_sub]
  simp
  ring

theorem norm_direction (lat lon : ℝ) : ‖direction lat lon‖ = 1 := by
  have hsq : ‖direction lat lon‖ ^ 2 = 1 := by
    rw [← real_inner_self_eq_norm_sq, inner_direction, sub_self, Real.cos_zero, mul_one, ← sq, ← sq,
      Real.cos_sq_add_sin_sq]
  exact (pow_eq_one_iff_of_nonneg (norm_nonneg _) two_ne_zero).mp hsq

/-- The radicand of the formula, from the scalar product of the directions. -/
theorem haversine_direction (lat1 lon1 lat2 lon2 : ℝ) :
    haversine lat1 lon1 lat2 lon2
      = (1 - inner ℝ (direction lat1 lon1) (direction lat2 lon2)) / 2 := by
  have hlat := Real.cos_sub lat2 lat1
  have hhalf : ∀ x : ℝ, Real.sin (x / 2) ^ 2 = (1 - Real.cos x) / 2 := by
    intro x
    rw [Real.sin_sq_eq_half_sub, mul_div_cancel₀ x two_ne_zero]
    ring
  unfold haversine
  simp only [Nat.cast_ofNat]
  change Real.sin ((lat2 - lat1) / 2) * Real.sin ((lat2 - lat1) / 2) +
    Real.cos lat1 * Real.cos lat2 * Real.sin ((lon2 - lon1) / 2) * Real.sin ((lon2 - lon1) / 2) = _
  rw [mul_assoc (Real.cos lat1 * Real.cos lat2), ← sq, ← sq, hhalf, hhalf, inner_direction, hlat]
  ring

/-- The distance is the angle between the directions times the radius. -/
theorem calcGeodeticDistance_angle (lat1 lon1 lat2 lon2 : ℝ) :
    calcGeodeticDistance lat1 lon1 lat2 lon2
      = earthRadiusKm * angle (direction (deg2rad lat1) (deg2rad lon1))
          (direction (deg2rad lat2) (deg2rad lon2)) := by
  have hnonneg := angle_nonneg (direction (deg2rad lat1) (deg2rad lon1))
    (direction (deg2rad lat2) (deg2rad lon2))
  have hle := angle_le_pi (direction (deg2rad lat1) (deg2rad lon1))
    (direction (deg2rad lat2) (deg2rad lon2))
  have hcos := inner_eq_cos_angle_of_norm_eq_one (norm_direction (deg2rad lat1) (deg2rad lon1))
    (norm_direction (deg2rad lat2) (deg2rad lon2))
  rw [calcGeodeticDistance_eq, haversine_direction, hcos]
  generalize angle (direction (deg2rad lat1) (deg2rad lon1))
    (direction (deg2rad lat2) (deg2rad lon2)) = α at *
  -- Half the angle has a sine that is not negative, so the root only undoes the square.
  have hhalf : (1 - Real.cos α) / 2 = Real.sin (α / 2) ^ 2 := by
    rw [Real.sin_sq_eq_half_sub, mul_div_cancel₀ α two_ne_zero]
    ring
  have hsin : 0 ≤ Real.sin (α / 2) := Real.sin_nonneg_of_nonneg_of_le_pi (by linarith) (by linarith)
  rw [hhalf, Real.sqrt_sq hsin, Real.arcsin_sin (by linarith) (by linarith)]
  ring

/-- No detour is shorter. -/
theorem calcGeodeticDistance_triangle (lat1 lon1 lat2 lon2 lat3 lon3 : ℝ) :
    calcGeodeticDistance lat1 lon1 lat3 lon3
      ≤ calcGeodeticDistance lat1 lon1 lat2 lon2 + calcGeodeticDistance lat2 lon2 lat3 lon3 := by
  rw [calcGeodeticDistance_angle, calcGeodeticDistance_angle, calcGeodeticDistance_angle, ← mul_add]
  exact mul_le_mul_of_nonneg_left (angle_le_angle_add_angle _ _ _) earthRadiusKm_pos.le

/-- Only a point in the same direction has distance zero. -/
theorem calcGeodeticDistance_eq_zero_iff (lat1 lon1 lat2 lon2 : ℝ) :
    calcGeodeticDistance lat1 lon1 lat2 lon2 = 0 ↔
      direction (deg2rad lat1) (deg2rad lon1) = direction (deg2rad lat2) (deg2rad lon2) := by
  rw [calcGeodeticDistance_angle, mul_eq_zero, or_iff_right earthRadiusKm_pos.ne']
  constructor
  · intro hangle
    exact eq_of_angle_eq_zero_of_norm_eq hangle (by rw [norm_direction, norm_direction])
  · intro heq
    rw [heq]
    refine angle_self (norm_ne_zero_iff.mp ?_)
    rw [norm_direction]
    exact one_ne_zero

/-- Two names of one direction have the same latitude, and outside the poles
    longitudes that are full turns apart. -/
theorem direction_injective (lat1 lon1 lat2 lon2 : ℝ) (hlat1 : |lat1| ≤ Real.pi / 2)
    (hlat2 : |lat2| ≤ Real.pi / 2) (h : direction lat1 lon1 = direction lat2 lon2) :
    lat1 = lat2 ∧ (|lat1| < Real.pi / 2 → ∃ k : ℤ, lon1 - lon2 = 2 * Real.pi * k) := by
  have hx : Real.cos lat1 * Real.cos lon1 = Real.cos lat2 * Real.cos lon2 := congrArg (· 0) h
  have hy : Real.cos lat1 * Real.sin lon1 = Real.cos lat2 * Real.sin lon2 := congrArg (· 1) h
  have hz : Real.sin lat1 = Real.sin lat2 := congrArg (· 2) h
  have hlat : lat1 = lat2 := Real.injOn_sin (abs_le.mp hlat1) (abs_le.mp hlat2) hz
  refine ⟨hlat, fun hpole => ?_⟩
  have hcos : Real.cos lat1 ≠ 0 := (Real.cos_pos_of_mem_Ioo (abs_lt.mp hpole)).ne'
  rw [← hlat] at hx hy
  exact Real.Angle.angle_eq_iff_two_pi_dvd_sub.mp
    (Real.Angle.cos_sin_inj (mul_left_cancel₀ hcos hx) (mul_left_cancel₀ hcos hy))

theorem abs_deg2rad_lt_iff (deg : ℝ) :
    (|deg2rad deg| ≤ Real.pi / 2 ↔ |deg| ≤ 90) ∧ (|deg2rad deg| < Real.pi / 2 ↔ |deg| < 90) := by
  have hpi := Real.pi_pos
  have habs : |deg2rad deg| = |deg| * (Real.pi / 180) := by
    have hscale : deg2rad deg = deg * (Real.pi / 180) := mul_div_assoc deg Real.pi 180
    rw [hscale, abs_mul, abs_of_pos (div_pos hpi (by norm_num : (0 : ℝ) < 180))]
  have hhalf : Real.pi / 2 = 90 * (Real.pi / 180) := by ring
  rw [habs, hhalf]
  exact ⟨mul_le_mul_iff_left₀ (by positivity), mul_lt_mul_iff_left₀ (by positivity)⟩

/-- Points at distance zero are one point: the latitudes agree, and outside the
    poles the longitudes are full turns apart. -/
theorem calcGeodeticDistance_definite (lat1 lon1 lat2 lon2 : ℝ) (hlat1 : |lat1| ≤ 90)
    (hlat2 : |lat2| ≤ 90) (h : calcGeodeticDistance lat1 lon1 lat2 lon2 = 0) :
    lat1 = lat2 ∧ (|lat1| < 90 → ∃ k : ℤ, lon1 - lon2 = 360 * k) := by
  rw [calcGeodeticDistance_eq_zero_iff] at h
  rcases direction_injective _ _ _ _ ((abs_deg2rad_lt_iff lat1).1.mpr hlat1)
    ((abs_deg2rad_lt_iff lat2).1.mpr hlat2) h with ⟨hlat, hlon⟩
  have hpi := Real.pi_pos
  constructor
  · rw [← rad2deg_deg2rad lat1, hlat, rad2deg_deg2rad]
  · intro hpole
    rcases hlon ((abs_deg2rad_lt_iff lat1).2.mpr hpole) with ⟨k, hk⟩
    refine ⟨k, ?_⟩
    -- Full turns in radians are full turns in degrees.
    have hscale : Real.pi * (lon1 - lon2) = Real.pi * (360 * k) := by
      have hlon1 : deg2rad lon1 = lon1 * Real.pi / 180 := rfl
      have hlon2 : deg2rad lon2 = lon2 * Real.pi / 180 := rfl
      rw [hlon1, hlon2] at hk
      linear_combination 180 * hk
    exact mul_left_cancel₀ hpi.ne' hscale

/-- The same point, named by two longitudes. -/
theorem calcGeodeticDistance_definite_example :
    (48 : ℝ) = 48 ∧ (|(48 : ℝ)| < 90 → ∃ k : ℤ, (11 + 360 : ℝ) - 11 = 360 * k) :=
  calcGeodeticDistance_definite 48 (11 + 360) 48 11 (by norm_num) (by norm_num) (by
    rw [(calcGeodeticDistance_turn 48 11 48 11).1]
    exact calcGeodeticDistance_self 48 11)

end SimpleDgps
