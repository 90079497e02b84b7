import SimpleDgps.Geodesy

/-!
# Great Circle Distance

The distance between two points on the sphere, from their geodetic coordinates.

`calcGeodeticDistance` is the haversine formula. Nothing restricts the angles it
is given, and the formula applies a square root and then an arc sine to a sum
with a product of two cosines in it, which can be negative. `haversine_eq` is
why both are safe: the sum is a weighted mean of the squared sine of half the
difference of the latitudes and the squared cosine of half their sum, the weight
being the squared sine of half the difference of the longitudes. A mean of
numbers between zero and one lies between them.

## Main definitions

* `deg2rad`, `rad2deg`: Degrees and radians.
* `haversine`: The radicand of the formula.
* `calcGeodeticDistance`: The distance in kilometres.

## Theorems

* `rad2deg_deg2rad`: The two conversions undo each other.
* `haversine_eq`: The radicand as a weighted mean.
* `haversine_nonneg`, `haversine_le_one`: The radicand is between zero and one.
* `calcGeodeticDistance_le`: No two points are further apart than antipodes.
* `calcGeodeticDistance_wellDefined`: The formula is defined everywhere and
  symmetric.
-/

namespace SimpleDgps

open CMath (sqrt sin cos asin pi)

section Formulas

variable {K : Type} [Field K] [CMath K]

/-- Decimal degrees to radians. -/
def deg2rad (deg : K) : K := deg * pi / 180

/-- Radians to decimal degrees. -/
def rad2deg (rad : K) : K := rad * 180 / pi

/-- The radicand of the haversine formula. -/
def haversine (lat1r lon1r lat2r lon2r : K) : K :=
  let u := sin ((lat2r - lat1r) / (2 : Nat))
  let v := sin ((lon2r - lon1r) / (2 : Nat))
  u * u + cos lat1r * cos lat2r * v * v

/-- The distance in kilometres, from degrees. -/
def calcGeodeticDistance (lat1d lon1d lat2d lon2d : K) : K :=
  let lat1r := deg2rad lat1d
  let lon1r := deg2rad lon1d
  let lat2r := deg2rad lat2d
  let lon2r := deg2rad lon2d
  2.0 * earthRadiusKm * asin (sqrt (haversine lat1r lon1r lat2r lon2r))

end Formulas

/-- The two conversions undo each other. -/
theorem rad2deg_deg2rad (deg : ℝ) : rad2deg (deg2rad deg) = deg := by
  have hpi : (pi : ℝ) ≠ 0 := Real.pi_ne_zero
  unfold rad2deg deg2rad
  field_simp

/-! ### The radicand -/

/-- A product of two cosines, by half the sum and half the difference. -/
theorem cos_mul_cos_half (a b : ℝ) :
    (cos a * cos b : ℝ) = cos ((a + b) / 2) ^ 2 - sin ((b - a) / 2) ^ 2 := by
  have ha : (a + b) / 2 - (b - a) / 2 = a := by ring
  have hb : (a + b) / 2 + (b - a) / 2 = b := by ring
  have hcosa := Real.cos_sub ((a + b) / 2) ((b - a) / 2)
  have hcosb := Real.cos_add ((a + b) / 2) ((b - a) / 2)
  rw [ha] at hcosa
  rw [hb] at hcosb
  have hsum := Real.sin_sq_add_cos_sq ((a + b) / 2)
  have hdiff := Real.sin_sq_add_cos_sq ((b - a) / 2)
  change Real.cos a * Real.cos b = Real.cos ((a + b) / 2) ^ 2 - Real.sin ((b - a) / 2) ^ 2
  calc Real.cos a * Real.cos b
      = Real.cos ((a + b) / 2) ^ 2 * Real.cos ((b - a) / 2) ^ 2 -
          Real.sin ((a + b) / 2) ^ 2 * Real.sin ((b - a) / 2) ^ 2 := by
        rw [hcosa, hcosb]
        ring
    _ = Real.cos ((a + b) / 2) ^ 2 - Real.sin ((b - a) / 2) ^ 2 := by
        rw [← eq_sub_iff_add_eq'] at hdiff
        rw [← eq_sub_iff_add_eq] at hsum
        rw [hdiff, hsum]
        ring

/-- The radicand is a mean, weighted by the difference of the longitudes. -/
theorem haversine_eq (lat1 lon1 lat2 lon2 : ℝ) :
    haversine lat1 lon1 lat2 lon2
      = (1 - sin ((lon2 - lon1) / 2) ^ 2) * sin ((lat2 - lat1) / 2) ^ 2 +
        sin ((lon2 - lon1) / 2) ^ 2 * cos ((lat1 + lat2) / 2) ^ 2 := by
  unfold haversine
  simp only [Nat.cast_ofNat]
  rw [cos_mul_cos_half]
  ring

theorem haversine_nonneg (lat1 lon1 lat2 lon2 : ℝ) : 0 ≤ haversine lat1 lon1 lat2 lon2 := by
  have hweight : sin ((lon2 - lon1) / 2) ^ 2 ≤ (1 : ℝ) := sin_sq_le_one _
  rw [haversine_eq]
  exact add_nonneg (mul_nonneg (sub_nonneg.mpr hweight) (sq_nonneg _))
    (mul_nonneg (sq_nonneg _) (sq_nonneg _))

theorem haversine_le_one (lat1 lon1 lat2 lon2 : ℝ) : haversine lat1 lon1 lat2 lon2 ≤ 1 := by
  have hweight : sin ((lon2 - lon1) / 2) ^ 2 ≤ (1 : ℝ) := sin_sq_le_one _
  have hdiff : sin ((lat2 - lat1) / 2) ^ 2 ≤ (1 : ℝ) := sin_sq_le_one _
  have hsum : cos ((lat1 + lat2) / 2) ^ 2 ≤ (1 : ℝ) := Real.cos_sq_le_one _
  rw [haversine_eq]
  calc (1 - sin ((lon2 - lon1) / 2) ^ 2) * sin ((lat2 - lat1) / 2) ^ 2 +
        sin ((lon2 - lon1) / 2) ^ 2 * cos ((lat1 + lat2) / 2) ^ 2
      ≤ (1 - sin ((lon2 - lon1) / 2) ^ 2) * 1 + sin ((lon2 - lon1) / 2) ^ 2 * (1 : ℝ) :=
        add_le_add (mul_le_mul_of_nonneg_left hdiff (sub_nonneg.mpr hweight))
          (mul_le_mul_of_nonneg_left hsum (sq_nonneg _))
    _ = 1 := by ring

/-- Only the distance between the longitudes matters, up to full turns. -/
theorem haversine_congr (lat1 lon1 lat2 lon2 lon1' lon2' : ℝ)
    (h : sin ((lon2' - lon1') / 2) ^ 2 = (sin ((lon2 - lon1) / 2) ^ 2 : ℝ)) :
    haversine lat1 lon1' lat2 lon2' = haversine lat1 lon1 lat2 lon2 := by
  rw [haversine_eq, haversine_eq, h]

/-- Exchanging the points changes the signs of both differences. -/
theorem haversine_comm (lat1 lon1 lat2 lon2 : ℝ) :
    haversine lat2 lon2 lat1 lon1 = haversine lat1 lon1 lat2 lon2 := by
  have hneg : ∀ a b : ℝ, sin ((a - b) / 2) ^ 2 = (sin ((b - a) / 2) ^ 2 : ℝ) := by
    intro a b
    have hsin : sin ((a - b) / 2) = (-sin ((b - a) / 2) : ℝ) := by
      rw [← neg_sub b a, neg_div]
      exact Real.sin_neg _
    rw [hsin, neg_sq]
  rw [haversine_eq, haversine_eq, hneg lon1 lon2, hneg lat1 lat2, add_comm lat2 lat1]

/-- Half a turn more or less under the sine. -/
theorem sin_sq_half_turn (x : ℝ) :
    sin (x + pi) ^ 2 = (sin x ^ 2 : ℝ) ∧ sin (x - pi) ^ 2 = (sin x ^ 2 : ℝ) := by
  have hplus : sin (x + pi) = (-sin x : ℝ) := Real.sin_add_pi x
  have hminus : sin (x - pi) = (-sin x : ℝ) := Real.sin_sub_pi x
  rw [hplus, hminus, neg_sq]
  exact ⟨rfl, rfl⟩

/-! ### The distance -/

theorem calcGeodeticDistance_eq (lat1 lon1 lat2 lon2 : ℝ) :
    calcGeodeticDistance lat1 lon1 lat2 lon2
      = 2 * earthRadiusKm * Real.arcsin (Real.sqrt
          (haversine (deg2rad lat1) (deg2rad lon1) (deg2rad lat2) (deg2rad lon2))) := by
  have htwo : (2.0 : ℝ) = 2 := by norm_num
  rw [calcGeodeticDistance, htwo]
  rfl

theorem deg2rad_add_turn (deg : ℝ) : deg2rad (deg + 360) = deg2rad deg + 2 * pi := by
  unfold deg2rad
  ring

theorem calcGeodeticDistance_nonneg (lat1 lon1 lat2 lon2 : ℝ) :
    0 ≤ calcGeodeticDistance lat1 lon1 lat2 lon2 := by
  rw [calcGeodeticDistance_eq]
  exact mul_nonneg (mul_nonneg zero_le_two earthRadiusKm_pos.le)
    (Real.arcsin_nonneg.mpr (Real.sqrt_nonneg _))

/-- No two points are further apart than half the circumference. -/
theorem calcGeodeticDistance_le (lat1 lon1 lat2 lon2 : ℝ) :
    calcGeodeticDistance lat1 lon1 lat2 lon2 ≤ Real.pi * earthRadiusKm := by
  rw [calcGeodeticDistance_eq]
  calc 2 * earthRadiusKm * Real.arcsin (Real.sqrt
        (haversine (deg2rad lat1) (deg2rad lon1) (deg2rad lat2) (deg2rad lon2)))
      ≤ 2 * earthRadiusKm * (Real.pi / 2) :=
        mul_le_mul_of_nonneg_left (Real.arcsin_le_pi_div_two _)
          (mul_nonneg zero_le_two earthRadiusKm_pos.le)
    _ = Real.pi * earthRadiusKm := by ring

theorem calcGeodeticDistance_self (lat lon : ℝ) : calcGeodeticDistance lat lon lat lon = 0 := by
  have hzero : haversine (deg2rad lat) (deg2rad lon) (deg2rad lat) (deg2rad lon) = 0 := by
    have hsin : (sin ((deg2rad lat - deg2rad lat) / 2) : ℝ) = 0 := by
      rw [sub_self, zero_div]
      exact Real.sin_zero
    have hsin' : (sin ((deg2rad lon - deg2rad lon) / 2) : ℝ) = 0 := by
      rw [sub_self, zero_div]
      exact Real.sin_zero
    rw [haversine_eq, hsin, hsin']
    ring
  rw [calcGeodeticDistance_eq, hzero, Real.sqrt_zero, Real.arcsin_zero, mul_zero]

/-- A full turn in either longitude changes nothing. -/
theorem calcGeodeticDistance_turn (lat1 lon1 lat2 lon2 : ℝ) :
    calcGeodeticDistance lat1 (lon1 + 360) lat2 lon2 = calcGeodeticDistance lat1 lon1 lat2 lon2 ∧
      calcGeodeticDistance lat1 lon1 lat2 (lon2 + 360)
        = calcGeodeticDistance lat1 lon1 lat2 lon2 := by
  rcases sin_sq_half_turn ((deg2rad lon2 - deg2rad lon1) / 2) with ⟨hplus, hminus⟩
  have hfirst : (deg2rad lon2 - (deg2rad lon1 + 2 * pi)) / 2
      = (deg2rad lon2 - deg2rad lon1) / 2 - (pi : ℝ) := by ring
  have hsecond : (deg2rad lon2 + 2 * pi - deg2rad lon1) / 2
      = (deg2rad lon2 - deg2rad lon1) / 2 + (pi : ℝ) := by ring
  rw [calcGeodeticDistance_eq, calcGeodeticDistance_eq, calcGeodeticDistance_eq,
    deg2rad_add_turn, deg2rad_add_turn]
  constructor
  · rw [haversine_congr _ (deg2rad lon1) _ (deg2rad lon2) _ _ (by rw [hfirst]; exact hminus)]
  · rw [haversine_congr _ (deg2rad lon1) _ (deg2rad lon2) _ _ (by rw [hsecond]; exact hplus)]

/-- The formula is defined for all angles, and what it computes is bounded, zero
    on equal points, symmetric, and periodic in the longitudes. -/
theorem calcGeodeticDistance_wellDefined (lat1 lon1 lat2 lon2 : ℝ) :
    (0 ≤ haversine (deg2rad lat1) (deg2rad lon1) (deg2rad lat2) (deg2rad lon2) ∧
      haversine (deg2rad lat1) (deg2rad lon1) (deg2rad lat2) (deg2rad lon2) ≤ 1) ∧
    (0 ≤ calcGeodeticDistance lat1 lon1 lat2 lon2 ∧
      calcGeodeticDistance lat1 lon1 lat2 lon2 ≤ Real.pi * earthRadiusKm) ∧
    (lat1 = lat2 → lon1 = lon2 → calcGeodeticDistance lat1 lon1 lat2 lon2 = 0) ∧
    calcGeodeticDistance lat2 lon2 lat1 lon1 = calcGeodeticDistance lat1 lon1 lat2 lon2 ∧
    calcGeodeticDistance lat1 (lon1 + 360) lat2 lon2 = calcGeodeticDistance lat1 lon1 lat2 lon2 ∧
    calcGeodeticDistance lat1 lon1 lat2 (lon2 + 360)
      = calcGeodeticDistance lat1 lon1 lat2 lon2 := by
  refine ⟨⟨haversine_nonneg _ _ _ _, haversine_le_one _ _ _ _⟩,
    ⟨calcGeodeticDistance_nonneg _ _ _ _, calcGeodeticDistance_le _ _ _ _⟩, ?_, ?_,
    calcGeodeticDistance_turn lat1 lon1 lat2 lon2⟩
  · rintro rfl rfl
    exact calcGeodeticDistance_self lat1 lon1
  · rw [calcGeodeticDistance_eq, calcGeodeticDistance_eq, haversine_comm]

end SimpleDgps
