import SimpleDgps.Types

/-!
# Station Coordinates and Ranges

From the geodetic coordinates of a station to its distance from a satellite.

The ellipsoid's semi-major axis is in metres. The Earth radius that
trilateration uses is in kilometres. Nothing in the types keeps the two apart,
so the constants stand here side by side.

The conversion from geodetic coordinates divides by a square root that depends
on the latitude. `primeVertical` is the quotient, and its square is the only
thing that has to be known of it: `primeVertical_sq`. It makes the equatorial
and the polar components fit together, so that points of altitude zero lie on
the ellipsoid and altitude is distance along the normal.

## Main definitions

* `semiMajorAxis`: The ellipsoid's semi-major axis `A`, in metres.
* `earthRadiusKm`: The Earth radius `EARTH_RADIUS_KM`, in kilometres.
* `eccentricitySq`: The ellipsoid's first eccentricity squared `E2`.
* `latLonAltToEcef`: Geodetic to Earth-fixed coordinates.
* `calcSatToStationRange`: Distance between a satellite and a station.
* `primeVertical`: The distance from the axis along the normal.

## Theorems

* `earthRadiusKm_pos`: The Earth radius is positive.
* `sq_calcSatToStationRange`: The range squares to the squared distance.
* `primeVertical_sq`: The square of that distance.
* `latLonAltToEcef_on_ellipsoid`: Altitude zero is on the ellipsoid.
* `latLonAltToEcef_normal`: The normal there.
* `calcSatToStationRange_above`: Altitude is distance along the normal.
* `latLonAltToEcef_geometry`: The three together.
-/

namespace SimpleDgps

variable {K : Type} [Field K]

/-- `A`, the ellipsoid's semi-major axis in metres. -/
def semiMajorAxis : K := 6378137

/-- `EARTH_RADIUS_KM`, in kilometres. -/
def earthRadiusKm : K := 63788 / 10

/-- `E2`, the ellipsoid's first eccentricity squared. -/
def eccentricitySq : K := 66943799901377997 / 10 ^ 19

theorem earthRadiusKm_pos [LinearOrder K] [IsStrictOrderedRing K] : (0 : K) < earthRadiusKm := by
  unfold earthRadiusKm
  positivity

variable [CMath K]

open CMath (sqrt sin cos)

def latLonAltToEcef (latlonAlt : LatLonAltPos K) : EcefPos K :=
  let lat := latlonAlt.lat
  let lon := latlonAlt.lon
  let alt := latlonAlt.alt
  let n := semiMajorAxis / sqrt (1 - eccentricitySq * sin lat * sin lat)
  { x := (n + alt) * cos lat * cos lon
    y := (n + alt) * cos lat * sin lon
    z := (n * (1 - eccentricitySq) + alt) * sin lat }

def calcSatToStationRange (satPos : EcefPos K) (baseStationPos : LatLonAltPos K) : K :=
  let ecefBaseStationPoos := latLonAltToEcef baseStationPos
  sqrt ((satPos.x - ecefBaseStationPoos.x) ^ 2 + (satPos.y - ecefBaseStationPoos.y) ^ 2 +
    (satPos.z - ecefBaseStationPoos.z) ^ 2)

/-- The range squares to the squared distance from the station. -/
theorem sq_calcSatToStationRange [LinearOrder K] [IsStrictOrderedRing K] [LawfulCMath K]
    (satPos : EcefPos K) (baseStationPos : LatLonAltPos K) :
    calcSatToStationRange satPos baseStationPos ^ 2
      = (satPos.x - (latLonAltToEcef baseStationPos).x) ^ 2 +
        (satPos.y - (latLonAltToEcef baseStationPos).y) ^ 2 +
        (satPos.z - (latLonAltToEcef baseStationPos).z) ^ 2 :=
  LawfulCMath.sq_sqrt _ (by positivity)

/-! ### The ellipsoid -/

/-- `n`, the distance from the axis along the surface normal. -/
def primeVertical (lat : K) : K :=
  semiMajorAxis / sqrt (1 - eccentricitySq * sin lat * sin lat)

theorem latLonAltToEcef_eq (lat lon alt : K) :
    latLonAltToEcef { lat := lat, lon := lon, alt := alt }
      = { x := (primeVertical lat + alt) * cos lat * cos lon
          y := (primeVertical lat + alt) * cos lat * sin lon
          z := (primeVertical lat * (1 - eccentricitySq) + alt) * sin lat } := rfl

section Ellipsoid

variable [LinearOrder K] [IsStrictOrderedRing K]

omit [CMath K] in
theorem semiMajorAxis_pos : (0 : K) < semiMajorAxis := by
  unfold semiMajorAxis
  positivity

omit [CMath K] in
theorem eccentricitySq_pos : (0 : K) < eccentricitySq := by
  unfold eccentricitySq
  positivity

omit [CMath K] in
theorem eccentricitySq_lt_one : (eccentricitySq : K) < 1 := by
  unfold eccentricitySq
  rw [div_lt_one (by positivity)]
  norm_num

variable [LawfulCMath K]

theorem sin_sq_le_one (x : K) : (sin x : K) ^ 2 ≤ 1 := by
  rw [← LawfulCMath.sin_sq_add_cos_sq x]
  exact le_add_of_nonneg_right (sq_nonneg _)

/-- The radicand of the denominator is positive at every latitude. -/
theorem radicand_pos (lat : K) : (0 : K) < 1 - eccentricitySq * sin lat * sin lat := by
  have hle : eccentricitySq * (sin lat * sin lat) ≤ (eccentricitySq : K) := by
    refine mul_le_of_le_one_right eccentricitySq_pos.le ?_
    rw [← sq]
    exact sin_sq_le_one lat
  rw [mul_assoc]
  linarith [eccentricitySq_lt_one (K := K)]

theorem sqrt_radicand_pos (lat : K) :
    (0 : K) < sqrt (1 - eccentricitySq * sin lat * sin lat) :=
  sqrt_pos _ (radicand_pos lat)

theorem primeVertical_pos (lat : K) : 0 < primeVertical lat :=
  div_pos semiMajorAxis_pos (sqrt_radicand_pos lat)

/-- The square root in the denominator, once it is gone. -/
theorem primeVertical_sq (lat : K) :
    primeVertical lat ^ 2 * (1 - eccentricitySq * sin lat ^ 2) = semiMajorAxis ^ 2 := by
  have hsq := LawfulCMath.sq_sqrt _ (radicand_pos lat).le
  have hradicand : (1 : K) - eccentricitySq * sin lat ^ 2
      = sqrt (1 - eccentricitySq * sin lat * sin lat) ^ 2 := by
    rw [hsq]
    ring
  rw [primeVertical, hradicand, div_pow,
    div_mul_cancel₀ _ (pow_ne_zero 2 (sqrt_radicand_pos lat).ne')]

/-- At altitude zero a point lies on the ellipsoid. -/
theorem latLonAltToEcef_on_ellipsoid (lat lon : K) :
    let p := latLonAltToEcef { lat := lat, lon := lon, alt := 0 }
    (p.x ^ 2 + p.y ^ 2) / semiMajorAxis ^ 2 +
      p.z ^ 2 / (semiMajorAxis ^ 2 * (1 - eccentricitySq)) = 1 := by
  have hflat : (1 : K) - eccentricitySq ≠ 0 := (sub_pos.mpr eccentricitySq_lt_one).ne'
  have haxis : (semiMajorAxis : K) ≠ 0 := semiMajorAxis_pos.ne'
  have hlon := LawfulCMath.sin_sq_add_cos_sq lon
  have hlat := LawfulCMath.sin_sq_add_cos_sq lat
  rw [latLonAltToEcef_eq, add_zero, add_zero]
  simp only
  have hequator : (primeVertical lat * cos lat * cos lon) ^ 2 +
      (primeVertical lat * cos lat * sin lon) ^ 2 = primeVertical lat ^ 2 * cos lat ^ 2 := by
    calc (primeVertical lat * cos lat * cos lon) ^ 2 + (primeVertical lat * cos lat * sin lon) ^ 2
        = primeVertical lat ^ 2 * cos lat ^ 2 * (sin lon ^ 2 + cos lon ^ 2) := by ring
      _ = primeVertical lat ^ 2 * cos lat ^ 2 := by rw [hlon, mul_one]
  have hpole : (primeVertical lat * (1 - eccentricitySq) * sin lat) ^ 2 /
      (semiMajorAxis ^ 2 * (1 - eccentricitySq))
        = primeVertical lat ^ 2 * ((1 - eccentricitySq) * sin lat ^ 2) / semiMajorAxis ^ 2 := by
    field_simp
  rw [hequator, hpole, ← add_div, ← mul_add, div_eq_one_iff_eq (pow_ne_zero 2 haxis),
    ← primeVertical_sq lat]
  -- What remains is the square of the cosine.
  have hcos : cos lat ^ 2 = 1 - sin lat ^ 2 := by
    rw [← hlat]
    ring
  rw [hcos]
  ring

omit [LawfulCMath K] in
/-- The surface normal points along latitude and longitude. -/
theorem latLonAltToEcef_normal (lat lon : K) :
    let p := latLonAltToEcef { lat := lat, lon := lon, alt := 0 }
    p.x = primeVertical lat * (cos lat * cos lon) ∧
      p.y = primeVertical lat * (cos lat * sin lon) ∧
      p.z / (1 - eccentricitySq) = primeVertical lat * sin lat := by
  have hflat : (1 : K) - eccentricitySq ≠ 0 := (sub_pos.mpr eccentricitySq_lt_one).ne'
  rw [latLonAltToEcef_eq, add_zero, add_zero]
  refine ⟨mul_assoc _ _ _, mul_assoc _ _ _, ?_⟩
  simp only
  field_simp

/-- Two points above each other are as far apart as their altitudes. -/
theorem calcSatToStationRange_above (lat lon alt alt' : K) :
    calcSatToStationRange (latLonAltToEcef { lat := lat, lon := lon, alt := alt' })
        { lat := lat, lon := lon, alt := alt } = |alt' - alt| := by
  have hlon := LawfulCMath.sin_sq_add_cos_sq lon
  have hlat := LawfulCMath.sin_sq_add_cos_sq lat
  rw [← sqrt_sq_eq_abs, calcSatToStationRange]
  simp only [latLonAltToEcef_eq]
  refine congrArg sqrt ?_
  -- The difference is the altitude difference times a unit vector.
  calc ((primeVertical lat + alt') * cos lat * cos lon -
          (primeVertical lat + alt) * cos lat * cos lon) ^ 2 +
        ((primeVertical lat + alt') * cos lat * sin lon -
          (primeVertical lat + alt) * cos lat * sin lon) ^ 2 +
        ((primeVertical lat * (1 - eccentricitySq) + alt') * sin lat -
          (primeVertical lat * (1 - eccentricitySq) + alt) * sin lat) ^ 2
      = (alt' - alt) ^ 2 * (cos lat ^ 2 * (sin lon ^ 2 + cos lon ^ 2) + sin lat ^ 2) := by ring
    _ = (alt' - alt) ^ 2 := by rw [hlon, mul_one, add_comm, hlat, mul_one]

/-- The conversion maps onto the ellipsoid, and altitude is distance along its
    normal. -/
theorem latLonAltToEcef_geometry (lat lon : K) :
    (let p := latLonAltToEcef { lat := lat, lon := lon, alt := 0 };
      (p.x ^ 2 + p.y ^ 2) / semiMajorAxis ^ 2 +
          p.z ^ 2 / (semiMajorAxis ^ 2 * (1 - eccentricitySq)) = 1 ∧
        ∃ n : K, 0 < n ∧ p.x = n * (cos lat * cos lon) ∧ p.y = n * (cos lat * sin lon) ∧
          p.z / (1 - eccentricitySq) = n * sin lat) ∧
      ∀ alt1 alt2 : K,
        calcSatToStationRange (latLonAltToEcef { lat := lat, lon := lon, alt := alt2 })
          { lat := lat, lon := lon, alt := alt1 } = |alt2 - alt1| :=
  ⟨⟨latLonAltToEcef_on_ellipsoid lat lon,
      primeVertical lat, primeVertical_pos lat, latLonAltToEcef_normal lat lon⟩,
    calcSatToStationRange_above lat lon⟩

/-- A point five metres above another one. -/
theorem latLonAltToEcef_geometry_example :
    calcSatToStationRange (latLonAltToEcef { lat := (1 : ℝ), lon := 2, alt := 12 })
      { lat := 1, lon := 2, alt := 7 } = |12 - 7| :=
  (latLonAltToEcef_geometry (1 : ℝ) 2).2 7 12

end Ellipsoid

end SimpleDgps
