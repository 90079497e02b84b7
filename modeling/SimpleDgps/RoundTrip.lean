import SimpleDgps.GeodeticStep

/-!
# There and Back Again

The two conversions of coordinates undo each other.

`latLonAltToEcef` is exact and `ecefToLatLonAlt` is not, so the statements are
about accuracy, and they have to hold without any test in the code that the
accuracy was reached.

One way round, a station comes back with an error of at most `1e-10` in the
latitude, which is less than a millimetre on the ground, of a micrometre in the
altitude, and of nothing in the longitude. That holds for every station down to
50 km below the ellipsoid. The other way round every position from 6340 km on
comes back, because it is the position of some station, `exists_station`. There
the error is a distance, and it grows with the distance from the centre.

## Theorems

* `latLonAltToEcef_meridian`: The conversion to Earth-fixed coordinates.
* `station_far`: No station is near the centre.
* `ecefToLatLonAlt_near`: The inverse conversion at a known latitude.
* `ecefToLatLonAlt_latLonAltToEcef`: A station comes back.
* `exists_station`: Every position far out is that of a station.
* `calcSatToStationRange_meridian`, `plane_near`: The range in the meridian plane.
* `ecefToLatLonAlt_back`: A position comes back, and has a fitting altitude.
-/

namespace SimpleDgps

open Toolkit Loop Ellipse NewtonStep Set
open CMath (atan2)

/-- The conversion to Earth-fixed coordinates, by the ellipse. -/
theorem latLonAltToEcef_meridian (pos : LatLonAltPos ℝ) :
    latLonAltToEcef pos
      = { x := across semiMajorAxis eccentricitySq pos.alt pos.lat * Real.cos pos.lon
          y := across semiMajorAxis eccentricitySq pos.alt pos.lat * Real.sin pos.lon
          z := along semiMajorAxis eccentricitySq pos.alt pos.lat } := by
  have hnormal : primeVertical pos.lat = normalRadius semiMajorAxis eccentricitySq pos.lat := by
    unfold primeVertical normalRadius root
    rw [mul_assoc, ← sq]
    rfl
  have heq := latLonAltToEcef_eq pos.lat pos.lon pos.alt
  rw [hnormal] at heq
  exact heq

theorem support_ge (φ : ℝ) : 6356000 ≤ support semiMajorAxis eccentricitySq φ := by
  calc (6356000 : ℝ) ≤ semiMajorAxis * 0.9966 := by
        unfold semiMajorAxis
        norm_num
    _ ≤ semiMajorAxis * root eccentricitySq φ :=
        mul_le_mul_of_nonneg_left (root_bounds φ).1 semiMajorAxis_pos.le

/-- A station down to 50 km below the ellipsoid is far from the centre. -/
theorem station_far (h φ : ℝ) (hh : -50000 ≤ h) :
    6300000 ^ 2 ≤ across semiMajorAxis eccentricitySq h φ ^ 2 +
      along semiMajorAxis eccentricitySq h φ ^ 2 := by
  have hfoot := height_foot semiMajorAxis eccentricitySq h φ eccentricitySq_pos.le
    eccentricitySq_lt_one
  have hsupport := support_ge φ
  unfold height at hfoot
  generalize across semiMajorAxis eccentricitySq h φ = w at *
  generalize along semiMajorAxis eccentricitySq h φ = z at *
  have hproj : 6300000 ≤ w * Real.cos φ + z * Real.sin φ := by linarith
  -- A projection is not longer than what is projected.
  have hlength := sq_length φ w z
  have hsq : (6300000 : ℝ) ^ 2 ≤ (w * Real.cos φ + z * Real.sin φ) ^ 2 :=
    pow_le_pow_left₀ (by norm_num) hproj 2
  linarith [sq_nonneg (z * Real.cos φ - w * Real.sin φ)]

/-- The inverse conversion at a position whose distances to the axis and to the
    equator are those of a foot and an altitude. -/
theorem ecefToLatLonAlt_near (ecef : EcefPos ℝ) (φ h : ℝ) (hφ : 0 ≤ φ) (hφ' : φ ≤ Real.pi / 2)
    (hh : -50000 ≤ h)
    (haxis : ecef.x ^ 2 + ecef.y ^ 2 = across semiMajorAxis eccentricitySq h φ ^ 2)
    (hacross : 0 ≤ across semiMajorAxis eccentricitySq h φ)
    (hequator : |ecef.z| = along semiMajorAxis eccentricitySq h φ) :
    ∃ lat alt, ecefToLatLonAlt ecef = .ok { lat := if ecef.z < 0 then lat * -1 else lat
                                            lon := atan2 ecef.y ecef.x
                                            alt := alt } ∧
      |lat - φ| ≤ 1e-10 ∧ |alt - h| ≤ 1e-6 := by
  have hfar := station_far h φ hh
  have hlevel := slope_foot semiMajorAxis eccentricitySq h φ eccentricitySq_pos.le
    eccentricitySq_lt_one
  have hfoot := height_foot semiMajorAxis eccentricitySq h φ eccentricitySq_pos.le
    eccentricitySq_lt_one
  have halong : 0 ≤ along semiMajorAxis eccentricitySq h φ := by
    rw [← hequator]
    exact abs_nonneg _
  have hxy : ecef.x * ecef.x + ecef.y * ecef.y
      = across semiMajorAxis eccentricitySq h φ ^ 2 := by rw [← haxis, sq, sq]
  have hz : ecef.z * ecef.z = along semiMajorAxis eccentricitySq h φ ^ 2 := by
    rw [← hequator, sq_abs, sq]
  generalize across semiMajorAxis eccentricitySq h φ = w at *
  generalize along semiMajorAxis eccentricitySq h φ = z at *
  have hr2 : Real.sqrt (w ^ 2 + z ^ 2) ^ 2 = w ^ 2 + z ^ 2 := Real.sq_sqrt (by positivity)
  have hr : 6300000 ≤ Real.sqrt (w ^ 2 + z ^ 2) := Real.le_sqrt_of_sq_le hfar
  -- The point of the meridian plane in polar coordinates, as the step needs it.
  rcases exists_polar w z _ hacross halong (by linarith) hr2 with ⟨ψ, hψ, hψ', hw, hz'⟩
  generalize Real.sqrt (w ^ 2 + z ^ 2) = r at *
  rw [hw, hz'] at hlevel hfoot
  rcases latAlt_accurate r ψ φ hr hψ hψ' hφ hφ' hlevel with ⟨lat, alt, hrun, hlat, halt⟩
  rw [hfoot] at halt
  rw [← hw, ← hz', ← hxy, ← hz, ← hequator] at hrun
  exact ⟨lat, alt, (ecefToLatLonAlt_ok _ _).mpr ⟨lat, hrun, rfl, rfl⟩, hlat, halt⟩

/-! ### From a station and back -/

/-- The distances from the axis and from the equator have the signs of cosine
    and sine. -/
theorem radii_pos (h φ : ℝ) (hh : -50000 ≤ h) :
    0 < normalRadius semiMajorAxis eccentricitySq φ + h ∧
      0 < normalRadius semiMajorAxis eccentricitySq φ * (1 - eccentricitySq) + h := by
  have hroot := root_pos eccentricitySq φ eccentricitySq_pos.le eccentricitySq_lt_one
  have hnormal : 6378137 ≤ normalRadius semiMajorAxis eccentricitySq φ := by
    rw [normalRadius, le_div_iff₀ hroot]
    exact mul_le_of_le_one_right (by norm_num) (root_bounds φ).2
  have hflat : (0.9 : ℝ) ≤ 1 - eccentricitySq := by
    unfold eccentricitySq
    norm_num
  have hprod : 6378137 * 0.9
      ≤ normalRadius semiMajorAxis eccentricitySq φ * (1 - eccentricitySq) :=
    mul_le_mul hnormal hflat (by norm_num) ((by norm_num : (0 : ℝ) ≤ 6378137).trans hnormal)
  constructor <;> linarith

/-- The distances of a station from the axis and from the equator. -/
theorem station_parts (pos : LatLonAltPos ℝ) (hlat : |pos.lat| ≤ Real.pi / 2)
    (halt : -50000 ≤ pos.alt) :
    0 ≤ across semiMajorAxis eccentricitySq pos.alt |pos.lat| ∧
      (latLonAltToEcef pos).x ^ 2 + (latLonAltToEcef pos).y ^ 2
        = across semiMajorAxis eccentricitySq pos.alt |pos.lat| ^ 2 ∧
      |(latLonAltToEcef pos).z| = along semiMajorAxis eccentricitySq pos.alt |pos.lat| := by
  rcases radii_pos pos.alt |pos.lat| halt with ⟨haxis, hequator⟩
  have hcos : 0 ≤ Real.cos |pos.lat| :=
    Real.cos_nonneg_of_neg_pi_div_two_le_of_le (by linarith [abs_nonneg pos.lat]) hlat
  have hsin : 0 ≤ Real.sin |pos.lat| :=
    Real.sin_nonneg_of_nonneg_of_le_pi (abs_nonneg _) (by linarith [Real.pi_pos])
  have hacross : across semiMajorAxis eccentricitySq pos.alt |pos.lat|
      = across semiMajorAxis eccentricitySq pos.alt pos.lat := by
    rcases abs_choice pos.lat with habs | habs
    · rw [habs]
    · rw [habs, across_neg]
  refine ⟨mul_nonneg haxis.le hcos, ?_, ?_⟩
  · rw [latLonAltToEcef_meridian, hacross]
    linear_combination across semiMajorAxis eccentricitySq pos.alt pos.lat ^ 2 *
      Real.sin_sq_add_cos_sq pos.lon
  · have hpos : 0 ≤ along semiMajorAxis eccentricitySq pos.alt |pos.lat| :=
      mul_nonneg hequator.le hsin
    rw [latLonAltToEcef_meridian, ← abs_of_nonneg hpos]
    rcases abs_choice pos.lat with habs | habs
    · rw [habs]
    · rw [habs, along_neg, abs_neg]

/-- The hemisphere is recovered from the sign of the third coordinate. -/
theorem hemisphere (pos : LatLonAltPos ℝ) (lat ε : ℝ) (hlat : |pos.lat| ≤ Real.pi / 2)
    (halt : -50000 ≤ pos.alt) (hnear : |lat - (|pos.lat|)| ≤ ε) :
    |(if (latLonAltToEcef pos).z < 0 then lat * -1 else lat) - pos.lat| ≤ ε := by
  have hpos := (radii_pos pos.alt |pos.lat| halt).2
  rw [latLonAltToEcef_meridian]
  rcases le_or_gt 0 pos.lat with hnorth | hsouth
  · rw [abs_of_nonneg hnorth] at hlat hnear hpos
    have hsin : 0 ≤ Real.sin pos.lat := Real.sin_nonneg_of_nonneg_of_le_pi hnorth (by linarith)
    have hz : 0 ≤ along semiMajorAxis eccentricitySq pos.alt pos.lat := mul_nonneg hpos.le hsin
    rw [if_neg (not_lt.mpr hz)]
    exact hnear
  · rw [abs_of_neg hsouth] at hlat hnear hpos
    have hsin : 0 < Real.sin (-pos.lat) :=
      Real.sin_pos_of_pos_of_lt_pi (neg_pos.mpr hsouth) (by linarith [Real.pi_pos])
    have hz : along semiMajorAxis eccentricitySq pos.alt pos.lat < 0 := by
      have hneg := along_neg semiMajorAxis eccentricitySq pos.alt pos.lat
      have hprod : 0 < along semiMajorAxis eccentricitySq pos.alt (-pos.lat) := mul_pos hpos hsin
      linarith
    -- The code works with the northern latitude and turns it at the end.
    have hsign : lat * -1 - pos.lat = -(lat - -pos.lat) := by ring
    rw [if_pos hz, hsign, abs_neg]
    exact hnear

/-- Away from the poles the longitude is the angle in the plane of the equator. -/
theorem longitude (pos : LatLonAltPos ℝ) (halt : -50000 ≤ pos.alt)
    (hpole : |pos.lat| < Real.pi / 2) (hlo : -Real.pi < pos.lon) (hhi : pos.lon ≤ Real.pi) :
    atan2 (latLonAltToEcef pos).y (latLonAltToEcef pos).x = pos.lon := by
  rw [latLonAltToEcef_meridian]
  refine atan2_polar _ _ ?_ hlo hhi
  exact mul_pos (radii_pos pos.alt pos.lat halt).1 (Real.cos_pos_of_mem_Ioo (abs_lt.mp hpole))

/-- A position far out has a foot, and the height above it is the distance from the
    centre without the Earth's radius there. -/
theorem exists_foot (w z r : ℝ) (hw : 0 ≤ w) (hz : 0 ≤ z) (hr : 6340000 ≤ r)
    (hr2 : r ^ 2 = w ^ 2 + z ^ 2) :
    ∃ φ h, 0 ≤ φ ∧ φ ≤ Real.pi / 2 ∧ r - 6378200 ≤ h ∧ h ≤ r - 6356000 ∧
      w = across semiMajorAxis eccentricitySq h φ ∧
      z = along semiMajorAxis eccentricitySq h φ := by
  rcases exists_level semiMajorAxis eccentricitySq w z eccentricitySq_pos.le
    eccentricitySq_lt_one hw hz with ⟨φ, ⟨hφ, hφ'⟩, hlevel⟩
  rcases foot_of_slope semiMajorAxis eccentricitySq φ eccentricitySq_pos.le
    eccentricitySq_lt_one w z hlevel with ⟨hacross, halong⟩
  refine ⟨φ, _, hφ, hφ', ?_, ?_, hacross, halong⟩
  · -- The normal at the foot misses the centre by less than 22 km.
    have hproj := sq_projection semiMajorAxis eccentricitySq φ w z hlevel
    have hmiss : (semiMajorAxis * eccentricitySq * (Real.sin φ * Real.cos φ) /
        root eccentricitySq φ) ^ 2 ≤ 22000 ^ 2 :=
      sq_le_sq' (by linarith [(abs_le.mp (crossing_le φ)).1])
        (by linarith [(abs_le.mp (crossing_le φ)).2])
    have hnonneg : 0 ≤ w * Real.cos φ + z * Real.sin φ :=
      add_nonneg (mul_nonneg hw (Real.cos_nonneg_of_neg_pi_div_two_le_of_le (by linarith) hφ'))
        (mul_nonneg hz (Real.sin_nonneg_of_nonneg_of_le_pi hφ (by linarith)))
    have hlong : r - 50 ≤ w * Real.cos φ + z * Real.sin φ := by
      refine le_of_sq_le_sq ?_ hnonneg
      rw [hproj, ← hr2]
      have hsquare : (r - 50) ^ 2 = r ^ 2 - 100 * r + 2500 := by ring
      linarith
    have hsupport : support semiMajorAxis eccentricitySq φ ≤ 6378137 := by
      exact mul_le_of_le_one_right semiMajorAxis_pos.le (root_bounds φ).2
    unfold height
    linarith
  · have hlength := sq_length φ w z
    have hshort : w * Real.cos φ + z * Real.sin φ ≤ r := by
      refine le_of_sq_le_sq ?_ (by linarith)
      rw [hr2, ← hlength]
      exact le_add_of_nonneg_right (sq_nonneg _)
    unfold height
    linarith [support_ge φ]

/-- The conversion of a station whose hemisphere is given by a sign. -/
theorem latLonAltToEcef_signed (z lat lon alt : ℝ) :
    latLonAltToEcef { lat := if z < 0 then lat * -1 else lat, lon := lon, alt := alt }
      = { x := across semiMajorAxis eccentricitySq alt lat * Real.cos lon
          y := across semiMajorAxis eccentricitySq alt lat * Real.sin lon
          z := if z < 0 then -along semiMajorAxis eccentricitySq alt lat
            else along semiMajorAxis eccentricitySq alt lat } := by
  rw [latLonAltToEcef_meridian]
  split_ifs
  · rw [mul_neg_one, across_neg, along_neg]
  · rfl

/-- Every position far out is that of a station. -/
theorem exists_station (ecef : EcefPos ℝ)
    (hfar : 6340000 ≤ Real.sqrt (ecef.x ^ 2 + ecef.y ^ 2 + ecef.z ^ 2)) :
    ∃ pos, latLonAltToEcef pos = ecef ∧ |pos.lat| ≤ Real.pi / 2 ∧ -Real.pi < pos.lon ∧
      pos.lon ≤ Real.pi ∧ -50000 ≤ pos.alt := by
  have hr2 : Real.sqrt (ecef.x ^ 2 + ecef.y ^ 2 + ecef.z ^ 2) ^ 2
      = Real.sqrt (ecef.x ^ 2 + ecef.y ^ 2) ^ 2 + |ecef.z| ^ 2 := by
    rw [Real.sq_sqrt (by positivity), Real.sq_sqrt (by positivity), sq_abs]
  rcases exists_foot _ _ _ (Real.sqrt_nonneg _) (abs_nonneg _) hfar hr2
    with ⟨φ, h, hφ, hφ', hh, -, hw, hz⟩
  have hdeep : -50000 ≤ h := by linarith
  rcases polar_atan2 ecef.x ecef.y with ⟨hx, hy⟩
  rcases atan2_range ecef.x ecef.y with ⟨hlo, hhi⟩
  rw [hw] at hx hy
  refine ⟨{ lat := if ecef.z < 0 then φ * -1 else φ, lon := atan2 ecef.y ecef.x, alt := h },
    ?_, ?_, hlo, hhi, hdeep⟩
  · rw [latLonAltToEcef_signed, hx, hy, ← hz]
    split_ifs with hsouth
    · rw [abs_of_neg hsouth, neg_neg]
    · rw [abs_of_nonneg (not_lt.mp hsouth)]
  · split_ifs
    · rwa [mul_neg_one, abs_neg, abs_of_nonneg hφ]
    · rwa [abs_of_nonneg hφ]

/-- A distance of 7000 km, off all axes and planes. -/
theorem sqrt_off_axes :
    Real.sqrt ((2000000 : ℝ) ^ 2 + (-3000000) ^ 2 + 6000000 ^ 2) = 7000000 := by
  have hsq : (2000000 : ℝ) ^ 2 + (-3000000) ^ 2 + 6000000 ^ 2 = 7000000 ^ 2 := by norm_num
  rw [hsq, Real.sqrt_sq (by norm_num)]

/-- A position 7000 km from the centre is a station's. -/
theorem exists_station_example :
    ∃ pos, latLonAltToEcef pos = { x := (2000000 : ℝ), y := -3000000, z := 6000000 } ∧
      |pos.lat| ≤ Real.pi / 2 ∧ -Real.pi < pos.lon ∧ pos.lon ≤ Real.pi ∧ -50000 ≤ pos.alt :=
  exists_station { x := 2000000, y := -3000000, z := 6000000 } (by
    simp only [sqrt_off_axes]
    norm_num)

/-- The range to a station in the direction of the position. -/
theorem calcSatToStationRange_meridian (ecef : EcefPos ℝ) (lat alt : ℝ) :
    calcSatToStationRange ecef { lat := if ecef.z < 0 then lat * -1 else lat
                                 lon := atan2 ecef.y ecef.x
                                 alt := alt }
      = Real.sqrt ((across semiMajorAxis eccentricitySq alt lat -
            Real.sqrt (ecef.x ^ 2 + ecef.y ^ 2)) ^ 2 +
          (along semiMajorAxis eccentricitySq alt lat - |ecef.z|) ^ 2) := by
  rcases polar_atan2 ecef.x ecef.y with ⟨hx, hy⟩
  have hunit := Real.sin_sq_add_cos_sq (atan2 ecef.y ecef.x)
  unfold calcSatToStationRange
  simp only [latLonAltToEcef_signed]
  refine congrArg Real.sqrt ?_
  have hheight : ecef.z - (if ecef.z < 0 then -along semiMajorAxis eccentricitySq alt lat
      else along semiMajorAxis eccentricitySq alt lat)
        = (if ecef.z < 0 then 1 else -1) *
          (along semiMajorAxis eccentricitySq alt lat - |ecef.z|) := by
    split_ifs with hsouth
    · rw [abs_of_neg hsouth]
      ring
    · rw [abs_of_nonneg (not_lt.mp hsouth)]
      ring
  have hsign : (if ecef.z < 0 then (1 : ℝ) else -1) ^ 2 = 1 := by
    split_ifs <;> norm_num
  rw [hheight, mul_pow, hsign, one_mul]
  congr 1
  generalize across semiMajorAxis eccentricitySq alt lat = w' at *
  generalize Real.sqrt (ecef.x ^ 2 + ecef.y ^ 2) = w at *
  generalize atan2 ecef.y ecef.x = lon at *
  rw [← hx, ← hy]
  linear_combination (w - w') ^ 2 * hunit

/-- The radius of curvature and the altitude together hardly exceed the distance
    from the centre. -/
theorem curvature_add_le (r alt θ : ℝ) (hr : 6340000 ≤ r) (hlow : -50001 ≤ alt)
    (hhigh : alt ≤ r - 6355000) :
    |curvatureRadius semiMajorAxis eccentricitySq θ + alt| ≤ 1.01 * r := by
  rcases root_bounds θ with ⟨hroot, hroot'⟩
  have hpos : 0 < root eccentricitySq θ := by linarith
  have hnum : (6335000 : ℝ) ≤ semiMajorAxis * (1 - eccentricitySq) ∧
      semiMajorAxis * (1 - eccentricitySq) ≤ (6336000 : ℝ) := by
    unfold semiMajorAxis eccentricitySq
    norm_num
  have hcurve : 6335000 ≤ curvatureRadius semiMajorAxis eccentricitySq θ := by
    rw [curvatureRadius, le_div_iff₀ (pow_pos hpos 3)]
    calc 6335000 * root eccentricitySq θ ^ 3 ≤ 6335000 * 1 :=
          mul_le_mul_of_nonneg_left (pow_le_one₀ hpos.le hroot') (by norm_num)
      _ ≤ semiMajorAxis * (1 - eccentricitySq) := by linarith
  have hcurve' : curvatureRadius semiMajorAxis eccentricitySq θ ≤ 6402000 := by
    rw [curvatureRadius, div_le_iff₀ (pow_pos hpos 3)]
    calc semiMajorAxis * (1 - eccentricitySq) ≤ 6402000 * 0.9966 ^ 3 := by linarith
      _ ≤ 6402000 * root eccentricitySq θ ^ 3 :=
          mul_le_mul_of_nonneg_left (pow_le_pow_left₀ (by norm_num) hroot 3) (by norm_num)
  rw [abs_le]
  constructor <;> linarith

/-- The length of a way in the plane from the lengths along the two axes. -/
theorem plane_near (dw dz d : ℝ) (hd : 0 ≤ d) (hw : |dw| ≤ 1.01 * d) (hz : |dz| ≤ 1.01 * d) :
    Real.sqrt (dw ^ 2 + dz ^ 2) ≤ 1.5 * d := by
  have hdw : dw ^ 2 ≤ (1.01 * d) ^ 2 := by
    rw [← sq_abs]
    exact pow_le_pow_left₀ (abs_nonneg _) hw 2
  have hdz : dz ^ 2 ≤ (1.01 * d) ^ 2 := by
    rw [← sq_abs]
    exact pow_le_pow_left₀ (abs_nonneg _) hz 2
  rw [Real.sqrt_le_iff]
  refine ⟨mul_nonneg (by norm_num) hd, ?_⟩
  calc dw ^ 2 + dz ^ 2 ≤ 2 * 1.01 ^ 2 * d ^ 2 := by linarith
    _ ≤ 1.5 ^ 2 * d ^ 2 := mul_le_mul_of_nonneg_right (by norm_num) (sq_nonneg _)
    _ = (1.5 * d) ^ 2 := by ring

/-- What the inverse conversion says about a position far out: an altitude that fits
    its distance from the centre, and coordinates that lead back near it. -/
theorem ecefToLatLonAlt_back (ecef : EcefPos ℝ) (r : ℝ) (hr : 6340000 ≤ r)
    (hdistance : Real.sqrt (ecef.x ^ 2 + ecef.y ^ 2 + ecef.z ^ 2) = r) :
    ∃ pos, ecefToLatLonAlt ecef = .ok pos ∧ |pos.lat| ≤ 2 ∧ r - 6378201 ≤ pos.alt ∧
      pos.alt ≤ r - 6355999 ∧ calcSatToStationRange ecef pos ≤ 2e-10 * r + 2e-6 := by
  have hr2 : r ^ 2 = Real.sqrt (ecef.x ^ 2 + ecef.y ^ 2) ^ 2 + |ecef.z| ^ 2 := by
    rw [← hdistance, Real.sq_sqrt (by positivity), Real.sq_sqrt (by positivity), sq_abs]
  rcases exists_foot _ _ r (Real.sqrt_nonneg _) (abs_nonneg _) hr hr2
    with ⟨φ, h, hφ, hφ', hh, hh', hw, hz⟩
  have haxis : ecef.x ^ 2 + ecef.y ^ 2 = across semiMajorAxis eccentricitySq h φ ^ 2 := by
    rw [← hw, Real.sq_sqrt (by positivity)]
  rcases ecefToLatLonAlt_near ecef φ h hφ hφ' (by linarith) haxis
    (by rw [← hw]; exact Real.sqrt_nonneg _) hz with ⟨lat, alt, hrun, hlat, halt⟩
  rcases abs_le.mp halt with ⟨halt0, halt1⟩
  have hnorth : |lat| ≤ 2 := by
    rcases abs_le.mp hlat with ⟨hlat0, hlat1⟩
    rw [abs_le]
    constructor <;> linarith [Real.pi_lt_d2]
  refine ⟨_, hrun, ?_, by linarith, by linarith, ?_⟩
  · simp only
    split_ifs
    · rwa [mul_neg_one, abs_neg]
    · exact hnorth
  have hk : ∀ x, |curvatureRadius semiMajorAxis eccentricitySq x + alt| ≤ 1.01 * r := fun x =>
    curvature_add_le r alt x hr (by linarith) (by linarith)
  have hturn : 1.01 * r * |lat - φ| ≤ 1.01 * r * 1e-10 :=
    mul_le_mul_of_nonneg_left hlat (by linarith)
  -- Latitude and altitude are off by a little, and so are the two distances.
  have hmoved := across_moved semiMajorAxis eccentricitySq h φ eccentricitySq_pos.le
    eccentricitySq_lt_one alt lat _ hk
  have hmoved' := along_moved semiMajorAxis eccentricitySq h φ eccentricitySq_pos.le
    eccentricitySq_lt_one alt lat _ hk
  rw [← hw] at hmoved
  rw [← hz] at hmoved'
  have hplane := plane_near _ _ (1e-10 * r + 1e-6) (by linarith) (hmoved.trans (by linarith))
    (hmoved'.trans (by linarith))
  rw [calcSatToStationRange_meridian]
  exact hplane.trans (by linarith)

end SimpleDgps
