import SimpleDgps.RoundTrip

/-!
# What Geodetic Coordinates Say

Two properties of the coordinates that both conversions take for granted.

They are unique: two stations that are not far below the ellipsoid and have the
same position have the same latitude and altitude, and outside the poles the
same longitude. With `exists_station` that makes geodetic coordinates another
name for a position far out.

And the altitude is what it is called. It is the distance from the ellipsoid,
the least range to any station of altitude zero. The foot attains it, and no
other station can be nearer, because the whole ellipsoid lies below the tangent
at the foot.

## Theorems

* `foot_unique`: A point far out has one foot.
* `station_unique`: A position far out is that of one station.
* `tangent_above`: The ellipse lies below its tangents.
* `alt_le_range`: No station of altitude zero is nearer than the altitude.
* `alt_isLeast`: The altitude is the distance from the ellipsoid.
-/

namespace SimpleDgps

open Toolkit Loop Ellipse NewtonStep Set
open CMath (atan2)

/-- A point far out has one foot: near the direction of the point the slope
    falls, so it is level once. -/
theorem foot_unique (φ φ' h h' : ℝ) (hφ : φ ∈ Icc 0 (Real.pi / 2)) (hφ' : φ' ∈ Icc 0 (Real.pi / 2))
    (hh : -50000 ≤ h)
    (hacross : across semiMajorAxis eccentricitySq h φ = across semiMajorAxis eccentricitySq h' φ')
    (halong : along semiMajorAxis eccentricitySq h φ = along semiMajorAxis eccentricitySq h' φ') :
    φ = φ' ∧ h = h' := by
  have hE := eccentricitySq_pos (K := ℝ)
  have hE1 := eccentricitySq_lt_one (K := ℝ)
  have hw : 0 ≤ across semiMajorAxis eccentricitySq h φ :=
    mul_nonneg (radii_pos h φ hh).1.le
      (Real.cos_nonneg_of_neg_pi_div_two_le_of_le (by linarith [hφ.1, Real.pi_pos]) hφ.2)
  have hz : 0 ≤ along semiMajorAxis eccentricitySq h φ :=
    mul_nonneg (radii_pos h φ hh).2.le
      (Real.sin_nonneg_of_nonneg_of_le_pi hφ.1 (by linarith [hφ.2, Real.pi_pos]))
  have hfar := station_far h φ hh
  have hlevel := slope_foot semiMajorAxis eccentricitySq h φ hE.le hE1
  have hlevel' := slope_foot semiMajorAxis eccentricitySq h' φ' hE.le hE1
  have hheight := height_foot semiMajorAxis eccentricitySq h φ hE.le hE1
  have hheight' := height_foot semiMajorAxis eccentricitySq h' φ' hE.le hE1
  rw [← hacross, ← halong] at hlevel' hheight'
  generalize across semiMajorAxis eccentricitySq h φ = w at *
  generalize along semiMajorAxis eccentricitySq h φ = z at *
  have hr : 6300000 ≤ Real.sqrt (w ^ 2 + z ^ 2) := Real.le_sqrt_of_sq_le hfar
  rcases exists_polar w z _ hw hz (by linarith) (Real.sq_sqrt (by positivity))
    with ⟨ψ, hψ, hψ', hdirection, hdirection'⟩
  generalize Real.sqrt (w ^ 2 + z ^ 2) = r at *
  rw [hdirection, hdirection'] at hlevel hlevel' hheight hheight'
  have hnear := direction_near r ψ hr φ hψ hψ' hφ.1 hφ.2 (by rw [hlevel, abs_zero]; norm_num)
  have hnear' := direction_near r ψ hr φ' hψ hψ' hφ'.1 hφ'.2 (by rw [hlevel', abs_zero]; norm_num)
  -- Two level points with a slope that falls between them are one.
  rcases mean_value _ _ φ φ' (fun x _ => hasDerivAt_slope semiMajorAxis eccentricitySq
    (r * Real.cos ψ) (r * Real.sin ψ) x hE.le hE1) with ⟨ξ, hξ, hmean⟩
  have hfall := fall_ge r ψ hr ξ (near_of_mem_uIcc φ φ' ψ ξ _ hnear hnear' hξ)
  have hangle : φ = φ' := by
    rw [hlevel, hlevel', sub_zero, eq_comm, mul_eq_zero] at hmean
    rcases hmean with hzero | hzero
    · linarith
    · linarith
  rw [← hangle, hheight] at hheight'
  exact ⟨hangle, hheight'⟩

/-- A position far out is that of one station. -/
theorem station_unique (pos pos' : LatLonAltPos ℝ) (hlat : |pos.lat| ≤ Real.pi / 2)
    (hlat' : |pos'.lat| ≤ Real.pi / 2) (halt : -50000 ≤ pos.alt) (halt' : -50000 ≤ pos'.alt)
    (h : latLonAltToEcef pos = latLonAltToEcef pos') :
    pos.lat = pos'.lat ∧ pos.alt = pos'.alt ∧
      (|pos.lat| < Real.pi / 2 → -Real.pi < pos.lon → pos.lon ≤ Real.pi →
        -Real.pi < pos'.lon → pos'.lon ≤ Real.pi → pos.lon = pos'.lon) := by
  rcases station_parts pos hlat halt with ⟨hw, haxis, hequator⟩
  rcases station_parts pos' hlat' halt' with ⟨hw', haxis', hequator'⟩
  rw [← h] at haxis' hequator'
  have hacross : across semiMajorAxis eccentricitySq pos.alt |pos.lat|
      = across semiMajorAxis eccentricitySq pos'.alt |pos'.lat| :=
    (pow_left_inj₀ hw hw' two_ne_zero).mp (haxis.symm.trans haxis')
  rcases foot_unique |pos.lat| |pos'.lat| pos.alt pos'.alt ⟨abs_nonneg _, hlat⟩
    ⟨abs_nonneg _, hlat'⟩ halt hacross (hequator.symm.trans hequator') with ⟨habs, hsame⟩
  -- The hemisphere is in the third coordinate, which the two share.
  have hnorth := hemisphere pos |pos.lat| 0 hlat halt (by rw [sub_self, abs_zero])
  have hnorth' := hemisphere pos' |pos'.lat| 0 hlat' halt' (by rw [sub_self, abs_zero])
  rw [← h, ← habs] at hnorth'
  have hsigned := sub_eq_zero.mp (abs_nonpos_iff.mp hnorth)
  have hsigned' := sub_eq_zero.mp (abs_nonpos_iff.mp hnorth')
  refine ⟨hsigned.symm.trans hsigned', hsame, fun hpole hlo hhi hlo' hhi' => ?_⟩
  rw [← longitude pos halt hpole hlo hhi,
    ← longitude pos' halt' (by rw [← habs]; exact hpole) hlo' hhi', h]

/-- Over the pole the longitude is free, and the rest is not. -/
theorem station_unique_example :
    let pole : ℝ → LatLonAltPos ℝ := fun lon => { lat := Real.pi / 2, lon := lon, alt := 12 }
    latLonAltToEcef (pole 0) = latLonAltToEcef (pole 1) ∧ (pole 0).lon ≠ (pole 1).lon ∧
      (pole 0).lat = (pole 1).lat ∧ (pole 0).alt = (pole 1).alt := by
  intro pole
  have hcos : CMath.cos (Real.pi / 2) = (0 : ℝ) := Real.cos_pi_div_two
  have hsame : latLonAltToEcef (pole 0) = latLonAltToEcef (pole 1) := by
    simp only [pole]
    rw [latLonAltToEcef_eq, latLonAltToEcef_eq, hcos, mul_zero, zero_mul, zero_mul, zero_mul,
      zero_mul]
  have hlat : |(pole 0).lat| ≤ Real.pi / 2 := (abs_of_pos Real.pi_div_two_pos).le
  have hlat' : |(pole 1).lat| ≤ Real.pi / 2 := hlat
  have halt : -50000 ≤ (pole 0).alt := by norm_num
  have halt' : -50000 ≤ (pole 1).alt := halt
  rcases station_unique (pole 0) (pole 1) hlat hlat' halt halt' hsame with ⟨hl, ha, _⟩
  exact ⟨hsame, zero_ne_one, hl, ha⟩

/-! ### The altitude -/

/-- A station of altitude zero is below the tangent plane at any other one. -/
theorem station_below (pos q : LatLonAltPos ℝ) (hq : q.alt = 0) :
    (latLonAltToEcef q).x * (Real.cos pos.lat * Real.cos pos.lon) +
        (latLonAltToEcef q).y * (Real.cos pos.lat * Real.sin pos.lon) +
        (latLonAltToEcef q).z * Real.sin pos.lat
      ≤ support semiMajorAxis eccentricitySq pos.lat := by
  have hsurface := latLonAltToEcef_on_ellipsoid (K := ℝ) q.lat q.lon
  rw [← hq] at hsurface
  simp only at hsurface
  generalize latLonAltToEcef q = p at *
  have haxis := semiMajorAxis_pos (K := ℝ)
  -- In the meridian plane of the first station the second one is no further out.
  have hplane : (p.x * Real.cos pos.lon + p.y * Real.sin pos.lon) ^ 2 ≤ p.x ^ 2 + p.y ^ 2 := by
    have hlength := sq_length pos.lon p.x p.y
    linarith [sq_nonneg (p.y * Real.cos pos.lon - p.x * Real.sin pos.lon)]
  have hin : (p.x * Real.cos pos.lon + p.y * Real.sin pos.lon) ^ 2 / semiMajorAxis ^ 2 +
      p.z ^ 2 / (semiMajorAxis ^ 2 * (1 - eccentricitySq)) ≤ 1 :=
    (add_le_add_left (div_le_div_of_nonneg_right hplane (sq_nonneg _)) _).trans hsurface.le
  have htangent := tangent_above semiMajorAxis eccentricitySq pos.lat eccentricitySq_pos.le
    eccentricitySq_lt_one _ p.z haxis hin
  calc p.x * (Real.cos pos.lat * Real.cos pos.lon) +
        p.y * (Real.cos pos.lat * Real.sin pos.lon) + p.z * Real.sin pos.lat
      = (p.x * Real.cos pos.lon + p.y * Real.sin pos.lon) * Real.cos pos.lat +
          p.z * Real.sin pos.lat := by ring
    _ ≤ support semiMajorAxis eccentricitySq pos.lat := htangent

/-- A station is above its own tangent plane by its altitude. -/
theorem station_above (pos : LatLonAltPos ℝ) :
    (latLonAltToEcef pos).x * (Real.cos pos.lat * Real.cos pos.lon) +
        (latLonAltToEcef pos).y * (Real.cos pos.lat * Real.sin pos.lon) +
        (latLonAltToEcef pos).z * Real.sin pos.lat
      = support semiMajorAxis eccentricitySq pos.lat + pos.alt := by
  have hfoot := height_foot semiMajorAxis eccentricitySq pos.alt pos.lat eccentricitySq_pos.le
    eccentricitySq_lt_one
  have hunit := Real.sin_sq_add_cos_sq pos.lon
  rw [latLonAltToEcef_meridian]
  unfold height at hfoot
  linear_combination hfoot + across semiMajorAxis eccentricitySq pos.alt pos.lat *
    Real.cos pos.lat * hunit

/-- No station of altitude zero is nearer than the altitude. -/
theorem alt_le_range (pos q : LatLonAltPos ℝ) (hq : q.alt = 0) :
    pos.alt ≤ calcSatToStationRange (latLonAltToEcef pos) q := by
  have habove := station_above pos
  have hbelow := station_below pos q hq
  have hlat := Real.sin_sq_add_cos_sq pos.lat
  have hlon := Real.sin_sq_add_cos_sq pos.lon
  have hrange := sq_calcSatToStationRange (latLonAltToEcef pos) q
  have hnonneg : 0 ≤ calcSatToStationRange (latLonAltToEcef pos) q := Real.sqrt_nonneg _
  generalize calcSatToStationRange (latLonAltToEcef pos) q = range at *
  generalize latLonAltToEcef pos = p at *
  generalize latLonAltToEcef q = p' at *
  have hpart : pos.alt ≤ (p.x - p'.x) * (Real.cos pos.lat * Real.cos pos.lon) +
      (p.y - p'.y) * (Real.cos pos.lat * Real.sin pos.lon) + (p.z - p'.z) * Real.sin pos.lat := by
    linarith
  refine hpart.trans (le_of_sq_le_sq ?_ hnonneg)
  rw [hrange]
  -- The plane's normal has length one, and a part is no longer than the whole.
  have hplane := sq_length pos.lon (p.x - p'.x) (p.y - p'.y)
  have hspace := sq_length pos.lat ((p.x - p'.x) * Real.cos pos.lon +
    (p.y - p'.y) * Real.sin pos.lon) (p.z - p'.z)
  have hrest := sq_nonneg ((p.y - p'.y) * Real.cos pos.lon - (p.x - p'.x) * Real.sin pos.lon)
  have hrest' := sq_nonneg ((p.z - p'.z) * Real.cos pos.lat - ((p.x - p'.x) * Real.cos pos.lon +
    (p.y - p'.y) * Real.sin pos.lon) * Real.sin pos.lat)
  linarith

/-- The altitude is the distance from the ellipsoid. -/
theorem alt_isLeast (pos : LatLonAltPos ℝ) (halt : 0 ≤ pos.alt) :
    IsLeast {d | ∃ q : LatLonAltPos ℝ, q.alt = 0 ∧
      d = calcSatToStationRange (latLonAltToEcef pos) q} pos.alt := by
  constructor
  · refine ⟨{ lat := pos.lat, lon := pos.lon, alt := 0 }, rfl, ?_⟩
    have hfoot := calcSatToStationRange_above pos.lat pos.lon 0 pos.alt
    rw [hfoot, sub_zero, abs_of_nonneg halt]
  · rintro d ⟨q, hq, rfl⟩
    exact alt_le_range pos q hq

/-- A point twelve metres up. -/
theorem alt_isLeast_example :
    IsLeast {d : ℝ | ∃ q : LatLonAltPos ℝ, q.alt = 0 ∧
      d = calcSatToStationRange (latLonAltToEcef { lat := (1 : ℝ), lon := 2, alt := 12 }) q} 12 :=
  alt_isLeast { lat := 1, lon := 2, alt := 12 } (by norm_num)

end SimpleDgps
