import Mathlib.Data.Int.Log
import SimpleDgps.RoundTrip
import SimpleDgps.Space

/-!
# Angles in Single Precision

What it costs that a position keeps its angles in single precision.

Everything in the two conversions is computed in double precision, but the latitude
and the longitude of a `latLonAltPos` are single. The inverse conversion uses the
latitude member as a variable: it stores the first latitude there, reads it back to
add the Newton step, stores the sum, and stores it once more with its sign turned in
the southern hemisphere. So the latitude is rounded up to three times and the
longitude once, while the altitude comes from the sine and the cosine and is not
touched.

The rounding is a parameter. All that is used of it is a bound on its error for
numbers up to four, which no angle here exceeds. `toSingle` rounds to 24 significant
bits and its error is at most `2⁻²²` there. The way back from a position on the ground
then misses it by some metres, where the algorithm itself is good for a few
millimetres.

## Main definitions

* `latAltStored`, `ecefToLatLonAltStored`: The inverse conversion with its storing.
* `toSingle`: Rounding to 24 significant bits.

## Theorems

* `ecefToLatLonAltStored_id`: Storing without rounding.
* `newtonStep_shift`: A Newton step from another first latitude.
* `ecefToLatLonAltStored_near`: What storing changes.
* `station_moved_meridian`, `station_moved_parallel`: How far a change of one angle
  moves a station.
* `station_moved`: How far a change of both does.
* `stored_latLonAltToEcef`: A station comes back.
* `ecefToLatLonAltStored_back`, `latLonAltToEcef_stored`: A position comes back.
-/

namespace SimpleDgps

open Toolkit Loop Ellipse
open CMath (atan2)

section Definitions

variable {K : Type} [Field K] [LinearOrder K] [CMath K] (single : K → K)

/-- `latAlt` with the latitude in single precision, before the step and after it. -/
def latAltStored (w2 z2 zp : K) : Except DomainError (K × K) := do
  let w ← squareRoot w2
  let r2 := w2 + z2
  let r ← squareRoot r2
  let s2 ← divide z2 r2
  let c2 ← divide w2 r2
  let u ← divide A2 r
  let a4 ← divide A4 r
  let start ← firstLatitude zp w r s2 c2 u (A3 - a4)
  let (lat, alt) ← newtonStep w zp { start with lat := single start.lat }
  .ok (single lat, alt)

/-- `ecefToLatLonAlt` with its angles in single precision. -/
def ecefToLatLonAltStored (ecef : EcefPos K) : Except DomainError (LatLonAltPos K) := do
  let x := ecef.x
  let y := ecef.y
  let z := ecef.z
  let (lat, alt) ← latAltStored single (x * x + y * y) (z * z) |z|
  let lat := if z < 0 then single (lat * -1) else lat
  .ok { lat := lat, lon := single (atan2 y x), alt := alt }

/-- Where storing keeps every number the conversion is the plain one. -/
theorem ecefToLatLonAltStored_id (ecef : EcefPos K) :
    ecefToLatLonAltStored id ecef = ecefToLatLonAlt ecef := by
  have hpair : ∀ x : Except DomainError (K × K), (do let (lat, alt) ← x; .ok (lat, alt)) = x :=
    fun x => by cases x <;> rfl
  have hlatAlt : ∀ w2 z2 zp : K, latAltStored id w2 z2 zp = latAlt w2 z2 zp := by
    intro w2 z2 zp
    unfold latAltStored latAlt
    simp only [id, hpair]
  unfold ecefToLatLonAltStored ecefToLatLonAlt
  simp only [hlatAlt, id]

/-- The step adds to the first latitude, and does not look at it otherwise. -/
theorem newtonStep_shift (w zp l lat alt : K) (start : FirstLatitude K)
    (h : newtonStep w zp start = .ok (lat, alt)) :
    newtonStep w zp { start with lat := l } = .ok (l + (lat - start.lat), alt) := by
  unfold newtonStep at h ⊢
  rcases bind_eq_ok _ _ _ h with ⟨root, hroot, h⟩
  rcases bind_eq_ok _ _ _ h with ⟨rg, hrg, h⟩
  rcases bind_eq_ok _ _ _ h with ⟨radius, hradius, h⟩
  rcases bind_eq_ok _ _ _ h with ⟨p, hp, h⟩
  rcases Prod.mk.inj (Except.ok.inj h) with ⟨hlat, halt⟩
  simp only
  rw [hroot, ok_bind, hrg, ok_bind, hradius, ok_bind, hp, ok_bind, ← hlat, ← halt,
    add_sub_cancel_left]

end Definitions

section Error

theorem abs_asin_le (x : ℝ) : |(CMath.asin x : ℝ)| ≤ 4 := by
  have hlow : -(Real.pi / 2) ≤ CMath.asin x := Real.neg_pi_div_two_le_arcsin x
  have hhigh : CMath.asin x ≤ Real.pi / 2 := Real.arcsin_le_pi_div_two x
  exact abs_le.mpr ⟨by linarith [Real.pi_le_four], by linarith [Real.pi_le_four]⟩

theorem abs_acos_le (x : ℝ) : |(CMath.acos x : ℝ)| ≤ 4 := by
  have hlow : 0 ≤ (CMath.acos x : ℝ) := Real.arccos_nonneg x
  rw [abs_of_nonneg hlow]
  exact (Real.arccos_le_pi x).trans Real.pi_le_four

/-- The first latitude is an angle up to a half turn. -/
theorem firstLatitude_range (zp w r s2 c2 u v : ℝ) (start : FirstLatitude ℝ)
    (h : firstLatitude zp w r s2 c2 u v = .ok start) : |start.lat| ≤ 4 := by
  unfold firstLatitude at h
  split_ifs at h with hbranch
  · rcases bind_eq_ok _ _ _ h with ⟨sine, _, h⟩
    rcases bind_eq_ok _ _ _ h with ⟨series, _, h⟩
    rcases bind_eq_ok _ _ _ h with ⟨lat, hlat, h⟩
    rcases bind_eq_ok _ _ _ h with ⟨c, _, h⟩
    rw [← Except.ok.inj h, (arcSine_eq_ok _ _ hlat).2]
    exact abs_asin_le _
  · rcases bind_eq_ok _ _ _ h with ⟨cosine, _, h⟩
    rcases bind_eq_ok _ _ _ h with ⟨series, _, h⟩
    rcases bind_eq_ok _ _ _ h with ⟨lat, hlat, h⟩
    rcases bind_eq_ok _ _ _ h with ⟨s, _, h⟩
    rw [← Except.ok.inj h, (arcCosine_eq_ok _ _ hlat).2]
    exact abs_acos_le _

/-- A station whose latitude changes stays within the arc of its meridian. -/
theorem station_moved_meridian (lat lat' lon alt r : ℝ) (hr : 6340000 ≤ r)
    (hlow : r - 6378201 ≤ alt) (hhigh : alt ≤ r - 6355999) :
    dist (point (latLonAltToEcef { lat := lat, lon := lon, alt := alt }))
      (point (latLonAltToEcef { lat := lat', lon := lon, alt := alt }))
        ≤ 1.5 * r * |lat - lat'| := by
  have hE := eccentricitySq_pos (K := ℝ)
  have hE1 := eccentricitySq_lt_one (K := ℝ)
  have hk : ∀ x, |curvatureRadius semiMajorAxis eccentricitySq x + alt| ≤ 1.01 * r := fun x =>
    curvature_add_le r alt x hr (by linarith) (by linarith)
  have hacross := across_moved semiMajorAxis eccentricitySq alt lat' hE.le hE1 alt lat _ hk
  have halong := along_moved semiMajorAxis eccentricitySq alt lat' hE.le hE1 alt lat _ hk
  have hunit := Real.sin_sq_add_cos_sq lon
  rw [sub_self, abs_zero, add_zero] at hacross halong
  rw [dist_point, latLonAltToEcef_meridian, latLonAltToEcef_meridian]
  simp only
  generalize across semiMajorAxis eccentricitySq alt lat = w at *
  generalize along semiMajorAxis eccentricitySq alt lat = z at *
  generalize across semiMajorAxis eccentricitySq alt lat' = w' at *
  generalize along semiMajorAxis eccentricitySq alt lat' = z' at *
  -- Both points are in one meridian plane.
  have hplane : (w * Real.cos lon - w' * Real.cos lon) ^ 2 +
      (w * Real.sin lon - w' * Real.sin lon) ^ 2 + (z - z') ^ 2
        = (w - w') ^ 2 + (z - z') ^ 2 := by
    linear_combination (w - w') ^ 2 * hunit
  rw [mul_assoc] at hacross halong
  rw [hplane, mul_assoc]
  exact plane_near _ _ _ (mul_nonneg (by linarith) (abs_nonneg _)) hacross halong

/-- The distance from the axis hardly exceeds the one from the centre. -/
theorem across_le (alt lat r : ℝ) (hr : 6340000 ≤ r) (hlow : r - 6378201 ≤ alt)
    (hhigh : alt ≤ r - 6355999) : |across semiMajorAxis eccentricitySq alt lat| ≤ 1.1 * r := by
  rcases root_bounds lat with ⟨hroot, _⟩
  have hnormal : normalRadius semiMajorAxis eccentricitySq lat ≤ 6400000 := by
    rw [normalRadius, div_le_iff₀ (by linarith)]
    unfold semiMajorAxis
    linarith
  have hpos := (radii_pos alt lat (by linarith)).1
  rw [across, abs_mul, abs_of_pos hpos]
  exact (mul_le_of_le_one_right hpos.le (Real.abs_cos_le_one _)).trans (by linarith)

/-- A station whose longitude changes stays within the arc of its parallel. -/
theorem station_moved_parallel (lat lon lon' alt r : ℝ) (hr : 6340000 ≤ r)
    (hlow : r - 6378201 ≤ alt) (hhigh : alt ≤ r - 6355999) :
    dist (point (latLonAltToEcef { lat := lat, lon := lon, alt := alt }))
      (point (latLonAltToEcef { lat := lat, lon := lon', alt := alt }))
        ≤ 1.1 * r * |lon - lon'| := by
  have haxis := across_le alt lat r hr hlow hhigh
  rw [dist_point, latLonAltToEcef_meridian, latLonAltToEcef_meridian]
  simp only
  generalize across semiMajorAxis eccentricitySq alt lat = w at *
  generalize along semiMajorAxis eccentricitySq alt lat = z at *
  have hcircle : (w * Real.cos lon - w * Real.cos lon') ^ 2 +
      (w * Real.sin lon - w * Real.sin lon') ^ 2 + (z - z) ^ 2
        = w ^ 2 * ((Real.cos lon - Real.cos lon') ^ 2 + (Real.sin lon - Real.sin lon') ^ 2) := by
    ring
  calc Real.sqrt _ ≤ |w| * |lon - lon'| := by
        rw [hcircle, ← abs_mul, ← Real.sqrt_sq_eq_abs, mul_pow]
        exact Real.sqrt_le_sqrt (mul_le_mul_of_nonneg_left (chord_le lon lon') (sq_nonneg w))
    _ ≤ 1.1 * r * |lon - lon'| := mul_le_mul_of_nonneg_right haxis (abs_nonneg _)

/-- A station whose angles change stays within the arcs that they make. -/
theorem station_moved (p q : LatLonAltPos ℝ) (r : ℝ) (hr : 6340000 ≤ r) (hsame : q.alt = p.alt)
    (hlow : r - 6378201 ≤ p.alt) (hhigh : p.alt ≤ r - 6355999) :
    dist (point (latLonAltToEcef p)) (point (latLonAltToEcef q))
      ≤ 1.5 * r * |p.lat - q.lat| + 1.1 * r * |p.lon - q.lon| := by
  have hmeridian := station_moved_meridian p.lat q.lat p.lon p.alt r hr hlow hhigh
  have hparallel := station_moved_parallel q.lat p.lon q.lon p.alt r hr hlow hhigh
  have hq : q = { lat := q.lat, lon := q.lon, alt := p.alt } := by rw [← hsame]
  rw [← hq] at hparallel
  exact (dist_triangle _ _ _).trans (add_le_add hmeridian hparallel)

variable (single : ℝ → ℝ) (δ : ℝ) (hsingle : ∀ x, |x| ≤ 4 → |single x - x| ≤ δ) (hδ : δ ≤ 1)

include hsingle hδ

theorem latAltStored_near (w2 z2 zp lat alt : ℝ) (h : latAlt w2 z2 zp = .ok (lat, alt))
    (hlat : |lat| ≤ 2) :
    ∃ lat', latAltStored single w2 z2 zp = .ok (lat', alt) ∧ |lat' - lat| ≤ 2 * δ := by
  unfold latAlt at h
  rcases bind_eq_ok _ _ _ h with ⟨w, hw, h⟩
  rcases bind_eq_ok _ _ _ h with ⟨r, hr, h⟩
  rcases bind_eq_ok _ _ _ h with ⟨s2, hs2, h⟩
  rcases bind_eq_ok _ _ _ h with ⟨c2, hc2, h⟩
  rcases bind_eq_ok _ _ _ h with ⟨u, hu, h⟩
  rcases bind_eq_ok _ _ _ h with ⟨a4, ha4, h⟩
  rcases bind_eq_ok _ _ _ h with ⟨start, hstart, h⟩
  have hfirst := hsingle start.lat (firstLatitude_range _ _ _ _ _ _ _ start hstart)
  have hshift := newtonStep_shift w zp (single start.lat) lat alt start h
  -- The step is added to what was stored.
  have hmoved : single start.lat + (lat - start.lat) - lat = single start.lat - start.lat := by
    ring
  generalize single start.lat + (lat - start.lat) = lat₁ at *
  have hsum : |lat₁ - lat| ≤ δ := by rwa [hmoved]
  have hbound : |lat₁| ≤ 4 := by
    have htriangle := abs_sub_abs_le_abs_sub lat₁ lat
    linarith
  refine ⟨single lat₁, ?_, ?_⟩
  · unfold latAltStored
    simp only
    rw [hw, ok_bind, hr, ok_bind, hs2, ok_bind, hc2, ok_bind, hu, ok_bind, ha4, ok_bind, hstart,
      ok_bind, hshift, ok_bind]
  · have htriangle := abs_sub_le (single lat₁) lat₁ lat
    linarith [hsingle lat₁ hbound]

/-- Storing rounds the latitude up to three times, the longitude once, and leaves the
    altitude alone. -/
theorem ecefToLatLonAltStored_near (ecef : EcefPos ℝ) (pos : LatLonAltPos ℝ)
    (h : ecefToLatLonAlt ecef = .ok pos) (hlat : |pos.lat| ≤ 2) :
    ∃ pos', ecefToLatLonAltStored single ecef = .ok pos' ∧ |pos'.lat - pos.lat| ≤ 3 * δ ∧
      |pos'.lon - pos.lon| ≤ δ ∧ pos'.alt = pos.alt := by
  rcases (ecefToLatLonAlt_ok ecef pos).mp h with ⟨lat, hrun, hpos, hlon⟩
  have hnorth : |lat| ≤ 2 := by
    rw [hpos] at hlat
    split_ifs at hlat
    · rwa [mul_neg_one, abs_neg] at hlat
    · exact hlat
  rcases latAltStored_near single δ hsingle hδ _ _ _ lat pos.alt hrun hnorth
    with ⟨lat', hrun', hnear⟩
  have hδ0 : 0 ≤ δ := (abs_nonneg _).trans (hsingle 0 (by norm_num))
  have hlon4 : |pos.lon| ≤ 4 := by
    rcases atan2_range ecef.x ecef.y with ⟨hlo, hhi⟩
    rw [hlon]
    exact abs_le.mpr ⟨by linarith [Real.pi_le_four], hhi.trans Real.pi_le_four⟩
  refine ⟨{ lat := if ecef.z < 0 then single (lat' * -1) else lat'
            lon := single (atan2 ecef.y ecef.x)
            alt := pos.alt }, ?_, ?_, ?_, rfl⟩
  · unfold ecefToLatLonAltStored
    simp only
    rw [hrun', ok_bind]
  · rw [hpos]
    simp only
    split_ifs with hsouth
    · have hbound : |lat' * -1| ≤ 4 := by
        rw [mul_neg_one, abs_neg]
        have htriangle := abs_sub_abs_le_abs_sub lat' lat
        linarith
      have hturned : |lat' * -1 - lat * -1| = |lat' - lat| := by
        rw [← sub_mul, mul_neg_one, abs_neg]
      have htriangle := abs_sub_le (single (lat' * -1)) (lat' * -1) (lat * -1)
      linarith [hsingle (lat' * -1) hbound]
    · linarith
  · rw [hlon] at hlon4 ⊢
    exact hsingle _ hlon4

/-- What is stored for a position far out: an altitude that fits its distance from
    the centre, and coordinates that lead back near it. -/
theorem ecefToLatLonAltStored_back (ecef : EcefPos ℝ) (r : ℝ) (hr : 6340000 ≤ r)
    (hdistance : Real.sqrt (ecef.x ^ 2 + ecef.y ^ 2 + ecef.z ^ 2) = r) :
    ∃ pos, ecefToLatLonAltStored single ecef = .ok pos ∧ r - 6378201 ≤ pos.alt ∧
      pos.alt ≤ r - 6355999 ∧ calcSatToStationRange ecef pos ≤ (2e-10 + 6 * δ) * r + 2e-6 := by
  rcases ecefToLatLonAlt_back ecef r hr hdistance with ⟨plain, hrun, hlat, hlow, hhigh, hrange⟩
  rcases ecefToLatLonAltStored_near single δ hsingle hδ ecef plain hrun hlat
    with ⟨pos, hrun', hnear, hnear', hsame⟩
  have hmoved := station_moved plain pos r hr hsame hlow hhigh
  rw [abs_sub_comm] at hnear hnear'
  have hlat' : 1.5 * r * |plain.lat - pos.lat| ≤ 1.5 * r * (3 * δ) :=
    mul_le_mul_of_nonneg_left hnear (by linarith)
  have hlon' : 1.1 * r * |plain.lon - pos.lon| ≤ 1.1 * r * δ :=
    mul_le_mul_of_nonneg_left hnear' (by linarith)
  have hslack : 0 ≤ r * δ :=
    mul_nonneg (by linarith) ((abs_nonneg _).trans (hsingle 0 (by norm_num)))
  refine ⟨pos, hrun', by rwa [hsame], by rwa [hsame], ?_⟩
  rw [calcSatToStationRange_dist] at hrange ⊢
  have htriangle := dist_triangle (point ecef) (point (latLonAltToEcef plain))
    (point (latLonAltToEcef pos))
  linarith

/-- A position comes back with the errors of the algorithm and of the storing, and its
    altitude is its distance from the centre without the Earth's radius. -/
theorem latLonAltToEcef_stored (ecef : EcefPos ℝ)
    (hfar : 6340000 ≤ Real.sqrt (ecef.x ^ 2 + ecef.y ^ 2 + ecef.z ^ 2)) :
    ∃ pos, ecefToLatLonAltStored single ecef = .ok pos ∧
      |pos.alt - (Real.sqrt (ecef.x ^ 2 + ecef.y ^ 2 + ecef.z ^ 2) - 6367100)| ≤ 11101 ∧
      calcSatToStationRange ecef pos
        ≤ (2e-10 + 6 * δ) * Real.sqrt (ecef.x ^ 2 + ecef.y ^ 2 + ecef.z ^ 2) + 2e-6 := by
  rcases ecefToLatLonAltStored_back single δ hsingle hδ ecef _ hfar rfl
    with ⟨pos, hrun, hlow, hhigh, hrange⟩
  exact ⟨pos, hrun, abs_le.mpr ⟨by linarith, by linarith⟩, hrange⟩

end Error

/-- Rounding to 24 significant bits. -/
noncomputable def toSingle (x : ℝ) : ℝ :=
  round (x * ((2 : ℕ) : ℝ) ^ (23 - Int.log 2 |x|)) / ((2 : ℕ) : ℝ) ^ (23 - Int.log 2 |x|)

theorem toSingle_near (x : ℝ) (hx : |x| ≤ 4) : |toSingle x - x| ≤ 1 / 4194304 := by
  have hlog : Int.log 2 |x| ≤ 2 := by
    rcases (abs_nonneg x).eq_or_lt with hzero | hpos
    · rw [← hzero, Int.log_of_right_le_zero 2 (le_refl 0)]
      norm_num
    · have hfour : ((2 : ℕ) : ℝ) ^ (2 : ℤ) = 4 := by norm_num
      refine (Int.log_mono_right hpos hx).trans_eq ?_
      rw [← hfour, Int.log_zpow (by norm_num)]
  have hscale : 2097152 ≤ ((2 : ℕ) : ℝ) ^ (23 - Int.log 2 |x|) := by
    calc (2097152 : ℝ) = ((2 : ℕ) : ℝ) ^ (21 : ℤ) := by norm_num
      _ ≤ ((2 : ℕ) : ℝ) ^ (23 - Int.log 2 |x|) := zpow_le_zpow_right₀ (by norm_num) (by omega)
  unfold toSingle
  generalize ((2 : ℕ) : ℝ) ^ (23 - Int.log 2 |x|) = scale at *
  have hpos : 0 < scale := lt_of_lt_of_le (by norm_num) hscale
  have hround := abs_sub_round (x * scale)
  have hsplit : round (x * scale) / scale - x = -((x * scale - round (x * scale)) / scale) := by
    field_simp
    ring
  rw [hsplit, abs_neg, abs_div, abs_of_pos hpos, div_le_iff₀ hpos]
  linarith

/-- A position 7000 km from the centre. -/
theorem latLonAltToEcef_stored_example :
    ∃ pos, ecefToLatLonAltStored toSingle { x := (2000000 : ℝ), y := -3000000, z := 6000000 }
        = .ok pos ∧
      calcSatToStationRange { x := (2000000 : ℝ), y := -3000000, z := 6000000 } pos ≤ 11 := by
  rcases latLonAltToEcef_stored toSingle (1 / 4194304) toSingle_near (by norm_num)
    { x := 2000000, y := -3000000, z := 6000000 } (by
      simp only [sqrt_off_axes]
      norm_num) with ⟨pos, hrun, _, hrange⟩
  simp only [sqrt_off_axes] at hrange
  exact ⟨pos, hrun, hrange.trans (by norm_num)⟩

end SimpleDgps
