import SimpleDgps.Domain
import SimpleDgps.Geodesy

/-!
# Geodetic Coordinates

From Earth-fixed coordinates back to latitude, longitude and altitude.

The inverse conversion has no short closed form. `ecefToLatLonAlt` starts from a
series, in the sine of the latitude at low latitudes and in its cosine at high
ones, and improves the result by one Newton step. The terms of the series are
powers of the Earth's size over the distance from the centre, so they are small
for every receiver and large deep inside the Earth. There the sine comes out
larger than one or a denominator vanishes, and the source has no test for
either. The operations here are those of `Domain`, which fail in that case.

How deep is that? A first latitude is `Steep` if it is a point of the unit
circle at least as far from the equator as the direction of the position. Both
series produce one from a distance of 45068 m on, `firstLatitude_sine` and
`firstLatitude_cosine`, and a steep start makes the denominator of the Newton
step positive: `newton_denominator_pos`. The bound is sharp to the metre. It
comes from one polynomial in the sine of the latitude, `sineSeries_le_start`,
and `ecefToLatLonAlt_inside` has a position one metre further in that fails.

Everything but the longitude is computed from the distances to the axis and to
the plane of the equator. This is what `latAlt` is about, and the symmetries of
the conversion follow from it.

## Main definitions

* `firstLatitude`: The latitude by one of the two series.
* `newtonStep`: The corrected latitude, and the altitude.
* `latAlt`: Both, for the northern hemisphere.
* `ecefToLatLonAlt`: Earth-fixed to geodetic coordinates.
* `sineSeries`, `cosineSeries`: The series with their denominators cleared.
* `FirstLatitude.Steep`: What the Newton step needs of its start.

## Theorems

* `sineSeries_le`, `cosineSeries_le`: The series stay in range.
* `firstLatitude_sine`, `firstLatitude_cosine`: They lead to a steep start.
* `newton_denominator_eq`: The denominator of the Newton step in two parts.
* `newton_denominator_pos`: From there the Newton step divides by nothing zero.
* `latAlt_eq`: The computation in terms of two distances.
* `ecefToLatLonAlt_far`: Far from the centre every operation is in its domain.
* `latAlt_equator`: What happens in the plane of the equator.
* `ecefToLatLonAlt_ok`: What the coordinates depend on.
* `ecefToLatLonAlt_defined`: The conversion is defined outside a small ball.
* `ecefToLatLonAlt_symmetric`: The conversion respects the Earth's symmetries.
-/

namespace SimpleDgps

open Toolkit Loop
open CMath (sqrt asin acos atan2)

variable {K : Type} [Field K]

/-! ### The conversion -/

/-- `A1`, which is `A * E2`. -/
def A1 : K := 4.2697672707157535e4

/-- `A2`, which is `A1 * A1`. -/
def A2 : K := 1.8230912546075455e9

/-- `A3`, which is `A1 * E2 / 2`. -/
def A3 : K := 1.4291722289812413e2

/-- `A4`, which is `2.5 * A2`. -/
def A4 : K := 4.5577281365188637e9

/-- `A5`, which is `A1 + A3`. -/
def A5 : K := 4.2840589930055659e4

/-- `A6`, which is `1 - E2`. -/
def A6 : K := 9.9330562000986220e-1

/-- A first latitude, with its cosine, its sine and the square of the sine. -/
structure FirstLatitude (K : Type) where
  lat : K
  c : K
  s : K
  ss : K

variable [LinearOrder K] [CMath K]

/-- The series for the latitude, in its sine near the equator and in its cosine
    near the poles. -/
def firstLatitude (zp w r s2 c2 u v : K) : Except DomainError (FirstLatitude K) :=
  if c2 > 0.3 then do
    let sine ← divide zp r
    let series ← divide (c2 * (A1 + u + s2 * v)) r
    let s := sine * (1 + series)
    let lat ← arcSine s
    let ss := s * s
    let c ← squareRoot (1 - ss)
    .ok { lat := lat, c := c, s := s, ss := ss }
  else do
    let cosine ← divide w r
    let series ← divide (s2 * (A5 - u - c2 * v)) r
    let c := cosine * (1 - series)
    let lat ← arcCosine c
    let ss := 1 - c * c
    let s ← squareRoot ss
    .ok { lat := lat, c := c, s := s, ss := ss }

/-- One Newton step from the first latitude, and the altitude. -/
def newtonStep (w zp : K) (start : FirstLatitude K) : Except DomainError (K × K) := do
  let g := 1 - eccentricitySq * start.ss
  let root ← squareRoot g
  let rg ← divide semiMajorAxis root
  let rf := A6 * rg
  let u := w - rg * start.c
  let v := zp - rf * start.s
  let f := start.c * u + start.s * v
  let m := start.c * v - start.s * u
  let radius ← divide rf g
  let p ← divide m (radius + f)
  .ok (start.lat + p, f + m * p / 2.0)

/-- Latitude and altitude from the squared distance to the axis, the squared
    distance to the equator and that distance itself. -/
def latAlt (w2 z2 zp : K) : Except DomainError (K × K) := do
  let w ← squareRoot w2
  let r2 := w2 + z2
  let r ← squareRoot r2
  let s2 ← divide z2 r2
  let c2 ← divide w2 r2
  let u ← divide A2 r
  let a4 ← divide A4 r
  let start ← firstLatitude zp w r s2 c2 u (A3 - a4)
  newtonStep w zp start

def ecefToLatLonAlt (ecef : EcefPos K) : Except DomainError (LatLonAltPos K) := do
  let x := ecef.x
  let y := ecef.y
  let z := ecef.z
  let (lat, alt) ← latAlt (x * x + y * y) (z * z) |z|
  -- The latitude so far is that of the northern hemisphere.
  let lat := if z < 0 then lat * -1 else lat
  .ok { lat := lat, lon := atan2 y x, alt := alt }

/-! ### The series -/

section Series

omit [CMath K]

variable [IsStrictOrderedRing K]

theorem A1_bounds : (42697.67 : K) ≤ A1 ∧ (A1 : K) ≤ 42697.673 := by
  unfold A1
  norm_num

theorem A2_bounds : (1823091254 : K) ≤ A2 ∧ (A2 : K) ≤ 1823091255 := by
  unfold A2
  norm_num

theorem A3_bounds : (0 : K) ≤ A3 ∧ (A3 : K) ≤ 143 := by
  unfold A3
  norm_num

theorem A4_bounds : (4557728136 : K) ≤ A4 ∧ (A4 : K) ≤ 4557728137 := by
  unfold A4
  norm_num

theorem A5_bounds : (42840 : K) ≤ A5 ∧ (A5 : K) ≤ 42841 := by
  unfold A5
  norm_num

/-- The sum in the sine series, with the denominators cleared. -/
def sineSeries (r σ : K) : K := (A1 + A3 * σ ^ 2) * r + (A2 - A4 * σ ^ 2)

/-- The sum in the cosine series, with the denominators cleared. -/
def cosineSeries (r κ : K) : K := (A5 - A3 * κ ^ 2) * r - (A2 - A4 * κ ^ 2)

theorem sineSeries_nonneg (r σ : K) (hr : 45068 ≤ r) (hσ : σ ^ 2 ≤ 0.7) : 0 ≤ sineSeries r σ := by
  rcases A1_bounds (K := K) with ⟨h1, _⟩
  rcases A2_bounds (K := K) with ⟨h2, _⟩
  rcases A3_bounds (K := K) with ⟨h3, _⟩
  rcases A4_bounds (K := K) with ⟨_, h4⟩
  have hsq : (0 : K) ≤ σ ^ 2 := sq_nonneg σ
  have hfirst : 42697 * 45068 ≤ (A1 + A3 * σ ^ 2) * r := by
    have hcoeff : 42697 ≤ A1 + A3 * σ ^ 2 := by
      have := mul_nonneg h3 hsq
      linarith
    exact mul_le_mul hcoeff hr (by norm_num) (le_trans (by norm_num) hcoeff)
  have hsecond : A4 * σ ^ 2 ≤ 4557728137 * 0.7 :=
    mul_le_mul h4 hσ hsq (by norm_num)
  unfold sineSeries
  norm_num at hsecond
  linarith

/-- At the smallest distance the bound is a polynomial in the sine of the
    latitude that comes close to zero once, near 0.57809. -/
theorem sineSeries_le_start (σ : K) (hσ : 0 ≤ σ) (hσ' : σ ≤ 0.84) :
    σ * (1 + σ) * (3747389982 - 4551283412 * σ ^ 2) ≤ 45068 ^ 2 := by
  -- Up to a linear remainder the difference is a square times this factor.
  have hfactor : (0 : K) ≤ 4551283412 * σ ^ 2 + 9813386267.28616 * σ + 6077666432 := by
    positivity
  have hsquare := mul_nonneg (sq_nonneg (σ - 0.57809)) hfactor
  linarith

/-- The sine series stays below one, with room for the factor it gets. -/
theorem sineSeries_le (r σ : K) (hr : 45068 ≤ r) (hσ : 0 ≤ σ) (hσ7 : σ ^ 2 ≤ 0.7) :
    σ * (1 + σ) * sineSeries r σ ≤ r ^ 2 := by
  rcases A1_bounds (K := K) with ⟨_, h1⟩
  rcases A2_bounds (K := K) with ⟨_, h2⟩
  rcases A3_bounds (K := K) with ⟨_, h3⟩
  rcases A4_bounds (K := K) with ⟨h4, _⟩
  have hsq : (0 : K) ≤ σ ^ 2 := sq_nonneg σ
  have hpos : (0 : K) ≤ r := le_trans (by norm_num) hr
  have hσ' : σ ≤ 0.84 := by
    refine le_of_sq_le_sq ?_ (by norm_num)
    exact hσ7.trans (by norm_num)
  have hβ : 0 ≤ σ * (1 + σ) := by positivity
  have hβ' : σ * (1 + σ) ≤ 1.5456 := by
    calc σ * (1 + σ) ≤ 0.84 * (1 + 0.84) := by gcongr
      _ = 1.5456 := by norm_num
  have hcoeff : A1 + A3 * σ ^ 2 ≤ 42697.673 + 143 * σ ^ 2 :=
    add_le_add h1 (mul_le_mul_of_nonneg_right h3 hsq)
  have hseries : sineSeries r σ
      ≤ (42697.673 + 143 * σ ^ 2) * r + (1823091255 - 4557728136 * σ ^ 2) :=
    add_le_add (mul_le_mul_of_nonneg_right hcoeff hpos)
      (sub_le_sub h2 (mul_le_mul_of_nonneg_right h4 hsq))
  -- Beyond the smallest distance the square grows faster than the series.
  have hslope : σ * (1 + σ) * (42697.673 + 143 * σ ^ 2) ≤ 2 * 45068 := by
    calc σ * (1 + σ) * (42697.673 + 143 * σ ^ 2)
        ≤ 1.5456 * (42697.673 + 143 * 0.7) := by gcongr
      _ ≤ 2 * 45068 := by norm_num
  have hsmallest : (42697.673 + 143 * σ ^ 2) * 45068 + (1823091255 - 4557728136 * σ ^ 2)
      ≤ 3747389982 - 4551283412 * σ ^ 2 := by
    norm_num
    linarith
  have hstart := sineSeries_le_start σ hσ hσ'
  calc σ * (1 + σ) * sineSeries r σ
      ≤ σ * (1 + σ) * ((42697.673 + 143 * σ ^ 2) * r + (1823091255 - 4557728136 * σ ^ 2)) :=
        mul_le_mul_of_nonneg_left hseries hβ
    _ = σ * (1 + σ) * ((42697.673 + 143 * σ ^ 2) * 45068 + (1823091255 - 4557728136 * σ ^ 2)) +
          σ * (1 + σ) * (42697.673 + 143 * σ ^ 2) * (r - 45068) := by ring
    _ ≤ σ * (1 + σ) * (3747389982 - 4551283412 * σ ^ 2) +
          σ * (1 + σ) * (42697.673 + 143 * σ ^ 2) * (r - 45068) :=
        add_le_add_left (mul_le_mul_of_nonneg_left hsmallest hβ) _
    _ ≤ 45068 ^ 2 + 2 * 45068 * (r - 45068) :=
        add_le_add hstart (mul_le_mul_of_nonneg_right hslope (sub_nonneg.mpr hr))
    _ ≤ r ^ 2 := by linarith [sq_nonneg (r - 45068)]

theorem cosineSeries_nonneg (r κ : K) (hr : 45068 ≤ r) (hκ : κ ^ 2 ≤ 0.3) :
    0 ≤ cosineSeries r κ := by
  rcases A2_bounds (K := K) with ⟨_, h2⟩
  rcases A3_bounds (K := K) with ⟨h3, h3'⟩
  rcases A4_bounds (K := K) with ⟨h4, _⟩
  rcases A5_bounds (K := K) with ⟨h5, _⟩
  have hsq : (0 : K) ≤ κ ^ 2 := sq_nonneg κ
  have hcoeff : 42797 ≤ A5 - A3 * κ ^ 2 := by
    have hsmall : A3 * κ ^ 2 ≤ 143 * 0.3 := mul_le_mul h3' hκ hsq (by norm_num)
    linarith
  have hfirst : 42797 * 45068 ≤ (A5 - A3 * κ ^ 2) * r :=
    mul_le_mul hcoeff hr (by norm_num) (le_trans (by norm_num) hcoeff)
  have hsecond : 0 ≤ A4 * κ ^ 2 := mul_nonneg (le_trans (by norm_num) h4) hsq
  unfold cosineSeries
  linarith

/-- The cosine series stays below one. -/
theorem cosineSeries_le (r κ : K) (hr : 45068 ≤ r) (hκ : κ ^ 2 ≤ 0.3) :
    cosineSeries r κ ≤ r ^ 2 := by
  rcases A2_bounds (K := K) with ⟨h2, _⟩
  rcases A3_bounds (K := K) with ⟨h3, _⟩
  rcases A4_bounds (K := K) with ⟨_, h4⟩
  rcases A5_bounds (K := K) with ⟨_, h5⟩
  have hsq : (0 : K) ≤ κ ^ 2 := sq_nonneg κ
  have hpos : (0 : K) ≤ r := le_trans (by norm_num) hr
  have hcoeff : A5 - A3 * κ ^ 2 ≤ 45068 := by
    have hnonneg := mul_nonneg h3 hsq
    linarith
  have hsecond : A4 * κ ^ 2 ≤ 4557728137 * 0.3 := mul_le_mul h4 hκ hsq (by norm_num)
  have hfirst : (A5 - A3 * κ ^ 2) * r ≤ r * r :=
    mul_le_mul_of_nonneg_right (hcoeff.trans hr) hpos
  unfold cosineSeries
  rw [sq r]
  linarith

end Series

/-! ### Far from the centre -/

section Far

variable [IsStrictOrderedRing K] [LawfulCMath K]

/-- The first latitude is a point of the unit circle that lies at least as far
    from the equator as the direction `(κ, σ)` of the position. -/
structure FirstLatitude.Steep (n : FirstLatitude K) (σ κ : K) : Prop where
  c_nonneg : 0 ≤ n.c
  unit : n.c ^ 2 + n.s ^ 2 = 1
  ss_eq : n.ss = n.s ^ 2
  c_le : n.c ≤ κ
  s_ge : σ ≤ n.s

omit [CMath K] [LawfulCMath K] in
/-- A coordinate on the unit circle is at most one. -/
theorem le_one_of_unit (a b : K) (hunit : a ^ 2 + b ^ 2 = 1) : a ≤ 1 := by
  refine le_of_sq_le_sq ?_ zero_le_one
  rw [one_pow, ← hunit]
  exact le_add_of_nonneg_right (sq_nonneg b)

omit [CMath K] [LawfulCMath K] in
/-- A series that is not too large leads away from the equator, but not past
    the pole. -/
theorem sine_range (σ κ q : K) (hσ : 0 ≤ σ) (hunit : σ ^ 2 + κ ^ 2 = 1) (hq : 0 ≤ q)
    (hle : σ * (1 + σ) * q ≤ 1) : σ ≤ σ * (1 + κ ^ 2 * q) ∧ σ * (1 + κ ^ 2 * q) ≤ 1 := by
  have hσ1 : σ ≤ 1 := le_one_of_unit σ κ hunit
  have hs : σ * (1 + κ ^ 2 * q) = σ + (1 - σ) * (σ * (1 + σ) * q) := by
    rw [← eq_sub_iff_add_eq'] at hunit
    rw [hunit]
    ring
  have hnonneg : 0 ≤ σ * (1 + σ) * q := by positivity
  rw [hs]
  constructor
  · exact le_add_of_nonneg_right (mul_nonneg (sub_nonneg.mpr hσ1) hnonneg)
  · have hprod := mul_le_mul_of_nonneg_left hle (sub_nonneg.mpr hσ1)
    linarith

/-- The start by the sine series. -/
theorem firstLatitude_sine (r σ κ : K) (hr : 45068 ≤ r) (hσ : 0 ≤ σ) (hκ : 0 ≤ κ)
    (hunit : σ ^ 2 + κ ^ 2 = 1) (hbranch : κ ^ 2 > 0.3) :
    ∃ n, firstLatitude (r * σ) (r * κ) r (σ ^ 2) (κ ^ 2) (A2 / r) (A3 - A4 / r) = .ok n ∧
      n.Steep σ κ := by
  have hpos : (0 : K) < r := lt_of_lt_of_le (by norm_num) hr
  have hσ7 : σ ^ 2 ≤ 0.7 := by
    norm_num at hbranch ⊢
    linarith
  let q := sineSeries r σ / r ^ 2
  have hq : 0 ≤ q := div_nonneg (sineSeries_nonneg r σ hr hσ7) (sq_nonneg r)
  have hle : σ * (1 + σ) * q ≤ 1 := by
    rw [← mul_div_assoc, div_le_one (by positivity)]
    exact sineSeries_le r σ hr hσ hσ7
  rcases sine_range σ κ q hσ hunit hq hle with ⟨hlow, hhigh⟩
  let s := σ * (1 + κ ^ 2 * q)
  have hs : r * σ / r * (1 + κ ^ 2 * (A1 + A2 / r + σ ^ 2 * (A3 - A4 / r)) / r) = s := by
    simp only [s, q, sineSeries]
    field_simp
    ring
  have hsq : 0 ≤ 1 - s * s := sub_nonneg.mpr (mul_le_one₀ hhigh (hσ.trans hlow) hhigh)
  refine ⟨{ lat := asin s, c := sqrt (1 - s * s), s := s, ss := s * s }, ?_, ?_⟩
  · unfold firstLatitude
    rw [if_pos hbranch, divide_ok _ _ hpos.ne', ok_bind, divide_ok _ _ hpos.ne', ok_bind]
    simp only [hs]
    rw [arcSine_ok s ⟨by linarith, hhigh⟩, ok_bind, squareRoot_ok _ hsq, ok_bind]
  · have hroot : sqrt (1 - s * s) ^ 2 = 1 - s * s := LawfulCMath.sq_sqrt _ hsq
    refine ⟨LawfulCMath.sqrt_nonneg _, ?_, ?_, ?_, hlow⟩
    · rw [hroot]
      ring
    · rw [sq]
    · -- The cosine falls as the sine rises.
      have hrise : σ * σ ≤ s * s := mul_self_le_mul_self hσ hlow
      refine le_of_sq_le_sq ?_ hκ
      rw [hroot]
      linarith

/-- The start by the cosine series. -/
theorem firstLatitude_cosine (r σ κ : K) (hr : 45068 ≤ r) (hκ : 0 ≤ κ)
    (hunit : σ ^ 2 + κ ^ 2 = 1) (hbranch : ¬κ ^ 2 > 0.3) :
    ∃ n, firstLatitude (r * σ) (r * κ) r (σ ^ 2) (κ ^ 2) (A2 / r) (A3 - A4 / r) = .ok n ∧
      n.Steep σ κ := by
  have hpos : (0 : K) < r := lt_of_lt_of_le (by norm_num) hr
  have hκ3 : κ ^ 2 ≤ 0.3 := not_lt.mp hbranch
  let q := cosineSeries r κ / r ^ 2
  have hq : 0 ≤ q := div_nonneg (cosineSeries_nonneg r κ hr hκ3) (sq_nonneg r)
  have hle : q ≤ 1 := (div_le_one (by positivity)).mpr (cosineSeries_le r κ hr hκ3)
  let c := κ * (1 - σ ^ 2 * q)
  have hc : r * κ / r * (1 - σ ^ 2 * (A5 - A2 / r - κ ^ 2 * (A3 - A4 / r)) / r) = c := by
    simp only [c, q, cosineSeries]
    field_simp
    ring
  have hprod : 0 ≤ σ ^ 2 * q := mul_nonneg (sq_nonneg σ) hq
  have hprod1 : σ ^ 2 * q ≤ 1 := by
    have hσ1 : σ ^ 2 ≤ 1 := by linarith [sq_nonneg κ]
    calc σ ^ 2 * q ≤ 1 * 1 := mul_le_mul hσ1 hle hq zero_le_one
      _ = 1 := one_mul 1
  have hlow : 0 ≤ c := mul_nonneg hκ (by linarith)
  have hhigh : c ≤ κ := mul_le_of_le_one_right hκ (by linarith)
  have hκ1 : κ ≤ 1 := le_one_of_unit κ σ ((add_comm _ _).trans hunit)
  have hc1 : c ≤ 1 := hhigh.trans hκ1
  have hsq : 0 ≤ 1 - c * c := sub_nonneg.mpr (mul_le_one₀ hc1 hlow hc1)
  refine ⟨{ lat := acos c, c := c, s := sqrt (1 - c * c), ss := 1 - c * c }, ?_, ?_⟩
  · unfold firstLatitude
    rw [if_neg hbranch, divide_ok _ _ hpos.ne', ok_bind, divide_ok _ _ hpos.ne', ok_bind]
    simp only [hc]
    rw [arcCosine_ok c ⟨by linarith, hc1⟩, ok_bind, squareRoot_ok _ hsq, ok_bind]
  · have hroot : sqrt (1 - c * c) ^ 2 = 1 - c * c := LawfulCMath.sq_sqrt _ hsq
    refine ⟨hlow, ?_, hroot.symm, hhigh, ?_⟩
    · rw [hroot]
      ring
    · -- The sine rises as the cosine falls.
      have hfall : c * c ≤ κ * κ := mul_self_le_mul_self hlow hhigh
      refine le_of_sq_le_sq ?_ (LawfulCMath.sqrt_nonneg _)
      rw [hroot]
      linarith

omit [CMath K] [LawfulCMath K] in
/-- The cosine of the first latitude is at most that of the angle between it
    and the direction of the position. -/
theorem cos_le_direction (σ κ : K) (hσ : 0 ≤ σ) (hunit : σ ^ 2 + κ ^ 2 = 1) (n : FirstLatitude K)
    (hn : n.Steep σ κ) : n.c ≤ n.c * κ + n.s * σ := by
  have hκ : 0 ≤ κ := hn.c_nonneg.trans hn.c_le
  have hc1 : n.c ≤ 1 := le_one_of_unit n.c n.s hn.unit
  have hκ1 : κ ≤ 1 := le_one_of_unit κ σ ((add_comm _ _).trans hunit)
  have hfall : 1 - κ ≤ σ ^ 2 := by
    have hκκ : κ ^ 2 ≤ κ := by
      rw [sq]
      exact mul_le_of_le_one_left hκ hκ1
    linarith
  -- What the cosine loses at `κ` the sine gains at `σ`.
  have hgain : n.c * (1 - κ) ≤ n.s * σ :=
    calc n.c * (1 - κ) ≤ 1 * (1 - κ) :=
          mul_le_mul_of_nonneg_right hc1 (sub_nonneg.mpr hκ1)
      _ ≤ σ * σ := by rw [one_mul, ← sq]; exact hfall
      _ ≤ n.s * σ := mul_le_mul_of_nonneg_right hn.s_ge hσ
  linarith

omit [LinearOrder K] [IsStrictOrderedRing K] [CMath K] [LawfulCMath K] in
/-- The denominator of the Newton step in two parts: one that grows towards the
    pole, and the distance itself less what the flattening takes away. -/
theorem newton_denominator_eq (r σ κ h a c s : K) (hunit : c ^ 2 + s ^ 2 = 1) :
    A6 * (a / h) / h ^ 2 +
      (c * (r * κ - a / h * c) + s * (r * σ - A6 * (a / h) * s))
      = A6 * (a / h) * (1 / h ^ 2 - 1) +
        (r * (c * κ + s * σ) - (1 - A6) * (a / h * c) * c) := by
  have hs2 : s ^ 2 = 1 - c ^ 2 := by rw [← hunit, add_sub_cancel_left]
  calc A6 * (a / h) / h ^ 2 + (c * (r * κ - a / h * c) + s * (r * σ - A6 * (a / h) * s))
      = A6 * (a / h) / h ^ 2 + r * (c * κ + s * σ) - a / h * (c ^ 2 + A6 * s ^ 2) := by ring
    _ = _ := by
      rw [hs2]
      ring

omit [CMath K] [LawfulCMath K] in
/-- The foot of the normal is no further from the axis than the equator. -/
theorem normal_cut_le (c s h : K) (hunit : c ^ 2 + s ^ 2 = 1) (hh : 0 < h)
    (hg : h ^ 2 = 1 - eccentricitySq * s ^ 2) : semiMajorAxis / h * c ≤ semiMajorAxis := by
  have hcs : c ^ 2 = 1 - s ^ 2 := by rw [← hunit, add_sub_cancel_right]
  have hch : c ≤ h := by
    refine le_of_sq_le_sq ?_ hh.le
    rw [hcs, hg]
    exact sub_le_sub_left (mul_le_of_le_one_left (sq_nonneg _) eccentricitySq_lt_one.le) 1
  rw [div_mul_eq_mul_div, div_le_iff₀ hh]
  exact mul_le_mul_of_nonneg_left hch semiMajorAxis_pos.le

omit [CMath K] [LawfulCMath K] in
/-- What divides in the Newton step, for a root `h` of `g`: the radius of
    curvature along the meridian, and the distance of the position from the
    surface along the normal of the first latitude. -/
theorem newton_denominator_pos (r σ κ h : K) (hr : 45068 ≤ r) (hσ : 0 ≤ σ)
    (hunit : σ ^ 2 + κ ^ 2 = 1) (n : FirstLatitude K) (hn : n.Steep σ κ) (hh : 0 < h)
    (hg : h ^ 2 = 1 - eccentricitySq * n.s ^ 2) :
    0 < A6 * (semiMajorAxis / h) / h ^ 2 +
      (n.c * (r * κ - semiMajorAxis / h * n.c) +
        n.s * (r * σ - A6 * (semiMajorAxis / h) * n.s)) := by
  have he := eccentricitySq_pos (K := K)
  have h6 : (0 : K) < A6 ∧ 0 ≤ 1 - (A6 : K) := by
    unfold A6
    norm_num
  have hflat : (semiMajorAxis : K) * (1 - A6) < 45068 := by
    unfold semiMajorAxis A6
    norm_num
  have hR : 0 < semiMajorAxis / h := div_pos semiMajorAxis_pos hh
  have hle1 : h ^ 2 ≤ 1 := by
    rw [hg]
    exact sub_le_self 1 (mul_nonneg he.le (sq_nonneg _))
  have hcurve : 0 ≤ 1 / h ^ 2 - 1 := by
    rw [sub_nonneg, one_le_div (by positivity)]
    exact hle1
  have hcut := normal_cut_le n.c n.s h hn.unit hh hg
  have hdir := cos_le_direction σ κ hσ hunit n hn
  have hrest : r * n.c - semiMajorAxis * (1 - A6) * n.c
      ≤ r * (n.c * κ + n.s * σ) - (1 - A6) * (semiMajorAxis / h * n.c) * n.c := by
    have hleft := mul_le_mul_of_nonneg_left hdir (le_trans (by norm_num) hr : (0 : K) ≤ r)
    have hright := mul_le_mul_of_nonneg_right
      (mul_le_mul_of_nonneg_left hcut h6.2) hn.c_nonneg
    linarith
  rw [newton_denominator_eq r σ κ h semiMajorAxis n.c n.s hn.unit]
  rcases hn.c_nonneg.eq_or_lt with hc0 | hcpos
  · -- At the pole the first term is positive.
    have hs1 : n.s ^ 2 = 1 := by rw [← hn.unit, ← hc0, zero_pow two_ne_zero, zero_add]
    have hstrict : 0 < 1 / h ^ 2 - 1 := by
      rw [sub_pos, one_lt_div (by positivity), hg, hs1, mul_one]
      exact sub_lt_self 1 he
    rw [← hc0, mul_zero, mul_zero, sub_zero] at hrest
    have hfirst := mul_pos (mul_pos h6.1 hR) hstrict
    rw [← hc0]
    linarith
  · -- Elsewhere the distance exceeds what the flattening takes away.
    have hgap : 0 < (r - semiMajorAxis * (1 - A6)) * n.c :=
      mul_pos (sub_pos.mpr (lt_of_lt_of_le hflat hr)) hcpos
    have hfirst := mul_nonneg (mul_nonneg h6.1.le hR.le) hcurve
    linarith

/-- The Newton step divides by nothing that is zero. -/
theorem newtonStep_far (r σ κ : K) (hr : 45068 ≤ r) (hσ : 0 ≤ σ) (hunit : σ ^ 2 + κ ^ 2 = 1)
    (n : FirstLatitude K) (hn : n.Steep σ κ) : ∃ q, newtonStep (r * κ) (r * σ) n = .ok q := by
  have hs1 : n.s ^ 2 ≤ 1 := by
    rw [← hn.unit]
    exact le_add_of_nonneg_left (sq_nonneg _)
  have hg : (0 : K) < 1 - eccentricitySq * n.ss := by
    have hle := mul_le_of_le_one_right (eccentricitySq_pos (K := K)).le hs1
    rw [hn.ss_eq]
    linarith [eccentricitySq_lt_one (K := K)]
  have hroot := sqrt_pos _ hg
  have hsq : sqrt (1 - eccentricitySq * n.ss) ^ 2 = 1 - eccentricitySq * n.ss :=
    LawfulCMath.sq_sqrt _ hg.le
  have hdenominator := newton_denominator_pos r σ κ _ hr hσ hunit n hn hroot
    (by rw [hsq, hn.ss_eq])
  rw [hsq] at hdenominator
  unfold newtonStep
  simp only
  rw [squareRoot_ok _ hg.le, ok_bind, divide_ok _ _ hroot.ne', ok_bind, divide_ok _ _ hg.ne',
    ok_bind, divide_ok _ _ hdenominator.ne', ok_bind]
  exact ⟨_, rfl⟩

/-- The computation from the distance `w` to the axis and the distance `r` to
    the centre. -/
theorem latAlt_eq (w zp r : K) (hw : 0 ≤ w) (hr : 0 < r) (hr2 : r ^ 2 = w ^ 2 + zp ^ 2) :
    latAlt (w ^ 2) (zp ^ 2) zp
      = firstLatitude zp w r ((zp / r) ^ 2) ((w / r) ^ 2) (A2 / r) (A3 - A4 / r) >>=
          newtonStep w zp := by
  have hr2pos : w ^ 2 + zp ^ 2 ≠ 0 := by
    rw [← hr2]
    positivity
  have hs2 : zp ^ 2 / (w ^ 2 + zp ^ 2) = (zp / r) ^ 2 := by rw [div_pow, hr2]
  have hc2 : w ^ 2 / (w ^ 2 + zp ^ 2) = (w / r) ^ 2 := by rw [div_pow, hr2]
  have hroot : squareRoot (w ^ 2 + zp ^ 2) = .ok r := by rw [← hr2, squareRoot_sq r hr.le]
  unfold latAlt
  simp only
  rw [squareRoot_sq w hw, ok_bind, hroot, ok_bind, divide_ok _ _ hr2pos, ok_bind,
    divide_ok _ _ hr2pos, ok_bind, divide_ok _ _ hr.ne', ok_bind, divide_ok _ _ hr.ne', ok_bind,
    hs2, hc2]

/-- Latitude and altitude come out for every position far enough from the
    centre. -/
theorem latAlt_far (w zp : K) (hw : 0 ≤ w) (hz : 0 ≤ zp) (hfar : 45068 ^ 2 ≤ w ^ 2 + zp ^ 2) :
    ∃ q, latAlt (w ^ 2) (zp ^ 2) zp = .ok q := by
  let r := sqrt (w ^ 2 + zp ^ 2)
  have hr2 : r ^ 2 = w ^ 2 + zp ^ 2 := LawfulCMath.sq_sqrt _ (by positivity)
  have hr : 45068 ≤ r := by
    refine le_of_sq_le_sq ?_ (LawfulCMath.sqrt_nonneg _)
    rw [hr2]
    exact hfar
  have hpos : (0 : K) < r := lt_of_lt_of_le (by norm_num) hr
  -- The direction of the position.
  have hwr : r * (w / r) = w := mul_div_cancel₀ w hpos.ne'
  have hzr : r * (zp / r) = zp := mul_div_cancel₀ zp hpos.ne'
  have hσ : 0 ≤ zp / r := div_nonneg hz hpos.le
  have hκ : 0 ≤ w / r := div_nonneg hw hpos.le
  have hunit : (zp / r) ^ 2 + (w / r) ^ 2 = 1 := by
    rw [div_pow, div_pow, ← add_div, hr2, add_comm (zp ^ 2)]
    exact div_self (by rw [← hr2]; positivity)
  have hstart : ∃ n, firstLatitude zp w r ((zp / r) ^ 2) ((w / r) ^ 2) (A2 / r) (A3 - A4 / r)
      = .ok n ∧ n.Steep (zp / r) (w / r) := by
    by_cases hbranch : (w / r) ^ 2 > 0.3
    · have h := firstLatitude_sine r (zp / r) (w / r) hr hσ hκ hunit hbranch
      rwa [hzr, hwr] at h
    · have h := firstLatitude_cosine r (zp / r) (w / r) hr hκ hunit hbranch
      rwa [hzr, hwr] at h
  rcases hstart with ⟨n, hfirst, hn⟩
  rcases newtonStep_far r (zp / r) (w / r) hr hσ hunit n hn with ⟨q, hq⟩
  rw [hzr, hwr] at hq
  refine ⟨q, ?_⟩
  rw [latAlt_eq w zp r hw hpos hr2, hfirst, ok_bind]
  exact hq

/-- Every position far enough from the centre has geodetic coordinates. -/
theorem ecefToLatLonAlt_far (ecef : EcefPos K)
    (hfar : 45068 ^ 2 ≤ ecef.x ^ 2 + ecef.y ^ 2 + ecef.z ^ 2) :
    ∃ pos, ecefToLatLonAlt ecef = .ok pos := by
  let w := sqrt (ecef.x ^ 2 + ecef.y ^ 2)
  have hw2 : w ^ 2 = ecef.x * ecef.x + ecef.y * ecef.y := by
    rw [← sq, ← sq]
    exact LawfulCMath.sq_sqrt _ (by positivity)
  have hz2 : |ecef.z| ^ 2 = ecef.z * ecef.z := by rw [sq_abs, sq]
  rcases latAlt_far w |ecef.z| (LawfulCMath.sqrt_nonneg _) (abs_nonneg _)
    (by rw [hw2, hz2, ← sq, ← sq, ← sq]; exact hfar) with ⟨q, hq⟩
  rw [hw2, hz2] at hq
  unfold ecefToLatLonAlt
  simp only
  rw [hq, ok_bind]
  exact ⟨_, rfl⟩

end Far

/-! ### The equator and the centre -/

section Equator

variable [IsStrictOrderedRing K] [LawfulCMath K]

theorem sqrt_one : sqrt (1 : K) = 1 := by
  have h := sqrt_sq_eq_abs (1 : K)
  rwa [one_pow, abs_one] at h

/-- On the equator the first latitude is zero. -/
theorem firstLatitude_equator (w r c2 u v : K) (hr : r ≠ 0) (hbranch : c2 > 0.3) :
    firstLatitude 0 w r 0 c2 u v = .ok { lat := asin 0, c := 1, s := 0, ss := 0 } := by
  unfold firstLatitude
  rw [if_pos hbranch, divide_ok _ _ hr, ok_bind, divide_ok _ _ hr, ok_bind]
  simp only [zero_div, zero_mul, mul_zero, sub_zero]
  rw [arcSine_ok 0 ⟨by norm_num, by norm_num⟩, ok_bind, squareRoot_ok _ zero_le_one, sqrt_one,
    ok_bind]

/-- So is its correction, if there is one. -/
theorem newtonStep_equator (w : K) :
    newtonStep w 0 { lat := asin 0, c := 1, s := 0, ss := 0 }
      = if w = semiMajorAxis * (1 - A6) then .error .division
        else .ok (asin 0, w - semiMajorAxis) := by
  have hzero : A6 * semiMajorAxis + (w - semiMajorAxis) = 0 ↔ w = semiMajorAxis * (1 - A6) := by
    rw [← sub_eq_zero (a := w)]
    ring_nf
  unfold newtonStep
  simp only [mul_zero, sub_zero]
  rw [squareRoot_ok _ zero_le_one, sqrt_one, ok_bind, divide_ok _ _ one_ne_zero, ok_bind,
    divide_ok _ _ one_ne_zero, ok_bind]
  simp only [div_one, mul_one, one_mul, zero_mul, add_zero, sub_zero, zero_div]
  unfold divide
  by_cases hw : w = semiMajorAxis * (1 - A6)
  · rw [if_pos hw, if_pos (hzero.mpr hw), error_bind]
  · rw [if_neg hw, if_neg (mt hzero.mp hw), ok_bind, zero_div, add_zero]

/-- In the plane of the equator the computation fails at one distance from the
    axis, where the Newton step divides by zero. -/
theorem latAlt_equator (w : K) (hw : 0 < w) :
    latAlt (w ^ 2) (0 ^ 2) 0
      = if w = semiMajorAxis * (1 - A6) then .error .division
        else .ok (asin 0, w - semiMajorAxis) := by
  have hbranch : (w / w) ^ 2 > (0.3 : K) := by
    rw [div_self hw.ne', one_pow]
    norm_num
  rw [latAlt_eq w 0 w hw.le hw (by rw [zero_pow two_ne_zero, add_zero]), zero_div,
    zero_pow two_ne_zero, firstLatitude_equator w w _ _ _ hw.ne' hbranch, ok_bind,
    newtonStep_equator]

omit [IsStrictOrderedRing K] [LawfulCMath K] in
/-- At the centre there is no direction. -/
theorem latAlt_centre : latAlt (0 : K) 0 0 = .error .division := by
  unfold latAlt
  rw [squareRoot_ok 0 (le_refl 0), ok_bind]
  simp only [add_zero]
  rw [squareRoot_ok 0 (le_refl 0), ok_bind]
  unfold divide
  rw [if_pos rfl, error_bind]

/-- A position in the plane of the equator has latitude zero. -/
theorem latAlt_plane (w2 lat alt : K) (hw2 : 0 ≤ w2) (h : latAlt w2 0 0 = .ok (lat, alt)) :
    lat = asin 0 := by
  rcases hw2.eq_or_lt with hzero | hpos
  · rw [← hzero, latAlt_centre] at h
    exact absurd h (by simp only [reduceCtorEq, not_false_eq_true])
  · have hroot := LawfulCMath.sq_sqrt w2 hw2
    have hequator := latAlt_equator (sqrt w2) (sqrt_pos w2 hpos)
    rw [hroot, zero_pow two_ne_zero, h] at hequator
    split_ifs at hequator
    exact congrArg Prod.fst (Except.ok.inj hequator)

end Equator

/-! ### Symmetries -/

/-- The coordinates depend on the distance to the axis, the distance to the
    equator and the hemisphere, apart from the longitude. -/
theorem ecefToLatLonAlt_ok (ecef : EcefPos K) (pos : LatLonAltPos K) :
    ecefToLatLonAlt ecef = .ok pos ↔ ∃ lat,
      latAlt (ecef.x * ecef.x + ecef.y * ecef.y) (ecef.z * ecef.z) |ecef.z| = .ok (lat, pos.alt) ∧
      pos.lat = (if ecef.z < 0 then lat * -1 else lat) ∧ pos.lon = atan2 ecef.y ecef.x := by
  unfold ecefToLatLonAlt
  simp only
  constructor
  · intro h
    rcases bind_eq_ok _ _ _ h with ⟨⟨lat, alt⟩, hlat, hpos⟩
    rw [Except.ok.injEq] at hpos
    rw [← hpos]
    exact ⟨lat, hlat, rfl, rfl⟩
  · rintro ⟨lat, hlat, hpos, hlon⟩
    rw [hlat, ok_bind]
    cases pos with
    | mk lat' lon alt =>
        simp only at hpos hlon
        rw [hpos, hlon]

section Reals

/-- Every position at least 45068 m from the centre has geodetic coordinates:
    the computation leaves no domain. -/
theorem ecefToLatLonAlt_defined (ecef : EcefPos ℝ)
    (hfar : 45068 ≤ Real.sqrt (ecef.x ^ 2 + ecef.y ^ 2 + ecef.z ^ 2)) :
    ∃ pos, ecefToLatLonAlt ecef = .ok pos := by
  refine ecefToLatLonAlt_far ecef ?_
  rw [← Real.le_sqrt' (by norm_num)]
  exact hfar

/-- The north pole. -/
theorem ecefToLatLonAlt_defined_example :
    ∃ pos : LatLonAltPos ℝ, ecefToLatLonAlt ⟨0, 0, 6356752⟩ = .ok pos := by
  refine ecefToLatLonAlt_defined ⟨0, 0, 6356752⟩ ?_
  rw [Real.le_sqrt' (by norm_num)]
  norm_num

/-- Two positions inside the Earth: one metre closer to the centre than that,
    where the sine series exceeds one, and one in the plane of the equator,
    where the Newton step divides by zero. -/
theorem ecefToLatLonAlt_inside :
    ecefToLatLonAlt (⟨45067 * (435 / 533), 0, 45067 * (308 / 533)⟩ : EcefPos ℝ) = .error .asin ∧
      ecefToLatLonAlt (⟨42697.6727071575372786, 0, 0⟩ : EcefPos ℝ) = .error .division := by
  constructor
  · have hrun : latAlt ((45067 * (435 / 533) : ℝ) ^ 2) ((45067 * (308 / 533)) ^ 2)
        (45067 * (308 / 533)) = .error .asin := by
      rw [latAlt_eq _ _ 45067 (by norm_num) (by norm_num) (by norm_num)]
      unfold firstLatitude
      rw [if_pos (by norm_num), divide_ok _ _ (by norm_num), ok_bind, divide_ok _ _ (by norm_num),
        ok_bind]
      -- The sine comes out larger than one.
      have hsine : ¬(-1 ≤ (45067 * (308 / 533) / 45067 * (1 + (45067 * (435 / 533) / 45067) ^ 2 *
          (A1 + A2 / 45067 + (45067 * (308 / 533) / 45067) ^ 2 * (A3 - A4 / 45067)) / 45067) : ℝ) ∧
          45067 * (308 / 533) / 45067 * (1 + (45067 * (435 / 533) / 45067) ^ 2 *
          (A1 + A2 / 45067 + (45067 * (308 / 533) / 45067) ^ 2 * (A3 - A4 / 45067)) / 45067)
            ≤ (1 : ℝ)) := by
        unfold A1 A2 A3 A4
        norm_num
      simp only
      unfold arcSine
      rw [if_neg hsine, error_bind, error_bind]
    have habs : |(45067 * (308 / 533) : ℝ)| = 45067 * (308 / 533) := abs_of_nonneg (by norm_num)
    unfold ecefToLatLonAlt
    simp only
    rw [habs, mul_zero, add_zero, ← sq, ← sq, hrun, error_bind]
  · have hrun : latAlt ((42697.6727071575372786 : ℝ) ^ 2) (0 ^ 2) 0 = .error .division := by
      rw [latAlt_equator _ (by norm_num), if_pos]
      unfold semiMajorAxis A6
      norm_num
    unfold ecefToLatLonAlt
    simp only
    rw [abs_zero, mul_zero, add_zero, ← sq]
    rw [zero_pow two_ne_zero] at hrun
    rw [hrun, error_bind]

/-- The mirror image in the plane of the equator has the opposite latitude, and
    a turn about the axis changes nothing but the longitude. -/
theorem ecefToLatLonAlt_symmetric (x y z : ℝ) (pos : LatLonAltPos ℝ)
    (h : ecefToLatLonAlt ⟨x, y, z⟩ = .ok pos) :
    ecefToLatLonAlt ⟨x, y, -z⟩ = .ok { lat := -pos.lat, lon := pos.lon, alt := pos.alt } ∧
      (z = 0 → pos.lat = 0) ∧
      ∀ x' y', x' ^ 2 + y' ^ 2 = x ^ 2 + y ^ 2 → ∃ lon',
        ecefToLatLonAlt ⟨x', y', z⟩ = .ok { lat := pos.lat, lon := lon', alt := pos.alt } := by
  rcases (ecefToLatLonAlt_ok _ _).mp h with ⟨lat, hlat, hpos, hlon⟩
  simp only at hlat hpos hlon
  have hequator : z = 0 → lat = 0 := by
    rintro rfl
    rw [mul_zero, abs_zero] at hlat
    have hzero : lat = Real.arcsin 0 :=
      latAlt_plane _ lat pos.alt (add_nonneg (mul_self_nonneg x) (mul_self_nonneg y)) hlat
    rw [hzero, Real.arcsin_zero]
  refine ⟨(ecefToLatLonAlt_ok _ _).mpr ⟨lat, ?_, ?_, hlon⟩, ?_, ?_⟩
  · simp only
    rw [neg_mul_neg, abs_neg]
    exact hlat
  · -- One of the two is in the southern hemisphere, or both are in the plane.
    simp only
    rw [hpos]
    rcases lt_trichotomy z 0 with hneg | hzero | hpos'
    · rw [if_pos hneg, if_neg (by linarith)]
      ring
    · rw [hequator hzero]
      split_ifs <;> ring
    · rw [if_neg (by linarith), if_pos (by linarith)]
      ring
  · intro hzero
    rw [hpos, hequator hzero]
    split_ifs <;> ring
  · intro x' y' hw
    refine ⟨atan2 y' x', (ecefToLatLonAlt_ok _ _).mpr ⟨lat, ?_, hpos, rfl⟩⟩
    simp only
    rw [← sq x', ← sq y', hw, sq x, sq y]
    exact hlat

/-- A receiver in the air, and one below the same longitude in the south. -/
theorem ecefToLatLonAlt_symmetric_example :
    ∃ pos : LatLonAltPos ℝ, ecefToLatLonAlt ⟨6000000, 0, 3000000⟩ = .ok pos ∧
      ecefToLatLonAlt ⟨6000000, 0, -3000000⟩
        = .ok { lat := -pos.lat, lon := pos.lon, alt := pos.alt } := by
  rcases ecefToLatLonAlt_far (⟨6000000, 0, 3000000⟩ : EcefPos ℝ) (by norm_num) with ⟨pos, hpos⟩
  exact ⟨pos, hpos, (ecefToLatLonAlt_symmetric 6000000 0 3000000 pos hpos).1⟩

end Reals

end SimpleDgps
