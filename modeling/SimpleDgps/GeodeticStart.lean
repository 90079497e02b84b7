import SimpleDgps.Geodetic
import SimpleDgps.Toolkit.Ellipse

/-!
# The Start of the Inverse Conversion

How good the first latitude is.

`ecefToLatLonAlt` has one Newton step and no loop, so its accuracy is that of
the series it starts from. The measure of a start is the slope of the height
above the tangent, which vanishes at the exact latitude. `start_slope` bounds it
by 410 m for every position from 6300 km on, at every latitude and on both
branches. For comparison, the slope in the direction of the position itself can
be as large as 21400 m.

Both series are first order corrections of that direction. What a series moves
the latitude by, and what it should have moved it by, are each the product of
sine and cosine of the direction and a factor, and for both factors the interval
from 42400 m to 43220 m is enough, `Moved`. So the difference is at most half of
its length.

## Main definitions

* `startAt`: A first latitude as an angle.
* `Moved`: The two ways a latitude moves, with their factors.

## Theorems

* `firstLatitude_low`, `firstLatitude_high`: The first latitude on each branch.
* `startAt_low`, `startAt_high`: It is an angle of the first quadrant.
* `sineSeries_bounds`, `cosineSeries_bounds`: The sums in the series.
* `relative_change`: What they change the sine or the cosine by.
* `cosine_falls`, `sine_rises`: What that does to the other of the two.
* `moved_low`, `moved_high`: Both series move the latitude well.
* `start_slope`: The slope at the first latitude.
-/

namespace SimpleDgps

open Toolkit Loop Ellipse
open CMath (sqrt asin acos)

/-! ### What the first latitude is -/

section Branches

variable {K : Type} [Field K] [LinearOrder K] [CMath K]

/-- The first latitude by the sine series. -/
theorem firstLatitude_low (zp w r s2 c2 u v : K) (n : FirstLatitude K)
    (h : firstLatitude zp w r s2 c2 u v = .ok n) (hbranch : c2 > 0.3) :
    n.s = zp / r * (1 + c2 * (A1 + u + s2 * v) / r) ∧ (-1 ≤ n.s ∧ n.s ≤ 1) ∧
      n.lat = asin n.s ∧ n.ss = n.s * n.s ∧ n.c = sqrt (1 - n.s * n.s) := by
  unfold firstLatitude at h
  rw [if_pos hbranch] at h
  rcases bind_eq_ok _ _ _ h with ⟨sine, hsine, h⟩
  rcases bind_eq_ok _ _ _ h with ⟨series, hseries, h⟩
  rcases bind_eq_ok _ _ _ h with ⟨lat, hlat, h⟩
  rcases bind_eq_ok _ _ _ h with ⟨c, hc, h⟩
  rcases arcSine_eq_ok _ _ hlat with ⟨hrange, hlat'⟩
  rw [← Except.ok.inj h, hlat', (squareRoot_eq_ok _ _ hc).2]
  refine ⟨?_, hrange, rfl, rfl, rfl⟩
  rw [(divide_eq_ok _ _ _ hsine).2, (divide_eq_ok _ _ _ hseries).2]

/-- The first latitude by the cosine series. -/
theorem firstLatitude_high (zp w r s2 c2 u v : K) (n : FirstLatitude K)
    (h : firstLatitude zp w r s2 c2 u v = .ok n) (hbranch : ¬c2 > 0.3) :
    n.c = w / r * (1 - s2 * (A5 - u - c2 * v) / r) ∧ (-1 ≤ n.c ∧ n.c ≤ 1) ∧
      n.lat = acos n.c ∧ n.ss = 1 - n.c * n.c ∧ n.s = sqrt (1 - n.c * n.c) := by
  unfold firstLatitude at h
  rw [if_neg hbranch] at h
  rcases bind_eq_ok _ _ _ h with ⟨cosine, hcosine, h⟩
  rcases bind_eq_ok _ _ _ h with ⟨series, hseries, h⟩
  rcases bind_eq_ok _ _ _ h with ⟨lat, hlat, h⟩
  rcases bind_eq_ok _ _ _ h with ⟨s, hs, h⟩
  rcases arcCosine_eq_ok _ _ hlat with ⟨hrange, hlat'⟩
  rw [← Except.ok.inj h, hlat', (squareRoot_eq_ok _ _ hs).2]
  refine ⟨?_, hrange, rfl, rfl, rfl⟩
  rw [(divide_eq_ok _ _ _ hcosine).2, (divide_eq_ok _ _ _ hseries).2]

end Branches

/-- A first latitude as an angle. -/
noncomputable def startAt (θ : ℝ) : FirstLatitude ℝ :=
  { lat := θ, c := Real.cos θ, s := Real.sin θ, ss := Real.sin θ * Real.sin θ }

/-- Near the equator it is the angle that the sine series gives. -/
theorem startAt_low (r σ κ : ℝ) (hr : 45068 ≤ r) (hσ : 0 ≤ σ) (hκ : 0 ≤ κ)
    (hunit : σ ^ 2 + κ ^ 2 = 1) (hbranch : κ ^ 2 > 0.3) :
    ∃ θ, 0 ≤ θ ∧ θ ≤ Real.pi / 2 ∧
      firstLatitude (r * σ) (r * κ) r (σ ^ 2) (κ ^ 2) (A2 / r) (A3 - A4 / r) = .ok (startAt θ) ∧
      (startAt θ).Steep σ κ ∧ Real.sin θ = σ * (1 + κ ^ 2 * (sineSeries r σ / r ^ 2)) := by
  have hpos : r ≠ 0 := by linarith
  rcases firstLatitude_sine r σ κ hr hσ hκ hunit hbranch with ⟨n, hn, hsteep⟩
  rcases firstLatitude_low _ _ _ _ _ _ _ n hn hbranch with ⟨hs, ⟨hlow, hhigh⟩, hlat, hss, hc⟩
  have hsin : Real.sin n.lat = n.s := by
    rw [hlat]
    exact Real.sin_arcsin hlow hhigh
  have hcos : Real.cos n.lat = n.c := by
    rw [hlat, hc, ← sq]
    exact Real.cos_arcsin n.s
  have hstart : startAt n.lat = n := by
    unfold startAt
    rw [hsin, hcos, ← hss]
  refine ⟨n.lat, ?_, ?_, by rw [hstart, hn], by rwa [hstart], ?_⟩
  · rw [hlat]
    exact Real.arcsin_nonneg.mpr (hσ.trans hsteep.s_ge)
  · rw [hlat]
    exact Real.arcsin_le_pi_div_two n.s
  · rw [hsin, hs, sineSeries]
    field_simp
    ring

/-- Near the pole it is the angle that the cosine series gives. -/
theorem startAt_high (r σ κ : ℝ) (hr : 45068 ≤ r) (hκ : 0 ≤ κ) (hunit : σ ^ 2 + κ ^ 2 = 1)
    (hbranch : ¬κ ^ 2 > 0.3) :
    ∃ θ, 0 ≤ θ ∧ θ ≤ Real.pi / 2 ∧
      firstLatitude (r * σ) (r * κ) r (σ ^ 2) (κ ^ 2) (A2 / r) (A3 - A4 / r) = .ok (startAt θ) ∧
      (startAt θ).Steep σ κ ∧ Real.cos θ = κ * (1 - σ ^ 2 * (cosineSeries r κ / r ^ 2)) := by
  have hpos : r ≠ 0 := by linarith
  rcases firstLatitude_cosine r σ κ hr hκ hunit hbranch with ⟨n, hn, hsteep⟩
  rcases firstLatitude_high _ _ _ _ _ _ _ n hn hbranch with ⟨hc, ⟨hlow, hhigh⟩, hlat, hss, hs⟩
  have hcos : Real.cos n.lat = n.c := by
    rw [hlat]
    exact Real.cos_arccos hlow hhigh
  have hsin : Real.sin n.lat = n.s := by
    rw [hlat, hs, ← sq]
    exact Real.sin_arccos n.c
  have hsq : n.s * n.s = n.ss := by
    rw [hsteep.ss_eq, sq]
  have hstart : startAt n.lat = n := by
    unfold startAt
    rw [hsin, hcos, hsq]
  refine ⟨n.lat, ?_, ?_, by rw [hstart, hn], by rwa [hstart], ?_⟩
  · rw [hlat]
    exact Real.arccos_nonneg n.c
  · rw [hlat]
    exact Real.arccos_le_pi_div_two.mpr hsteep.c_nonneg
  · rw [hcos, hc, cosineSeries]
    field_simp
    ring

/-! ### The series -/

theorem sineSeries_bounds (r σ : ℝ) (hr : 6300000 ≤ r) (hσ : σ ^ 2 ≤ 0.7) :
    42480 * r ≤ sineSeries r σ ∧ sineSeries r σ ≤ 43088 * r := by
  rcases A1_bounds (K := ℝ) with ⟨h1, h1'⟩
  rcases A2_bounds (K := ℝ) with ⟨h2, h2'⟩
  rcases A3_bounds (K := ℝ) with ⟨h3, h3'⟩
  rcases A4_bounds (K := ℝ) with ⟨h4, h4'⟩
  have hsq : 0 ≤ σ ^ 2 := sq_nonneg σ
  have hthird : A3 * σ ^ 2 ≤ 143 * 0.7 := mul_le_mul h3' hσ hsq (by norm_num)
  have hfourth : A4 * σ ^ 2 ≤ 4557728137 * 0.7 := mul_le_mul h4' hσ hsq (by norm_num)
  have hfourth' : 0 ≤ A4 * σ ^ 2 := mul_nonneg (le_trans (by norm_num) h4) hsq
  have hlow : 42697.5 * r ≤ (A1 + A3 * σ ^ 2) * r := by
    refine mul_le_mul_of_nonneg_right ?_ (by linarith)
    linarith [mul_nonneg h3 hsq]
  have hhigh : (A1 + A3 * σ ^ 2) * r ≤ 42798 * r :=
    mul_le_mul_of_nonneg_right (by linarith) (by linarith)
  unfold sineSeries
  norm_num at hfourth hlow
  constructor <;> linarith

theorem cosineSeries_bounds (r κ : ℝ) (hr : 6300000 ≤ r) (hκ : κ ^ 2 ≤ 0.3) :
    42506 * r ≤ cosineSeries r κ ∧ cosineSeries r κ ≤ 42841 * r := by
  rcases A2_bounds (K := ℝ) with ⟨h2, h2'⟩
  rcases A3_bounds (K := ℝ) with ⟨h3, h3'⟩
  rcases A4_bounds (K := ℝ) with ⟨h4, h4'⟩
  rcases A5_bounds (K := ℝ) with ⟨h5, h5'⟩
  have hsq : 0 ≤ κ ^ 2 := sq_nonneg κ
  have hthird : A3 * κ ^ 2 ≤ 143 * 0.3 := mul_le_mul h3' hκ hsq (by norm_num)
  have hfourth : A4 * κ ^ 2 ≤ 4557728137 * 0.3 := mul_le_mul h4' hκ hsq (by norm_num)
  have hfourth' : 0 ≤ A4 * κ ^ 2 := mul_nonneg (le_trans (by norm_num) h4) hsq
  have hlow : 42797 * r ≤ (A5 - A3 * κ ^ 2) * r :=
    mul_le_mul_of_nonneg_right (by linarith) (by linarith)
  have hhigh : (A5 - A3 * κ ^ 2) * r ≤ 42841 * r :=
    mul_le_mul_of_nonneg_right (by linarith [mul_nonneg h3 hsq]) (by linarith)
  unfold cosineSeries
  norm_num at hfourth
  constructor <;> linarith

/-- `A * E2`, which is what `A1` approximates. -/
theorem axis_mul_eccentricity :
    (42697.67 : ℝ) ≤ semiMajorAxis * eccentricitySq ∧
      (semiMajorAxis * eccentricitySq : ℝ) ≤ 42697.68 := by
  unfold semiMajorAxis eccentricitySq
  norm_num

/-- The two ways a latitude moves away from the direction `(κ, σ)`: what the
    first latitude `(c, s)` has moved, and what it should have. -/
structure Moved (r σ κ s c k : ℝ) : Prop where
  done : ∃ X, 42400 ≤ X ∧ X ≤ 43220 ∧ r * (s * κ - c * σ) = σ * κ * X
  due : ∃ Y, 42400 ≤ Y ∧ Y ≤ 43220 ∧ semiMajorAxis * eccentricitySq * (s * c) / k = σ * κ * Y

/-- The two are close. -/
theorem Moved.close (r σ κ s c k : ℝ) (hσ : 0 ≤ σ) (hκ : 0 ≤ κ) (hunit : σ ^ 2 + κ ^ 2 = 1)
    (h : Moved r σ κ s c k) :
    |semiMajorAxis * eccentricitySq * (s * c) / k - r * (s * κ - c * σ)| ≤ 410 := by
  rcases h.done with ⟨X, hX, hX', hdone⟩
  rcases h.due with ⟨Y, hY, hY', hdue⟩
  have hprod : σ * κ ≤ 1 / 2 := by linarith [sq_nonneg (σ - κ)]
  have hgap : |Y - X| ≤ 820 := by
    rw [abs_le]
    constructor <;> linarith
  rw [hdone, hdue, ← mul_sub, abs_mul, abs_of_nonneg (mul_nonneg hσ hκ)]
  calc σ * κ * |Y - X| ≤ 1 / 2 * 820 := mul_le_mul hprod hgap (abs_nonneg _) (by norm_num)
    _ = 410 := by norm_num

/-- The relative change a series makes, with its weight `p`. -/
theorem relative_change (r p S lo hi : ℝ) (hr : 6300000 ≤ r) (hp : 0 ≤ p) (hlo : 0 ≤ lo)
    (hlow : lo * r ≤ S) (hhigh : S ≤ hi * r) :
    ∃ Q t, lo ≤ Q ∧ Q ≤ hi ∧ t * r = p * Q ∧ p * (S / r ^ 2) = t ∧ 0 ≤ t ∧
      t ≤ hi / 6300000 * p := by
  have hpos : 0 < r := by linarith
  have hQ : lo ≤ S / r := by rwa [le_div_iff₀ hpos]
  have hQ' : S / r ≤ hi := by rwa [div_le_iff₀ hpos]
  have hhi : 0 ≤ hi := hlo.trans (hQ.trans hQ')
  refine ⟨S / r, p * (S / r) / r, hQ, hQ', div_mul_cancel₀ _ hpos.ne', ?_, ?_, ?_⟩
  · field_simp
  · exact div_nonneg (mul_nonneg hp (hlo.trans hQ)) hpos.le
  · calc p * (S / r) / r ≤ p * hi / 6300000 :=
          div_le_div₀ (mul_nonneg hp hhi) (mul_le_mul_of_nonneg_left hQ' hp) (by norm_num) hr
      _ = hi / 6300000 * p := by ring

/-- If the sine of an angle near the equator grows by up to 0.7 percent, its cosine
    falls by less than half a percent. -/
theorem cosine_falls (σ κ c t : ℝ) (hunit : σ ^ 2 + κ ^ 2 = 1) (hκ : κ ^ 2 ≤ 1) (hc : 0 ≤ c)
    (ht : 0 ≤ t) (htκ : t ≤ 0.00684 * κ ^ 2) (hσ : σ ^ 2 ≤ 0.7)
    (hsc : c ^ 2 + (σ * (1 + t)) ^ 2 = 1) :
    c ^ 2 = κ ^ 2 - σ ^ 2 * (t * (2 + t)) ∧ 0.995 * κ ≤ c := by
  have hc2 : c ^ 2 = κ ^ 2 - σ ^ 2 * (t * (2 + t)) := by
    linear_combination hsc - hunit
  refine ⟨hc2, le_of_sq_le_sq ?_ hc⟩
  have ht1 : t ≤ 0.00684 := htκ.trans (mul_le_of_le_one_right (by norm_num) hκ)
  have hprod : σ ^ 2 * (t * (2 + t)) ≤ 0.7 * (0.00684 * κ ^ 2 * (2 + 0.00684)) := by
    gcongr
  rw [mul_pow, hc2]
  norm_num at hprod ⊢
  linarith

/-- If the cosine of an angle near the pole falls by up to 0.7 percent, its sine
    rises by less than a third of a percent. -/
theorem sine_rises (σ κ s t : ℝ) (hσ : 0 ≤ σ) (hunit : σ ^ 2 + κ ^ 2 = 1) (ht : 0 ≤ t)
    (ht1 : t ≤ 0.00681) (hκ : κ ^ 2 ≤ 0.3) (hsc : (κ * (1 - t)) ^ 2 + s ^ 2 = 1) :
    s ^ 2 = σ ^ 2 + κ ^ 2 * (t * (2 - t)) ∧ s ≤ 1.003 * σ := by
  have hs2 : s ^ 2 = σ ^ 2 + κ ^ 2 * (t * (2 - t)) := by
    linear_combination hsc - hunit
  refine ⟨hs2, le_of_sq_le_sq ?_ (by positivity)⟩
  have hleft : 0 ≤ 2 - t := by linarith
  have hprod : κ ^ 2 * (t * (2 - t)) ≤ 0.3 * (0.00681 * 2) := by
    refine mul_le_mul hκ ?_ (mul_nonneg ht hleft) (by norm_num)
    exact mul_le_mul ht1 (by linarith) hleft (by norm_num)
  rw [mul_pow, hs2]
  norm_num at hprod hκ ⊢
  linarith

/-- The sine series moves the latitude well. -/
theorem moved_low (r σ κ s c k : ℝ) (hr : 6300000 ≤ r) (hκ : 0 ≤ κ)
    (hunit : σ ^ 2 + κ ^ 2 = 1) (hbranch : κ ^ 2 > 0.3) (hsc : c ^ 2 + s ^ 2 = 1) (hc : 0 ≤ c)
    (hck : c ≤ κ) (hs : s = σ * (1 + κ ^ 2 * (sineSeries r σ / r ^ 2)))
    (hk : 0.9966 ≤ k) (hk1 : k ≤ 1) : Moved r σ κ s c k := by
  have hpos : 0 < r := by linarith
  have hκpos : 0 < κ := by
    refine lt_of_le_of_ne hκ (fun hzero => ?_)
    rw [← hzero] at hbranch
    norm_num at hbranch
  have hσ7 : σ ^ 2 ≤ 0.7 := by
    norm_num at hbranch ⊢
    linarith
  have hκ1 : κ ^ 2 ≤ 1 := by linarith [sq_nonneg σ]
  rcases sineSeries_bounds r σ hr hσ7 with ⟨hlow, hhigh⟩
  rcases axis_mul_eccentricity with ⟨hae, hae'⟩
  -- The relative change `t` of the sine.
  rcases relative_change r (κ ^ 2) _ _ _ hr (sq_nonneg κ) (by norm_num) hlow hhigh
    with ⟨Q, t, hQ1, hQ2, ht, hweight, ht0, htκ⟩
  have hst : s = σ * (1 + t) := by rw [hs, hweight]
  norm_num at htκ
  have htκ' : t ≤ 0.00684 * κ ^ 2 := by
    norm_num
    linarith [sq_nonneg κ]
  have ht1 : t ≤ 0.00684 := htκ'.trans (mul_le_of_le_one_right (by norm_num) hκ1)
  rw [hst] at hsc
  rcases cosine_falls σ κ c t hunit hκ1 hc ht0 htκ' hσ7 hsc with ⟨hc2, hcκ⟩
  have hden : 0 < κ * (1 + t) + c := by positivity
  refine ⟨⟨Q * ((2 + t) * κ / (κ * (1 + t) + c)), ?_, ?_, ?_⟩,
    ⟨semiMajorAxis * eccentricitySq * ((1 + t) * (c / κ) / k), ?_, ?_, ?_⟩⟩
  · have hratio : 1 ≤ (2 + t) * κ / (κ * (1 + t) + c) := by
      rw [one_le_div hden]
      linarith
    calc (42400 : ℝ) ≤ 42480 * 1 := by norm_num
      _ ≤ Q * ((2 + t) * κ / (κ * (1 + t) + c)) := by gcongr
  · have hratio : (2 + t) * κ / (κ * (1 + t) + c) ≤ 1.0026 := by
      rw [div_le_iff₀ hden]
      norm_num at hcκ ⊢
      linarith [mul_nonneg hκ ht0]
    calc Q * ((2 + t) * κ / (κ * (1 + t) + c)) ≤ 43088 * 1.0026 := by gcongr
      _ ≤ 43220 := by norm_num
  · have hcross : (s * κ - c * σ) * (κ * (1 + t) + c) = σ * (t * (2 + t)) := by
      rw [hst]
      linear_combination -σ * hc2 + σ * (t * (2 + t)) * hunit
    rw [mul_div_assoc', mul_div_assoc', eq_div_iff hden.ne', mul_assoc r, hcross]
    linear_combination σ * (2 + t) * ht
  · have hratio : 0.995 ≤ c / κ := by rwa [le_div_iff₀ hκpos]
    have hroot : 0.995 ≤ (1 + t) * (c / κ) / k := by
      rw [le_div_iff₀ (by linarith)]
      calc 0.995 * k ≤ 0.995 * 1 := by gcongr
        _ ≤ (1 + t) * (c / κ) := by
          norm_num at hratio ⊢
          linarith [mul_nonneg ht0 (le_trans (by norm_num) hratio)]
    calc (42400 : ℝ) ≤ 42697.67 * 0.995 := by norm_num
      _ ≤ semiMajorAxis * eccentricitySq * ((1 + t) * (c / κ) / k) := by gcongr
  · have hratio : c / κ ≤ 1 := by rwa [div_le_one hκpos]
    have hroot : (1 + t) * (c / κ) / k ≤ (1 + 0.00684) * 1 / 0.9966 := by gcongr
    calc semiMajorAxis * eccentricitySq * ((1 + t) * (c / κ) / k)
        ≤ 42697.68 * ((1 + 0.00684) * 1 / 0.9966) := by gcongr
      _ ≤ 43220 := by norm_num
  · rw [hst]
    field_simp

/-- So does the cosine series. -/
theorem moved_high (r σ κ s c k : ℝ) (hr : 6300000 ≤ r) (hσ : 0 ≤ σ)
    (hunit : σ ^ 2 + κ ^ 2 = 1) (hbranch : ¬κ ^ 2 > 0.3) (hsc : c ^ 2 + s ^ 2 = 1)
    (hsσ : σ ≤ s) (hc : c = κ * (1 - σ ^ 2 * (cosineSeries r κ / r ^ 2)))
    (hk : 0.9966 ≤ k) (hk1 : k ≤ 1) : Moved r σ κ s c k := by
  have hpos : 0 < r := by linarith
  have hκ3 : κ ^ 2 ≤ 0.3 := not_lt.mp hbranch
  have hσ7 : 0.7 ≤ σ ^ 2 := by
    norm_num at hκ3 ⊢
    linarith
  have hσpos : 0 < σ := by
    refine lt_of_le_of_ne hσ (fun hzero => ?_)
    rw [← hzero] at hσ7
    norm_num at hσ7
  have hσ1 : σ ^ 2 ≤ 1 := by linarith [sq_nonneg κ]
  rcases cosineSeries_bounds r κ hr hκ3 with ⟨hlow, hhigh⟩
  rcases axis_mul_eccentricity with ⟨hae, hae'⟩
  -- The relative change `t` of the cosine.
  rcases relative_change r (σ ^ 2) _ _ _ hr (sq_nonneg σ) (by norm_num) hlow hhigh
    with ⟨Q, t, hQ1, hQ2, ht, hweight, ht0, htσ⟩
  have hct : c = κ * (1 - t) := by rw [hc, hweight]
  have ht1 : t ≤ 0.00681 := htσ.trans (by norm_num; linarith)
  have hleft : 0 ≤ 1 - t := by linarith
  have hleft' : 0 ≤ 2 - t := by linarith
  rw [hct] at hsc
  rcases sine_rises σ κ s t hσ hunit ht0 ht1 hκ3 hsc with ⟨hs2, hsσ'⟩
  have hden : 0 < s + σ * (1 - t) := by
    have hrest : 0 ≤ σ * (1 - t) := mul_nonneg hσ hleft
    linarith
  refine ⟨⟨Q * ((2 - t) * σ / (s + σ * (1 - t))), ?_, ?_, ?_⟩,
    ⟨semiMajorAxis * eccentricitySq * ((1 - t) * (s / σ) / k), ?_, ?_, ?_⟩⟩
  · have hratio : 0.998 ≤ (2 - t) * σ / (s + σ * (1 - t)) := by
      rw [le_div_iff₀ hden]
      norm_num at hsσ' ⊢
      linarith [mul_nonneg hσ (sub_nonneg.mpr ht1)]
    calc (42400 : ℝ) ≤ 42506 * 0.998 := by norm_num
      _ ≤ Q * ((2 - t) * σ / (s + σ * (1 - t))) := by gcongr
  · have hratio : (2 - t) * σ / (s + σ * (1 - t)) ≤ 1 := by
      rw [div_le_one hden]
      linarith
    calc Q * ((2 - t) * σ / (s + σ * (1 - t))) ≤ 42841 * 1 :=
          mul_le_mul hQ2 hratio (div_nonneg (mul_nonneg hleft' hσ) hden.le) (by norm_num)
      _ ≤ 43220 := by norm_num
  · have hcross : (s * κ - c * σ) * (s + σ * (1 - t)) = κ * (t * (2 - t)) := by
      rw [hct]
      linear_combination κ * hs2 + κ * (t * (2 - t)) * hunit
    rw [mul_div_assoc', mul_div_assoc', eq_div_iff hden.ne', mul_assoc r, hcross]
    linear_combination κ * (2 - t) * ht
  · have hratio : 1 ≤ s / σ := by rwa [one_le_div hσpos]
    have hroot : 0.9931 ≤ (1 - t) * (s / σ) / k := by
      rw [le_div_iff₀ (by linarith)]
      calc 0.9931 * k ≤ 0.9931 * 1 := by gcongr
        _ ≤ (1 - 0.00681) * 1 := by norm_num
        _ ≤ (1 - t) * (s / σ) := by gcongr
    calc (42400 : ℝ) ≤ 42697.67 * 0.9931 := by norm_num
      _ ≤ semiMajorAxis * eccentricitySq * ((1 - t) * (s / σ) / k) := by gcongr
  · have hratio : s / σ ≤ 1.003 := by rwa [div_le_iff₀ hσpos]
    have hroot : (1 - t) * (s / σ) / k ≤ 1 * 1.003 / 0.9966 := by
      refine div_le_div₀ (by norm_num) ?_ (by norm_num) hk
      exact mul_le_mul (by linarith) hratio (div_nonneg (hσ.trans hsσ) hσ) zero_le_one
    calc semiMajorAxis * eccentricitySq * ((1 - t) * (s / σ) / k)
        ≤ 42697.68 * (1 * 1.003 / 0.9966) := by
          refine mul_le_mul hae' hroot ?_ (by norm_num)
          exact div_nonneg (mul_nonneg hleft (div_nonneg (hσ.trans hsσ) hσ)) (by linarith)
      _ ≤ 43220 := by norm_num
  · rw [hct]
    field_simp

/-- The slope at the first latitude is at most 410 m, in whatever direction the
    position lies. -/
theorem start_slope (r ψ : ℝ) (hr : 6300000 ≤ r) (hψ : 0 ≤ ψ) (hψ' : ψ ≤ Real.pi / 2) :
    ∃ θ, 0 ≤ θ ∧ θ ≤ Real.pi / 2 ∧
      firstLatitude (r * Real.sin ψ) (r * Real.cos ψ) r (Real.sin ψ ^ 2) (Real.cos ψ ^ 2) (A2 / r)
        (A3 - A4 / r) = .ok (startAt θ) ∧
      |slope semiMajorAxis eccentricitySq (r * Real.cos ψ) (r * Real.sin ψ) θ| ≤ 410 := by
  have hσ : 0 ≤ Real.sin ψ := Real.sin_nonneg_of_nonneg_of_le_pi hψ (by linarith [Real.pi_pos])
  have hκ : 0 ≤ Real.cos ψ := Real.cos_nonneg_of_neg_pi_div_two_le_of_le (by linarith) hψ'
  have hunit := Real.sin_sq_add_cos_sq ψ
  have hk : ∀ θ, 0.9966 ≤ root eccentricitySq θ := fun θ =>
    root_ge eccentricitySq θ eccentricitySq_pos.le 0.9966 (by unfold eccentricitySq; norm_num)
  have hk1 : ∀ θ, root eccentricitySq θ ≤ 1 := fun θ =>
    root_le_one eccentricitySq θ eccentricitySq_pos.le
  by_cases hbranch : Real.cos ψ ^ 2 > 0.3
  · rcases startAt_low r _ _ (by linarith) hσ hκ hunit hbranch
      with ⟨θ, hθ, hθ', hstart, hsteep, hsin⟩
    have hmoved := moved_low r _ _ _ _ _ hr hκ hunit hbranch hsteep.unit hsteep.c_nonneg
      hsteep.c_le hsin (hk θ) (hk1 θ)
    refine ⟨θ, hθ, hθ', hstart, ?_⟩
    rw [slope_polar, Real.sin_sub]
    exact hmoved.close r _ _ _ _ _ hσ hκ hunit
  · rcases startAt_high r _ _ (by linarith) hκ hunit hbranch
      with ⟨θ, hθ, hθ', hstart, hsteep, hcos⟩
    have hmoved := moved_high r _ _ _ _ _ hr hσ hunit hbranch hsteep.unit hsteep.s_ge hcos
      (hk θ) (hk1 θ)
    refine ⟨θ, hθ, hθ', hstart, ?_⟩
    rw [slope_polar, Real.sin_sub]
    exact hmoved.close r _ _ _ _ _ hσ hκ hunit

end SimpleDgps
