import SimpleDgps.GeodeticStart
import SimpleDgps.Toolkit.NewtonStep
import Mathlib.Analysis.Real.Pi.Bounds

/-!
# The Step of the Inverse Conversion

What one Newton step makes of the first latitude.

The height of a position above the tangent is level at its latitude, and its
level value is the altitude, `Toolkit.Ellipse`. The first latitude is close to
level, `start_slope`. The code's last lines are one Newton step on the slope,
with the quadratic's value for the height, `newtonStep_startAt`, so the general
bounds of `Toolkit.NewtonStep` apply.

The constants do not fit together exactly: `A6` falls short of `1 - E2` by
`3e-19`. The three quantities the step computes are therefore off by up to
`1e-11` m, `step_near`, and the error bounds carry that along.

Everything happens within a small angle of the direction in which the position
lies. The latitude and the first latitude both are there because the slope is
small at both, `direction_near`, and there the slope falls fast and evenly.

## Main definitions

* `stepHeight`, `stepSlope`, `stepFall`: What the Newton step computes.

## Theorems

* `newtonStep_startAt`: The Newton step in terms of them.
* `stepHeight_sub`, `stepSlope_sub`, `stepFall_sub`: How far they are off.
* `step_near`: They are the height, the slope and its fall.
* `direction_near`: A small slope means an angle near the direction.
* `fall_ge`, `slope_le`, `bend_le`: The three near the direction.
* `step_approach`: The way from the first latitude to the exact one.
* `start_distance`: How long it is.
* `latAlt_accurate`: Latitude and altitude of a position.
-/

namespace SimpleDgps

open Toolkit Loop Ellipse NewtonStep Set
open CMath (sqrt)

/-! ### The Newton step -/

/-- `f`, the height above the tangent. -/
noncomputable def stepHeight (w zp θ : ℝ) : ℝ :=
  let rg := normalRadius semiMajorAxis eccentricitySq θ
  Real.cos θ * (w - rg * Real.cos θ) + Real.sin θ * (zp - A6 * rg * Real.sin θ)

/-- `m`, its slope. -/
noncomputable def stepSlope (w zp θ : ℝ) : ℝ :=
  let rg := normalRadius semiMajorAxis eccentricitySq θ
  Real.cos θ * (zp - A6 * rg * Real.sin θ) - Real.sin θ * (w - rg * Real.cos θ)

/-- The denominator of `p`. -/
noncomputable def stepFall (w zp θ : ℝ) : ℝ :=
  A6 * normalRadius semiMajorAxis eccentricitySq θ / root eccentricitySq θ ^ 2 +
    stepHeight w zp θ

theorem root_bounds (θ : ℝ) : 0.9966 ≤ root eccentricitySq θ ∧ root eccentricitySq θ ≤ 1 :=
  ⟨root_ge eccentricitySq θ eccentricitySq_pos.le 0.9966 (by unfold eccentricitySq; norm_num),
    root_le_one eccentricitySq θ eccentricitySq_pos.le⟩

/-- The Newton step from an angle. -/
theorem newtonStep_startAt (w zp θ : ℝ) (hfall : stepFall w zp θ ≠ 0) :
    newtonStep w zp (startAt θ)
      = .ok (θ + stepSlope w zp θ / stepFall w zp θ,
          stepHeight w zp θ + stepSlope w zp θ * (stepSlope w zp θ / stepFall w zp θ) / 2) := by
  have hrad := Ellipse.radicand_pos eccentricitySq θ eccentricitySq_pos.le eccentricitySq_lt_one
  have hss : 1 - eccentricitySq * (Real.sin θ * Real.sin θ)
      = 1 - eccentricitySq * Real.sin θ ^ 2 := by
    rw [sq]
  have hroot : sqrt (1 - eccentricitySq * Real.sin θ ^ 2) = root eccentricitySq θ := rfl
  have hpos := root_pos eccentricitySq θ eccentricitySq_pos.le eccentricitySq_lt_one
  have hsq := root_sq eccentricitySq θ eccentricitySq_pos.le eccentricitySq_lt_one
  have htwo : (2.0 : ℝ) = 2 := by norm_num
  unfold newtonStep startAt
  simp only [hss, htwo]
  rw [squareRoot_ok _ hrad.le, hroot, ok_bind, divide_ok _ _ hpos.ne', ok_bind, ← hsq,
    divide_ok _ _ (pow_ne_zero 2 hpos.ne'), ok_bind]
  exact divide_ok _ _ hfall ▸ rfl

/-- What `A6` falls short of `1 - E2`. -/
theorem flattening_gap : (1 : ℝ) - eccentricitySq - A6 = 3 / 10 ^ 19 := by
  unfold eccentricitySq A6
  norm_num

/-- The length of the normal, and over the square of the root. -/
theorem normal_bounds (θ : ℝ) :
    0 ≤ normalRadius semiMajorAxis eccentricitySq θ ∧
      normalRadius semiMajorAxis eccentricitySq θ ≤ 6400000 ∧
      normalRadius semiMajorAxis eccentricitySq θ / root eccentricitySq θ ^ 2 ≤ 6500000 := by
  rcases root_bounds θ with ⟨hk, _⟩
  have hpos : 0 < root eccentricitySq θ := lt_of_lt_of_le (by norm_num) hk
  have haxis := semiMajorAxis_pos (K := ℝ)
  have hle : normalRadius semiMajorAxis eccentricitySq θ ≤ 6400000 := by
    calc semiMajorAxis / root eccentricitySq θ ≤ semiMajorAxis / 0.9966 := by gcongr
      _ ≤ 6400000 := by
        unfold semiMajorAxis
        norm_num
  refine ⟨div_nonneg haxis.le hpos.le, hle, ?_⟩
  calc normalRadius semiMajorAxis eccentricitySq θ / root eccentricitySq θ ^ 2
      ≤ 6400000 / 0.9966 ^ 2 := by gcongr
    _ ≤ 6500000 := by norm_num

/-! What `A6` being off does to each of the three values. -/

theorem stepHeight_sub (w zp θ : ℝ) :
    stepHeight w zp θ - height semiMajorAxis eccentricitySq w zp θ
      = 3 / 10 ^ 19 * (normalRadius semiMajorAxis eccentricitySq θ * Real.sin θ ^ 2) := by
  have hsupport := support_normal eccentricitySq θ eccentricitySq_pos.le eccentricitySq_lt_one
    semiMajorAxis
  have hunit := Real.sin_sq_add_cos_sq θ
  unfold stepHeight height
  simp only
  generalize normalRadius semiMajorAxis eccentricitySq θ = N at *
  rw [hsupport]
  linear_combination (N * Real.sin θ ^ 2) * flattening_gap - N * hunit

theorem stepSlope_sub (w zp θ : ℝ) :
    stepSlope w zp θ - slope semiMajorAxis eccentricitySq w zp θ
      = 3 / 10 ^ 19 *
        (normalRadius semiMajorAxis eccentricitySq θ * (Real.sin θ * Real.cos θ)) := by
  have hcross := crossing_normal eccentricitySq θ eccentricitySq_pos.le eccentricitySq_lt_one
    semiMajorAxis
  unfold stepSlope Ellipse.slope
  simp only
  rw [hcross]
  generalize normalRadius semiMajorAxis eccentricitySq θ = N at *
  linear_combination (N * (Real.sin θ * Real.cos θ)) * flattening_gap

theorem stepFall_sub (w zp θ : ℝ) :
    stepFall w zp θ - fall semiMajorAxis eccentricitySq w zp θ
      = 3 / 10 ^ 19 * (normalRadius semiMajorAxis eccentricitySq θ * Real.sin θ ^ 2 -
        normalRadius semiMajorAxis eccentricitySq θ / root eccentricitySq θ ^ 2) := by
  have hcurve := curvatureRadius_normal eccentricitySq θ eccentricitySq_pos.le
    eccentricitySq_lt_one semiMajorAxis
  have hheight := stepHeight_sub w zp θ
  -- The fall contains the height, whose error is known.
  have hparts : stepFall w zp θ - fall semiMajorAxis eccentricitySq w zp θ
      = A6 * (normalRadius semiMajorAxis eccentricitySq θ / root eccentricitySq θ ^ 2) -
        curvatureRadius semiMajorAxis eccentricitySq θ +
        (stepHeight w zp θ - height semiMajorAxis eccentricitySq w zp θ) := by
    unfold stepFall fall height
    ring
  rw [hparts, hheight, hcurve]
  generalize normalRadius semiMajorAxis eccentricitySq θ = N at *
  linear_combination -(N / root eccentricitySq θ ^ 2) * flattening_gap

/-- What is off is small for everything on the scale of the Earth. -/
theorem gap_mul_le (x : ℝ) (hx : |x| ≤ 6500000) : |3 / 10 ^ 19 * x| ≤ 1e-11 := by
  rw [abs_mul, abs_of_nonneg (by norm_num : (0 : ℝ) ≤ 3 / 10 ^ 19)]
  calc 3 / 10 ^ 19 * |x| ≤ 3 / 10 ^ 19 * 6500000 := by gcongr
    _ ≤ 1e-11 := by norm_num

/-- The three values are those of the ellipse, up to what `A6` is off. -/
theorem step_near (w zp θ : ℝ) :
    |stepHeight w zp θ - height semiMajorAxis eccentricitySq w zp θ| ≤ 1e-11 ∧
      |stepSlope w zp θ - slope semiMajorAxis eccentricitySq w zp θ| ≤ 1e-11 ∧
      |stepFall w zp θ - fall semiMajorAxis eccentricitySq w zp θ| ≤ 1e-11 := by
  rcases normal_bounds θ with ⟨hR0, hR, hRk⟩
  rw [stepHeight_sub, stepSlope_sub, stepFall_sub]
  generalize normalRadius semiMajorAxis eccentricitySq θ = N at *
  have hNs : N * Real.sin θ ^ 2 ≤ 6400000 :=
    (mul_le_of_le_one_right hR0 (Real.sin_sq_le_one θ)).trans hR
  have hNs0 : 0 ≤ N * Real.sin θ ^ 2 := mul_nonneg hR0 (sq_nonneg _)
  have hNk0 : 0 ≤ N / root eccentricitySq θ ^ 2 := div_nonneg hR0 (sq_nonneg _)
  have hNc : |N * (Real.sin θ * Real.cos θ)| ≤ 6400000 := by
    rw [abs_mul, abs_mul, abs_of_nonneg hR0]
    refine (mul_le_of_le_one_right hR0 ?_).trans hR
    exact mul_le_one₀ (Real.abs_sin_le_one θ) (abs_nonneg _) (Real.abs_cos_le_one θ)
  refine ⟨gap_mul_le _ ?_, gap_mul_le _ (hNc.trans (by norm_num)), gap_mul_le _ ?_⟩
  · rw [abs_of_nonneg hNs0]
    exact hNs.trans (by norm_num)
  · rw [abs_le]
    constructor <;> linarith

/-! ### Near the direction of the position -/

section Direction

variable (r ψ : ℝ) (hr : 6300000 ≤ r)

/-- The term of the slope that does not depend on the position. -/
theorem crossing_le (θ : ℝ) :
    |semiMajorAxis * eccentricitySq * (Real.sin θ * Real.cos θ) / root eccentricitySq θ|
      ≤ 21423 := by
  have hbound := abs_crossing_le eccentricitySq θ 0.9966 eccentricitySq_pos.le (by norm_num)
    (by unfold eccentricitySq; norm_num) (semiMajorAxis * eccentricitySq)
    (mul_nonneg semiMajorAxis_pos.le eccentricitySq_pos.le) 1
  rw [pow_one] at hbound
  refine hbound.trans ?_
  unfold semiMajorAxis eccentricitySq
  norm_num

include hr

/-- An angle of the quadrant at which the slope is small is near the direction. -/
theorem direction_near (θ : ℝ) (hψ : 0 ≤ ψ) (hψ' : ψ ≤ Real.pi / 2) (hθ : 0 ≤ θ)
    (hθ' : θ ≤ Real.pi / 2)
    (hslope : |slope semiMajorAxis eccentricitySq (r * Real.cos ψ) (r * Real.sin ψ) θ| ≤ 410) :
    |θ - ψ| ≤ 34500 / r := by
  have hpos : 0 < r := by linarith
  have hcross := crossing_le θ
  have hquarter : |θ - ψ| ≤ Real.pi / 2 := by
    rw [abs_le]
    constructor <;> linarith
  have hsin : r * |Real.sin (θ - ψ)| ≤ 21833 := by
    have habs : r * |Real.sin (θ - ψ)| = |r * Real.sin (θ - ψ)| := by
      rw [abs_mul, abs_of_pos hpos]
    rw [slope_polar] at hslope
    rw [habs]
    rw [abs_le] at hcross hslope ⊢
    constructor <;> linarith
  -- Within a quarter turn the sine is not much smaller than the angle.
  have hchord := Real.mul_abs_le_abs_sin hquarter
  have hpi := Real.pi_pos
  have hpi' := Real.pi_lt_d2
  rw [le_div_iff₀ hpos]
  have hangle : |θ - ψ| ≤ Real.pi / 2 * |Real.sin (θ - ψ)| := by
    calc |θ - ψ| = Real.pi / 2 * (2 / Real.pi * |θ - ψ|) := by field_simp
      _ ≤ Real.pi / 2 * |Real.sin (θ - ψ)| := by gcongr
  calc |θ - ψ| * r ≤ Real.pi / 2 * |Real.sin (θ - ψ)| * r := by gcongr
    _ = Real.pi / 2 * (r * |Real.sin (θ - ψ)|) := by ring
    _ ≤ 3.15 / 2 * 21833 := by gcongr
    _ ≤ 34500 := by norm_num

/-- Near the direction the slope falls fast. -/
theorem fall_ge (x : ℝ) (hx : |x - ψ| ≤ 34500 / r) :
    0.993 * r ≤ fall semiMajorAxis eccentricitySq (r * Real.cos ψ) (r * Real.sin ψ) x := by
  have hpos : 0 < r := by linarith
  have hcurve := abs_curvature_sub_support_le semiMajorAxis eccentricitySq x 0.9966
    eccentricitySq_pos.le (by norm_num) (by unfold eccentricitySq; norm_num) semiMajorAxis_pos.le
    eccentricitySq_lt_one
  have hcurve' : (semiMajorAxis : ℝ) * eccentricitySq / 0.9966 ^ 3 ≤ 43200 := by
    unfold semiMajorAxis eccentricitySq
    norm_num
  have hcos := Real.one_sub_sq_div_two_le_cos (x := x - ψ)
  have hsmall : |x - ψ| ≤ 0.0055 := by
    refine hx.trans ?_
    rw [div_le_iff₀ hpos]
    norm_num
    linarith
  have hsq : (x - ψ) ^ 2 ≤ 0.0055 ^ 2 := by
    rw [← sq_abs]
    exact pow_le_pow_left₀ (abs_nonneg _) hsmall 2
  have hproj : 0.9999 * r ≤ r * Real.cos (x - ψ) := by
    rw [mul_comm r]
    refine mul_le_mul_of_nonneg_right ?_ hpos.le
    norm_num at hsq ⊢
    linarith
  rw [fall_polar]
  rw [abs_le] at hcurve
  norm_num at hproj ⊢
  linarith

/-- Near the direction the slope is bounded. -/
theorem slope_le (x : ℝ) (hx : |x - ψ| ≤ 34500 / r) :
    |slope semiMajorAxis eccentricitySq (r * Real.cos ψ) (r * Real.sin ψ) x| ≤ 56000 := by
  have hpos : 0 < r := by linarith
  have hcross := crossing_le x
  have hsin : |r * Real.sin (x - ψ)| ≤ 34500 := by
    have hle : |Real.sin (x - ψ)| ≤ |x - ψ| := by
      have hlip := Real.abs_sin_sub_sin_le (x - ψ) 0
      rwa [Real.sin_zero, sub_zero, sub_zero] at hlip
    rw [abs_mul, abs_of_pos hpos]
    calc r * |Real.sin (x - ψ)| ≤ r * (34500 / r) := by gcongr; exact hle.trans hx
      _ = 34500 := mul_div_cancel₀ _ hpos.ne'
  rw [slope_polar]
  refine (abs_sub _ _).trans ?_
  linarith

/-- Near the direction the fall of the slope changes slowly. -/
theorem bend_le (x y : ℝ) (hx : |x - ψ| ≤ 34500 / r) (hy : |y - ψ| ≤ 34500 / r) :
    |fall semiMajorAxis eccentricitySq (r * Real.cos ψ) (r * Real.sin ψ) y -
        fall semiMajorAxis eccentricitySq (r * Real.cos ψ) (r * Real.sin ψ) x|
      ≤ 121000 * |y - x| := by
  rcases mean_value _ _ x y (fun t _ => hasDerivAt_fall semiMajorAxis eccentricitySq
    (r * Real.cos ψ) (r * Real.sin ψ) t eccentricitySq_pos.le eccentricitySq_lt_one)
    with ⟨ξ, hξ, heq⟩
  have hξψ := near_of_mem_uIcc x y ψ ξ _ hx hy hξ
  have hcurve := abs_crossing_le eccentricitySq ξ 0.9966 eccentricitySq_pos.le (by norm_num)
    (by unfold eccentricitySq; norm_num)
    (3 * (semiMajorAxis * eccentricitySq * (1 - eccentricitySq)))
    (by unfold semiMajorAxis eccentricitySq; norm_num) 5
  have hcurve' : 3 * ((semiMajorAxis : ℝ) * eccentricitySq * (1 - eccentricitySq)) /
      (2 * 0.9966 ^ 5) ≤ 65000 := by
    unfold semiMajorAxis eccentricitySq
    norm_num
  have hterm : 3 * ((semiMajorAxis : ℝ) * eccentricitySq * (1 - eccentricitySq) *
      (Real.sin ξ * Real.cos ξ)) = 3 * (semiMajorAxis * eccentricitySq * (1 - eccentricitySq)) *
        (Real.sin ξ * Real.cos ξ) := by ring
  rw [heq, abs_mul, hterm]
  refine mul_le_mul_of_nonneg_right ((abs_add_le _ _).trans ?_) (abs_nonneg _)
  linarith [slope_le r ψ hr ξ hξψ]

/-- The way from the first latitude to the exact one. -/
theorem step_approach (θ φ : ℝ) (hθ : |θ - ψ| ≤ 34500 / r) (hφ : |φ - ψ| ≤ 34500 / r)
    (hlevel : slope semiMajorAxis eccentricitySq (r * Real.cos ψ) (r * Real.sin ψ) φ = 0) :
    Approach (height semiMajorAxis eccentricitySq (r * Real.cos ψ) (r * Real.sin ψ))
      (slope semiMajorAxis eccentricitySq (r * Real.cos ψ) (r * Real.sin ψ))
      (fall semiMajorAxis eccentricitySq (r * Real.cos ψ) (r * Real.sin ψ)) 121000 θ φ where
  height := fun x _ => hasDerivAt_height _ _ _ _ x eccentricitySq_pos.le eccentricitySq_lt_one
  slope := fun x _ => hasDerivAt_slope _ _ _ _ x eccentricitySq_pos.le eccentricitySq_lt_one
  bend := fun x hx => bend_le r ψ hr θ x hθ (near_of_mem_uIcc θ φ ψ x _ hθ hφ hx)
  flat := hlevel

/-- A first latitude whose slope is small is so near the exact one that the slope
    decides the distance. -/
theorem start_distance (θ φ : ℝ) (hθ : |θ - ψ| ≤ 34500 / r) (hφ : |φ - ψ| ≤ 34500 / r)
    (hlevel : slope semiMajorAxis eccentricitySq (r * Real.cos ψ) (r * Real.sin ψ) φ = 0)
    (hsmall : |slope semiMajorAxis eccentricitySq (r * Real.cos ψ) (r * Real.sin ψ) θ| ≤ 410) :
    |φ - θ| ≤ 6.56e-5 := by
  have hle := (step_approach r ψ hr θ φ hθ hφ hlevel).distance_le (0.993 * r) (fun x hx =>
    fall_ge r ψ hr x (near_of_mem_uIcc θ φ ψ x _ hθ hφ hx))
  have hfar : 6255000 * |φ - θ| ≤ 0.993 * r * |φ - θ| := by
    refine mul_le_mul_of_nonneg_right ?_ (abs_nonneg _)
    norm_num
    linarith
  norm_num at hle hfar ⊢
  linarith

end Direction

/-! ### The accuracy of the step -/

/-- The two error bounds, for a start that is near enough. -/
theorem step_errors (d δ : ℝ) (hd : 6200000 ≤ d) (hδ : 0 ≤ δ) (hδ' : δ ≤ 6.56e-5) :
    placeError 121000 1e-11 d δ ≤ 1e-10 ∧ heightError 121000 1e-11 d δ ≤ 1e-6 := by
  have hd0 : 0 < d := by linarith
  have hnum : 1e-11 + 1e-11 * δ + 121000 * δ ^ 2 ≤ 5.3e-4 := by
    calc 1e-11 + 1e-11 * δ + 121000 * δ ^ 2
        ≤ 1e-11 + 1e-11 * 6.56e-5 + 121000 * 6.56e-5 ^ 2 := by gcongr
      _ ≤ 5.3e-4 := by norm_num
  have hnum0 : 0 ≤ 1e-11 + 1e-11 * δ + 121000 * δ ^ 2 := by positivity
  constructor
  · calc placeError 121000 1e-11 d δ ≤ 5.3e-4 / 6200000 :=
          div_le_div₀ (by norm_num) hnum (by norm_num) hd
      _ ≤ 1e-10 := by norm_num
  · -- The square of the place error is divided by the fall only once.
    have hsquare : d * placeError 121000 1e-11 d δ ^ 2
        = (1e-11 + 1e-11 * δ + 121000 * δ ^ 2) ^ 2 / d := by
      unfold placeError
      field_simp
    rw [heightError, hsquare]
    calc 1e-11 + 1e-11 * δ + 1e-11 * δ ^ 2 + 121000 * δ ^ 3 +
          (1e-11 + 1e-11 * δ + 121000 * δ ^ 2) ^ 2 / d
        ≤ 1e-11 + 1e-11 * 6.56e-5 + 1e-11 * 6.56e-5 ^ 2 + 121000 * 6.56e-5 ^ 3 +
          5.3e-4 ^ 2 / 6200000 := by gcongr
      _ ≤ 1e-6 := by norm_num

/-- Latitude and altitude of a position in the direction `ψ`, whose exact
    latitude is `φ`. -/
theorem latAlt_accurate (r ψ φ : ℝ) (hr : 6300000 ≤ r) (hψ : 0 ≤ ψ) (hψ' : ψ ≤ Real.pi / 2)
    (hφ : 0 ≤ φ) (hφ' : φ ≤ Real.pi / 2)
    (hlevel : slope semiMajorAxis eccentricitySq (r * Real.cos ψ) (r * Real.sin ψ) φ = 0) :
    ∃ lat alt, latAlt ((r * Real.cos ψ) ^ 2) ((r * Real.sin ψ) ^ 2) (r * Real.sin ψ)
        = .ok (lat, alt) ∧
      |lat - φ| ≤ 1e-10 ∧
      |alt - height semiMajorAxis eccentricitySq (r * Real.cos ψ) (r * Real.sin ψ) φ| ≤ 1e-6 := by
  have hpos : 0 < r := by linarith
  rcases start_slope r ψ hr hψ hψ' with ⟨θ, hθ, hθ', hstart, hsmall⟩
  have hnearθ := direction_near r ψ hr θ hψ hψ' hθ hθ' hsmall
  have hnearφ := direction_near r ψ hr φ hψ hψ' hφ hφ' (by rw [hlevel, abs_zero]; norm_num)
  have happroach := step_approach r ψ hr θ φ hnearθ hnearφ hlevel
  have hdistance := start_distance r ψ hr θ φ hnearθ hnearφ hlevel hsmall
  rcases step_near (r * Real.cos ψ) (r * Real.sin ψ) θ with ⟨hheight, hslope, hfall⟩
  have hfallpos : 6200000 ≤ stepFall (r * Real.cos ψ) (r * Real.sin ψ) θ := by
    have hge := fall_ge r ψ hr θ hnearθ
    rw [abs_le] at hfall
    norm_num at hge hfall
    linarith
  have hsampled : Sampled (height semiMajorAxis eccentricitySq (r * Real.cos ψ) (r * Real.sin ψ))
      (slope semiMajorAxis eccentricitySq (r * Real.cos ψ) (r * Real.sin ψ))
      (fall semiMajorAxis eccentricitySq (r * Real.cos ψ) (r * Real.sin ψ)) θ 1e-11
      (stepHeight (r * Real.cos ψ) (r * Real.sin ψ) θ)
      (stepSlope (r * Real.cos ψ) (r * Real.sin ψ) θ)
      (stepFall (r * Real.cos ψ) (r * Real.sin ψ) θ) :=
    ⟨hheight, hslope, hfall, by linarith⟩
  rcases step_errors _ _ hfallpos (abs_nonneg (φ - θ)) hdistance with ⟨hplaceLe, hheightLe⟩
  have hplace := (step_place happroach (by norm_num) hsampled).trans hplaceLe
  have htop := (step_height happroach (by norm_num) hsampled).trans hheightLe
  refine ⟨_, _, ?_, by rw [abs_sub_comm]; exact hplace, by rw [abs_sub_comm]; exact htop⟩
  -- The code finds the same distance from the centre and takes the same step.
  have hw : 0 ≤ r * Real.cos ψ :=
    mul_nonneg hpos.le (Real.cos_nonneg_of_neg_pi_div_two_le_of_le (by linarith) hψ')
  have hlength : r ^ 2 = (r * Real.cos ψ) ^ 2 + (r * Real.sin ψ) ^ 2 := by
    linear_combination -r ^ 2 * Real.sin_sq_add_cos_sq ψ
  rw [latAlt_eq _ _ r hw hpos hlength, mul_div_cancel_left₀ _ hpos.ne',
    mul_div_cancel_left₀ _ hpos.ne', hstart, ok_bind]
  exact newtonStep_startAt _ _ θ (by linarith)

end SimpleDgps
