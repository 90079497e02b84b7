import Mathlib.Analysis.Calculus.MeanValue
import Mathlib.Analysis.SpecialFunctions.Sqrt
import Mathlib.Analysis.SpecialFunctions.Trigonometric.ArctanDeriv
import Mathlib.Tactic.FieldSimp
import Mathlib.Tactic.Linarith
import Mathlib.Tactic.LinearCombination
import Mathlib.Tactic.Positivity
import Mathlib.Topology.Algebra.Module.ModuleTopology

/-!
# The True Anomaly

The angle at the focus of an ellipse, as a smooth function of the angle at its
centre.

A point of an ellipse is described by the eccentric anomaly `E`, and seen from the
focus it is in the direction of the true anomaly. Taken from the coordinates with
an arc tangent of two arguments the true anomaly jumps once a turn. `anomaly` adds
to `E` what the two angles differ by, which is an arc tangent of one argument, and
never jumps. It has the sine and the cosine it should have (`sin_anomaly`,
`cos_anomaly`), and its derivative is elementary (`hasDerivAt_anomaly`). The true
anomaly is fastest where the point is nearest to the focus, and `anomaly_lipschitz`
bounds it by the speed there.

## Main definitions

* `flattening`: The ratio of the half axes.
* `lead`: The parameter of the angle by which the true anomaly is ahead.
* `anomaly`: The true anomaly.

## Theorems

* `lead_sum`, `lead_eccentricity`, `lead_flattening`: The parameter.
* `cos_anomaly`, `sin_anomaly`: The direction of the point.
* `hasDerivAt_anomaly`: The speed.
* `anomaly_lipschitz`: The largest speed.
-/

namespace Toolkit

namespace Anomaly

open Real

noncomputable section

/-- The ratio of the half axes. -/
def flattening (e : ℝ) : ℝ := √(1 - e ^ 2)

/-- The parameter of the angle by which the true anomaly is ahead. -/
def lead (e : ℝ) : ℝ := e / (1 + flattening e)

/-- The tangent of half the angle by which the true anomaly is ahead. -/
def ahead (e E : ℝ) : ℝ := lead e * sin E / (1 - lead e * cos E)

/-- The true anomaly. -/
def anomaly (e E : ℝ) : ℝ := E + 2 • arctan (ahead e E)

variable (e E : ℝ) (he : 0 ≤ e) (he1 : e < 1)

theorem flattening_nonneg : 0 ≤ flattening e := sqrt_nonneg _

include he he1

theorem flattening_sq : flattening e ^ 2 = 1 - e ^ 2 :=
  sq_sqrt (sub_nonneg.mpr (pow_le_one₀ he he1.le))

theorem flattening_le_one : flattening e ≤ 1 := by
  have hsq := flattening_sq e he he1
  refine (sq_le_one_iff₀ (flattening_nonneg e)).mp ?_
  rw [hsq]
  exact sub_le_self 1 (sq_nonneg e)

/-- The three relations between the parameter and the shape of the ellipse. -/
theorem lead_sum : (1 + lead e ^ 2) * (1 + flattening e) = 2 := by
  have hpos : 1 + flattening e ≠ 0 := by linarith [flattening_nonneg e]
  have hsq := flattening_sq e he he1
  unfold lead
  field_simp
  linear_combination hsq

theorem lead_eccentricity : (1 + lead e ^ 2) * e = 2 * lead e := by
  have hpos : 1 + flattening e ≠ 0 := by linarith [flattening_nonneg e]
  have hsum := lead_sum e he he1
  have hlead : lead e * (1 + flattening e) = e := div_mul_cancel₀ e hpos
  refine mul_right_cancel₀ hpos ?_
  linear_combination e * hsum - 2 * hlead

theorem lead_flattening : (1 + lead e ^ 2) * flattening e = 1 - lead e ^ 2 := by
  have hsum := lead_sum e he he1
  linear_combination hsum

omit he in
theorem lead_lt_one : lead e < 1 := by
  have hpos : 0 < 1 + flattening e := by linarith [flattening_nonneg e]
  rw [lead, div_lt_one hpos]
  linarith [flattening_nonneg e]

omit he1 in
theorem lead_nonneg : 0 ≤ lead e :=
  div_nonneg he (by linarith [flattening_nonneg e])

omit he he1 in
/-- The denominators. -/
theorem one_sub_mul_cos_pos (c : ℝ) (hc : 0 ≤ c) (hc1 : c < 1) : 0 < 1 - c * cos E := by
  have hle : c * cos E ≤ c := mul_le_of_le_one_right hc (cos_le_one E)
  linarith

theorem ahead_denominator_pos : 0 < 1 - lead e * cos E :=
  one_sub_mul_cos_pos E (lead e) (lead_nonneg e he) (lead_lt_one e he1)

/-- The square of the distance that the half angle is seen over. -/
theorem ahead_distance :
    (1 - lead e * cos E) ^ 2 + (lead e * sin E) ^ 2 = (1 + lead e ^ 2) * (1 - e * cos E) := by
  have hunit := sin_sq_add_cos_sq E
  have hecc := lead_eccentricity e he he1
  linear_combination lead e ^ 2 * hunit + cos E * hecc

theorem one_add_ahead_sq :
    (1 + ahead e E ^ 2) * (1 - lead e * cos E) ^ 2 = (1 + lead e ^ 2) * (1 - e * cos E) := by
  have hden := (ahead_denominator_pos e E he he1).ne'
  rw [← ahead_distance e E he he1, ahead]
  field_simp

/-- The cosine of the angle by which the true anomaly is ahead. -/
theorem cos_ahead :
    cos (2 * arctan (ahead e E)) * ((1 + lead e ^ 2) * (1 - e * cos E))
      = (1 - lead e * cos E) ^ 2 - (lead e * sin E) ^ 2 := by
  have hden := (ahead_denominator_pos e E he he1).ne'
  have hsum : 1 + ahead e E ^ 2 ≠ 0 := by positivity
  rw [cos_two_mul, cos_sq_arctan, ← one_add_ahead_sq e E he he1]
  -- The double angle of an arc tangent is rational in its argument.
  have hsq : ahead e E ^ 2 * (1 - lead e * cos E) ^ 2 = (lead e * sin E) ^ 2 := by
    unfold ahead
    field_simp
  field_simp
  linear_combination -hsq

/-- The sine of it. -/
theorem sin_ahead :
    sin (2 * arctan (ahead e E)) * ((1 + lead e ^ 2) * (1 - e * cos E))
      = 2 * (lead e * sin E) * (1 - lead e * cos E) := by
  have hden := (ahead_denominator_pos e E he he1).ne'
  have hsum : 1 + ahead e E ^ 2 ≠ 0 := by positivity
  have hcos := (cos_arctan_pos (ahead e E)).ne'
  have hsin : sin (arctan (ahead e E)) = ahead e E * cos (arctan (ahead e E)) := by
    rw [← tan_mul_cos hcos, tan_arctan]
  have hnum : ahead e E * (1 - lead e * cos E) = lead e * sin E := by
    unfold ahead
    exact div_mul_cancel₀ _ hden
  rw [sin_two_mul, hsin, ← one_add_ahead_sq e E he he1, ← hnum]
  have hsq := cos_sq_arctan (ahead e E)
  rw [eq_div_iff hsum] at hsq
  linear_combination 2 * ahead e E * (1 - lead e * cos E) ^ 2 * hsq

/-- The direction of the point has the cosine it should have. -/
theorem cos_anomaly : cos (anomaly e E) * (1 - e * cos E) = cos E - e := by
  have hone : (1 + lead e ^ 2) ≠ 0 := by positivity
  have hc := cos_ahead e E he he1
  have hs := sin_ahead e E he he1
  have hecc := lead_eccentricity e he he1
  have hunit := sin_sq_add_cos_sq E
  refine mul_left_cancel₀ hone ?_
  rw [anomaly, two_nsmul, ← two_mul, cos_add]
  linear_combination cos E * hc - sin E * hs + hecc + (lead e ^ 2 * cos E - 2 * lead e) * hunit

/-- And the sine. -/
theorem sin_anomaly : sin (anomaly e E) * (1 - e * cos E) = flattening e * sin E := by
  have hone : (1 + lead e ^ 2) ≠ 0 := by positivity
  have hc := cos_ahead e E he he1
  have hs := sin_ahead e E he he1
  have hflat := lead_flattening e he he1
  have hunit := sin_sq_add_cos_sq E
  refine mul_left_cancel₀ hone ?_
  rw [anomaly, two_nsmul, ← two_mul, sin_add]
  linear_combination sin E * hc + cos E * hs - sin E * hflat - lead e ^ 2 * sin E * hunit

/-- The speed of the true anomaly. -/
theorem hasDerivAt_anomaly :
    HasDerivAt (anomaly e) (flattening e / (1 - e * cos E)) E := by
  have hden := (ahead_denominator_pos e E he he1).ne'
  have hpos := (one_sub_mul_cos_pos E e he he1).ne'
  have hone : (1 + lead e ^ 2) ≠ 0 := by positivity
  have hsum : 1 + ahead e E ^ 2 ≠ 0 := by positivity
  have hsin : HasDerivAt (fun x => lead e * sin x) (lead e * cos E) E :=
    (hasDerivAt_sin E).const_mul (lead e)
  have hcos : HasDerivAt (fun x => 1 - lead e * cos x) (lead e * sin E) E :=
    (((hasDerivAt_cos E).const_mul (lead e)).const_sub 1).congr_deriv (by ring)
  have hahead : HasDerivAt (ahead e)
      ((lead e * cos E * (1 - lead e * cos E) - lead e * sin E * (lead e * sin E)) /
        (1 - lead e * cos E) ^ 2) E := hsin.div hcos hden
  -- The denominators combine, since the half angle is seen over their distance.
  have hspeed : 1 / (1 + ahead e E ^ 2) *
      ((lead e * cos E * (1 - lead e * cos E) - lead e * sin E * (lead e * sin E)) /
        (1 - lead e * cos E) ^ 2)
        = (lead e * cos E * (1 - lead e * cos E) - lead e * sin E * (lead e * sin E)) /
          ((1 + lead e ^ 2) * (1 - e * cos E)) := by
    rw [← one_add_ahead_sq e E he he1]
    field_simp
  refine ((hasDerivAt_id E).add (hahead.arctan.const_smul 2)).congr_deriv ?_
  rw [hspeed, two_nsmul, ← two_mul]
  have hunit := sin_sq_add_cos_sq E
  have hecc := lead_eccentricity e he he1
  have hflat := lead_flattening e he he1
  generalize hD : 1 - e * cos E = D at hpos ⊢
  field_simp
  linear_combination -2 * lead e ^ 2 * hunit - cos E * hecc - hflat - (1 + lead e ^ 2) * hD

/-- The true anomaly is no faster than at the nearest point. -/
theorem anomaly_lipschitz (a b : ℝ) : |anomaly e a - anomaly e b| ≤ 1 / (1 - e) * |a - b| := by
  have hgap : 0 < 1 - e := sub_pos.mpr he1
  refine convex_univ.norm_image_sub_le_of_norm_hasDerivWithin_le
    (fun x _ => (hasDerivAt_anomaly e x he he1).hasDerivWithinAt) (fun x _ => ?_)
    (Set.mem_univ b) (Set.mem_univ a)
  have hpos := one_sub_mul_cos_pos x e he he1
  rw [norm_eq_abs, abs_of_nonneg (div_nonneg (flattening_nonneg e) hpos.le)]
  refine div_le_div₀ zero_le_one (flattening_le_one e he he1) hgap ?_
  exact sub_le_sub_left (mul_le_of_le_one_right he (cos_le_one x)) 1

end

end Anomaly

end Toolkit
