import Mathlib.Analysis.Calculus.Deriv.Inv
import Mathlib.Analysis.Calculus.MeanValue
import Mathlib.Analysis.SpecialFunctions.Sqrt
import Mathlib.Analysis.SpecialFunctions.Trigonometric.Bounds
import Mathlib.Analysis.SpecialFunctions.Trigonometric.Inverse
import Mathlib.Tactic.FieldSimp
import Mathlib.Tactic.Linarith
import Mathlib.Tactic.LinearCombination
import Mathlib.Tactic.Positivity
import Mathlib.Topology.Algebra.Module.ModuleTopology

/-!
# The Meridian Ellipse

An ellipse described by the direction of its normal.

A point outside an ellipse has a foot, the nearest point of the ellipse, and the
normal there passes through the point. Finding the foot means finding the angle
of that normal. The way to it is the tangent: for an angle `θ` there is one
tangent with the normal in that direction, and `height` is how far the point is
above it. The height is largest where the tangent touches at the foot. So the
angle of the foot is the level point of a smooth function, whose `slope` and
whose `fall` of the slope are elementary (`hasDerivAt_height`,
`hasDerivAt_slope`, `hasDerivAt_fall`), and the height there is the distance.

The ellipse is given by its larger half axis `a` and the square `E` of its
eccentricity, and `w` and `z` are the two coordinates of the point, the first
along the larger axis. The square root of `1 - E * sin θ ^ 2` occurs everywhere
and is `root`.

## Main definitions

* `root`: The square root in all the formulas.
* `support`: The distance of the tangent from the centre.
* `normalRadius`: The length of the normal, from the ellipse to the smaller axis.
* `curvatureRadius`: The radius of curvature.
* `height`, `slope`, `fall`: The height above the tangent, with its derivatives.
* `across`, `along`: The coordinates of a point from its foot and distance.

## Theorems

* `root_pos`, `root_le_one`, `root_ge`: The square root is positive and near one.
* `support_normal`, `curvatureRadius_normal`, `crossing_normal`: Their terms by the
  length of the normal.
* `hasDerivAt_height`, `hasDerivAt_slope`, `hasDerivAt_fall`: The derivatives.
* `across_neg`, `along_neg`: The two halves of the ellipse.
* `slope_foot`, `height_foot`: The foot is level, and its height the distance.
* `foot_of_slope`: A level point is a foot.
* `exists_level`: Every point of the quadrant has one.
* `tangent_above`: The ellipse lies below its tangents.
* `sq_projection`: How far the tangent's normal points to a level point.
* `across_moved`, `along_moved`: The coordinates when foot and distance move.
* `slope_polar`, `fall_polar`: Slope and fall in polar coordinates.
-/

namespace Toolkit

namespace Ellipse

open Real

noncomputable section

/-- The square root in all the formulas. -/
def root (E θ : ℝ) : ℝ := √(1 - E * sin θ ^ 2)

/-- The distance from the centre of the tangent whose normal has angle `θ`. -/
def support (a E θ : ℝ) : ℝ := a * root E θ

/-- The length of the normal between the ellipse and the smaller axis. -/
def normalRadius (a E θ : ℝ) : ℝ := a / root E θ

/-- The radius of curvature where the normal has angle `θ`. -/
def curvatureRadius (a E θ : ℝ) : ℝ := a * (1 - E) / root E θ ^ 3

/-- The height of a point above the tangent. -/
def height (a E w z θ : ℝ) : ℝ := w * cos θ + z * sin θ - support a E θ

/-- How the height changes with the angle. -/
def slope (a E w z θ : ℝ) : ℝ :=
  z * cos θ - w * sin θ + a * E * (sin θ * cos θ) / root E θ

/-- How fast the slope falls. -/
def fall (a E w z θ : ℝ) : ℝ :=
  w * cos θ + z * sin θ + (curvatureRadius a E θ - support a E θ)

/-- The coordinate along the larger axis of the point at distance `h` from the
    foot with angle `φ`. -/
def across (a E h φ : ℝ) : ℝ := (normalRadius a E φ + h) * cos φ

/-- The other coordinate. -/
def along (a E h φ : ℝ) : ℝ := (normalRadius a E φ * (1 - E) + h) * sin φ

/-! ### The square root -/

section Root

theorem root_neg (E θ : ℝ) : root E (-θ) = root E θ := by rw [root, root, sin_neg, neg_sq]

variable (E θ : ℝ) (hE : 0 ≤ E) (hE1 : E < 1)

include hE hE1

theorem radicand_pos : 0 < 1 - E * sin θ ^ 2 := by
  have hle : E * sin θ ^ 2 ≤ E := mul_le_of_le_one_right hE (sin_sq_le_one θ)
  linarith

theorem root_pos : 0 < root E θ := sqrt_pos.mpr (radicand_pos E θ hE hE1)

theorem root_sq : root E θ ^ 2 = 1 - E * sin θ ^ 2 := sq_sqrt (radicand_pos E θ hE hE1).le

omit hE1 in
theorem root_le_one : root E θ ≤ 1 := by
  rw [root, sqrt_le_one]
  exact sub_le_self 1 (mul_nonneg hE (sq_nonneg _))

omit hE1 in
/-- A lower bound whose square is at most `1 - E` is one for the root. -/
theorem root_ge (k : ℝ) (hk : k ^ 2 ≤ 1 - E) : k ≤ root E θ := by
  have hle : E * sin θ ^ 2 ≤ E := mul_le_of_le_one_right hE (sin_sq_le_one θ)
  refine le_sqrt_of_sq_le ?_
  linarith

/-! The terms of height, slope and fall by the length of the normal. -/

theorem support_normal (a : ℝ) :
    support a E θ = normalRadius a E θ * (1 - E * sin θ ^ 2) := by
  have hroot := (root_pos E θ hE hE1).ne'
  unfold support normalRadius
  rw [← root_sq E θ hE hE1]
  field_simp

theorem curvatureRadius_normal (a : ℝ) :
    curvatureRadius a E θ = (1 - E) * (normalRadius a E θ / root E θ ^ 2) := by
  have hroot := (root_pos E θ hE hE1).ne'
  unfold curvatureRadius normalRadius
  field_simp

theorem crossing_normal (a : ℝ) :
    a * E * (sin θ * cos θ) / root E θ = normalRadius a E θ * E * (sin θ * cos θ) := by
  have hroot := (root_pos E θ hE hE1).ne'
  unfold normalRadius
  field_simp

theorem hasDerivAt_root : HasDerivAt (root E) (-(E * (sin θ * cos θ) / root E θ)) θ := by
  have hinner : HasDerivAt (fun x => 1 - E * sin x ^ 2) (-(2 * (E * (sin θ * cos θ)))) θ := by
    refine ((((hasDerivAt_sin θ).pow 2).const_mul E).const_sub 1).congr_deriv ?_
    ring
  refine (hinner.sqrt (radicand_pos E θ hE hE1).ne').congr_deriv ?_
  have hroot : √(1 - E * sin θ ^ 2) ≠ 0 := (root_pos E θ hE hE1).ne'
  rw [root]
  field_simp

end Root

/-! ### The height and its derivatives -/

section Derivatives

variable (a E w z θ : ℝ) (hE : 0 ≤ E) (hE1 : E < 1)

/-- The part of the height that does not depend on the ellipse. -/
theorem hasDerivAt_projection :
    HasDerivAt (fun x => w * cos x + z * sin x) (z * cos θ - w * sin θ) θ := by
  refine (((hasDerivAt_cos θ).const_mul w).add ((hasDerivAt_sin θ).const_mul z)).congr_deriv ?_
  ring

/-- The part of the slope that does not. -/
theorem hasDerivAt_crossing :
    HasDerivAt (fun x => z * cos x - w * sin x) (-(w * cos θ + z * sin θ)) θ := by
  refine (((hasDerivAt_cos θ).const_mul z).sub ((hasDerivAt_sin θ).const_mul w)).congr_deriv ?_
  ring

include hE hE1

theorem hasDerivAt_height : HasDerivAt (height a E w z) (slope a E w z θ) θ := by
  refine ((hasDerivAt_projection w z θ).sub
    ((hasDerivAt_root E θ hE hE1).const_mul a)).congr_deriv ?_
  unfold slope
  ring

/-- The difference of the two radii, over a common denominator. -/
theorem curvature_sub_support :
    (curvatureRadius a E θ - support a E θ) * root E θ ^ 3
      = -(a * E * (1 - 2 * sin θ ^ 2 + E * sin θ ^ 4)) := by
  have hne := (root_pos E θ hE hE1).ne'
  have hsq := root_sq E θ hE hE1
  have hfour : root E θ ^ 4 = (1 - E * sin θ ^ 2) ^ 2 := by
    rw [← hsq]
    ring
  calc (curvatureRadius a E θ - support a E θ) * root E θ ^ 3
      = a * (1 - E) - a * root E θ ^ 4 := by
        unfold curvatureRadius support
        field_simp
    _ = -(a * E * (1 - 2 * sin θ ^ 2 + E * sin θ ^ 4)) := by
        rw [hfour]
        ring

theorem hasDerivAt_slope : HasDerivAt (slope a E w z) (-fall a E w z θ) θ := by
  have hne := (root_pos E θ hE hE1).ne'
  have hsq := root_sq E θ hE hE1
  have hprod : HasDerivAt (fun x => a * E * (sin x * cos x))
      (a * E * (cos θ ^ 2 - sin θ ^ 2)) θ := by
    refine (((hasDerivAt_sin θ).mul (hasDerivAt_cos θ)).const_mul (a * E)).congr_deriv ?_
    ring
  have hquot := hprod.fun_div (hasDerivAt_root E θ hE hE1) hne
  refine ((hasDerivAt_crossing w z θ).add hquot).congr_deriv ?_
  have hradii := curvature_sub_support a E θ hE hE1
  -- The derivative of the quotient is the difference of the two radii.
  have hkey : (a * E * (cos θ ^ 2 - sin θ ^ 2) * root E θ -
      a * E * (sin θ * cos θ) * -(E * (sin θ * cos θ) / root E θ)) / root E θ ^ 2
        = -(curvatureRadius a E θ - support a E θ) := by
    have hclear : (a * E * (cos θ ^ 2 - sin θ ^ 2) * root E θ -
        a * E * (sin θ * cos θ) * -(E * (sin θ * cos θ) / root E θ)) / root E θ ^ 2
          = a * E * ((cos θ ^ 2 - sin θ ^ 2) * root E θ ^ 2 + E * (sin θ * cos θ) ^ 2) /
            root E θ ^ 3 := by
      field_simp
      ring
    rw [hclear, div_eq_iff (pow_ne_zero 3 hne), neg_mul, hradii, hsq, mul_pow, cos_sq']
    ring
  rw [hkey, fall]
  ring

theorem hasDerivAt_fall : HasDerivAt (fall a E w z)
    (slope a E w z θ + 3 * (a * E * (1 - E) * (sin θ * cos θ)) / root E θ ^ 5) θ := by
  have hne := (root_pos E θ hE hE1).ne'
  have hroot := hasDerivAt_root E θ hE hE1
  have hcurve : HasDerivAt (curvatureRadius a E)
      (3 * (a * E * (1 - E) * (sin θ * cos θ)) / root E θ ^ 5) θ := by
    refine ((hasDerivAt_const θ (a * (1 - E))).fun_div (hroot.fun_pow 3)
      (pow_ne_zero 3 hne)).congr_deriv ?_
    simp only [Nat.cast_ofNat]
    field_simp
    ring
  refine ((hasDerivAt_projection w z θ).add (hcurve.sub (hroot.const_mul a))).congr_deriv ?_
  unfold slope
  ring

end Derivatives

/-! ### The foot -/

/-- The ellipse is symmetric about its larger axis. -/
theorem across_neg (a E h φ : ℝ) : across a E h (-φ) = across a E h φ := by
  rw [across, across, normalRadius, normalRadius, root_neg, cos_neg]

theorem along_neg (a E h φ : ℝ) : along a E h (-φ) = -along a E h φ := by
  rw [along, along, normalRadius, normalRadius, root_neg, sin_neg, mul_neg]

section Foot

variable (a E h φ : ℝ) (hE : 0 ≤ E) (hE1 : E < 1)

include hE hE1

/-- At the angle of its foot a point's height is level. -/
theorem slope_foot : slope a E (across a E h φ) (along a E h φ) φ = 0 := by
  have hne := (root_pos E φ hE hE1).ne'
  unfold slope across along normalRadius
  field_simp
  ring

/-- The height there is the distance from the foot. -/
theorem height_foot : height a E (across a E h φ) (along a E h φ) φ = h := by
  have hne := (root_pos E φ hE hE1).ne'
  have hsq := root_sq E φ hE hE1
  have hcos := sin_sq_add_cos_sq φ
  have hfoot : normalRadius a E φ * cos φ ^ 2 + normalRadius a E φ * (1 - E) * sin φ ^ 2
      = support a E φ := by
    unfold normalRadius support
    field_simp
    linear_combination a * hcos - a * hsq
  unfold height across along
  linear_combination hfoot + h * hcos

/-- A level point is the angle of a foot, at the distance of the height. -/
theorem foot_of_slope (w z : ℝ) (hlevel : slope a E w z φ = 0) :
    w = across a E (height a E w z φ) φ ∧ z = along a E (height a E w z φ) φ := by
  have hne := (root_pos E φ hE hE1).ne'
  have hsq := root_sq E φ hE hE1
  have hcos := sin_sq_add_cos_sq φ
  have hsupport : support a E φ
      = normalRadius a E φ * cos φ ^ 2 + normalRadius a E φ * (1 - E) * sin φ ^ 2 := by
    unfold normalRadius support
    field_simp
    linear_combination a * hsq - a * hcos
  have hcross : z * cos φ - w * sin φ = -(normalRadius a E φ * E * (sin φ * cos φ)) := by
    have hterm : a * E * (sin φ * cos φ) / root E φ
        = normalRadius a E φ * E * (sin φ * cos φ) := by
      unfold normalRadius
      field_simp
    unfold slope at hlevel
    rw [hterm] at hlevel
    linarith
  unfold across along height
  rw [hsupport]
  constructor
  · linear_combination (-w) * hcos - sin φ * hcross + normalRadius a E φ * cos φ * hcos
  · linear_combination (-z) * hcos + cos φ * hcross + normalRadius a E φ * (1 - E) * sin φ * hcos

omit hE hE1 in
/-- The length of a point is that of its two parts along and across the normal. -/
theorem sq_length (w z : ℝ) :
    (w * cos φ + z * sin φ) ^ 2 + (z * cos φ - w * sin φ) ^ 2 = w ^ 2 + z ^ 2 := by
  linear_combination (w ^ 2 + z ^ 2) * sin_sq_add_cos_sq φ

omit hE hE1 in
/-- At a level point the part across the normal is known. -/
theorem sq_projection (w z : ℝ) (hlevel : slope a E w z φ = 0) :
    (w * cos φ + z * sin φ) ^ 2
      = w ^ 2 + z ^ 2 - (a * E * (sin φ * cos φ) / root E φ) ^ 2 := by
  have hlength := sq_length φ w z
  have hcross : z * cos φ - w * sin φ = -(a * E * (sin φ * cos φ) / root E φ) := by
    unfold slope at hlevel
    linarith
  rw [hcross, neg_sq] at hlength
  linarith

/-- The ellipse and its inside lie below its tangents. -/
theorem tangent_above (w z : ℝ) (ha : 0 < a)
    (hin : w ^ 2 / a ^ 2 + z ^ 2 / (a ^ 2 * (1 - E)) ≤ 1) :
    w * cos φ + z * sin φ ≤ support a E φ := by
  have hsq := root_sq E φ hE hE1
  have hroot := root_pos E φ hE hE1
  have hunit := sin_sq_add_cos_sq φ
  have hflat : 0 < 1 - E := sub_pos.mpr hE1
  refine le_of_sq_le_sq ?_ (mul_pos ha hroot).le
  -- The inequality of Cauchy and Schwarz in coordinates that make the ellipse a circle.
  have hcauchy : (w * cos φ + z * sin φ) ^ 2
      ≤ (w ^ 2 / a ^ 2 + z ^ 2 / (a ^ 2 * (1 - E))) * support a E φ ^ 2 := by
    have hsupport : support a E φ ^ 2 = a ^ 2 * cos φ ^ 2 + a ^ 2 * (1 - E) * sin φ ^ 2 := by
      rw [support, mul_pow, hsq]
      linear_combination -a ^ 2 * hunit
    have hgap : (w ^ 2 / a ^ 2 + z ^ 2 / (a ^ 2 * (1 - E))) * support a E φ ^ 2 -
        (w * cos φ + z * sin φ) ^ 2
          = (w * (1 - E) * sin φ - z * cos φ) ^ 2 / (1 - E) := by
      rw [hsupport]
      field_simp
      ring
    have hnonneg : 0 ≤ (w * (1 - E) * sin φ - z * cos φ) ^ 2 / (1 - E) :=
      div_nonneg (sq_nonneg _) hflat.le
    linarith
  exact hcauchy.trans (mul_le_of_le_one_left (sq_nonneg _) hin)

end Foot

section Moving

variable (a E h φ : ℝ) (hE : 0 ≤ E) (hE1 : E < 1)

include hE hE1

theorem hasDerivAt_normalRadius :
    HasDerivAt (normalRadius a E) (a * E * (sin φ * cos φ) / root E φ ^ 3) φ := by
  have hne := (root_pos E φ hE hE1).ne'
  refine ((hasDerivAt_const φ a).fun_div (hasDerivAt_root E φ hE hE1) hne).congr_deriv ?_
  field_simp
  ring

/-- Turning the normal moves the point on a circle around the centre of
    curvature. -/
theorem hasDerivAt_across :
    HasDerivAt (across a E h) (-((curvatureRadius a E φ + h) * sin φ)) φ := by
  have hne := (root_pos E φ hE hE1).ne'
  have hsq := root_sq E φ hE hE1
  have hunit := sin_sq_add_cos_sq φ
  refine (((hasDerivAt_normalRadius a E φ hE hE1).add_const h).mul
    (hasDerivAt_cos φ)).congr_deriv ?_
  unfold normalRadius curvatureRadius
  field_simp
  linear_combination a * E * sin φ * hunit - a * sin φ * hsq

theorem hasDerivAt_along :
    HasDerivAt (along a E h) ((curvatureRadius a E φ + h) * cos φ) φ := by
  have hne := (root_pos E φ hE hE1).ne'
  have hsq := root_sq E φ hE hE1
  refine ((((hasDerivAt_normalRadius a E φ hE hE1).mul_const (1 - E)).add_const h).mul
    (hasDerivAt_sin φ)).congr_deriv ?_
  unfold normalRadius curvatureRadius
  field_simp
  linear_combination a * (1 - E) * cos φ * hsq

omit hE hE1 in
/-- A function whose derivative is at most `k` times a number of at most one. -/
theorem moved_le (f c : ℝ → ℝ) (k θ : ℝ)
    (hf : ∀ x, HasDerivAt f ((curvatureRadius a E x + h) * c x) x) (hc : ∀ x, |c x| ≤ 1)
    (hk : ∀ x, |curvatureRadius a E x + h| ≤ k) : |f θ - f φ| ≤ k * |θ - φ| := by
  refine convex_univ.norm_image_sub_le_of_norm_hasDerivWithin_le
    (fun x _ => (hf x).hasDerivWithinAt) (fun x _ => ?_) (Set.mem_univ φ) (Set.mem_univ θ)
  rw [Real.norm_eq_abs, abs_mul]
  calc |curvatureRadius a E x + h| * |c x| ≤ k * 1 :=
        mul_le_mul (hk x) (hc x) (abs_nonneg _) ((abs_nonneg _).trans (hk x))
    _ = k := mul_one k

/-- The first coordinate when the foot's angle and the distance change. -/
theorem across_moved (h' θ k : ℝ) (hk : ∀ x, |curvatureRadius a E x + h'| ≤ k) :
    |across a E h' θ - across a E h φ| ≤ k * |θ - φ| + |h' - h| := by
  have hturn : |across a E h' θ - across a E h' φ| ≤ k * |θ - φ| :=
    moved_le a E h' φ (across a E h') (fun x => -sin x) k θ
      (fun x => (hasDerivAt_across a E h' x hE hE1).congr_deriv (by ring))
      (fun x => (abs_neg (sin x)).trans_le (abs_sin_le_one x)) hk
  have hraise : across a E h' φ - across a E h φ = (h' - h) * cos φ := by
    unfold across
    ring
  calc |across a E h' θ - across a E h φ|
      ≤ |across a E h' θ - across a E h' φ| + |across a E h' φ - across a E h φ| :=
        abs_sub_le _ _ _
    _ ≤ k * |θ - φ| + |h' - h| := by
        rw [hraise, abs_mul]
        exact add_le_add hturn (mul_le_of_le_one_right (abs_nonneg _) (abs_cos_le_one φ))

/-- The other coordinate. -/
theorem along_moved (h' θ k : ℝ) (hk : ∀ x, |curvatureRadius a E x + h'| ≤ k) :
    |along a E h' θ - along a E h φ| ≤ k * |θ - φ| + |h' - h| := by
  have hturn : |along a E h' θ - along a E h' φ| ≤ k * |θ - φ| :=
    moved_le a E h' φ (along a E h') cos k θ (fun x => hasDerivAt_along a E h' x hE hE1)
      abs_cos_le_one hk
  have hraise : along a E h' φ - along a E h φ = (h' - h) * sin φ := by
    unfold along
    ring
  calc |along a E h' θ - along a E h φ|
      ≤ |along a E h' θ - along a E h' φ| + |along a E h' φ - along a E h φ| :=
        abs_sub_le _ _ _
    _ ≤ k * |θ - φ| + |h' - h| := by
        rw [hraise, abs_mul]
        exact add_le_add hturn (mul_le_of_le_one_right (abs_nonneg _) (abs_sin_le_one φ))

end Moving

/-- Every point of the quadrant has a level point in the quadrant. -/
theorem exists_level (a E w z : ℝ) (hE : 0 ≤ E) (hE1 : E < 1) (hw : 0 ≤ w) (hz : 0 ≤ z) :
    ∃ φ ∈ Set.Icc 0 (π / 2), slope a E w z φ = 0 := by
  have hcont : ContinuousOn (slope a E w z) (Set.Icc 0 (π / 2)) := fun θ _ =>
    (hasDerivAt_slope a E w z θ hE hE1).continuousAt.continuousWithinAt
  -- The slope rises at the larger axis and falls at the smaller one.
  have hstart : slope a E w z 0 = z := by
    unfold slope
    rw [cos_zero, sin_zero]
    ring
  have hend : slope a E w z (π / 2) = -w := by
    unfold slope
    rw [cos_pi_div_two, sin_pi_div_two]
    ring
  have hzero : (0 : ℝ) ∈ Set.Icc (slope a E w z (π / 2)) (slope a E w z 0) := by
    rw [hstart, hend]
    exact ⟨neg_nonpos.mpr hw, hz⟩
  exact intermediate_value_Icc' (by positivity) hcont hzero

/-! ### Bounds -/

section Bounds

variable (a E θ k : ℝ) (hE : 0 ≤ E) (hk : 0 < k) (hk2 : k ^ 2 ≤ 1 - E)

include hE hk hk2

/-- The two radii differ by the eccentricity's share of the half axis. -/
theorem abs_curvature_sub_support_le (ha : 0 ≤ a) (hE1 : E < 1) :
    |curvatureRadius a E θ - support a E θ| ≤ a * E / k ^ 3 := by
  have hroot := root_ge E θ hE k hk2
  have hpos := root_pos E θ hE hE1
  have hs1 : sin θ ^ 2 ≤ 1 := sin_sq_le_one θ
  have hs0 : 0 ≤ sin θ ^ 2 := sq_nonneg _
  have hfour : E * sin θ ^ 4 ≤ sin θ ^ 2 := by
    calc E * sin θ ^ 4 = E * (sin θ ^ 2 * sin θ ^ 2) := by ring
      _ ≤ 1 * (1 * sin θ ^ 2) := by gcongr
      _ = sin θ ^ 2 := by ring
  have hfour' : 0 ≤ E * sin θ ^ 4 := by positivity
  have hbracket : |1 - 2 * sin θ ^ 2 + E * sin θ ^ 4| ≤ 1 := by
    rw [abs_le]
    constructor <;> linarith
  have hprod := curvature_sub_support a E θ hE hE1
  rw [le_div_iff₀ (pow_pos hk 3)]
  calc |curvatureRadius a E θ - support a E θ| * k ^ 3
      ≤ |curvatureRadius a E θ - support a E θ| * root E θ ^ 3 :=
        mul_le_mul_of_nonneg_left (pow_le_pow_left₀ hk.le hroot 3) (abs_nonneg _)
    _ = a * E * |1 - 2 * sin θ ^ 2 + E * sin θ ^ 4| := by
        rw [← abs_of_pos (pow_pos hpos 3), ← abs_mul, hprod, abs_neg, abs_mul,
          abs_of_nonneg (mul_nonneg ha hE)]
    _ ≤ a * E := mul_le_of_le_one_right (mul_nonneg ha hE) hbracket

/-- The product of sine and cosine over a power of the root. -/
theorem abs_crossing_le (c : ℝ) (hc : 0 ≤ c) (n : ℕ) :
    |c * (sin θ * cos θ) / root E θ ^ n| ≤ c / (2 * k ^ n) := by
  have hroot := root_ge E θ hE k hk2
  have hpos := hk.trans_le hroot
  have hcos := sin_sq_add_cos_sq θ
  have hprod : |sin θ * cos θ| ≤ 1 / 2 := by
    rw [abs_le]
    constructor
    · linarith [sq_nonneg (sin θ + cos θ)]
    · linarith [sq_nonneg (sin θ - cos θ)]
  rw [abs_div, abs_mul, abs_of_nonneg hc, abs_of_pos (pow_pos hpos n)]
  calc c * |sin θ * cos θ| / root E θ ^ n ≤ c * (1 / 2) / k ^ n := by gcongr
    _ = c / (2 * k ^ n) := by
        field_simp

end Bounds

/-! ### Polar coordinates

With `r` the distance of the point from the centre and `ψ` its direction, the
angle only enters as the difference from the direction. -/

section Polar

/-- A point of the quadrant in polar coordinates. -/
theorem exists_polar (w z r : ℝ) (hw : 0 ≤ w) (hz : 0 ≤ z) (hr : 0 < r)
    (hr2 : r ^ 2 = w ^ 2 + z ^ 2) : ∃ ψ, 0 ≤ ψ ∧ ψ ≤ π / 2 ∧ w = r * cos ψ ∧ z = r * sin ψ := by
  have hwr : w ≤ r := by
    refine le_of_sq_le_sq ?_ hr.le
    rw [hr2]
    exact le_add_of_nonneg_right (sq_nonneg z)
  have hcos0 : 0 ≤ w / r := div_nonneg hw hr.le
  have hcos1 : w / r ≤ 1 := (div_le_one hr).mpr hwr
  refine ⟨arccos (w / r), arccos_nonneg _, arccos_le_pi_div_two.mpr hcos0, ?_, ?_⟩
  · rw [cos_arccos (by linarith) hcos1, mul_div_cancel₀ _ hr.ne']
  · have hsin : 1 - (w / r) ^ 2 = (z / r) ^ 2 := by
      rw [div_pow, div_pow, eq_div_iff (pow_ne_zero 2 hr.ne'), sub_mul,
        div_mul_cancel₀ _ (pow_ne_zero 2 hr.ne'), hr2]
      ring
    rw [sin_arccos, hsin, sqrt_sq (div_nonneg hz hr.le), mul_div_cancel₀ _ hr.ne']

variable (a E r ψ θ : ℝ)

theorem slope_polar : slope a E (r * cos ψ) (r * sin ψ) θ
    = a * E * (sin θ * cos θ) / root E θ - r * sin (θ - ψ) := by
  rw [sin_sub, slope]
  ring

theorem fall_polar : fall a E (r * cos ψ) (r * sin ψ) θ
    = r * cos (θ - ψ) + (curvatureRadius a E θ - support a E θ) := by
  rw [cos_sub, fall]
  ring

end Polar

end

end Ellipse

end Toolkit
