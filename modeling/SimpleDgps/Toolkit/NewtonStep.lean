import Mathlib.Analysis.Calculus.Deriv.Add
import Mathlib.Analysis.Calculus.Deriv.MeanValue
import Mathlib.Analysis.Calculus.Deriv.Mul
import Mathlib.Analysis.Calculus.Deriv.Pow
import Mathlib.Topology.Algebra.Module.ModuleTopology

/-!
# One Newton Step Towards a Level Point

How much a single Newton step gains when nobody checks afterwards.

A function has a level point somewhere, and a computation that starts near it
moves once, by the slope over the fall of the slope, and takes the height to be
what the quadratic through the start says. There is no loop and no test, so the
quality of the result is decided by two numbers: how far the start was, and how
fast the fall of the slope changes on the way. The place is wrong by the square
of the distance (`step_place`), the height by its cube (`step_height`).

The three values at the start may be slightly off themselves, when they are
computed with constants that do not quite fit together. `Sampled` is that, and
both bounds carry the error along.

## Main definitions

* `Approach`: A height, its slope and the fall of its slope on the way.
* `Sampled`: The three values at the start, up to an error.
* `placeError`, `heightError`: The two bounds.

## Theorems

* `mean_value`: The mean value theorem between two points in either order.
* `near_of_mem_uIcc`: What is near at both ends is near in between.
* `Approach.distance_le`: A small slope means a start that is near.
* `Approach.expand`: The quadratic through the start.
* `step_place`: The place after one step.
* `step_height`: The height there.
-/

namespace Toolkit

namespace NewtonStep

open Set

/-- The mean value theorem between two points in either order. -/
theorem mean_value (f f' : ℝ → ℝ) (a b : ℝ) (h : ∀ x ∈ uIcc a b, HasDerivAt f (f' x) x) :
    ∃ ξ ∈ uIcc a b, f b - f a = f' ξ * (b - a) := by
  -- For a < b this is the library's theorem, and the equation does not mind the order.
  have hordered : ∀ a b, a < b → (∀ x ∈ uIcc a b, HasDerivAt f (f' x) x) →
      ∃ ξ ∈ uIcc a b, f b - f a = f' ξ * (b - a) := by
    intro a b hab h
    rw [uIcc_of_le hab.le] at h ⊢
    have hcont : ContinuousOn f (Icc a b) := fun x hx => (h x hx).continuousAt.continuousWithinAt
    rcases exists_hasDerivAt_eq_slope f f' hab hcont (fun x hx => h x (Ioo_subset_Icc_self hx))
      with ⟨ξ, hξ, hslope⟩
    refine ⟨ξ, Ioo_subset_Icc_self hξ, ?_⟩
    rw [hslope, div_mul_cancel₀ _ (sub_pos.mpr hab).ne']
  rcases lt_trichotomy a b with hab | rfl | hba
  · exact hordered a b hab h
  · exact ⟨a, left_mem_uIcc, by rw [sub_self, sub_self, mul_zero]⟩
  · rw [uIcc_comm] at h ⊢
    rcases hordered b a hba h with ⟨ξ, hξ, heq⟩
    exact ⟨ξ, hξ, by linarith⟩

/-- Between two points near a third one there are only such points. -/
theorem near_of_mem_uIcc (a b c x t : ℝ) (ha : |a - c| ≤ t) (hb : |b - c| ≤ t)
    (hx : x ∈ uIcc a b) : |x - c| ≤ t := by
  rw [abs_le] at ha hb ⊢
  rcases mem_uIcc.mp hx with ⟨hlow, hhigh⟩ | ⟨hlow, hhigh⟩
  · constructor <;> linarith
  · constructor <;> linarith

/-- A height `G` with its slope `F` and the fall `D` of the slope, between a
    start and a level point. The fall changes by at most `B` a unit. -/
structure Approach (G F D : ℝ → ℝ) (B start level : ℝ) : Prop where
  height : ∀ x ∈ uIcc start level, HasDerivAt G (F x) x
  slope : ∀ x ∈ uIcc start level, HasDerivAt F (-D x) x
  bend : ∀ x ∈ uIcc start level, |D x - D start| ≤ B * |x - start|
  flat : F level = 0

/-- What was computed for the three values at the start. -/
structure Sampled (G F D : ℝ → ℝ) (start ε g f d : ℝ) : Prop where
  height : |g - G start| ≤ ε
  slope : |f - F start| ≤ ε
  fall : |d - D start| ≤ ε
  pos : 0 < d

variable {G F D : ℝ → ℝ} {B start level : ℝ}

/-- On the way from the start the slope falls by some fall in between. -/
theorem Approach.slope_at (h : Approach G F D B start level) (x : ℝ)
    (hx : x ∈ uIcc start level) : ∃ ξ ∈ uIcc start x, F x - F start = -D ξ * (x - start) :=
  mean_value F (fun y => -D y) start x
    (fun y hy => h.slope y (uIcc_subset_uIcc_left hx hy))

/-- A small slope means a start that is near. -/
theorem Approach.distance_le (h : Approach G F D B start level) (d : ℝ)
    (hd : ∀ x ∈ uIcc start level, d ≤ D x) : d * |level - start| ≤ |F start| := by
  rcases h.slope_at level right_mem_uIcc with ⟨ξ, hξ, heq⟩
  have hslope : F start = D ξ * (level - start) := by
    rw [h.flat] at heq
    linarith
  rw [hslope, abs_mul]
  exact mul_le_mul_of_nonneg_right ((hd ξ hξ).trans (le_abs_self _)) (abs_nonneg _)

/-- The slope at the start is the fall there times the distance, up to a square. -/
theorem Approach.slope_start (h : Approach G F D B start level) (hB : 0 ≤ B) :
    |F start - D start * (level - start)| ≤ B * |level - start| ^ 2 := by
  rcases h.slope_at level right_mem_uIcc with ⟨ξ, hξ, heq⟩
  have hdiff : F start - D start * (level - start) = (D ξ - D start) * (level - start) := by
    rw [h.flat] at heq
    linarith
  have hnear : B * |ξ - start| ≤ B * |level - start| :=
    mul_le_mul_of_nonneg_left (abs_sub_left_of_mem_uIcc hξ) hB
  rw [hdiff, abs_mul, sq, ← mul_assoc]
  exact mul_le_mul_of_nonneg_right ((h.bend ξ hξ).trans hnear) (abs_nonneg _)

/-- The height at the level point is that of the quadratic through the start, up
    to a cube. -/
theorem Approach.expand (h : Approach G F D B start level) (hB : 0 ≤ B) :
    |G level - (G start + F start * (level - start) - D start * (level - start) ^ 2 / 2)|
      ≤ B * |level - start| ^ 3 := by
  -- The difference of height and quadratic, with its derivative.
  let R : ℝ → ℝ := fun x => G x - (F start * (x - start) - D start * ((x - start) ^ 2 / 2))
  have hderiv : ∀ x ∈ uIcc start level,
      HasDerivAt R (F x - (F start - D start * (x - start))) x := by
    intro x hx
    have hid : HasDerivAt (fun y => y - start) 1 x := (hasDerivAt_id x).sub_const start
    have hsq : HasDerivAt (fun y => (y - start) ^ 2 / 2) (x - start) x := by
      refine ((hid.pow 2).div_const 2).congr_deriv ?_
      ring
    refine ((h.height x hx).sub ((hid.const_mul (F start)).sub
      (hsq.const_mul (D start)))).congr_deriv ?_
    ring
  rcases mean_value R _ start level hderiv with ⟨ξ, hξ, heq⟩
  rcases h.slope_at ξ hξ with ⟨ζ, hζ, hslope⟩
  have hζ' : ζ ∈ uIcc start level := uIcc_subset_uIcc_left hξ hζ
  have hremainder : G level - (G start + F start * (level - start) -
      D start * (level - start) ^ 2 / 2) = (D start - D ζ) * (ξ - start) * (level - start) := by
    have hR : R level - R start = G level - (G start + F start * (level - start) -
        D start * (level - start) ^ 2 / 2) := by
      simp only [R, sub_self]
      ring
    rw [← hR, heq]
    linear_combination (level - start) * hslope
  have hfall : |D start - D ζ| ≤ B * |level - start| := by
    rw [abs_sub_comm]
    exact (h.bend ζ hζ').trans (mul_le_mul_of_nonneg_left (abs_sub_left_of_mem_uIcc hζ') hB)
  calc |G level - (G start + F start * (level - start) - D start * (level - start) ^ 2 / 2)|
      = |D start - D ζ| * |ξ - start| * |level - start| := by rw [hremainder, abs_mul, abs_mul]
    _ ≤ B * |level - start| * |level - start| * |level - start| := by
        refine mul_le_mul_of_nonneg_right ?_ (abs_nonneg _)
        exact mul_le_mul hfall (abs_sub_left_of_mem_uIcc hξ) (abs_nonneg _)
          (mul_nonneg hB (abs_nonneg _))
    _ = B * |level - start| ^ 3 := by ring

/-- How far the place after one step can be off. -/
noncomputable def placeError (B ε d δ : ℝ) : ℝ := (ε + ε * δ + B * δ ^ 2) / d

/-- How far the height there can be off. -/
noncomputable def heightError (B ε d δ : ℝ) : ℝ :=
  ε + ε * δ + ε * δ ^ 2 + B * δ ^ 3 + d * placeError B ε d δ ^ 2

variable {ε g f d : ℝ}

/-- The place after one step. -/
theorem step_place (h : Approach G F D B start level) (hB : 0 ≤ B)
    (hs : Sampled G F D start ε g f d) :
    |level - (start + f / d)| ≤ placeError B ε d |level - start| := by
  have hstart := h.slope_start hB
  -- What is left to go, times the computed fall.
  have hleft : (level - (start + f / d)) * d
      = -(f - F start) - (F start - D start * (level - start)) +
        (d - D start) * (level - start) := by
    have hcancel : f / d * d = f := div_mul_cancel₀ f hs.pos.ne'
    linear_combination -hcancel
  rw [placeError, le_div_iff₀ hs.pos, ← abs_of_pos hs.pos, ← abs_mul, abs_of_pos hs.pos, hleft]
  calc |-(f - F start) - (F start - D start * (level - start)) +
        (d - D start) * (level - start)|
      ≤ |-(f - F start) - (F start - D start * (level - start))| +
          |(d - D start) * (level - start)| := abs_add_le _ _
    _ ≤ |f - F start| + |F start - D start * (level - start)| +
          |d - D start| * |level - start| := by
        rw [abs_mul]
        refine add_le_add_left ((abs_sub _ _).trans ?_) _
        rw [abs_neg]
    _ ≤ ε + B * |level - start| ^ 2 + ε * |level - start| := by
        refine add_le_add (add_le_add hs.slope hstart) ?_
        exact mul_le_mul_of_nonneg_right hs.fall (abs_nonneg _)
    _ = ε + ε * |level - start| + B * |level - start| ^ 2 := by ring

/-- The height the quadratic gives after one step. -/
theorem step_height (h : Approach G F D B start level) (hB : 0 ≤ B)
    (hs : Sampled G F D start ε g f d) :
    |G level - (g + f * (f / d) / 2)| ≤ heightError B ε d |level - start| := by
  have hexpand := h.expand hB
  have hplace := step_place h hB hs
  -- The quadratic of the computed values misses its own top by a square.
  have hsplit : G level - (g + f * (f / d) / 2)
      = (G level - (G start + F start * (level - start) - D start * (level - start) ^ 2 / 2)) -
        (g - G start) - (f - F start) * (level - start) +
        (d - D start) * (level - start) ^ 2 / 2 - d * (level - (start + f / d)) ^ 2 / 2 := by
    have hf : f = f / d * d := (div_mul_cancel₀ f hs.pos.ne').symm
    linear_combination ((level - start) - f / d / 2) * hf
  have hsquare : (level - (start + f / d)) ^ 2 ≤ placeError B ε d |level - start| ^ 2 := by
    rw [← sq_abs]
    exact pow_le_pow_left₀ (abs_nonneg _) hplace 2
  have hfall : |(d - D start) * (level - start) ^ 2| ≤ ε * |level - start| ^ 2 := by
    rw [abs_mul, abs_pow]
    exact mul_le_mul_of_nonneg_right hs.fall (pow_nonneg (abs_nonneg _) 2)
  have hslope : |(f - F start) * (level - start)| ≤ ε * |level - start| := by
    rw [abs_mul]
    exact mul_le_mul_of_nonneg_right hs.slope (abs_nonneg _)
  have htop : |d * (level - (start + f / d)) ^ 2| ≤ d * placeError B ε d |level - start| ^ 2 := by
    rw [abs_of_nonneg (mul_nonneg hs.pos.le (sq_nonneg _))]
    exact mul_le_mul_of_nonneg_left hsquare hs.pos.le
  have hheight := hs.height
  have hbound := abs_nonneg ((d - D start) * (level - start) ^ 2)
  have hbound' := abs_nonneg (d * (level - (start + f / d)) ^ 2)
  rw [hsplit, heightError]
  rw [abs_le] at hexpand hheight hslope hfall htop ⊢
  constructor
  · linarith [hexpand.1, hheight.2, hslope.2, hfall.1, htop.2]
  · linarith [hexpand.2, hheight.1, hslope.1, hfall.2, htop.1]

end NewtonStep

end Toolkit
