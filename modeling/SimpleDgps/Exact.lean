import Mathlib.Algebra.Order.Floor.Ring
import Mathlib.Analysis.SpecialFunctions.Complex.Arg
import Mathlib.Analysis.SpecialFunctions.Trigonometric.Inverse
import Mathlib.Data.Rat.Floor

/-!
# Exact Arithmetic

What stands in for `double`.

The program is modelled over a field instead of over floating point numbers, so
every sum and product is exact. The field is a parameter: the rationals run the
definitions, the reals carry the trigonometric functions.

Two things a field does not have. `CMath` is the part of the mathematics
library the program calls, with no law attached, because most results hold
whatever those functions return; `LawfulCMath` adds the laws a result about
lengths and angles needs, and the reals satisfy them. `DoubleToInt` is the
conversion of a `double` to an `int`. It truncates toward zero when the
truncated value fits into 32 bits. When it does not fit the language gives the
conversion no meaning, so the class leaves that value open and a theorem about
the program holds for every choice. The instances take what the processor of
the build returns, the smallest `int`.

## Main definitions

* `CMath`: The library functions the program calls.
* `LawfulCMath`: What a result about lengths and angles needs of them.
* `trunc`: Truncation toward zero.
* `DoubleToInt`: Conversion of a `double` to an `int`.

## Theorems

* `sqrt_sq_eq_abs`, `sqrt_pos`: Exact square roots.
* `polar_atan2`, `atan2_polar`, `atan2_range`: The angle of a point of the plane.
* `trunc_intCast`: An integer is its own truncation.
* `lossless_iff`: Which values survive the conversion.
* `convert_range`: The processor's conversion returns an `int`.
* `convert_eq`: The processor's conversion truncates what fits.
-/

namespace SimpleDgps

/-- The functions and constants of the mathematics library. -/
class CMath (K : Type) where
  sqrt : K → K
  sin : K → K
  cos : K → K
  asin : K → K
  acos : K → K
  atan2 : K → K → K
  pi : K

/-- The laws of exact square roots, sines and cosines. -/
class LawfulCMath (K : Type) [Field K] [LinearOrder K] [CMath K] : Prop where
  sqrt_nonneg (x : K) : 0 ≤ CMath.sqrt x
  sq_sqrt (x : K) (h : 0 ≤ x) : CMath.sqrt x ^ 2 = x
  sin_sq_add_cos_sq (x : K) : CMath.sin x ^ 2 + CMath.cos x ^ 2 = 1

noncomputable instance : CMath ℝ where
  sqrt := Real.sqrt
  sin := Real.sin
  cos := Real.cos
  asin := Real.arcsin
  acos := Real.arccos
  atan2 := fun y x => Complex.arg ⟨x, y⟩
  pi := Real.pi

instance : LawfulCMath ℝ where
  sqrt_nonneg := Real.sqrt_nonneg
  sq_sqrt := fun _ h => Real.sq_sqrt h
  sin_sq_add_cos_sq := Real.sin_sq_add_cos_sq

section Roots

variable {K : Type} [Field K] [LinearOrder K] [IsStrictOrderedRing K] [CMath K] [LawfulCMath K]

/-- The root of a square. -/
theorem sqrt_sq_eq_abs (x : K) : CMath.sqrt (x ^ 2) = |x| := by
  have hsq : CMath.sqrt (x ^ 2) ^ 2 = |x| ^ 2 := by
    rw [LawfulCMath.sq_sqrt _ (sq_nonneg x), sq_abs]
  exact (pow_left_inj₀ (LawfulCMath.sqrt_nonneg _) (abs_nonneg x) two_ne_zero).mp hsq

omit [IsStrictOrderedRing K] in
/-- The root of a positive number is positive. -/
theorem sqrt_pos (x : K) (h : 0 < x) : 0 < CMath.sqrt x := by
  refine lt_of_le_of_ne (LawfulCMath.sqrt_nonneg _) (fun hzero => ?_)
  have hsq := LawfulCMath.sq_sqrt x h.le
  rw [← hzero, zero_pow two_ne_zero] at hsq
  exact absurd hsq h.ne

end Roots

section Angles

/-- A point of the plane in polar coordinates. -/
theorem polar_atan2 (x y : ℝ) :
    Real.sqrt (x ^ 2 + y ^ 2) * Real.cos (CMath.atan2 y x) = x ∧
      Real.sqrt (x ^ 2 + y ^ 2) * Real.sin (CMath.atan2 y x) = y := by
  have hnorm : ‖(⟨x, y⟩ : ℂ)‖ = Real.sqrt (x ^ 2 + y ^ 2) := by
    rw [Complex.norm_def, Complex.normSq_mk, sq, sq]
  rw [← hnorm]
  exact ⟨Complex.norm_mul_cos_arg _, Complex.norm_mul_sin_arg _⟩

/-- The angle of a point given in polar coordinates. -/
theorem atan2_polar (w θ : ℝ) (hw : 0 < w) (hlo : -Real.pi < θ) (hhi : θ ≤ Real.pi) :
    CMath.atan2 (w * Real.sin θ) (w * Real.cos θ) = θ := by
  have hpoint : (⟨w * Real.cos θ, w * Real.sin θ⟩ : ℂ)
      = w * (Complex.cos θ + Complex.sin θ * Complex.I) := by
    apply Complex.ext <;> simp [Complex.cos_ofReal_re, Complex.sin_ofReal_re]
  change Complex.arg ⟨w * Real.cos θ, w * Real.sin θ⟩ = θ
  rw [hpoint]
  exact Complex.arg_mul_cos_add_sin_mul_I hw ⟨hlo, hhi⟩

theorem atan2_range (x y : ℝ) :
    -Real.pi < CMath.atan2 y x ∧ CMath.atan2 y x ≤ Real.pi :=
  Complex.arg_mem_Ioc _

end Angles

variable {K : Type} [Field K] [LinearOrder K] [FloorRing K]

/-- Truncation toward zero. -/
def trunc (x : K) : Int := if 0 ≤ x then ⌊x⌋ else ⌈x⌉

variable (K) in
/-- Conversion of a `double` to a 32-bit `int`. -/
class DoubleToInt where
  toInt : K → Int
  toInt_range (x : K) : -2 ^ 31 ≤ toInt x ∧ toInt x < 2 ^ 31
  toInt_eq (x : K) (hlo : -2 ^ 31 ≤ trunc x) (hhi : trunc x < 2 ^ 31) : toInt x = trunc x

/-- An integer is its own truncation. -/
theorem trunc_intCast [IsStrictOrderedRing K] (n : Int) : trunc (n : K) = n := by
  unfold trunc
  rw [Int.floor_intCast, Int.ceil_intCast, ite_self]

/-- An `int` survives the conversion. -/
theorem toInt_intCast [IsStrictOrderedRing K] [DoubleToInt K] (n : Int) (hlo : -2 ^ 31 ≤ n)
    (hhi : n < 2 ^ 31) : DoubleToInt.toInt (n : K) = n := by
  have htrunc : trunc (n : K) = n := trunc_intCast n
  rw [DoubleToInt.toInt_eq (n : K) (by rwa [htrunc]) (by rwa [htrunc]), htrunc]

/-- A value survives the conversion exactly if it is an `int`. -/
theorem lossless_iff [IsStrictOrderedRing K] [DoubleToInt K] (x : K) :
    (-2 ^ 31 ≤ trunc x ∧ trunc x < 2 ^ 31 ∧ (DoubleToInt.toInt x : K) = x) ↔
      ∃ n : Int, -2 ^ 31 ≤ n ∧ n < 2 ^ 31 ∧ x = n := by
  constructor
  · rintro ⟨_, _, hx⟩
    rcases DoubleToInt.toInt_range x with ⟨hlo, hhi⟩
    exact ⟨DoubleToInt.toInt x, hlo, hhi, hx.symm⟩
  · rintro ⟨n, hlo, hhi, rfl⟩
    rw [trunc_intCast, toInt_intCast n hlo hhi]
    exact ⟨hlo, hhi, rfl⟩

/-- The conversion of the build's processor: a value that does not fit becomes
    the smallest `int`. -/
def convert (x : K) : Int :=
  if -2 ^ 31 ≤ trunc x ∧ trunc x < 2 ^ 31 then trunc x else -2 ^ 31

theorem convert_range (x : K) : -2 ^ 31 ≤ convert x ∧ convert x < 2 ^ 31 := by
  unfold convert
  split_ifs with h
  · exact h
  · -- The smallest `int` itself is in range.
    decide

theorem convert_eq (x : K) (hlo : -2 ^ 31 ≤ trunc x) (hhi : trunc x < 2 ^ 31) :
    convert x = trunc x :=
  if_pos ⟨hlo, hhi⟩

instance : DoubleToInt ℚ where
  toInt := convert
  toInt_range := convert_range
  toInt_eq := convert_eq

noncomputable instance : DoubleToInt ℝ where
  toInt := convert
  toInt_range := convert_range
  toInt_eq := convert_eq

end SimpleDgps
