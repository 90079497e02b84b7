import SimpleDgps.Exact
import SimpleDgps.Toolkit.Loop

/-!
# Operations with a Domain

Divisions, roots and inverse functions that are only taken where they are
defined.

Over exact arithmetic a division by zero or the arc sine of two has no value,
and the total functions of a proof assistant would hide that. A computation
whose arguments are not known to be in range is written with the operations of
this file. Each of them tests its argument, and a run that ends with a value has
left no domain on the way.

## Main definitions

* `DomainError`: The operation that was given an argument outside its domain.
* `divide`, `squareRoot`, `arcSine`, `arcCosine`: The operations.

## Theorems

* `divide_ok`, `squareRoot_ok`, `arcSine_ok`, `arcCosine_ok`: Inside the domain.
* `divide_eq_ok`, `squareRoot_eq_ok`, `arcSine_eq_ok`, `arcCosine_eq_ok`: What a
  value says about the argument.
-/

namespace SimpleDgps

open Toolkit Loop

/-- The operation that was given an argument outside its domain. -/
inductive DomainError
  | division
  | sqrt
  | asin
  | acos
  deriving DecidableEq, Repr

variable {K : Type} [Field K] [LinearOrder K]

def divide (x y : K) : Except DomainError K :=
  if y = 0 then .error .division else .ok (x / y)

theorem divide_ok (x y : K) (h : y ≠ 0) : divide x y = .ok (x / y) := if_neg h

theorem divide_eq_ok (x y q : K) (h : divide x y = .ok q) : y ≠ 0 ∧ q = x / y := by
  unfold divide at h
  split_ifs at h with hzero
  exact ⟨hzero, (Except.ok.inj h).symm⟩

variable [CMath K]

def squareRoot (x : K) : Except DomainError K :=
  if x < 0 then .error .sqrt else .ok (CMath.sqrt x)

def arcSine (x : K) : Except DomainError K :=
  if -1 ≤ x ∧ x ≤ 1 then .ok (CMath.asin x) else .error .asin

def arcCosine (x : K) : Except DomainError K :=
  if -1 ≤ x ∧ x ≤ 1 then .ok (CMath.acos x) else .error .acos

theorem squareRoot_ok (x : K) (h : 0 ≤ x) : squareRoot x = .ok (CMath.sqrt x) :=
  if_neg (not_lt.mpr h)

theorem arcSine_ok (x : K) (h : -1 ≤ x ∧ x ≤ 1) : arcSine x = .ok (CMath.asin x) := if_pos h

theorem arcCosine_ok (x : K) (h : -1 ≤ x ∧ x ≤ 1) : arcCosine x = .ok (CMath.acos x) := if_pos h

theorem squareRoot_eq_ok (x q : K) (h : squareRoot x = .ok q) : 0 ≤ x ∧ q = CMath.sqrt x := by
  unfold squareRoot at h
  split_ifs at h with hneg
  exact ⟨not_lt.mp hneg, (Except.ok.inj h).symm⟩

theorem arcSine_eq_ok (x a : K) (h : arcSine x = .ok a) :
    (-1 ≤ x ∧ x ≤ 1) ∧ a = CMath.asin x := by
  unfold arcSine at h
  split_ifs at h with hrange
  exact ⟨hrange, (Except.ok.inj h).symm⟩

theorem arcCosine_eq_ok (x a : K) (h : arcCosine x = .ok a) :
    (-1 ≤ x ∧ x ≤ 1) ∧ a = CMath.acos x := by
  unfold arcCosine at h
  split_ifs at h with hrange
  exact ⟨hrange, (Except.ok.inj h).symm⟩

/-- The root of the square of a number that is not negative. -/
theorem squareRoot_sq [IsStrictOrderedRing K] [LawfulCMath K] (x : K) (h : 0 ≤ x) :
    squareRoot (x ^ 2) = .ok x := by
  rw [squareRoot_ok _ (sq_nonneg x), sqrt_sq_eq_abs, abs_of_nonneg h]

end SimpleDgps
