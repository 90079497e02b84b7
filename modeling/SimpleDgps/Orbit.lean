import SimpleDgps.Types
import SimpleDgps.Toolkit.FixedPoint
import Mathlib.Analysis.SpecialFunctions.Trigonometric.Bounds

/-!
# Satellite Positions from Ephemeris Data

From broadcast orbit parameters to an Earth-fixed position.

The ephemeris describes an ellipse, its orientation, and small periodic
corrections to both. `calcSatPos` reads the satellite's place on the ellipse off
the time since the reference epoch, corrects it, and turns the orbital plane
into Earth-fixed axes.

The first of these steps is an equation that has no closed solution, Kepler's
equation, and it is solved by a loop without a bound. The loop is
`Toolkit.FixedPoint.settle`, and the number of rounds the model gives it is an
argument here: `calcEccentricAnomaly` and `calcSatPos` return nothing if the
loop has not ended by then. For every eccentricity below one the right-hand side
of the equation is a contraction, because the sine brings two angles closer, so
some number of rounds is always enough. `calcEccentricAnomaly_accurate` is that,
with the distance from the exact solution.

The last step is a tilt followed by a turn and leaves lengths alone:
`earthFixed_length`. The position that comes out is therefore as far from the
centre as the corrected orbit says, whatever the angles are, and
`calcSatPos_radius` bounds that distance by the shape of the ellipse and the
size of the correction.

Times are given in seconds of the week, and a difference of times is brought
within half a week of zero first. Nothing else of the time is used, so
`calcSatPos_week` finds the same position a week earlier and a week later.

## Main definitions

* `Ephemeris`: The orbit parameters the computation reads.
* `calcTimeFromEpoch`: The time since the reference epoch, within half a week.
* `meanAnomaly`: The angle that grows evenly with time.
* `calcEccentricAnomaly`: The solution of Kepler's equation.
* `argumentOfLatitude`: The angle in the orbital plane before correction.
* `harmonic`: A second harmonic perturbation.
* `correctedRadius`: The corrected distance from the centre.
* `earthFixed`: From the orbital plane to Earth-fixed axes.
* `satPosAt`: The position in terms of the eccentric anomaly.
* `calcSatPos`: The satellite's position.

## Theorems

* `kepler_contracts`: Kepler's equation is solved by a contraction.
* `calcEccentricAnomaly_returns`: The loop ends.
* `calcEccentricAnomaly_accurate`: It ends near the solution.
* `earthFixed_length`: The change of axes keeps lengths.
* `harmonic_le`: A perturbation is at most the sum of its two amplitudes.
* `satPosAt_length`: A position is as far out as its radius says.
* `correctedRadius_bounds`: The corrected distance stays near the ellipse.
* `calcSatPos_returns`: A position comes out.
* `calcSatPos_radius`: A position lies at the corrected distance.
* `calcTimeFromEpoch_wraps`, `calcTimeFromEpoch_swap`: The wrapped time.
* `calcSatPos_week`: A whole week does not move a satellite.
-/

namespace SimpleDgps

open Toolkit FixedPoint
open CMath (sqrt sin cos atan2)

/-- The orbit parameters that the computation of a position reads. -/
structure Ephemeris (K : Type) where
  A : K
  MU : K
  C_rs : K
  dn : K
  M_0 : K
  C_uc : K
  e : K
  C_us : K
  t_oe : K
  C_ic : K
  OMEGA_0 : K
  OMEGA_E : K
  C_is : K
  i_0 : K
  C_rc : K
  omega : K
  OMEGA_dot : K
  IDOT : K

variable {K : Type} [Field K] [LinearOrder K]

def calcTimeFromEpoch (t t_ref : K) : K :=
  let t := t - t_ref
  if t > 302400 then t - 604800
  else if t < -302400 then t + 604800
  else t

variable [CMath K]

omit [LinearOrder K] in
/-- `M_k`, with the corrected mean motion `n`. -/
def meanAnomaly (ephem : Ephemeris K) (t_k : K) : K :=
  let n_0 := sqrt (ephem.MU / (ephem.A * ephem.A * ephem.A))
  let n := n_0 + ephem.dn
  ephem.M_0 + n * t_k

/-- The loop is given `fuel` rounds to end. -/
def calcEccentricAnomaly (fuel : Nat) (ephem : Ephemeris K) (t_k : K) : Option K :=
  let M_k := meanAnomaly ephem t_k
  settle (fun E_k => M_k + ephem.e * sin E_k) 1e-10 fuel M_k

section Formulas

omit [LinearOrder K]

/-- `AOL`, the true anomaly counted from the node. -/
def argumentOfLatitude (ephem : Ephemeris K) (E_k : K) : K :=
  let v_k := atan2 (sqrt (1 - ephem.e * ephem.e) * sin E_k) (cos E_k - ephem.e)
  v_k + ephem.omega

/-- A second harmonic perturbation with its two amplitudes. -/
def harmonic (C_s C_c AOL : K) : K :=
  C_s * sin ((2 : Nat) * AOL) + C_c * cos ((2 : Nat) * AOL)

/-- `r_k`, the radius with its correction. -/
def correctedRadius (ephem : Ephemeris K) (E_k : K) : K :=
  let dr_k := harmonic ephem.C_rs ephem.C_rc (argumentOfLatitude ephem E_k)
  ephem.A * (1 - ephem.e * cos E_k) + dr_k

/-- Earth-fixed coordinates of a point of the orbital plane. -/
def earthFixed (x_kp y_kp i_k OMEGA_k : K) : EcefPos K :=
  { x := x_kp * cos OMEGA_k - y_kp * cos i_k * sin OMEGA_k
    y := x_kp * sin OMEGA_k + y_kp * cos i_k * cos OMEGA_k
    z := y_kp * sin i_k }

/-- What `calcSatPos` computes once the eccentric anomaly is there. -/
def satPosAt (ephem : Ephemeris K) (t_k E_k : K) : EcefPos K :=
  let AOL := argumentOfLatitude ephem E_k
  -- Second Harmonic Perturbations
  let du_k := harmonic ephem.C_us ephem.C_uc AOL
  let di_k := harmonic ephem.C_is ephem.C_ic AOL
  -- Corrected Argument of Latitude; Radius & Inclination
  let u_k := AOL + du_k
  let r_k := correctedRadius ephem E_k
  let i_k := ephem.i_0 + di_k + ephem.IDOT * t_k
  -- Positions in orbital plane
  let x_kp := r_k * cos u_k
  let y_kp := r_k * sin u_k
  -- Corrected longitude of ascending node
  let OMEGA_k := ephem.OMEGA_0 + (ephem.OMEGA_dot - ephem.OMEGA_E) * t_k -
    ephem.OMEGA_E * ephem.t_oe
  earthFixed x_kp y_kp i_k OMEGA_k

end Formulas

/-- The position at time `t`, if the loop it waits for ends in time. -/
def calcSatPos (fuel : Nat) (ephem : Ephemeris K) (t : K) : Option (EcefPos K) :=
  let t_k := calcTimeFromEpoch t ephem.t_oe
  (calcEccentricAnomaly fuel ephem t_k).map (satPosAt ephem t_k)

/-! ### Kepler's equation -/

section Kepler

variable [IsStrictOrderedRing K]

/-- Below an eccentricity of one Kepler's equation is solved by a contraction,
    for any sine that brings two angles closer. -/
theorem kepler_contracts (hlip : ∀ a b : K, |sin a - sin b| ≤ |a - b|) (e M_k : K) (he : 0 ≤ e) :
    Contracts (fun E_k => M_k + e * sin E_k) e := by
  intro a b
  have hdiff : M_k + e * sin a - (M_k + e * sin b) = e * (sin a - sin b) := by ring
  rw [hdiff, abs_mul, abs_of_nonneg he]
  exact mul_le_mul_of_nonneg_left (hlip a b) he

/-- The loop ends. -/
theorem calcEccentricAnomaly_returns [Archimedean K]
    (hlip : ∀ a b : K, |sin a - sin b| ≤ |a - b|) (ephem : Ephemeris K) (he : 0 ≤ ephem.e)
    (he1 : ephem.e < 1) (t_k : K) :
    ∃ (N : Nat) (E_k : K), ∀ fuel, N ≤ fuel → calcEccentricAnomaly fuel ephem t_k = some E_k :=
  settle_terminates _ ephem.e _ he he1 (by norm_num)
    (kepler_contracts hlip ephem.e (meanAnomaly ephem t_k) he) (meanAnomaly ephem t_k)

end Kepler

/-- The loop ends, with a value that nearly solves Kepler's equation and is near
    its only solution. -/
theorem calcEccentricAnomaly_accurate (ephem : Ephemeris ℝ) (he : 0 ≤ ephem.e)
    (he1 : ephem.e < 1) (t_k : ℝ) :
    ∃ (N : Nat) (E : ℝ), (∀ fuel, N ≤ fuel → calcEccentricAnomaly fuel ephem t_k = some E) ∧
      |E - (meanAnomaly ephem t_k + ephem.e * sin E)| ≤ ephem.e * 1e-10 ∧
      ∃ z, z = meanAnomaly ephem t_k + ephem.e * sin z ∧
        (∀ z', z' = meanAnomaly ephem t_k + ephem.e * sin z' → z' = z) ∧
        |E - z| ≤ ephem.e / (1 - ephem.e) * 1e-10 := by
  have hlip : ∀ a b : ℝ, |sin a - sin b| ≤ |a - b| := Real.abs_sin_sub_sin_le
  have hcontracts := kepler_contracts hlip ephem.e (meanAnomaly ephem t_k) he
  rcases calcEccentricAnomaly_returns hlip ephem he he1 t_k with ⟨N, E, hreturns⟩
  rcases existsUnique_fixed _ ephem.e he he1 hcontracts with ⟨z, hz, hunique⟩
  have hloop := hreturns N (Nat.le_refl N)
  exact ⟨N, E, hreturns, settle_residual _ ephem.e _ he hcontracts N _ E hloop, z, hz, hunique,
    settle_near _ ephem.e _ he he1 hcontracts N _ E z hloop hz⟩

/-! ### The distance from the centre -/

section Radius

omit [LinearOrder K] in
/-- The change of axes keeps lengths. -/
theorem earthFixed_length (hsc : ∀ a : K, sin a ^ 2 + cos a ^ 2 = 1) (x y i w : K) :
    (earthFixed x y i w).x ^ 2 + (earthFixed x y i w).y ^ 2 + (earthFixed x y i w).z ^ 2
      = x ^ 2 + y ^ 2 := by
  -- The turn mixes the first two coordinates, the tilt splits `y`.
  have hturn : (earthFixed x y i w).x ^ 2 + (earthFixed x y i w).y ^ 2
      = (x ^ 2 + (y * cos i) ^ 2) * (sin w ^ 2 + cos w ^ 2) := by
    simp only [earthFixed]
    ring
  have htilt : (y * cos i) ^ 2 + (earthFixed x y i w).z ^ 2 = y ^ 2 * (sin i ^ 2 + cos i ^ 2) := by
    simp only [earthFixed]
    ring
  rw [hturn, hsc w, mul_one, add_assoc, htilt, hsc i, mul_one]

omit [LinearOrder K] in
/-- In its plane the position is the radius times a unit vector. -/
theorem satPosAt_length (hsc : ∀ a : K, sin a ^ 2 + cos a ^ 2 = 1) (ephem : Ephemeris K)
    (t_k E_k : K) :
    (satPosAt ephem t_k E_k).x ^ 2 + (satPosAt ephem t_k E_k).y ^ 2 +
        (satPosAt ephem t_k E_k).z ^ 2 = correctedRadius ephem E_k ^ 2 := by
  unfold satPosAt
  simp only
  rw [earthFixed_length hsc, mul_pow, mul_pow, ← mul_add, add_comm (cos _ ^ 2), hsc, mul_one]

variable [IsStrictOrderedRing K]

theorem abs_sin_le (hsc : ∀ a : K, sin a ^ 2 + cos a ^ 2 = 1) (a : K) : |(sin a : K)| ≤ 1 := by
  rw [← sq_le_one_iff_abs_le_one, ← hsc a]
  exact le_add_of_nonneg_right (sq_nonneg _)

theorem abs_cos_le (hsc : ∀ a : K, sin a ^ 2 + cos a ^ 2 = 1) (a : K) : |(cos a : K)| ≤ 1 := by
  rw [← sq_le_one_iff_abs_le_one, ← hsc a]
  exact le_add_of_nonneg_left (sq_nonneg _)

omit [LinearOrder K] [IsStrictOrderedRing K] in
/-- The perturbation with the whole number of the source as one of the field. -/
theorem harmonic_eq (C_s C_c AOL : K) :
    harmonic C_s C_c AOL = C_s * sin (2 * AOL) + C_c * cos (2 * AOL) := by
  rw [harmonic, Nat.cast_ofNat]

/-- A perturbation is at most the sum of its two amplitudes. -/
theorem harmonic_le (hsc : ∀ a : K, sin a ^ 2 + cos a ^ 2 = 1) (C_s C_c AOL : K) :
    |harmonic C_s C_c AOL| ≤ |C_s| + |C_c| := by
  rw [harmonic_eq]
  calc |C_s * sin (2 * AOL) + C_c * cos (2 * AOL)|
      ≤ |C_s * sin (2 * AOL)| + |C_c * cos (2 * AOL)| := abs_add_le _ _
    _ = |C_s| * |(sin (2 * AOL) : K)| + |C_c| * |(cos (2 * AOL) : K)| := by rw [abs_mul, abs_mul]
    _ ≤ |C_s| * 1 + |C_c| * 1 :=
        add_le_add (mul_le_mul_of_nonneg_left (abs_sin_le hsc _) (abs_nonneg _))
          (mul_le_mul_of_nonneg_left (abs_cos_le hsc _) (abs_nonneg _))
    _ = |C_s| + |C_c| := by rw [mul_one, mul_one]

/-- The corrected distance stays between the ellipse's nearest and farthest
    point, up to the correction. -/
theorem correctedRadius_bounds (hsc : ∀ a : K, sin a ^ 2 + cos a ^ 2 = 1) (ephem : Ephemeris K)
    (hA : 0 < ephem.A) (he : 0 ≤ ephem.e) (E_k : K) :
    ephem.A * (1 - ephem.e) - (|ephem.C_rs| + |ephem.C_rc|) ≤ correctedRadius ephem E_k ∧
      correctedRadius ephem E_k ≤ ephem.A * (1 + ephem.e) + (|ephem.C_rs| + |ephem.C_rc|) := by
  rcases abs_le.mp (harmonic_le hsc ephem.C_rs ephem.C_rc (argumentOfLatitude ephem E_k))
    with ⟨hlow, hhigh⟩
  rcases abs_le.mp (abs_cos_le hsc E_k) with ⟨hcos, hcos'⟩
  have hnear : ephem.A * (1 - ephem.e) ≤ ephem.A * (1 - ephem.e * cos E_k) := by
    refine mul_le_mul_of_nonneg_left (sub_le_sub_left ?_ 1) hA.le
    exact mul_le_of_le_one_right he hcos'
  have hfar : ephem.A * (1 - ephem.e * cos E_k) ≤ ephem.A * (1 + ephem.e) := by
    refine mul_le_mul_of_nonneg_left ?_ hA.le
    have hprod : ephem.e * -1 ≤ ephem.e * cos E_k := mul_le_mul_of_nonneg_left hcos he
    linarith
  unfold correctedRadius
  simp only
  constructor
  · linarith
  · linarith

/-- A position comes out. -/
theorem calcSatPos_returns [Archimedean K] (hlip : ∀ a b : K, |sin a - sin b| ≤ |a - b|)
    (ephem : Ephemeris K) (he : 0 ≤ ephem.e) (he1 : ephem.e < 1) (t : K) :
    ∃ (N : Nat) (pos : EcefPos K), ∀ fuel, N ≤ fuel → calcSatPos fuel ephem t = some pos := by
  let t_k := calcTimeFromEpoch t ephem.t_oe
  rcases calcEccentricAnomaly_returns hlip ephem he he1 t_k with ⟨N, E_k, hreturns⟩
  refine ⟨N, satPosAt ephem t_k E_k, fun fuel hfuel => ?_⟩
  unfold calcSatPos
  exact congrArg (Option.map (satPosAt ephem t_k)) (hreturns fuel hfuel)

/-- A position lies at the corrected distance from the centre, and the loop it
    waits for ends if the sine brings two angles closer. -/
theorem calcSatPos_radius (hsc : ∀ a : K, sin a ^ 2 + cos a ^ 2 = 1) (ephem : Ephemeris K)
    (hA : 0 < ephem.A) (he : 0 ≤ ephem.e) (he1 : ephem.e < 1) (t : K) :
    (∀ fuel pos, calcSatPos fuel ephem t = some pos → ∃ E_k,
      calcEccentricAnomaly fuel ephem (calcTimeFromEpoch t ephem.t_oe) = some E_k ∧
      let dr_k := ephem.C_rs * sin (2 * argumentOfLatitude ephem E_k) +
        ephem.C_rc * cos (2 * argumentOfLatitude ephem E_k)
      let r_k := ephem.A * (1 - ephem.e * cos E_k) + dr_k
      pos.x ^ 2 + pos.y ^ 2 + pos.z ^ 2 = r_k ^ 2 ∧
        ephem.A * (1 - ephem.e) - (|ephem.C_rs| + |ephem.C_rc|) ≤ r_k ∧
        r_k ≤ ephem.A * (1 + ephem.e) + (|ephem.C_rs| + |ephem.C_rc|)) ∧
    (Archimedean K → (∀ a b : K, |sin a - sin b| ≤ |a - b|) →
      ∃ (N : Nat) (pos : EcefPos K), ∀ fuel, N ≤ fuel → calcSatPos fuel ephem t = some pos) := by
  constructor
  · intro fuel pos hpos
    unfold calcSatPos at hpos
    rcases Option.map_eq_some_iff.mp hpos with ⟨E_k, hE, hpos'⟩
    refine ⟨E_k, hE, ?_⟩
    -- What is spelled out is the corrected radius.
    have hradius : ephem.A * (1 - ephem.e * cos E_k) +
        (ephem.C_rs * sin (2 * argumentOfLatitude ephem E_k) +
          ephem.C_rc * cos (2 * argumentOfLatitude ephem E_k)) = correctedRadius ephem E_k := by
      rw [correctedRadius, harmonic_eq]
    simp only
    rw [hradius, ← hpos']
    exact ⟨satPosAt_length hsc ephem _ E_k, correctedRadius_bounds hsc ephem hA he E_k⟩
  · intro harch hlip
    exact calcSatPos_returns hlip ephem he he1 t

end Radius

/-! ### The end of the week -/

section Week

section Times

omit [CMath K]

variable [IsStrictOrderedRing K]

/-- A time within half a week of the reference is left alone. -/
theorem calcTimeFromEpoch_near (t t_ref : K) (h : |t - t_ref| ≤ 302400) :
    calcTimeFromEpoch t t_ref = t - t_ref := by
  rcases abs_le.mp h with ⟨hlow, hhigh⟩
  unfold calcTimeFromEpoch
  rw [if_neg (not_lt.mpr hhigh), if_neg (not_lt.mpr hlow)]

omit [IsStrictOrderedRing K] in
/-- A later time is taken for one of the week before. -/
theorem calcTimeFromEpoch_late (t t_ref : K) (h : 302400 < t - t_ref) :
    calcTimeFromEpoch t t_ref = t - t_ref - 604800 :=
  if_pos h

/-- An earlier time is taken for one of the week after. -/
theorem calcTimeFromEpoch_early (t t_ref : K) (h : t - t_ref < -302400) :
    calcTimeFromEpoch t t_ref = t - t_ref + 604800 := by
  unfold calcTimeFromEpoch
  rw [if_neg (by linarith), if_pos h]

/-- A time is left alone, or it is late, or it is early. -/
theorem week_cases (d : K) : |d| ≤ 302400 ∨ 302400 < d ∨ d < -302400 := by
  rcases lt_or_ge 302400 d with hlate | hhigh
  · exact Or.inr (Or.inl hlate)
  · rcases lt_or_ge d (-302400) with hearly | hlow
    · exact Or.inr (Or.inr hearly)
    · exact Or.inl (abs_le.mpr ⟨hlow, hhigh⟩)

/-- Within one and a half weeks of the reference the result is within half a
    week, and it is off by a whole week at most. -/
theorem calcTimeFromEpoch_wraps (t t_ref : K) (h : |t - t_ref| ≤ 907200) :
    (-302400 ≤ calcTimeFromEpoch t t_ref ∧ calcTimeFromEpoch t t_ref ≤ 302400) ∧
      (calcTimeFromEpoch t t_ref = t - t_ref ∨ calcTimeFromEpoch t t_ref = t - t_ref + 604800 ∨
        calcTimeFromEpoch t t_ref = t - t_ref - 604800) := by
  rcases abs_le.mp h with ⟨hlow, hhigh⟩
  rcases week_cases (t - t_ref) with hnear | hlate | hearly
  · rw [calcTimeFromEpoch_near t t_ref hnear]
    exact ⟨abs_le.mp hnear, Or.inl rfl⟩
  · rw [calcTimeFromEpoch_late t t_ref hlate]
    exact ⟨⟨by linarith, by linarith⟩, Or.inr (Or.inr rfl)⟩
  · rw [calcTimeFromEpoch_early t t_ref hearly]
    exact ⟨⟨by linarith, by linarith⟩, Or.inr (Or.inl rfl)⟩

/-- Exchanging time and reference changes the sign, at the two half-week
    boundaries as well. -/
theorem calcTimeFromEpoch_swap (t t_ref : K) :
    calcTimeFromEpoch t t_ref = -calcTimeFromEpoch t_ref t := by
  rcases week_cases (t - t_ref) with hnear | hlate | hearly
  · rw [calcTimeFromEpoch_near t t_ref hnear,
      calcTimeFromEpoch_near t_ref t (by rwa [abs_sub_comm]), neg_sub]
  · rw [calcTimeFromEpoch_late t t_ref hlate, calcTimeFromEpoch_early t_ref t (by linarith)]
    ring
  · rw [calcTimeFromEpoch_early t t_ref hearly, calcTimeFromEpoch_late t_ref t (by linarith)]
    ring

/-- A whole week more or less is taken back. -/
theorem calcTimeFromEpoch_week (t t_ref : K) (h : |t - t_ref| < 302400) :
    calcTimeFromEpoch (t + 604800) t_ref = calcTimeFromEpoch t t_ref ∧
      calcTimeFromEpoch (t - 604800) t_ref = calcTimeFromEpoch t t_ref := by
  rcases abs_lt.mp h with ⟨hlow, hhigh⟩
  rw [calcTimeFromEpoch_near t t_ref h.le]
  constructor
  · rw [calcTimeFromEpoch_late _ t_ref (by linarith)]
    ring
  · rw [calcTimeFromEpoch_early _ t_ref (by linarith)]
    ring

end Times

/-- The position depends on the time through the wrapped difference alone. -/
theorem calcSatPos_congr (fuel : Nat) (ephem : Ephemeris K) (t t' : K)
    (h : calcTimeFromEpoch t ephem.t_oe = calcTimeFromEpoch t' ephem.t_oe) :
    calcSatPos fuel ephem t = calcSatPos fuel ephem t' := by
  unfold calcSatPos
  rw [h]

/-- A whole week more or less does not move a satellite, and the wrapped time
    stays within half a week of the reference. -/
theorem calcSatPos_week [IsStrictOrderedRing K] :
    (∀ ephem : Ephemeris K, 0 ≤ ephem.e → ephem.e < 1 → ∀ t, |t - ephem.t_oe| < 302400 →
      (∀ fuel, calcSatPos fuel ephem (t + 604800) = calcSatPos fuel ephem t ∧
        calcSatPos fuel ephem (t - 604800) = calcSatPos fuel ephem t) ∧
      (Archimedean K → (∀ a b : K, |sin a - sin b| ≤ |a - b|) →
        ∃ (N : Nat) (pos : EcefPos K), ∀ fuel, N ≤ fuel → calcSatPos fuel ephem t = some pos ∧
          calcSatPos fuel ephem (t + 604800) = some pos ∧
          calcSatPos fuel ephem (t - 604800) = some pos)) ∧
    ∀ t t_ref : K, |t - t_ref| ≤ 907200 →
      (-302400 ≤ calcTimeFromEpoch t t_ref ∧ calcTimeFromEpoch t t_ref ≤ 302400) ∧
      (calcTimeFromEpoch t t_ref = t - t_ref ∨ calcTimeFromEpoch t t_ref = t - t_ref + 604800 ∨
        calcTimeFromEpoch t t_ref = t - t_ref - 604800) ∧
      calcTimeFromEpoch t t_ref = -calcTimeFromEpoch t_ref t := by
  constructor
  · intro ephem he he1 t ht
    rcases calcTimeFromEpoch_week t ephem.t_oe ht with ⟨hlate, hearly⟩
    have hsame : ∀ fuel, calcSatPos fuel ephem (t + 604800) = calcSatPos fuel ephem t ∧
        calcSatPos fuel ephem (t - 604800) = calcSatPos fuel ephem t :=
      fun fuel => ⟨calcSatPos_congr fuel ephem _ t hlate, calcSatPos_congr fuel ephem _ t hearly⟩
    refine ⟨hsame, fun harch hlip => ?_⟩
    rcases calcSatPos_returns hlip ephem he he1 t with ⟨N, pos, hpos⟩
    refine ⟨N, pos, fun fuel hfuel => ?_⟩
    rw [(hsame fuel).1, (hsame fuel).2]
    exact ⟨hpos fuel hfuel, hpos fuel hfuel, hpos fuel hfuel⟩
  · intro t t_ref h
    rcases calcTimeFromEpoch_wraps t t_ref h with ⟨hrange, hwhole⟩
    exact ⟨hrange, hwhole, calcTimeFromEpoch_swap t t_ref⟩

end Week

/-! ### A satellite on a slightly eccentric orbit -/

section Sample

/-- An orbit of 26560.3 km with a radius correction of 87.6875 m. -/
noncomputable def sampleEphemeris : Ephemeris ℝ :=
  { A := 26560300, MU := 398600500000000, C_rs := 87.6875, dn := 0, M_0 := 1, C_uc := 0
    e := 1 / 100, C_us := 0, t_oe := 0, C_ic := 0, OMEGA_0 := 0, OMEGA_E := 0, C_is := 0
    i_0 := 1, C_rc := 0, omega := 0, OMEGA_dot := 0, IDOT := 0 }

theorem sampleEphemeris_elliptic :
    0 < sampleEphemeris.A ∧ 0 ≤ sampleEphemeris.e ∧ sampleEphemeris.e < 1 := by
  unfold sampleEphemeris
  norm_num

theorem calcEccentricAnomaly_accurate_example :
    ∃ (N : Nat) (E : ℝ), (∀ fuel, N ≤ fuel →
        calcEccentricAnomaly fuel sampleEphemeris 3600 = some E) ∧
      |E - (meanAnomaly sampleEphemeris 3600 + 1 / 100 * sin E)| ≤ 1 / 100 * 1e-10 := by
  rcases sampleEphemeris_elliptic with ⟨_, he, he1⟩
  rcases calcEccentricAnomaly_accurate sampleEphemeris he he1 3600 with ⟨N, E, hloop, hresidual, _⟩
  exact ⟨N, E, hloop, hresidual⟩

theorem calcSatPos_radius_example :
    ∃ (fuel : Nat) (pos : EcefPos ℝ) (r_k : ℝ), calcSatPos fuel sampleEphemeris 3600 = some pos ∧
      pos.x ^ 2 + pos.y ^ 2 + pos.z ^ 2 = r_k ^ 2 ∧
      26560300 * (1 - 1 / 100) - (|87.6875| + |0|) ≤ r_k := by
  rcases sampleEphemeris_elliptic with ⟨hA, he, he1⟩
  rcases calcSatPos_radius Real.sin_sq_add_cos_sq sampleEphemeris hA he he1 3600
    with ⟨hradius, hreturns⟩
  rcases hreturns inferInstance Real.abs_sin_sub_sin_le with ⟨N, pos, hpos⟩
  rcases hradius N pos (hpos N (Nat.le_refl N)) with ⟨E_k, _, hlength, hnear, _⟩
  exact ⟨N, pos, _, hpos N (Nat.le_refl N), hlength, hnear⟩

theorem calcSatPos_week_example :
    (∃ (fuel : Nat) (pos : EcefPos ℝ), calcSatPos fuel sampleEphemeris 3600 = some pos ∧
      calcSatPos fuel sampleEphemeris (3600 + 604800) = some pos) ∧
    calcTimeFromEpoch (604800 : ℝ) 0 = -calcTimeFromEpoch 0 604800 := by
  rcases calcSatPos_week (K := ℝ) with ⟨hmoves, htimes⟩
  rcases sampleEphemeris_elliptic with ⟨_, he, he1⟩
  have hnear : |(3600 : ℝ) - sampleEphemeris.t_oe| < 302400 := by
    have hepoch : sampleEphemeris.t_oe = 0 := rfl
    rw [hepoch, abs_lt]
    norm_num
  rcases (hmoves sampleEphemeris he he1 3600 hnear).2 inferInstance Real.abs_sin_sub_sin_le
    with ⟨N, pos, hpos⟩
  refine ⟨⟨N, pos, (hpos N (Nat.le_refl N)).1, (hpos N (Nat.le_refl N)).2.1⟩, ?_⟩
  exact (htimes 604800 0 (by rw [abs_le]; norm_num)).2.2

end Sample

end SimpleDgps
