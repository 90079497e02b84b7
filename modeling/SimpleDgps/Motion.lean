import Mathlib.Analysis.SpecialFunctions.Trigonometric.Angle
import SimpleDgps.Kepler
import SimpleDgps.Revolution
import SimpleDgps.Toolkit.Anomaly

/-!
# Positions at Nearby Times

A satellite does not jump.

Two things in the computation could make it. The true anomaly comes from `atan2`,
which jumps by a full turn on the far side of the orbit. And the loop for Kepler's
equation ends on a comparison, so at two times however close it may end after
different numbers of rounds.

The first makes no difference at all. The argument of latitude differs from a
smooth function of the eccentric anomaly by full turns, and where the code uses it
full turns drop out, in the correction of the angle as well as in the other two
(`satPosAt_smooth`). The second can be seen, but only as far as the result of the
loop is from the exact solution. What remains is how fast the position moves with
the eccentric anomaly (`swing`) and with the time (`drift`), and the exact solution
with the mean anomaly. `calcSatPos_moves` puts these together.

## Main definitions

* `rate`: How fast a correction changes at most.
* `reach`: The largest distance from the centre.
* `swing`: Metres for a radian of the eccentric anomaly.
* `drift`: Metres for a second, from the drift of the plane.
* `speed`: Metres for a second.

## Theorems

* `argumentOfLatitude_anomaly`: The argument of latitude without its jumps.
* `satPosAt_smooth`: The position in terms of it.
* `harmonic_near`, `add_harmonic_near`: How fast a correction changes.
* `radius_near`, `placed_near`: How fast the distance and the position change.
* `satPosAt_near`: The same by the eccentric anomaly alone.
* `kepler_near`: How fast the solution of Kepler's equation changes.
* `calcSatPos_moves`: Positions at two times.
-/

namespace SimpleDgps

open Toolkit FixedPoint Anomaly
open CMath (atan2)

/-! ### The argument of latitude without jumps -/

/-- Angles with the same sine and cosine are full turns apart. -/
theorem exists_turns (a b : ℝ) (hcos : Real.cos a = Real.cos b) (hsin : Real.sin a = Real.sin b) :
    ∃ k : ℤ, a = b + k * (2 * Real.pi) := by
  have hangle := Real.Angle.cos_sin_inj hcos hsin
  rcases Real.Angle.angle_eq_iff_two_pi_dvd_sub.mp hangle with ⟨k, hk⟩
  refine ⟨k, ?_⟩
  linear_combination hk

theorem placed_turn (ephem : Ephemeris ℝ) (t_k E AOL : ℝ) (k : ℤ) :
    placed ephem t_k E (AOL + k * (2 * Real.pi)) = placed ephem t_k E AOL := by
  unfold placed polarFixed
  rw [harmonic_turn, harmonic_turn, harmonic_turn, add_right_comm, Real.cos_add_int_mul_two_pi,
    Real.sin_add_int_mul_two_pi]

/-- How fast a correction changes at most. -/
noncomputable def rate (C_s C_c : ℝ) : ℝ := 2 • (|C_s| + |C_c|)

theorem rate_nonneg (C_s C_c : ℝ) : 0 ≤ rate C_s C_c := by
  unfold rate
  positivity

/-- A correction changes no faster than twice the sum of its amplitudes. -/
theorem harmonic_near (C_s C_c a b : ℝ) :
    |harmonic C_s C_c a - harmonic C_s C_c b| ≤ rate C_s C_c * |a - b| := by
  have hsin : |Real.sin (2 * a) - Real.sin (2 * b)| ≤ 2 * |a - b| := by
    refine (Real.abs_sin_sub_sin_le _ _).trans_eq ?_
    rw [← mul_sub, abs_mul, abs_two]
  have hcos : |Real.cos (2 * a) - Real.cos (2 * b)| ≤ 2 * |a - b| := by
    refine (Real.abs_cos_sub_cos_le _ _).trans_eq ?_
    rw [← mul_sub, abs_mul, abs_two]
  have hsplit : harmonic C_s C_c a - harmonic C_s C_c b
      = C_s * (Real.sin (2 * a) - Real.sin (2 * b)) +
        C_c * (Real.cos (2 * a) - Real.cos (2 * b)) := by
    rw [harmonic_eq, harmonic_eq, sin_real, sin_real, cos_real, cos_real]
    ring
  calc |harmonic C_s C_c a - harmonic C_s C_c b|
      ≤ |C_s * (Real.sin (2 * a) - Real.sin (2 * b))| +
          |C_c * (Real.cos (2 * a) - Real.cos (2 * b))| := by
        rw [hsplit]
        exact abs_add_le _ _
    _ ≤ |C_s| * (2 * |a - b|) + |C_c| * (2 * |a - b|) := by
        rw [abs_mul, abs_mul]
        exact add_le_add (mul_le_mul_of_nonneg_left hsin (abs_nonneg _))
          (mul_le_mul_of_nonneg_left hcos (abs_nonneg _))
    _ = rate C_s C_c * |a - b| := by
        rw [rate, two_nsmul]
        ring

/-- Nor does an angle together with its correction. -/
theorem add_harmonic_near (C_s C_c a b x y d : ℝ) (h : |x - y| ≤ d) :
    |x + harmonic C_s C_c a - (y + harmonic C_s C_c b)| ≤ d + rate C_s C_c * |a - b| := by
  rw [add_sub_add_comm]
  exact (abs_add_le _ _).trans (add_le_add h (harmonic_near C_s C_c a b))

/-- The plane turns and tilts at constant rates. -/
theorem abs_planeTilt_sub (ephem : Ephemeris ℝ) (t_k t_k' : ℝ) :
    |planeTilt ephem t_k - planeTilt ephem t_k'| = |ephem.IDOT| * |t_k - t_k'| := by
  rw [← abs_mul]
  refine congrArg abs ?_
  unfold planeTilt
  ring

theorem abs_planeNode_sub (ephem : Ephemeris ℝ) (t_k t_k' : ℝ) :
    |planeNode ephem t_k - planeNode ephem t_k'|
      = |ephem.OMEGA_dot - ephem.OMEGA_E| * |t_k - t_k'| := by
  rw [← abs_mul]
  refine congrArg abs ?_
  unfold planeNode
  ring

/-- The solution of Kepler's equation changes no faster than the mean anomaly over
    what is left of one. -/
theorem kepler_near (e M M' z z' : ℝ) (he : 0 ≤ e) (he1 : e < 1) (hz : z = M + e * Real.sin z)
    (hz' : z' = M' + e * Real.sin z') : |z - z'| ≤ |M - M'| / (1 - e) := by
  have hgap : 0 < 1 - e := sub_pos.mpr he1
  have hsin : |e * (Real.sin z - Real.sin z')| ≤ e * |z - z'| := by
    rw [abs_mul, abs_of_nonneg he]
    exact mul_le_mul_of_nonneg_left (Real.abs_sin_sub_sin_le z z') he
  have hsplit : z - z' = M - M' + e * (Real.sin z - Real.sin z') := by
    linear_combination hz - hz'
  have htriangle : |z - z'| ≤ |M - M'| + |e * (Real.sin z - Real.sin z')| := by
    rw [hsplit]
    exact abs_add_le _ _
  rw [le_div_iff₀ hgap]
  linarith

section Speed

variable (ephem : Ephemeris ℝ)

/-- The largest distance from the centre. -/
noncomputable def reach : ℝ := ephem.A * (1 + ephem.e) + (|ephem.C_rs| + |ephem.C_rc|)

/-- Metres for a radian of the eccentric anomaly. -/
noncomputable def swing : ℝ :=
  ephem.A * ephem.e + (rate ephem.C_rs ephem.C_rc + reach ephem *
    (1 + rate ephem.C_us ephem.C_uc + rate ephem.C_is ephem.C_ic)) * (1 / (1 - ephem.e))

/-- Metres for a second, from the drift of the plane. -/
noncomputable def drift : ℝ :=
  reach ephem * (|ephem.IDOT| + |ephem.OMEGA_dot - ephem.OMEGA_E|)

/-- Metres for a second. -/
noncomputable def speed : ℝ := drift ephem + swing ephem * (|meanMotion ephem| / (1 - ephem.e))

variable (hA : 0 < ephem.A) (he : 0 ≤ ephem.e) (he1 : ephem.e < 1)

include he he1

/-- The argument of latitude is a smooth function of the eccentric anomaly, up to
    full turns. -/
theorem argumentOfLatitude_anomaly (E : ℝ) :
    ∃ k : ℤ, argumentOfLatitude ephem E = anomaly ephem.e E + ephem.omega + k * (2 * Real.pi) := by
  have hpos := (one_sub_ecc_cos_pos ephem he he1 E).ne'
  have hpolar := argumentOfLatitude_polar ephem he he1 E
  have hcos : Real.cos (argumentOfLatitude ephem E - ephem.omega)
      = Real.cos (anomaly ephem.e E) := by
    refine mul_left_cancel₀ hpos ?_
    rw [hpolar.1, mul_comm]
    exact (cos_anomaly ephem.e E he he1).symm
  have hsin : Real.sin (argumentOfLatitude ephem E - ephem.omega)
      = Real.sin (anomaly ephem.e E) := by
    refine mul_left_cancel₀ hpos ?_
    rw [hpolar.2, mul_comm _ (Real.sin (anomaly ephem.e E))]
    exact (sin_anomaly ephem.e E he he1).symm
  -- Cosine and sine of the two angles agree, and that leaves full turns.
  rcases exists_turns _ _ hcos hsin with ⟨k, hk⟩
  exact ⟨k, by rw [add_right_comm, ← hk, sub_add_cancel]⟩

/-- The position in terms of smooth functions. -/
theorem satPosAt_smooth (t_k E : ℝ) :
    satPosAt ephem t_k E = placed ephem t_k E (anomaly ephem.e E + ephem.omega) := by
  rcases argumentOfLatitude_anomaly ephem he he1 E with ⟨k, hk⟩
  rw [satPosAt_eq_placed, hk, placed_turn]

omit he1 in
include hA in
theorem reach_nonneg : 0 ≤ reach ephem := by
  unfold reach
  positivity

omit he1 in
include hA in
/-- What a radian of the argument of latitude is worth. -/
theorem latitude_swing_nonneg : 0 ≤ rate ephem.C_rs ephem.C_rc + reach ephem *
    (1 + rate ephem.C_us ephem.C_uc + rate ephem.C_is ephem.C_ic) := by
  have hreach := reach_nonneg ephem hA he
  have hrs := rate_nonneg ephem.C_rs ephem.C_rc
  have hus := rate_nonneg ephem.C_us ephem.C_uc
  have his := rate_nonneg ephem.C_is ephem.C_ic
  positivity

include hA in
theorem swing_nonneg : 0 ≤ swing ephem := by
  have hlatitude := latitude_swing_nonneg ephem hA he
  have hgap : 0 < 1 - ephem.e := sub_pos.mpr he1
  unfold swing
  positivity

omit he1 in
include hA in
/-- The distance from the centre changes with the eccentric anomaly and with the
    argument of latitude. -/
theorem radius_near (E E' a b : ℝ) :
    |ephem.A * (1 - ephem.e * Real.cos E) + harmonic ephem.C_rs ephem.C_rc a -
      (ephem.A * (1 - ephem.e * Real.cos E') + harmonic ephem.C_rs ephem.C_rc b)|
        ≤ ephem.A * ephem.e * |E - E'| + rate ephem.C_rs ephem.C_rc * |a - b| := by
  have hscale : 0 ≤ ephem.A * ephem.e := mul_nonneg hA.le he
  have hsplit : ephem.A * (1 - ephem.e * Real.cos E) - ephem.A * (1 - ephem.e * Real.cos E')
      = ephem.A * ephem.e * (Real.cos E' - Real.cos E) := by ring
  refine add_harmonic_near ephem.C_rs ephem.C_rc a b _ _ _ ?_
  rw [hsplit, abs_mul, abs_of_nonneg hscale, abs_sub_comm]
  exact mul_le_mul_of_nonneg_left (Real.abs_cos_sub_cos_le E E') hscale

include hA in
theorem radius_le_reach (E a : ℝ) :
    |ephem.A * (1 - ephem.e * Real.cos E) + harmonic ephem.C_rs ephem.C_rc a| ≤ reach ephem := by
  refine (abs_add_le _ _).trans (add_le_add ?_ (harmonic_le Real.sin_sq_add_cos_sq _ _ a))
  exact abs_kepler_radius_le ephem hA he he1 E

include hA in
/-- How far two positions can be apart, in terms of the argument of latitude. -/
theorem placed_near (t_k t_k' E E' a b : ℝ) :
    dist (point (placed ephem t_k E a)) (point (placed ephem t_k' E' b))
      ≤ drift ephem * |t_k - t_k'| + ephem.A * ephem.e * |E - E'| +
        (rate ephem.C_rs ephem.C_rc + reach ephem *
          (1 + rate ephem.C_us ephem.C_uc + rate ephem.C_is ephem.C_ic)) * |a - b| := by
  have hreach := reach_nonneg ephem hA he
  have hr := radius_near ephem hA he E E' a b
  have hr' := radius_le_reach ephem hA he he1 E' b
  have hu := add_harmonic_near ephem.C_us ephem.C_uc a b a b _ (le_refl |a - b|)
  have hi := add_harmonic_near ephem.C_is ephem.C_ic a b _ _ _ (abs_planeTilt_sub ephem t_k t_k').le
  have hw := (abs_planeNode_sub ephem t_k t_k').le
  -- The angles move the point along circles no larger than the reach.
  calc dist (point (placed ephem t_k E a)) (point (placed ephem t_k' E' b))
      ≤ ephem.A * ephem.e * |E - E'| + rate ephem.C_rs ephem.C_rc * |a - b| +
          reach ephem * ((|a - b| + rate ephem.C_us ephem.C_uc * |a - b|) +
            (|ephem.IDOT| * |t_k - t_k'| + rate ephem.C_is ephem.C_ic * |a - b|) +
            |ephem.OMEGA_dot - ephem.OMEGA_E| * |t_k - t_k'|) := by
        refine (polarFixed_near _ _ _ _ _ _ _ _).trans (add_le_add hr ?_)
        exact mul_le_mul hr' (add_le_add (add_le_add hu hi) hw) (by positivity) hreach
    _ = drift ephem * |t_k - t_k'| + ephem.A * ephem.e * |E - E'| +
          (rate ephem.C_rs ephem.C_rc + reach ephem *
            (1 + rate ephem.C_us ephem.C_uc + rate ephem.C_is ephem.C_ic)) * |a - b| := by
        unfold drift
        ring

include hA in
/-- How far two positions can be apart. -/
theorem satPosAt_near (t_k t_k' E E' : ℝ) :
    dist (point (satPosAt ephem t_k E)) (point (satPosAt ephem t_k' E'))
      ≤ drift ephem * |t_k - t_k'| + swing ephem * |E - E'| := by
  have hangle : |anomaly ephem.e E + ephem.omega - (anomaly ephem.e E' + ephem.omega)|
      ≤ 1 / (1 - ephem.e) * |E - E'| := by
    rw [add_sub_add_right_eq_sub]
    exact anomaly_lipschitz ephem.e he he1 E E'
  have hfactor := latitude_swing_nonneg ephem hA he
  rw [satPosAt_smooth ephem he he1, satPosAt_smooth ephem he he1]
  refine (placed_near ephem hA he he1 t_k t_k' E E' _ _).trans ?_
  calc _ ≤ drift ephem * |t_k - t_k'| + ephem.A * ephem.e * |E - E'| +
          (rate ephem.C_rs ephem.C_rc + reach ephem *
            (1 + rate ephem.C_us ephem.C_uc + rate ephem.C_is ephem.C_ic)) *
              (1 / (1 - ephem.e) * |E - E'|) :=
        add_le_add_right (mul_le_mul_of_nonneg_left hangle hfactor) _
    _ = drift ephem * |t_k - t_k'| + swing ephem * |E - E'| := by
        unfold swing
        ring

include hA in
/-- Positions at two times are no further apart than the speed and the tolerance of
    the loop allow. -/
theorem calcSatPos_moves (t t' : ℝ) :
    ∃ (N : Nat) (pos pos' : EcefPos ℝ), (∀ fuel, N ≤ fuel →
        calcSatPos fuel ephem t = some pos ∧ calcSatPos fuel ephem t' = some pos') ∧
      dist (point pos) (point pos')
        ≤ speed ephem * |calcTimeFromEpoch t ephem.t_oe - calcTimeFromEpoch t' ephem.t_oe| +
          swing ephem * (2 * (ephem.e / (1 - ephem.e) * 1e-10)) := by
  rcases settled_near ephem he he1 (calcTimeFromEpoch t ephem.t_oe)
    with ⟨N, E, z, hE, hz, hnear⟩
  rcases settled_near ephem he he1 (calcTimeFromEpoch t' ephem.t_oe)
    with ⟨N', E', z', hE', hz', hnear'⟩
  refine ⟨max N N', satPosAt ephem (calcTimeFromEpoch t ephem.t_oe) E,
    satPosAt ephem (calcTimeFromEpoch t' ephem.t_oe) E', fun fuel hfuel => ⟨?_, ?_⟩, ?_⟩
  · exact calcSatPos_of_settled ephem fuel t E (hE fuel ((le_max_left N N').trans hfuel))
  · exact calcSatPos_of_settled ephem fuel t' E' (hE' fuel ((le_max_right N N').trans hfuel))
  generalize calcTimeFromEpoch t ephem.t_oe = t_k at *
  generalize calcTimeFromEpoch t' ephem.t_oe = t_k' at *
  have hswing := swing_nonneg ephem hA he he1
  have hmean : |meanAnomaly ephem t_k - meanAnomaly ephem t_k'|
      = |meanMotion ephem| * |t_k - t_k'| := by
    rw [meanAnomaly_eq, meanAnomaly_eq, add_sub_add_left_eq_sub, ← mul_sub, abs_mul]
  have hexact : |z - z'| ≤ |meanMotion ephem| * |t_k - t_k'| / (1 - ephem.e) := by
    rw [← hmean]
    exact kepler_near ephem.e _ _ z z' he he1 hz hz'
  -- From one result of the loop to the other by way of the two exact solutions.
  have hloops : |E - E'| ≤ |meanMotion ephem| * |t_k - t_k'| / (1 - ephem.e) +
      2 * (ephem.e / (1 - ephem.e) * 1e-10) := by
    have hsplit : E - E' = (E - z) + (z - z') + (z' - E') := by ring
    rw [abs_sub_comm] at hnear'
    rw [hsplit]
    have htriangle := abs_add_three (E - z) (z - z') (z' - E')
    linarith
  calc dist (point (satPosAt ephem t_k E)) (point (satPosAt ephem t_k' E'))
      ≤ drift ephem * |t_k - t_k'| + swing ephem * |E - E'| :=
        satPosAt_near ephem hA he he1 t_k t_k' E E'
    _ ≤ drift ephem * |t_k - t_k'| + swing ephem *
          (|meanMotion ephem| * |t_k - t_k'| / (1 - ephem.e) +
            2 * (ephem.e / (1 - ephem.e) * 1e-10)) :=
        add_le_add_right (mul_le_mul_of_nonneg_left hloops hswing) _
    _ = speed ephem * |t_k - t_k'| + swing ephem * (2 * (ephem.e / (1 - ephem.e) * 1e-10)) := by
        unfold speed
        ring

end Speed

/-- The satellite of the example moves by less than 4.2 km in a second. -/
theorem calcSatPos_moves_example :
    ∃ (fuel : Nat) (pos pos' : EcefPos ℝ), calcSatPos fuel sampleEphemeris 3600 = some pos ∧
      calcSatPos fuel sampleEphemeris 3601 = some pos' ∧ dist (point pos) (point pos') ≤ 4200 := by
  rcases sampleEphemeris_elliptic with ⟨hA, he, he1⟩
  have hzero : sampleEphemeris.t_oe = 0 := rfl
  have hepoch : calcTimeFromEpoch 3600 sampleEphemeris.t_oe = 3600 := by
    rw [hzero, calcTimeFromEpoch_near 3600 0 (by rw [abs_le]; norm_num), sub_zero]
  have hepoch' : calcTimeFromEpoch 3601 sampleEphemeris.t_oe = 3601 := by
    rw [hzero, calcTimeFromEpoch_near 3601 0 (by rw [abs_le]; norm_num), sub_zero]
  rcases calcSatPos_moves sampleEphemeris hA he he1 3600 3601 with ⟨N, pos, pos', hpos, hdist⟩
  refine ⟨N, pos, pos', (hpos N (Nat.le_refl N)).1, (hpos N (Nat.le_refl N)).2, hdist.trans ?_⟩
  have hmotion : meanMotion sampleEphemeris ≤ 15 / 100000 := by
    have hsqrt : meanMotion sampleEphemeris
        = Real.sqrt (398600500000000 / (26560300 * 26560300 * 26560300)) := add_zero _
    rw [hsqrt]
    exact Real.sqrt_le_iff.mpr ⟨by norm_num, by norm_num⟩
  have hmotion' : 0 ≤ meanMotion sampleEphemeris := add_nonneg (Real.sqrt_nonneg _) (le_refl 0)
  have hdrift : drift sampleEphemeris = 0 := by
    unfold drift sampleEphemeris
    norm_num
  have hswing : swing sampleEphemeris ≤ 27500000 := by
    unfold swing reach rate sampleEphemeris
    norm_num
  have hswing' : 0 ≤ swing sampleEphemeris := swing_nonneg sampleEphemeris hA he he1
  have he100 : sampleEphemeris.e = 1 / 100 := rfl
  have hproduct : swing sampleEphemeris * meanMotion sampleEphemeris ≤ 27500000 * (15 / 100000) :=
    mul_le_mul hswing hmotion hmotion' (by norm_num)
  rw [hepoch, hepoch', speed, hdrift, abs_of_nonneg hmotion', he100]
  norm_num
  linarith

end SimpleDgps
