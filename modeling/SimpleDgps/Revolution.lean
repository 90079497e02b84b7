import SimpleDgps.Orbit

/-!
# Full Turns and Revolutions

What a satellite's position does not depend on, and where the satellite is after
a revolution.

The angles of an ephemeris count up to full turns. For the inclination and the
node that is plain, since they are only put through a sine and a cosine. The mean
anomaly is different: it is the value that the loop for Kepler's equation starts
from and comes back to, and the loop compares values, not angles. It still makes
no difference, because the loops for two anomalies a full turn apart run in step
(`calcEccentricAnomaly_turn`), and `calcSatPos_turned` says so for all four angles
at once.

When the mean anomaly has grown by full turns the satellite is at the same place
of its orbit, while the orbit itself has moved on under the rotating Earth. So the
position is that of the earlier time on an orbit tilted by the drift of the
inclination, turned about the axis by the drift of the node:
`calcSatPos_revolution`.

## Main definitions

* `meanMotion`: The angle the mean anomaly grows by in a second.
* `turned`: An ephemeris with its angles turned.
* `aboutAxis`: A position turned about the axis of the Earth.

## Theorems

* `calcEccentricAnomaly_turn`: Full turns of the mean anomaly.
* `calcSatPos_turned`: Full turns change nothing.
* `earthFixed_aboutAxis`: Turning the node.
* `calcSatPos_revolution`: The position after full revolutions.
-/

namespace SimpleDgps

open Toolkit FixedPoint
open CMath (sin cos)

/-- `n`, the angle the mean anomaly grows by in a second. -/
noncomputable def meanMotion (ephem : Ephemeris ℝ) : ℝ :=
  Real.sqrt (ephem.MU / (ephem.A * ephem.A * ephem.A)) + ephem.dn

theorem meanAnomaly_eq (ephem : Ephemeris ℝ) (t_k : ℝ) :
    meanAnomaly ephem t_k = ephem.M_0 + meanMotion ephem * t_k := rfl

/-! ### Full turns -/

section Turns

theorem sin_turn (a : ℝ) (k : ℤ) : sin (a + k * (2 * Real.pi)) = sin a :=
  Real.sin_add_int_mul_two_pi a k

theorem cos_turn (a : ℝ) (k : ℤ) : cos (a + k * (2 * Real.pi)) = cos a :=
  Real.cos_add_int_mul_two_pi a k

theorem harmonic_turn (C_s C_c AOL : ℝ) (k : ℤ) :
    harmonic C_s C_c (AOL + k * (2 * Real.pi)) = harmonic C_s C_c AOL := by
  -- The double angle makes twice as many turns.
  have hdouble : 2 * (AOL + k * (2 * Real.pi)) = 2 * AOL + (2 * k : ℤ) * (2 * Real.pi) := by
    push_cast
    ring
  rw [harmonic_eq, harmonic_eq, hdouble, sin_turn, cos_turn]

theorem earthFixed_turn (x y i w : ℝ) (k l : ℤ) :
    earthFixed x y (i + k * (2 * Real.pi)) (w + l * (2 * Real.pi)) = earthFixed x y i w := by
  unfold earthFixed
  rw [sin_turn, cos_turn, sin_turn, cos_turn]

theorem argumentOfLatitude_turn (ephem : Ephemeris ℝ) (E_k : ℝ) (k : ℤ) :
    argumentOfLatitude ephem (E_k + k * (2 * Real.pi)) = argumentOfLatitude ephem E_k := by
  unfold argumentOfLatitude
  rw [sin_turn, cos_turn]

theorem correctedRadius_turn (ephem : Ephemeris ℝ) (E_k : ℝ) (k : ℤ) :
    correctedRadius ephem (E_k + k * (2 * Real.pi)) = correctedRadius ephem E_k := by
  unfold correctedRadius
  rw [argumentOfLatitude_turn, cos_turn]

/-- For an anomaly some full turns on the loop runs in step with the other one. -/
theorem calcEccentricAnomaly_turn (fuel : Nat) (ephem ephem' : Ephemeris ℝ) (t_k t_k' : ℝ) (k : ℤ)
    (he : ephem'.e = ephem.e)
    (hM : meanAnomaly ephem' t_k' = meanAnomaly ephem t_k + k * (2 * Real.pi)) :
    calcEccentricAnomaly fuel ephem' t_k'
      = (calcEccentricAnomaly fuel ephem t_k).map (fun E_k => E_k + k * (2 * Real.pi)) := by
  unfold calcEccentricAnomaly
  simp only [hM, he]
  refine settle_semiconj _ _ (fun E_k => E_k + k * (2 * Real.pi)) _ (fun E_k => ?_)
    (fun a b => add_sub_add_right_eq_sub a b _) fuel _
  simp only
  rw [sin_turn]
  ring

/-- The ephemeris with its four angles turned. -/
noncomputable def turned (ephem : Ephemeris ℝ) (dM domega di dOMEGA : ℝ) : Ephemeris ℝ :=
  { ephem with
    M_0 := ephem.M_0 + dM
    omega := ephem.omega + domega
    i_0 := ephem.i_0 + di
    OMEGA_0 := ephem.OMEGA_0 + dOMEGA }

theorem satPosAt_turned (ephem : Ephemeris ℝ) (dM : ℝ) (k l m n : ℤ) (t_k E_k : ℝ) :
    satPosAt (turned ephem dM (l * (2 * Real.pi)) (m * (2 * Real.pi)) (n * (2 * Real.pi))) t_k
        (E_k + k * (2 * Real.pi))
      = satPosAt ephem t_k E_k := by
  have hAOL : argumentOfLatitude
      (turned ephem dM (l * (2 * Real.pi)) (m * (2 * Real.pi)) (n * (2 * Real.pi)))
      (E_k + k * (2 * Real.pi)) = argumentOfLatitude ephem E_k + l * (2 * Real.pi) := by
    rw [argumentOfLatitude_turn]
    exact (add_assoc _ _ _).symm
  have hradius : correctedRadius
      (turned ephem dM (l * (2 * Real.pi)) (m * (2 * Real.pi)) (n * (2 * Real.pi)))
      (E_k + k * (2 * Real.pi)) = correctedRadius ephem E_k := by
    rw [correctedRadius, hAOL, harmonic_turn, cos_turn]
    rfl
  have htilt : ∀ di_k : ℝ, ephem.i_0 + m * (2 * Real.pi) + di_k + ephem.IDOT * t_k
      = ephem.i_0 + di_k + ephem.IDOT * t_k + m * (2 * Real.pi) := fun di_k => by ring
  have hnode : ephem.OMEGA_0 + n * (2 * Real.pi) + (ephem.OMEGA_dot - ephem.OMEGA_E) * t_k -
      ephem.OMEGA_E * ephem.t_oe = ephem.OMEGA_0 + (ephem.OMEGA_dot - ephem.OMEGA_E) * t_k -
        ephem.OMEGA_E * ephem.t_oe + n * (2 * Real.pi) := by ring
  unfold satPosAt
  simp only [hAOL, hradius, harmonic_turn]
  simp only [turned]
  rw [htilt, hnode, earthFixed_turn, add_right_comm, sin_turn, cos_turn]

/-- Full turns of the angles do not move a satellite. -/
theorem calcSatPos_turned (fuel : Nat) (ephem : Ephemeris ℝ) (k l m n : ℤ) (t : ℝ) :
    calcSatPos fuel (turned ephem (k * (2 * Real.pi)) (l * (2 * Real.pi)) (m * (2 * Real.pi))
        (n * (2 * Real.pi))) t
      = calcSatPos fuel ephem t := by
  generalize hturned : turned ephem (k * (2 * Real.pi)) (l * (2 * Real.pi)) (m * (2 * Real.pi))
    (n * (2 * Real.pi)) = ephem'
  have hM : meanAnomaly ephem' (calcTimeFromEpoch t ephem.t_oe)
      = meanAnomaly ephem (calcTimeFromEpoch t ephem.t_oe) + k * (2 * Real.pi) := by
    rw [← hturned]
    exact add_right_comm _ _ _
  have he : ephem'.e = ephem.e := by rw [← hturned]; rfl
  have hepoch : ephem'.t_oe = ephem.t_oe := by rw [← hturned]; rfl
  have hloop := calcEccentricAnomaly_turn fuel ephem ephem' _ _ k he hM
  unfold calcSatPos
  simp only [hepoch]
  rw [hloop, Option.map_map]
  refine congrArg (fun f => Option.map f _) (funext fun E_k => ?_)
  rw [← hturned]
  exact satPosAt_turned ephem _ k l m n _ E_k

end Turns

/-! ### Revolutions -/

section Revolutions

/-- A position turned about the axis of the Earth. -/
noncomputable def aboutAxis (angle : ℝ) (pos : EcefPos ℝ) : EcefPos ℝ :=
  { x := pos.x * Real.cos angle - pos.y * Real.sin angle
    y := pos.x * Real.sin angle + pos.y * Real.cos angle
    z := pos.z }

/-- Turning the node turns the position. -/
theorem earthFixed_aboutAxis (x y i w angle : ℝ) :
    earthFixed x y i (w + angle) = aboutAxis angle (earthFixed x y i w) := by
  have hcos : (cos (w + angle) : ℝ) = cos w * Real.cos angle - sin w * Real.sin angle :=
    Real.cos_add w angle
  have hsin : (sin (w + angle) : ℝ) = sin w * Real.cos angle + cos w * Real.sin angle :=
    Real.sin_add w angle
  simp only [earthFixed, aboutAxis, EcefPos.mk.injEq]
  rw [hcos, hsin]
  refine ⟨?_, ?_, trivial⟩
  · ring
  · ring

/-- The ephemeris with the inclination that the drift leads to. -/
def tilted (ephem : Ephemeris ℝ) (d : ℝ) : Ephemeris ℝ :=
  { ephem with i_0 := ephem.i_0 + ephem.IDOT * d }

theorem satPosAt_revolution (ephem : Ephemeris ℝ) (t_k d E_k : ℝ) (k : ℤ) :
    satPosAt ephem (t_k + d) (E_k + k * (2 * Real.pi))
      = aboutAxis ((ephem.OMEGA_dot - ephem.OMEGA_E) * d) (satPosAt (tilted ephem d) t_k E_k) := by
  have htilt : ∀ di_k : ℝ, ephem.i_0 + di_k + ephem.IDOT * (t_k + d)
      = ephem.i_0 + ephem.IDOT * d + di_k + ephem.IDOT * t_k := fun di_k => by ring
  have hnode : ephem.OMEGA_0 + (ephem.OMEGA_dot - ephem.OMEGA_E) * (t_k + d) -
      ephem.OMEGA_E * ephem.t_oe = ephem.OMEGA_0 + (ephem.OMEGA_dot - ephem.OMEGA_E) * t_k -
        ephem.OMEGA_E * ephem.t_oe + (ephem.OMEGA_dot - ephem.OMEGA_E) * d := by ring
  unfold satPosAt
  simp only [argumentOfLatitude_turn, correctedRadius_turn]
  rw [htilt, hnode, earthFixed_aboutAxis]
  rfl

/-- After full revolutions the satellite is at the same place of its orbit, which
    has drifted. -/
theorem calcSatPos_revolution (fuel : Nat) (ephem : Ephemeris ℝ) (t t' d : ℝ) (k : ℤ)
    (hd : calcTimeFromEpoch t' ephem.t_oe = calcTimeFromEpoch t ephem.t_oe + d)
    (hk : meanMotion ephem * d = k * (2 * Real.pi)) :
    calcSatPos fuel ephem t' = (calcSatPos fuel (tilted ephem d) t).map
      (aboutAxis ((ephem.OMEGA_dot - ephem.OMEGA_E) * d)) := by
  have hM : meanAnomaly ephem (calcTimeFromEpoch t ephem.t_oe + d)
      = meanAnomaly (tilted ephem d) (calcTimeFromEpoch t ephem.t_oe) + k * (2 * Real.pi) := by
    rw [meanAnomaly_eq, mul_add, hk, ← add_assoc]
    rfl
  have hloop := calcEccentricAnomaly_turn fuel (tilted ephem d) ephem _ _ k rfl hM
  have hepoch : (tilted ephem d).t_oe = ephem.t_oe := rfl
  unfold calcSatPos
  simp only [hd, hepoch]
  rw [hloop, Option.map_map, Option.map_map]
  refine congrArg (fun f => Option.map f _) (funext fun E_k => ?_)
  exact satPosAt_revolution ephem _ d E_k k

/-- The satellite of the example takes less than half a week for a revolution. -/
theorem calcSatPos_revolution_example :
    ∃ d : ℝ, 0 < d ∧ calcSatPos 9 sampleEphemeris d
      = (calcSatPos 9 (tilted sampleEphemeris d) 0).map
          (aboutAxis ((sampleEphemeris.OMEGA_dot - sampleEphemeris.OMEGA_E) * d)) := by
  have hmotion : 8 / 302400 ≤ meanMotion sampleEphemeris := by
    have hsqrt : meanMotion sampleEphemeris
        = Real.sqrt (398600500000000 / (26560300 * 26560300 * 26560300)) := add_zero _
    rw [hsqrt]
    exact Real.le_sqrt_of_sq_le (by norm_num)
  have hpos : 0 < meanMotion sampleEphemeris := lt_of_lt_of_le (by norm_num) hmotion
  have hturn : 2 * Real.pi ≤ 8 := by linarith [Real.pi_le_four]
  have hzero : sampleEphemeris.t_oe = 0 := rfl
  have hd : 0 < 2 * Real.pi / meanMotion sampleEphemeris := div_pos Real.two_pi_pos hpos
  have hweek : 2 * Real.pi / meanMotion sampleEphemeris ≤ 302400 := by
    rw [div_le_iff₀ hpos]
    linarith
  refine ⟨2 * Real.pi / meanMotion sampleEphemeris, hd, ?_⟩
  refine calcSatPos_revolution 9 sampleEphemeris 0 _ _ 1 ?_ ?_
  · rw [hzero, calcTimeFromEpoch_near _ 0 (by rwa [sub_zero, abs_of_pos hd]),
      calcTimeFromEpoch_near 0 0 (by norm_num), sub_zero, sub_zero, zero_add]
  · rw [mul_div_cancel₀ _ hpos.ne', Int.cast_one, one_mul]

end Revolutions

end SimpleDgps
