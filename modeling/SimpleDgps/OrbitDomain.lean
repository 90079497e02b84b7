import SimpleDgps.Orbit
import SimpleDgps.Domain

/-!
# The Domain of a Satellite Position

The computation of a position with its two roots and its division taken only
where they are defined.

The mean motion is a root of a quotient. For a semi-major axis of zero or a
negative quotient the program comes to a value that is not a number, no difference
is then below the tolerance, and the loop for Kepler's equation runs forever. The
total operations that `calcSatPos` is written with hide that. The functions of this
file compute the same with the operations of `Domain`, and
`calcSatPosChecked_iff` says when they come to the same position: the mean motion
is a real number, and so is the root in the true anomaly. What is said elsewhere of
the positions of `calcSatPos` is therefore said of theirs.

For such orbits the number of rounds the loop takes is a matter of the eccentricity
alone. No other parameter and no time makes it slower: `calcSatPos_rounds`.

## Main definitions

* `meanAnomalyChecked`, `argumentOfLatitudeChecked`: The two angles that need a root.
* `calcEccentricAnomalyChecked`: The loop for Kepler's equation.
* `calcSatPosChecked`: The position.
* `RealMotion`: The mean motion is a real number.

## Theorems

* `meanAnomalyChecked_iff`: The mean anomaly inside its domain.
* `calcEccentricAnomalyChecked_iff`: The loop inside its domain.
* `calcSatPosChecked_iff`: The position inside its domain.
* `calcEccentricAnomaly_rounds`: Rounds that are enough for the loop.
* `calcSatPos_rounds`: When they are enough for a position.
-/

namespace SimpleDgps

open Toolkit Loop FixedPoint
open CMath (sqrt sin cos atan2)

variable {K : Type} [Field K] [LinearOrder K] [CMath K]

/-- `M_k`, if the mean motion is a real number. -/
def meanAnomalyChecked (ephem : Ephemeris K) (t_k : K) : Except DomainError K := do
  let quotient ← divide ephem.MU (ephem.A * ephem.A * ephem.A)
  let n_0 ← squareRoot quotient
  let n := n_0 + ephem.dn
  .ok (ephem.M_0 + n * t_k)

def calcEccentricAnomalyChecked (fuel : Nat) (ephem : Ephemeris K) (t_k : K) :
    Except DomainError (Option K) := do
  let M_k ← meanAnomalyChecked ephem t_k
  .ok (settle (fun E_k => M_k + ephem.e * sin E_k) 1e-10 fuel M_k)

/-- `AOL`, if the root in the true anomaly exists. -/
def argumentOfLatitudeChecked (ephem : Ephemeris K) (E_k : K) : Except DomainError K := do
  let root ← squareRoot (1 - ephem.e * ephem.e)
  let v_k := atan2 (root * sin E_k) (cos E_k - ephem.e)
  .ok (v_k + ephem.omega)

/-- The position at time `t`, or none if the loop has not ended. -/
def calcSatPosChecked (fuel : Nat) (ephem : Ephemeris K) (t : K) :
    Except DomainError (Option (EcefPos K)) := do
  let t_k := calcTimeFromEpoch t ephem.t_oe
  match ← calcEccentricAnomalyChecked fuel ephem t_k with
  | none => .ok none
  | some E_k => do
      -- The rest takes no other root and divides by nothing.
      let _AOL ← argumentOfLatitudeChecked ephem E_k
      .ok (some (satPosAt ephem t_k E_k))

/-- The mean motion is a real number. -/
def RealMotion (ephem : Ephemeris K) : Prop :=
  ephem.A ≠ 0 ∧ 0 ≤ ephem.MU / (ephem.A * ephem.A * ephem.A)

omit [LinearOrder K] [CMath K] in
theorem cube_ne_zero_iff (a : K) : a * a * a ≠ 0 ↔ a ≠ 0 := by
  rw [mul_ne_zero_iff, mul_ne_zero_iff, and_self, and_self]

/-- The mean anomaly inside its domain. -/
theorem meanAnomalyChecked_iff (ephem : Ephemeris K) (t_k M_k : K) :
    meanAnomalyChecked ephem t_k = .ok M_k ↔
      RealMotion ephem ∧ M_k = meanAnomaly ephem t_k := by
  unfold meanAnomalyChecked RealMotion
  constructor
  · intro h
    rcases bind_eq_ok _ _ _ h with ⟨quotient, hquotient, h⟩
    rcases bind_eq_ok _ _ _ h with ⟨n_0, hroot, h⟩
    rcases divide_eq_ok _ _ _ hquotient with ⟨hcube, rfl⟩
    rcases squareRoot_eq_ok _ _ hroot with ⟨hnonneg, rfl⟩
    exact ⟨⟨(cube_ne_zero_iff ephem.A).mp hcube, hnonneg⟩, (Except.ok.inj h).symm⟩
  · rintro ⟨⟨hA, hnonneg⟩, rfl⟩
    rw [divide_ok _ _ ((cube_ne_zero_iff ephem.A).mpr hA), ok_bind, squareRoot_ok _ hnonneg,
      ok_bind]
    rfl

/-- The loop starts exactly if the mean motion is a real number. -/
theorem calcEccentricAnomalyChecked_iff (fuel : Nat) (ephem : Ephemeris K) (t_k : K)
    (E : Option K) : calcEccentricAnomalyChecked fuel ephem t_k = .ok E ↔
      RealMotion ephem ∧ E = calcEccentricAnomaly fuel ephem t_k := by
  unfold calcEccentricAnomalyChecked
  constructor
  · intro h
    rcases bind_eq_ok _ _ _ h with ⟨M_k, hM, hloop⟩
    rcases (meanAnomalyChecked_iff ephem t_k M_k).mp hM with ⟨hmotion, rfl⟩
    exact ⟨hmotion, (Except.ok.inj hloop).symm⟩
  · rintro ⟨hmotion, rfl⟩
    rw [(meanAnomalyChecked_iff ephem t_k _).mpr ⟨hmotion, rfl⟩, ok_bind]
    rfl

theorem argumentOfLatitudeChecked_iff (ephem : Ephemeris K) (E_k AOL : K) :
    argumentOfLatitudeChecked ephem E_k = .ok AOL ↔
      0 ≤ 1 - ephem.e * ephem.e ∧ AOL = argumentOfLatitude ephem E_k := by
  unfold argumentOfLatitudeChecked
  constructor
  · intro h
    rcases bind_eq_ok _ _ _ h with ⟨root, hroot, h⟩
    rcases squareRoot_eq_ok _ _ hroot with ⟨hnonneg, rfl⟩
    exact ⟨hnonneg, (Except.ok.inj h).symm⟩
  · rintro ⟨hnonneg, rfl⟩
    rw [squareRoot_ok _ hnonneg, ok_bind]
    rfl

/-- A checked run comes to a position exactly if the plain one does and both
    roots exist. -/
theorem calcSatPosChecked_iff (fuel : Nat) (ephem : Ephemeris K) (t : K) (pos : EcefPos K) :
    calcSatPosChecked fuel ephem t = .ok (some pos) ↔
      RealMotion ephem ∧ 0 ≤ 1 - ephem.e * ephem.e ∧ calcSatPos fuel ephem t = some pos := by
  unfold calcSatPosChecked calcSatPos
  simp only
  constructor
  · intro h
    rcases bind_eq_ok _ _ _ h with ⟨E, hE, h⟩
    rcases (calcEccentricAnomalyChecked_iff fuel ephem _ E).mp hE with ⟨hmotion, hloop⟩
    cases E with
    | none => exact absurd h (by simp only [Except.ok.injEq, reduceCtorEq, not_false_eq_true])
    | some E_k =>
        rcases bind_eq_ok _ _ _ h with ⟨AOL, hAOL, h⟩
        rw [← hloop, Option.map_some]
        exact ⟨hmotion, ((argumentOfLatitudeChecked_iff ephem E_k AOL).mp hAOL).1,
          Except.ok.inj h⟩
  · rintro ⟨hmotion, hroot, hpos⟩
    rcases Option.map_eq_some_iff.mp hpos with ⟨E_k, hloop, hE⟩
    rw [(calcEccentricAnomalyChecked_iff fuel ephem _ _).mpr ⟨hmotion, hloop.symm⟩, ok_bind]
    simp only
    rw [(argumentOfLatitudeChecked_iff ephem E_k _).mpr ⟨hroot, rfl⟩, ok_bind, hE]

/-! ### The number of rounds -/

/-- Rounds that are enough for the loop, whatever the mean anomaly is. -/
theorem calcEccentricAnomaly_rounds (ephem : Ephemeris ℝ) (he : 0 ≤ ephem.e) (n : Nat)
    (hn : ephem.e ^ (n + 1) < 1e-10) (t_k : ℝ) :
    ∃ E_k, ∀ fuel, n + 1 ≤ fuel → calcEccentricAnomaly fuel ephem t_k = some E_k := by
  have hcontracts := kepler_contracts Real.abs_sin_sub_sin_le ephem.e (meanAnomaly ephem t_k) he
  unfold calcEccentricAnomaly
  generalize meanAnomaly ephem t_k = M at *
  -- The first round moves the anomaly by no more than the eccentricity.
  have hfirst : |M + ephem.e * sin M - M| ≤ ephem.e := by
    rw [add_sub_cancel_left, abs_mul, abs_of_nonneg he]
    exact mul_le_of_le_one_right he (Real.abs_sin_le_one M)
  have hlast : ephem.e ^ n * |M + ephem.e * sin M - M| < 1e-10 := by
    refine lt_of_le_of_lt ?_ hn
    rw [pow_succ]
    exact mul_le_mul_of_nonneg_left hfirst (pow_nonneg he n)
  rcases settle_rounds _ ephem.e 1e-10 he hcontracts n M hlast with ⟨E, hE⟩
  exact ⟨E, fun fuel hfuel => settle_mono _ _ (n + 1) fuel M E hE hfuel⟩

/-- The rounds that are enough depend on the eccentricity alone, for exactly the
    orbits whose mean motion is a real number. -/
theorem calcSatPos_rounds (ephem : Ephemeris ℝ) (he : 0 ≤ ephem.e) (n : Nat)
    (hn : ephem.e ^ (n + 1) < 1e-10) (t : ℝ) :
    (∃ pos, ∀ fuel, n + 1 ≤ fuel → calcSatPosChecked fuel ephem t = .ok (some pos)) ↔
      ephem.A ≠ 0 ∧ 0 ≤ ephem.MU / (ephem.A * ephem.A * ephem.A) := by
  constructor
  · rintro ⟨pos, hpos⟩
    exact ((calcSatPosChecked_iff _ ephem t pos).mp (hpos (n + 1) (Nat.le_refl _))).1
  · intro hmotion
    have hsmall : ephem.e ≤ 1 := by
      by_contra hlarge
      have hpow : 1 ≤ ephem.e ^ (n + 1) := one_le_pow₀ (not_le.mp hlarge).le
      norm_num at hn
      linarith
    have hroot : 0 ≤ 1 - ephem.e * ephem.e := sub_nonneg.mpr (mul_le_one₀ hsmall he hsmall)
    rcases calcEccentricAnomaly_rounds ephem he n hn (calcTimeFromEpoch t ephem.t_oe)
      with ⟨E_k, hloop⟩
    refine ⟨satPosAt ephem (calcTimeFromEpoch t ephem.t_oe) E_k, fun fuel hfuel => ?_⟩
    refine (calcSatPosChecked_iff fuel ephem t _).mpr ⟨hmotion, hroot, ?_⟩
    unfold calcSatPos
    simp only
    rw [hloop fuel hfuel, Option.map_some]

/-- Six rounds for the satellite of the example, and none for one whose
    gravitational parameter is negative. -/
theorem calcSatPos_rounds_example :
    (∃ pos, calcSatPosChecked 6 sampleEphemeris 3600 = .ok (some pos)) ∧
      ¬∃ pos, ∀ fuel, 6 ≤ fuel →
        calcSatPosChecked fuel { sampleEphemeris with MU := -1 } 3600 = .ok (some pos) := by
  rcases sampleEphemeris_elliptic with ⟨hA, he, _⟩
  have hsmall : sampleEphemeris.e ^ (5 + 1) < 1e-10 := by
    have he' : sampleEphemeris.e = 1 / 100 := rfl
    rw [he']
    norm_num
  have hcube : 0 < sampleEphemeris.A * sampleEphemeris.A * sampleEphemeris.A :=
    mul_pos (mul_pos hA hA) hA
  constructor
  · have hMU : 0 ≤ sampleEphemeris.MU := by
      unfold sampleEphemeris
      norm_num
    rcases (calcSatPos_rounds sampleEphemeris he 5 hsmall 3600).mpr
      ⟨hA.ne', div_nonneg hMU hcube.le⟩ with ⟨pos, hpos⟩
    exact ⟨pos, hpos 6 (Nat.le_refl 6)⟩
  · intro h
    have hmotion := (calcSatPos_rounds { sampleEphemeris with MU := -1 } he 5 hsmall 3600).mp h
    exact absurd hmotion.2 (not_le.mpr (div_neg_of_neg_of_pos neg_one_lt_zero hcube))

end SimpleDgps
