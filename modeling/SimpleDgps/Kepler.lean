import SimpleDgps.Orbit
import SimpleDgps.Space

/-!
# The Ellipse Behind the Orbit

Where the satellite would be if nothing perturbed it, and how far the computed
position can be from there.

Without the harmonic corrections the orbit is an ellipse with the centre of the
Earth in one focus: the distances to the two foci add up to the larger axis,
`kepler_ellipse`. The code never forms the coordinates on that ellipse. It takes
the angle of the true anomaly with `atan2` and the radius from a formula of its
own, and that the two belong to one point is `kepler_polar`.

Two things keep the computed position off the ellipse's point for the time. The
loop leaves Kepler's equation solved only nearly, and a point of the ellipse
moves with the eccentric anomaly no faster than the half axis (`kepler_moves`).
And the corrections move it, out by the correction of the radius, along the orbit
and across it by those of the two angles times the radius (`satPosAt_kepler`).
The sum of these is the bound of `calcSatPos_kepler`.

## Main definitions

* `polarFixed`: A point of the orbital plane by its radius and its angle.
* `planeTilt`, `planeNode`: How the plane lies.
* `keplerPos`: The position without corrections.
* `keplerFocus`: The empty focus.
* `placed`: The position with its corrections.
* `perturbation`: What the corrections can add up to.

## Theorems

* `dist_earthFixed`: Distances in the plane.
* `polarFixed_near`: How far changes of the four coordinates move a point.
* `kepler_ellipse`: The position is on an ellipse.
* `kepler_polar`: Its radius and its angle.
* `kepler_moves`: How far a change of the eccentric anomaly moves it.
* `satPosAt_kepler`: How far the corrections move it.
* `settled_near`: How near the loop comes.
* `calcSatPos_kepler`: The computed position is near the ellipse.
-/

namespace SimpleDgps

open Toolkit FixedPoint
open CMath (atan2)

/-! ### The orbital plane in space -/

theorem sin_real (a : ℝ) : CMath.sin a = Real.sin a := rfl

theorem cos_real (a : ℝ) : CMath.cos a = Real.cos a := rfl

/-- In the orbital plane distances are those of its coordinates. -/
theorem dist_earthFixed (x y x' y' i w : ℝ) :
    dist (point (earthFixed x y i w)) (point (earthFixed x' y' i w))
      = Real.sqrt ((x - x') ^ 2 + (y - y') ^ 2) := by
  have hlength := earthFixed_length Real.sin_sq_add_cos_sq (x - x') (y - y') i w
  rw [dist_point, ← hlength]
  refine congrArg Real.sqrt ?_
  simp only [earthFixed]
  ring

/-- A point of the tilted and turned plane, by its radius and its angle. -/
noncomputable def polarFixed (r u i w : ℝ) : EcefPos ℝ :=
  earthFixed (r * Real.cos u) (r * Real.sin u) i w

/-- A change of the radius moves the point by as much. -/
theorem polarFixed_out (r r' u i w : ℝ) :
    dist (point (polarFixed r u i w)) (point (polarFixed r' u i w)) = |r - r'| := by
  unfold polarFixed
  rw [dist_earthFixed, ← Real.sqrt_sq_eq_abs]
  refine congrArg Real.sqrt ?_
  linear_combination (r - r') ^ 2 * Real.sin_sq_add_cos_sq u

/-- A change of the angle moves it along a circle. -/
theorem polarFixed_along (r u u' i w : ℝ) :
    dist (point (polarFixed r u i w)) (point (polarFixed r u' i w)) ≤ |r| * |u - u'| := by
  have hchord := chord_le u u'
  have hscale : (r * Real.cos u - r * Real.cos u') ^ 2 + (r * Real.sin u - r * Real.sin u') ^ 2
      = r ^ 2 * ((Real.cos u - Real.cos u') ^ 2 + (Real.sin u - Real.sin u') ^ 2) := by ring
  unfold polarFixed
  rw [dist_earthFixed, hscale, ← abs_mul, ← Real.sqrt_sq_eq_abs, mul_pow]
  exact Real.sqrt_le_sqrt (mul_le_mul_of_nonneg_left hchord (sq_nonneg r))

/-- Tilting the plane moves it along a circle about the line of the nodes. -/
theorem polarFixed_across (r u i i' w : ℝ) :
    dist (point (polarFixed r u i w)) (point (polarFixed r u i' w)) ≤ |r| * |i - i'| := by
  have hchord := chord_le i i'
  have hunit := Real.sin_sq_add_cos_sq w
  -- The axis of the tilt is the line of the nodes, so only the part across it moves.
  have hsum : ((polarFixed r u i w).x - (polarFixed r u i' w).x) ^ 2 +
      ((polarFixed r u i w).y - (polarFixed r u i' w).y) ^ 2 +
      ((polarFixed r u i w).z - (polarFixed r u i' w).z) ^ 2
        = (r * Real.sin u) ^ 2 *
          ((Real.cos i - Real.cos i') ^ 2 * (Real.sin w ^ 2 + Real.cos w ^ 2) +
            (Real.sin i - Real.sin i') ^ 2) := by
    simp only [polarFixed, earthFixed, cos_real, sin_real]
    ring
  have hshort : (r * Real.sin u) ^ 2 ≤ r ^ 2 := by
    rw [mul_pow]
    exact mul_le_of_le_one_right (sq_nonneg r) (Real.sin_sq_le_one u)
  rw [dist_point, hsum, hunit, mul_one, ← abs_mul, ← Real.sqrt_sq_eq_abs, mul_pow r (i - i')]
  exact Real.sqrt_le_sqrt (mul_le_mul hshort hchord (by positivity) (sq_nonneg r))

/-- Turning the node moves it along a circle about the axis. -/
theorem polarFixed_about (r u i w w' : ℝ) :
    dist (point (polarFixed r u i w)) (point (polarFixed r u i w')) ≤ |r| * |w - w'| := by
  have hchord := chord_le w w'
  have hunit := Real.sin_sq_add_cos_sq u
  -- The axis of the turn is that of the Earth, so the height does not move.
  have hsum : ((polarFixed r u i w).x - (polarFixed r u i w').x) ^ 2 +
      ((polarFixed r u i w).y - (polarFixed r u i w').y) ^ 2 +
      ((polarFixed r u i w).z - (polarFixed r u i w').z) ^ 2
        = ((r * Real.cos u) ^ 2 + (r * Real.sin u) ^ 2 * Real.cos i ^ 2) *
          ((Real.cos w - Real.cos w') ^ 2 + (Real.sin w - Real.sin w') ^ 2) := by
    simp only [polarFixed, earthFixed, cos_real, sin_real]
    ring
  have hshort : (r * Real.cos u) ^ 2 + (r * Real.sin u) ^ 2 * Real.cos i ^ 2 ≤ r ^ 2 := by
    have hle : (r * Real.sin u) ^ 2 * Real.cos i ^ 2 ≤ (r * Real.sin u) ^ 2 :=
      mul_le_of_le_one_right (sq_nonneg _) (Real.cos_sq_le_one i)
    linear_combination hle + r ^ 2 * hunit
  rw [dist_point, hsum, ← abs_mul, ← Real.sqrt_sq_eq_abs, mul_pow r (w - w')]
  exact Real.sqrt_le_sqrt (mul_le_mul hshort hchord (by positivity) (sq_nonneg r))

/-- All four changes together. -/
theorem polarFixed_near (r r' u u' i i' w w' : ℝ) :
    dist (point (polarFixed r u i w)) (point (polarFixed r' u' i' w'))
      ≤ |r - r'| + |r'| * (|u - u'| + |i - i'| + |w - w'|) := by
  calc dist (point (polarFixed r u i w)) (point (polarFixed r' u' i' w'))
      ≤ dist (point (polarFixed r u i w)) (point (polarFixed r' u i w)) +
          dist (point (polarFixed r' u i w)) (point (polarFixed r' u' i w)) +
          dist (point (polarFixed r' u' i w)) (point (polarFixed r' u' i' w')) :=
        dist_triangle4 _ _ _ _
    _ ≤ |r - r'| + |r'| * |u - u'| + (|r'| * |i - i'| + |r'| * |w - w'|) := by
        refine add_le_add (add_le_add (polarFixed_out r r' u i w).le
          (polarFixed_along r' u u' i w)) ?_
        -- The radius is changed first, so that the other three have the second one.
        exact (dist_triangle _ (point (polarFixed r' u' i' w)) _).trans
          (add_le_add (polarFixed_across r' u' i i' w) (polarFixed_about r' u' i' w w'))
    _ = |r - r'| + |r'| * (|u - u'| + |i - i'| + |w - w'|) := by ring

/-! ### The ellipse -/

/-- `i_k` without its correction. -/
noncomputable def planeTilt (ephem : Ephemeris ℝ) (t_k : ℝ) : ℝ := ephem.i_0 + ephem.IDOT * t_k

/-- `OMEGA_k`, the direction of the node. -/
noncomputable def planeNode (ephem : Ephemeris ℝ) (t_k : ℝ) : ℝ :=
  ephem.OMEGA_0 + (ephem.OMEGA_dot - ephem.OMEGA_E) * t_k - ephem.OMEGA_E * ephem.t_oe

/-- A point of the orbital plane, by its coordinates along and across the larger
    axis. -/
noncomputable def orbitPoint (ephem : Ephemeris ℝ) (t_k x y : ℝ) : EcefPos ℝ :=
  earthFixed (x * Real.cos ephem.omega - y * Real.sin ephem.omega)
    (x * Real.sin ephem.omega + y * Real.cos ephem.omega) (planeTilt ephem t_k)
    (planeNode ephem t_k)

/-- The position without corrections, by the eccentric anomaly. -/
noncomputable def keplerPos (ephem : Ephemeris ℝ) (t_k E : ℝ) : EcefPos ℝ :=
  orbitPoint ephem t_k (ephem.A * (Real.cos E - ephem.e))
    (ephem.A * (Real.sqrt (1 - ephem.e ^ 2) * Real.sin E))

/-- The position with the corrections, by the eccentric anomaly and the argument of
    latitude. -/
noncomputable def placed (ephem : Ephemeris ℝ) (t_k E AOL : ℝ) : EcefPos ℝ :=
  polarFixed (ephem.A * (1 - ephem.e * Real.cos E) + harmonic ephem.C_rs ephem.C_rc AOL)
    (AOL + harmonic ephem.C_us ephem.C_uc AOL)
    (planeTilt ephem t_k + harmonic ephem.C_is ephem.C_ic AOL) (planeNode ephem t_k)

/-- The empty focus. -/
noncomputable def keplerFocus (ephem : Ephemeris ℝ) (t_k : ℝ) : EcefPos ℝ :=
  orbitPoint ephem t_k (-(2 • (ephem.A * ephem.e))) 0

theorem dist_orbitPoint (ephem : Ephemeris ℝ) (t_k x y x' y' : ℝ) :
    dist (point (orbitPoint ephem t_k x y)) (point (orbitPoint ephem t_k x' y'))
      = Real.sqrt ((x - x') ^ 2 + (y - y') ^ 2) := by
  have hunit := Real.sin_sq_add_cos_sq ephem.omega
  rw [orbitPoint, orbitPoint, dist_earthFixed]
  refine congrArg Real.sqrt ?_
  linear_combination ((x - x') ^ 2 + (y - y') ^ 2) * hunit

section Ellipse

variable (ephem : Ephemeris ℝ) (hA : 0 < ephem.A) (he : 0 ≤ ephem.e) (he1 : ephem.e < 1)

include hA he he1

omit hA in
theorem one_sub_ecc_cos_pos (E : ℝ) : 0 < 1 - ephem.e * Real.cos E := by
  have hle : ephem.e * Real.cos E ≤ ephem.e := mul_le_of_le_one_right he (Real.cos_le_one E)
  linarith

omit hA in
/-- The distance of the point from the centre, in the plane. -/
theorem kepler_radius (E : ℝ) :
    (Real.cos E - ephem.e) ^ 2 + (Real.sqrt (1 - ephem.e ^ 2) * Real.sin E) ^ 2
      = (1 - ephem.e * Real.cos E) ^ 2 := by
  have hroot : Real.sqrt (1 - ephem.e ^ 2) ^ 2 = 1 - ephem.e ^ 2 := by
    refine Real.sq_sqrt (sub_nonneg.mpr ?_)
    exact pow_le_one₀ he he1.le
  have hunit := Real.sin_sq_add_cos_sq E
  rw [mul_pow, hroot]
  linear_combination (1 - ephem.e ^ 2) * hunit

/-- The point is nowhere farther out than where the ellipse ends. -/
theorem abs_kepler_radius_le (E : ℝ) :
    |ephem.A * (1 - ephem.e * Real.cos E)| ≤ ephem.A * (1 + ephem.e) := by
  have hpos := one_sub_ecc_cos_pos ephem he he1 E
  have hprod := mul_le_mul_of_nonneg_left (Real.neg_one_le_cos E) he
  rw [abs_of_pos (mul_pos hA hpos)]
  refine mul_le_mul_of_nonneg_left ?_ hA.le
  linarith

/-- Without corrections the satellite is on an ellipse, with the centre of the
    Earth in a focus. -/
theorem kepler_ellipse (t_k E : ℝ) :
    dist (point (keplerPos ephem t_k E)) (point (orbitPoint ephem t_k 0 0)) +
        dist (point (keplerPos ephem t_k E)) (point (keplerFocus ephem t_k)) = 2 * ephem.A := by
  have hradius := kepler_radius ephem he he1 E
  have hpos := one_sub_ecc_cos_pos ephem he he1 E
  have hpos' : 0 ≤ 1 + ephem.e * Real.cos E := by
    have hle : -ephem.e ≤ ephem.e * Real.cos E := by
      have hprod := mul_le_mul_of_nonneg_left (Real.neg_one_le_cos E) he
      linarith
    linarith
  have hnear : (ephem.A * (Real.cos E - ephem.e) - 0) ^ 2 +
      (ephem.A * (Real.sqrt (1 - ephem.e ^ 2) * Real.sin E) - 0) ^ 2
        = (ephem.A * (1 - ephem.e * Real.cos E)) ^ 2 := by
    linear_combination ephem.A ^ 2 * hradius
  -- The two distances are `A * (1 - e * cos E)` and `A * (1 + e * cos E)`.
  have hfar : (ephem.A * (Real.cos E - ephem.e) - -(2 • (ephem.A * ephem.e))) ^ 2 +
      (ephem.A * (Real.sqrt (1 - ephem.e ^ 2) * Real.sin E) - 0) ^ 2
        = (ephem.A * (1 + ephem.e * Real.cos E)) ^ 2 := by
    rw [two_nsmul]
    linear_combination ephem.A ^ 2 * hradius
  unfold keplerPos keplerFocus
  rw [dist_orbitPoint, dist_orbitPoint, hnear, hfar, Real.sqrt_sq (mul_pos hA hpos).le,
    Real.sqrt_sq (mul_nonneg hA.le hpos')]
  ring

omit hA he he1 in
/-- The centre of the Earth is in the plane. -/
theorem orbitPoint_zero (t_k : ℝ) : point (orbitPoint ephem t_k 0 0) = 0 := by
  have hzero : orbitPoint ephem t_k 0 0 = { x := 0, y := 0, z := 0 } := by
    simp only [orbitPoint, earthFixed, zero_mul, sub_zero, add_zero]
  rw [hzero, point]
  ext j
  fin_cases j <;> rfl

omit hA in
/-- Counted from the perigee, the angle that the code computes is the angle of the
    ellipse's point. -/
theorem argumentOfLatitude_polar (E : ℝ) :
    (1 - ephem.e * Real.cos E) * Real.cos (argumentOfLatitude ephem E - ephem.omega)
        = Real.cos E - ephem.e ∧
      (1 - ephem.e * Real.cos E) * Real.sin (argumentOfLatitude ephem E - ephem.omega)
        = Real.sqrt (1 - ephem.e ^ 2) * Real.sin E := by
  have hpos := one_sub_ecc_cos_pos ephem he he1 E
  have hpolar := polar_atan2 (Real.cos E - ephem.e) (Real.sqrt (1 - ephem.e ^ 2) * Real.sin E)
  rw [kepler_radius ephem he he1 E, Real.sqrt_sq hpos.le] at hpolar
  have hangle : argumentOfLatitude ephem E
      = atan2 (Real.sqrt (1 - ephem.e ^ 2) * Real.sin E) (Real.cos E - ephem.e) + ephem.omega := by
    rw [sq]
    rfl
  rw [hangle, add_sub_cancel_right]
  exact hpolar

omit hA in
/-- The radius and the angle that the code computes belong to the ellipse's point. -/
theorem kepler_polar (t_k E : ℝ) :
    keplerPos ephem t_k E
      = polarFixed (ephem.A * (1 - ephem.e * Real.cos E)) (argumentOfLatitude ephem E)
          (planeTilt ephem t_k) (planeNode ephem t_k) := by
  have hpolar := argumentOfLatitude_polar ephem he he1 E
  have hangle := (sub_add_cancel (argumentOfLatitude ephem E) ephem.omega).symm
  rw [hangle, polarFixed, Real.cos_add, Real.sin_add, keplerPos, orbitPoint, ← hpolar.1,
    ← hpolar.2]
  congr 1 <;> ring

/-- A change of the eccentric anomaly moves the point by no more than the half
    axis times the change. -/
theorem kepler_moves (t_k E z : ℝ) :
    dist (point (keplerPos ephem t_k E)) (point (keplerPos ephem t_k z)) ≤ ephem.A * |E - z| := by
  have hchord := chord_le E z
  have hroot : Real.sqrt (1 - ephem.e ^ 2) ^ 2 = 1 - ephem.e ^ 2 :=
    Real.sq_sqrt (sub_nonneg.mpr (pow_le_one₀ he he1.le))
  unfold keplerPos
  rw [dist_orbitPoint, Real.sqrt_le_iff]
  refine ⟨mul_nonneg hA.le (abs_nonneg _), ?_⟩
  have hflat : (ephem.A * (Real.cos E - ephem.e) - ephem.A * (Real.cos z - ephem.e)) ^ 2 +
      (ephem.A * (Real.sqrt (1 - ephem.e ^ 2) * Real.sin E) -
        ephem.A * (Real.sqrt (1 - ephem.e ^ 2) * Real.sin z)) ^ 2
        = ephem.A ^ 2 * ((Real.cos E - Real.cos z) ^ 2 +
          (1 - ephem.e ^ 2) * (Real.sin E - Real.sin z) ^ 2) := by
    linear_combination ephem.A ^ 2 * (Real.sin E - Real.sin z) ^ 2 * hroot
  -- The smaller half axis only makes the way shorter.
  have hshort : (1 - ephem.e ^ 2) * (Real.sin E - Real.sin z) ^ 2
      ≤ (Real.sin E - Real.sin z) ^ 2 :=
    mul_le_of_le_one_left (sq_nonneg _) (sub_le_self 1 (sq_nonneg _))
  rw [hflat, mul_pow, sq_abs]
  refine mul_le_mul_of_nonneg_left ?_ (sq_nonneg _)
  linarith

/-! ### The corrections -/

omit hA he he1 in
/-- The position with its corrections in polar form. -/
theorem satPosAt_eq_placed (t_k E : ℝ) :
    satPosAt ephem t_k E = placed ephem t_k E (argumentOfLatitude ephem E) := by
  -- The code adds the correction before the drift.
  have htilt : planeTilt ephem t_k + harmonic ephem.C_is ephem.C_ic (argumentOfLatitude ephem E)
      = ephem.i_0 + harmonic ephem.C_is ephem.C_ic (argumentOfLatitude ephem E) +
        ephem.IDOT * t_k := add_right_comm _ _ _
  rw [placed, htilt]
  rfl

/-- What the corrections of the radius and of the two angles can add up to. -/
noncomputable def perturbation : ℝ :=
  (|ephem.C_rs| + |ephem.C_rc|) + ephem.A * (1 + ephem.e) *
    ((|ephem.C_us| + |ephem.C_uc|) + (|ephem.C_is| + |ephem.C_ic|))

/-- The corrections move the point outwards, along the orbit and across it. -/
theorem satPosAt_kepler (t_k E : ℝ) :
    dist (point (satPosAt ephem t_k E)) (point (keplerPos ephem t_k E)) ≤ perturbation ephem := by
  have hsc := Real.sin_sq_add_cos_sq
  have hdr := harmonic_le hsc ephem.C_rs ephem.C_rc (argumentOfLatitude ephem E)
  have hdu := harmonic_le hsc ephem.C_us ephem.C_uc (argumentOfLatitude ephem E)
  have hdi := harmonic_le hsc ephem.C_is ephem.C_ic (argumentOfLatitude ephem E)
  have hr := abs_kepler_radius_le ephem hA he he1 E
  have hnear := polarFixed_near
    (ephem.A * (1 - ephem.e * Real.cos E) +
      harmonic ephem.C_rs ephem.C_rc (argumentOfLatitude ephem E))
    (ephem.A * (1 - ephem.e * Real.cos E))
    (argumentOfLatitude ephem E + harmonic ephem.C_us ephem.C_uc (argumentOfLatitude ephem E))
    (argumentOfLatitude ephem E)
    (planeTilt ephem t_k + harmonic ephem.C_is ephem.C_ic (argumentOfLatitude ephem E))
    (planeTilt ephem t_k) (planeNode ephem t_k) (planeNode ephem t_k)
  rw [add_sub_cancel_left, add_sub_cancel_left, add_sub_cancel_left, sub_self, abs_zero,
    add_zero] at hnear
  rw [satPosAt_eq_placed, kepler_polar ephem he he1]
  refine hnear.trans (add_le_add hdr ?_)
  exact mul_le_mul hr (add_le_add hdu hdi) (by positivity) ((abs_nonneg _).trans hr)

omit hA in
/-- The loop comes to an anomaly near the exact one. -/
theorem settled_near (t_k : ℝ) :
    ∃ (N : Nat) (E z : ℝ), (∀ fuel, N ≤ fuel → calcEccentricAnomaly fuel ephem t_k = some E) ∧
      z = meanAnomaly ephem t_k + ephem.e * Real.sin z ∧
      |E - z| ≤ ephem.e / (1 - ephem.e) * 1e-10 := by
  have hcontracts :
      Contracts (fun E_k => meanAnomaly ephem t_k + ephem.e * CMath.sin E_k) ephem.e :=
    kepler_contracts Real.abs_sin_sub_sin_le ephem.e (meanAnomaly ephem t_k) he
  rcases calcEccentricAnomaly_returns Real.abs_sin_sub_sin_le ephem he he1 t_k with ⟨N, E, hloop⟩
  rcases existsUnique_fixed _ ephem.e he he1 hcontracts with ⟨z, hz, _⟩
  exact ⟨N, E, z, hloop, hz,
    settle_near _ ephem.e _ he he1 hcontracts N _ E z (hloop N (Nat.le_refl N)) hz⟩

omit hA he he1 in
/-- Once the anomaly is there the position is. -/
theorem calcSatPos_of_settled (fuel : Nat) (t E : ℝ)
    (h : calcEccentricAnomaly fuel ephem (calcTimeFromEpoch t ephem.t_oe) = some E) :
    calcSatPos fuel ephem t = some (satPosAt ephem (calcTimeFromEpoch t ephem.t_oe) E) :=
  congrArg (Option.map (satPosAt ephem (calcTimeFromEpoch t ephem.t_oe))) h

/-- A position comes out, near the point of the ellipse at the exact solution of
    Kepler's equation. -/
theorem calcSatPos_kepler (t t_k : ℝ) (ht : calcTimeFromEpoch t ephem.t_oe = t_k) :
    ∃ (z : ℝ) (N : Nat) (pos : EcefPos ℝ), z = meanAnomaly ephem t_k + ephem.e * Real.sin z ∧
      dist (point (keplerPos ephem t_k z)) 0 +
        dist (point (keplerPos ephem t_k z)) (point (keplerFocus ephem t_k)) = 2 * ephem.A ∧
      (∀ fuel, N ≤ fuel → calcSatPos fuel ephem t = some pos) ∧
      dist (point pos) (point (keplerPos ephem t_k z))
        ≤ perturbation ephem + ephem.A * (ephem.e / (1 - ephem.e) * 1e-10) := by
  rcases settled_near ephem he he1 t_k with ⟨N, E, z, hloop, hz, hnear⟩
  have hellipse := kepler_ellipse ephem hA he he1 t_k z
  rw [orbitPoint_zero] at hellipse
  refine ⟨z, N, satPosAt ephem t_k E, hz, hellipse, ?_, ?_⟩
  · intro fuel hfuel
    rw [← ht] at hloop ⊢
    exact calcSatPos_of_settled ephem fuel t E (hloop fuel hfuel)
  · calc dist (point (satPosAt ephem t_k E)) (point (keplerPos ephem t_k z))
        ≤ dist (point (satPosAt ephem t_k E)) (point (keplerPos ephem t_k E)) +
            dist (point (keplerPos ephem t_k E)) (point (keplerPos ephem t_k z)) :=
          dist_triangle _ _ _
      _ ≤ perturbation ephem + ephem.A * (ephem.e / (1 - ephem.e) * 1e-10) := by
          refine add_le_add (satPosAt_kepler ephem hA he he1 t_k E) ?_
          exact (kepler_moves ephem hA he he1 t_k E z).trans
            (mul_le_mul_of_nonneg_left hnear hA.le)

end Ellipse

/-- The satellite of the example is within 90 m of its ellipse. -/
theorem calcSatPos_kepler_example :
    ∃ (z : ℝ) (fuel : Nat) (pos : EcefPos ℝ), calcSatPos fuel sampleEphemeris 3600 = some pos ∧
      dist (point pos) (point (keplerPos sampleEphemeris 3600 z)) ≤ 90 := by
  rcases sampleEphemeris_elliptic with ⟨hA, he, he1⟩
  have hepoch : calcTimeFromEpoch 3600 sampleEphemeris.t_oe = 3600 := by
    have hzero : sampleEphemeris.t_oe = 0 := rfl
    rw [hzero, calcTimeFromEpoch_near 3600 0 (by rw [abs_le]; norm_num), sub_zero]
  rcases calcSatPos_kepler sampleEphemeris hA he he1 3600 3600 hepoch
    with ⟨z, N, pos, _, _, hpos, hdist⟩
  refine ⟨z, N, pos, hpos N (Nat.le_refl N), hdist.trans ?_⟩
  unfold perturbation sampleEphemeris
  norm_num

end SimpleDgps
