import SimpleDgps.Geodesy

/-!
# Range Corrections

The differential part of the library: a base station that knows where it is
turns its observed ranges into corrections, and a rover applies them to its own
observations.

Both functions end in the same loop. It walks one map, looks every id up in a
second one, and either inserts a value made from the two entries or prints a
line and skips the id. `matchLoop` is that loop, with the value and the line as
parameters, and the two functions are instances of it. What they put in is
where they differ: the correction is the absolute difference of the two ranges,
and the corrected range is the correction alone.

`differential` is what the two functions are for, stated without maps or loops:
the signed difference seen at the base, added to the range seen by the rover.
The two halves of it fail separately. The corrections are the signed differences
as long as no observed range exceeds its true range
(`calcSatRangeCorrection_signed_iff`), and applying them adds them to the ranges
only where the ranges are zero (`applyCorrectionOnPseudoRange_adds_iff`).
`differential_bias` says that it removes any error the two share, and
`pipeline_eq_differential_iff` says at which entries the code computes it.

## Main definitions

* `matchStep`, `matchLoop`: Combining the entries two maps share.
* `trueRangeLoop`: The loop that measures every satellite from the base.
* `calcSatRangeCorrection`: The corrections a base station hands out.
* `applyCorrectionOnPseudoRange`: What a rover makes of them.
* `pipeline`: The two functions in sequence.
* `differential`: The differential correction of one range.

## Theorems

* `matchLoop_find`: The loop's result, id by id.
* `matchLoop_ids`: The ids that come out are those both maps share.
* `applyCorrectionOnPseudoRange_find`: The corrected ranges, id by id.
* `applyCorrectionOnPseudoRange_adds_iff`: When corrections are added.
* `calcSatRangeCorrection_find`: The corrections, id by id.
* `calcSatRangeCorrection_signed_iff`: When they are the signed differences.
* `pipeline_find`: The corrected ranges in terms of the three inputs.
* `pipeline_ids`: The ids that come out are the ids all inputs share.
* `pipeline_local`: Each entry depends on its own satellite only.
* `pipeline_keeps_common_ids`: The two together.
* `differential_bias`: Differential correction cancels a shared bias.
* `pipeline_eq_differential_iff`: Where the code agrees with it.
* `pipeline_recovers_iff`: A shared bias is cancelled when it equals the range.
-/

namespace SimpleDgps

open Toolkit

variable {K : Type}

/-- One round of the shared loop: combine the entry with its partner in the
    other map, or print the line. -/
def matchStep (combine : K → K → K) (line : String) (pseudoRanges : SatRanges K)
    (s : Printed (SatRanges K)) (it : Int × K) : Printed (SatRanges K) :=
  match pseudoRanges.ranges.find it.1 with
  | some pseudoRange =>
    { s with value := { ranges := s.value.ranges.insert it.1 (combine it.2 pseudoRange) } }
  | none => { s with cout := s.cout ++ [line] }

/-- The loop both functions end in, from the first entry to the last. -/
def matchLoop (combine : K → K → K) (line : String) (ranges pseudoRanges : SatRanges K) :
    Printed (SatRanges K) :=
  ranges.ranges.entries.foldl (matchStep combine line pseudoRanges)
    { value := { ranges := SortedMap.empty }, cout := [] }

theorem matchLoop_value (combine : K → K → K) (line : String) (pseudoRanges : SatRanges K) :
    ∀ (l : List (Int × K)) (s : Printed (SatRanges K)),
      (l.foldl (matchStep combine line pseudoRanges) s).value.ranges
        = l.foldl (SortedMap.insertIf (fun k x => (pseudoRanges.ranges.find k).map (combine x)))
            s.value.ranges := by
  intro l
  induction l with
  | nil => intro s; rfl
  | cons e rest ih =>
      intro s
      rw [List.foldl_cons, List.foldl_cons, ih]
      -- One round either inserts or leaves the map alone, as `insertIf` does.
      congr 1
      unfold matchStep SortedMap.insertIf
      cases hp : pseudoRanges.ranges.find e.1 with
      | none => simp only [hp, Option.map_none]
      | some p => simp only [hp, Option.map_some]

/-- The loop's result, id by id. -/
theorem matchLoop_find (combine : K → K → K) (line : String) (ranges pseudoRanges : SatRanges K)
    (k : Int) : (matchLoop combine line ranges pseudoRanges).value.ranges.find k
      = (ranges.ranges.find k).bind (fun x => (pseudoRanges.ranges.find k).map (combine x)) := by
  rw [matchLoop, matchLoop_value]
  exact SortedMap.find_foldl_insertIf _ ranges.ranges k

/-- The ids that come out are the ids both maps share. -/
theorem matchLoop_ids (combine : K → K → K) (line : String) (ranges pseudoRanges : SatRanges K) :
    (matchLoop combine line ranges pseudoRanges).value.ranges.ids
      = ranges.ranges.ids ∩ pseudoRanges.ranges.ids := by
  ext k
  rw [Set.mem_inter_iff]
  unfold SortedMap.ids
  simp only [Set.mem_ofPred_eq, matchLoop_find]
  cases ranges.ranges.find k with
  | none => simp only [Option.bind_none, Option.isSome_none, Bool.false_eq_true, false_and]
  | some x => simp only [Option.bind_some, Option.isSome_map, Option.isSome_some, true_and]

/-! ### The two functions -/

section Functions

variable [Field K] [CMath K]

/-- The first loop of `calcSatRangeCorrection`: the true range of every
    satellite, by id. -/
def trueRangeLoop (satPos : SatLocation K) (baseStationPos : LatLonAltPos K) : SatRanges K :=
  { ranges := satPos.locations.entries.foldl
      (fun trueRanges it => trueRanges.insert it.1 (calcSatToStationRange it.2 baseStationPos))
      SortedMap.empty }

theorem trueRangeLoop_find (satPos : SatLocation K) (base : LatLonAltPos K) (k : Int) :
    (trueRangeLoop satPos base).ranges.find k
      = (satPos.locations.find k).map (fun s => calcSatToStationRange s base) := by
  have h := SortedMap.find_foldl_insertIf
    (fun _ s => some (calcSatToStationRange s base)) satPos.locations k
  rw [Option.map_eq_bind]
  exact h

theorem trueRangeLoop_ids (satPos : SatLocation K) (base : LatLonAltPos K) :
    (trueRangeLoop satPos base).ranges.ids = satPos.locations.ids := by
  ext k
  unfold SortedMap.ids
  simp only [Set.mem_ofPred_eq, trueRangeLoop_find, Option.isSome_map]

def applyCorrectionOnPseudoRange (corrRanges pseudoRanges : SatRanges K) : Printed (SatRanges K) :=
  -- The corrected range is the correction; the pseudo range is looked up and dropped.
  matchLoop (fun correction _ => correction)
    "could not find pseudo range for available correction" corrRanges pseudoRanges

omit [Field K] [CMath K] in
/-- The corrected ranges, id by id: the correction, where there is a range. -/
theorem applyCorrectionOnPseudoRange_find (corrRanges pseudoRanges : SatRanges K) (k : Int) :
    (applyCorrectionOnPseudoRange corrRanges pseudoRanges).value.ranges.find k
      = (corrRanges.ranges.find k).bind
          (fun c => (pseudoRanges.ranges.find k).map (fun _ => c)) := by
  unfold applyCorrectionOnPseudoRange
  rw [matchLoop_find]

omit [Field K] [CMath K] in
theorem applyCorrectionOnPseudoRange_ids (corrRanges pseudoRanges : SatRanges K) :
    (applyCorrectionOnPseudoRange corrRanges pseudoRanges).value.ranges.ids
      = corrRanges.ranges.ids ∩ pseudoRanges.ranges.ids :=
  matchLoop_ids _ _ corrRanges pseudoRanges

omit [Field K] [CMath K] in
/-- At a common id the correction comes out alone. -/
theorem applyCorrectionOnPseudoRange_common (corrRanges pseudoRanges : SatRanges K) (k : Int)
    (c p : K) (hc : corrRanges.ranges.find k = some c) (hp : pseudoRanges.ranges.find k = some p) :
    (applyCorrectionOnPseudoRange corrRanges pseudoRanges).value.ranges.find k = some c := by
  rw [applyCorrectionOnPseudoRange_find, hc, hp, Option.bind_some, Option.map_some]

omit [CMath K] in
/-- The entries are the sums exactly where the pseudo ranges are zero. -/
theorem applyCorrectionOnPseudoRange_sum_iff (corrRanges pseudoRanges : SatRanges K) :
    (∀ k c p, corrRanges.ranges.find k = some c → pseudoRanges.ranges.find k = some p →
        (applyCorrectionOnPseudoRange corrRanges pseudoRanges).value.ranges.find k
          = some (p + c)) ↔
      ∀ k c p, corrRanges.ranges.find k = some c → pseudoRanges.ranges.find k = some p →
        p = 0 := by
  refine SortedMap.forall_common_congr _ _ _ _ (fun k c p hc hp => ?_)
  rw [applyCorrectionOnPseudoRange_common corrRanges pseudoRanges k c p hc hp,
    Option.some.injEq, right_eq_add]

omit [CMath K] in
/-- Corrections of zero leave the pseudo ranges alone exactly where those are
    zero themselves. -/
theorem applyCorrectionOnPseudoRange_zero_iff (corrRanges pseudoRanges : SatRanges K)
    (hzero : ∀ k c, corrRanges.ranges.find k = some c → c = 0) :
    (∀ k c p, corrRanges.ranges.find k = some c → pseudoRanges.ranges.find k = some p →
        (applyCorrectionOnPseudoRange corrRanges pseudoRanges).value.ranges.find k = some p) ↔
      ∀ k c p, corrRanges.ranges.find k = some c → pseudoRanges.ranges.find k = some p →
        p = 0 := by
  rw [← applyCorrectionOnPseudoRange_sum_iff corrRanges pseudoRanges]
  refine SortedMap.forall_common_congr _ _ _ _ (fun k c p hc _ => ?_)
  rw [hzero k c hc, add_zero]

omit [CMath K] in
/-- Two runs with the same correction at an id differ there as their pseudo
    ranges do exactly if those do not differ. -/
theorem applyCorrectionOnPseudoRange_differ_iff
    (corrRanges pseudoRanges corrRanges' pseudoRanges' : SatRanges K) (k : Int) (c p p' : K)
    (hc : corrRanges.ranges.find k = some c) (hp : pseudoRanges.ranges.find k = some p)
    (hc' : corrRanges'.ranges.find k = some c) (hp' : pseudoRanges'.ranges.find k = some p') :
    (∃ v v', (applyCorrectionOnPseudoRange corrRanges pseudoRanges).value.ranges.find k = some v ∧
        (applyCorrectionOnPseudoRange corrRanges' pseudoRanges').value.ranges.find k = some v' ∧
        v' - v = p' - p) ↔ p' = p := by
  rw [applyCorrectionOnPseudoRange_common corrRanges pseudoRanges k c p hc hp,
    applyCorrectionOnPseudoRange_common corrRanges' pseudoRanges' k c p' hc' hp']
  constructor
  · rintro ⟨v, v', hv, hv', hdiff⟩
    rw [← Option.some.inj hv, ← Option.some.inj hv', sub_self] at hdiff
    exact sub_eq_zero.mp hdiff.symm
  · intro h
    exact ⟨c, c, rfl, rfl, by rw [h, sub_self, sub_self]⟩

omit [CMath K] in
/-- Corrections are added to the pseudo ranges exactly where there is nothing
    to add them to. -/
theorem applyCorrectionOnPseudoRange_adds_iff (corrRanges pseudoRanges : SatRanges K) :
    (((applyCorrectionOnPseudoRange corrRanges pseudoRanges).value.ranges.ids
          = corrRanges.ranges.ids ∩ pseudoRanges.ranges.ids ∧
        ∀ k c p, corrRanges.ranges.find k = some c → pseudoRanges.ranges.find k = some p →
          (applyCorrectionOnPseudoRange corrRanges pseudoRanges).value.ranges.find k
            = some (p + c)) ↔
      ∀ k c p, corrRanges.ranges.find k = some c → pseudoRanges.ranges.find k = some p → p = 0) ∧
    ((∀ k c, corrRanges.ranges.find k = some c → c = 0) →
      ((∀ k c p, corrRanges.ranges.find k = some c → pseudoRanges.ranges.find k = some p →
          (applyCorrectionOnPseudoRange corrRanges pseudoRanges).value.ranges.find k = some p) ↔
        ∀ k c p, corrRanges.ranges.find k = some c → pseudoRanges.ranges.find k = some p →
          p = 0)) ∧
    ∀ (corrRanges' pseudoRanges' : SatRanges K) (k : Int) (c p p' : K),
      corrRanges.ranges.find k = some c → pseudoRanges.ranges.find k = some p →
      corrRanges'.ranges.find k = some c → pseudoRanges'.ranges.find k = some p' →
      ((∃ v v', (applyCorrectionOnPseudoRange corrRanges pseudoRanges).value.ranges.find k
            = some v ∧
          (applyCorrectionOnPseudoRange corrRanges' pseudoRanges').value.ranges.find k = some v' ∧
          v' - v = p' - p) ↔ p' = p) := by
  refine ⟨?_, ?_, ?_⟩
  · rw [and_iff_right (applyCorrectionOnPseudoRange_ids corrRanges pseudoRanges)]
    exact applyCorrectionOnPseudoRange_sum_iff corrRanges pseudoRanges
  · exact applyCorrectionOnPseudoRange_zero_iff corrRanges pseudoRanges
  · exact applyCorrectionOnPseudoRange_differ_iff corrRanges pseudoRanges

variable [LinearOrder K]

def calcSatRangeCorrection (satPos : SatLocation K) (baseStationPos : LatLonAltPos K)
    (pseudoRanges : SatRanges K) : Printed (SatRanges K) :=
  let trueRanges := trueRangeLoop satPos baseStationPos
  -- `abs` drops the sign of the correction.
  matchLoop (fun trueRange pseudoRange => |trueRange - pseudoRange|)
    "could not find pseudo range calculated true range to calc correction" trueRanges pseudoRanges

/-- The corrections, id by id: the distance between true and observed range. -/
theorem calcSatRangeCorrection_find (satPos : SatLocation K) (base : LatLonAltPos K)
    (basePR : SatRanges K) (k : Int) :
    (calcSatRangeCorrection satPos base basePR).value.ranges.find k
      = (satPos.locations.find k).bind (fun s => (basePR.ranges.find k).map
          (fun p => |calcSatToStationRange s base - p|)) := by
  unfold calcSatRangeCorrection
  rw [matchLoop_find, trueRangeLoop_find, Option.bind_map]
  rfl

theorem calcSatRangeCorrection_ids (satPos : SatLocation K) (base : LatLonAltPos K)
    (pseudoRanges : SatRanges K) :
    (calcSatRangeCorrection satPos base pseudoRanges).value.ranges.ids
      = satPos.locations.ids ∩ pseudoRanges.ranges.ids := by
  unfold calcSatRangeCorrection
  rw [matchLoop_ids, trueRangeLoop_ids]

/-- The correction of a common id is the signed difference exactly if the
    observed range does not exceed the true one. -/
theorem calcSatRangeCorrection_common [IsStrictOrderedRing K] (satPos : SatLocation K)
    (base : LatLonAltPos K) (pseudoRanges : SatRanges K) (k : Int) (s : EcefPos K) (p : K)
    (hs : satPos.locations.find k = some s) (hp : pseudoRanges.ranges.find k = some p) :
    (∃ c, (calcSatRangeCorrection satPos base pseudoRanges).value.ranges.find k = some c ∧
        p + c = calcSatToStationRange s base) ↔ p ≤ calcSatToStationRange s base := by
  rw [calcSatRangeCorrection_find, hs, hp]
  simp only [Option.bind_some, Option.map_some, Option.some.injEq, exists_eq_left']
  rw [← eq_sub_iff_add_eq', abs_eq_self, sub_nonneg]

/-- The corrections are the signed differences exactly if no observed range
    exceeds its true range. -/
theorem calcSatRangeCorrection_signed_iff [IsStrictOrderedRing K] (satPos : SatLocation K)
    (base : LatLonAltPos K) (pseudoRanges : SatRanges K) :
    ((∀ k s p, satPos.locations.find k = some s → pseudoRanges.ranges.find k = some p →
        ∃ c, (calcSatRangeCorrection satPos base pseudoRanges).value.ranges.find k = some c ∧
          p + c = calcSatToStationRange s base) ∧
      ∀ k, k ∉ satPos.locations.ids ∩ pseudoRanges.ranges.ids →
        (calcSatRangeCorrection satPos base pseudoRanges).value.ranges.find k = none) ↔
    ∀ k s p, satPos.locations.find k = some s → pseudoRanges.ranges.find k = some p →
      p ≤ calcSatToStationRange s base := by
  have hnone : ∀ k, k ∉ satPos.locations.ids ∩ pseudoRanges.ranges.ids →
      (calcSatRangeCorrection satPos base pseudoRanges).value.ranges.find k = none := by
    intro k hk
    rw [SortedMap.find_eq_none_iff, calcSatRangeCorrection_ids]
    exact hk
  rw [and_iff_left hnone]
  exact SortedMap.forall_common_congr _ _ _ _ (fun k s p hs hp =>
    calcSatRangeCorrection_common satPos base pseudoRanges k s p hs hp)

/-! ### The pipeline -/

/-- The base station's corrections applied to the rover's ranges. -/
def pipeline (satPos : SatLocation K) (base : LatLonAltPos K) (basePR roverPR : SatRanges K) :
    SatRanges K :=
  (applyCorrectionOnPseudoRange (calcSatRangeCorrection satPos base basePR).value roverPR).value

/-- The corrected ranges in terms of the three inputs. -/
theorem pipeline_find (satPos : SatLocation K) (base : LatLonAltPos K)
    (basePR roverPR : SatRanges K) (k : Int) :
    (pipeline satPos base basePR roverPR).ranges.find k
      = (satPos.locations.find k).bind (fun s => (basePR.ranges.find k).bind
          (fun p => (roverPR.ranges.find k).map
            (fun _ => |calcSatToStationRange s base - p|))) := by
  unfold pipeline
  rw [applyCorrectionOnPseudoRange_find, calcSatRangeCorrection_find]
  -- An id that one of the first two maps lacks has no correction.
  cases satPos.locations.find k with
  | none => rfl
  | some s =>
      cases basePR.ranges.find k with
      | none => rfl
      | some p => rfl

/-- The ids that come out are the ids all three inputs share. -/
theorem pipeline_ids (satPos : SatLocation K) (base : LatLonAltPos K)
    (basePR roverPR : SatRanges K) :
    (pipeline satPos base basePR roverPR).ranges.ids
      = satPos.locations.ids ∩ basePR.ranges.ids ∩ roverPR.ranges.ids := by
  unfold pipeline
  rw [applyCorrectionOnPseudoRange_ids, calcSatRangeCorrection_ids]

/-- Each entry depends on its own satellite only. -/
theorem pipeline_local (satPos satPos' : SatLocation K) (base : LatLonAltPos K)
    (basePR basePR' roverPR roverPR' : SatRanges K) (k : Int)
    (hs : satPos.locations.find k = satPos'.locations.find k)
    (hb : basePR.ranges.find k = basePR'.ranges.find k)
    (hr : roverPR.ranges.find k = roverPR'.ranges.find k) :
    (pipeline satPos base basePR roverPR).ranges.find k
      = (pipeline satPos' base basePR' roverPR').ranges.find k := by
  rw [pipeline_find, pipeline_find, hs, hb, hr]

/-- The pipeline keeps exactly the ids all three maps share, and what it keeps
    for an id comes from that id's entries alone. -/
theorem pipeline_keeps_common_ids (satPos : SatLocation K) (base : LatLonAltPos K)
    (basePR roverPR : SatRanges K) :
    (pipeline satPos base basePR roverPR).ranges.ids
        = satPos.locations.ids ∩ basePR.ranges.ids ∩ roverPR.ranges.ids ∧
      ∀ (satPos' : SatLocation K) (basePR' roverPR' : SatRanges K) (k : Int),
        satPos.locations.find k = satPos'.locations.find k →
        basePR.ranges.find k = basePR'.ranges.find k →
        roverPR.ranges.find k = roverPR'.ranges.find k →
        (pipeline satPos base basePR roverPR).ranges.find k
          = (pipeline satPos' base basePR' roverPR').ranges.find k :=
  ⟨pipeline_ids satPos base basePR roverPR,
    fun satPos' basePR' roverPR' k hs hb hr =>
      pipeline_local satPos satPos' base basePR basePR' roverPR roverPR' k hs hb hr⟩

/-! ### What a correction is for -/

omit [CMath K] [LinearOrder K] in
/-- The differential correction of one range: the signed error seen at the
    base, added to what the rover sees. -/
def differential (trueBaseRange basePR roverPR : K) : K := roverPR + (trueBaseRange - basePR)

omit [CMath K] [LinearOrder K] in
/-- Differential correction cancels a bias the two observations share. -/
theorem differential_bias (trueBaseRange bias range : K) :
    differential trueBaseRange (trueBaseRange + bias) (range + bias) = range := by
  unfold differential
  ring

/-- The pipeline computes the differential correction of an entry exactly when
    the rover's range makes up for the sign and the addend it drops. -/
theorem pipeline_eq_differential_iff (satPos : SatLocation K) (base : LatLonAltPos K)
    (basePR roverPR : SatRanges K) (k : Int) (s : EcefPos K) (p r : K)
    (hs : satPos.locations.find k = some s) (hb : basePR.ranges.find k = some p)
    (hr : roverPR.ranges.find k = some r) :
    (pipeline satPos base basePR roverPR).ranges.find k
        = some (differential (calcSatToStationRange s base) p r) ↔
      r = |calcSatToStationRange s base - p| - (calcSatToStationRange s base - p) := by
  rw [pipeline_find, hs, hb, hr]
  simp only [Option.bind_some, Option.map_some, Option.some.injEq, differential]
  constructor
  · intro h
    rw [h, add_sub_cancel_right]
  · intro h
    rw [h, sub_add_cancel]

/-- A bias shared by base and rover is cancelled at the common ids exactly when
    each true range equals the size of its own bias. -/
theorem pipeline_recovers_iff (satPos : SatLocation K) (base : LatLonAltPos K)
    (basePR roverPR : SatRanges K) (bias range : Int → K)
    (hbase : ∀ k s p, satPos.locations.find k = some s → basePR.ranges.find k = some p →
      p = calcSatToStationRange s base + bias k)
    (hrover : ∀ k r, roverPR.ranges.find k = some r → r = range k + bias k) :
    (∀ k, k ∈ satPos.locations.ids → k ∈ basePR.ranges.ids → k ∈ roverPR.ranges.ids →
        (pipeline satPos base basePR roverPR).ranges.find k = some (range k)) ↔
      ∀ k, k ∈ satPos.locations.ids → k ∈ basePR.ranges.ids → k ∈ roverPR.ranges.ids →
        range k = |bias k| := by
  -- Both sides speak of one common id at a time.
  refine forall_congr' (fun k => ?_)
  refine imp_congr_right (fun hks => imp_congr_right (fun hkb => imp_congr_right (fun hkr => ?_)))
  rcases (SortedMap.mem_ids _ k).mp hks with ⟨s, hs⟩
  rcases (SortedMap.mem_ids _ k).mp hkb with ⟨p, hp⟩
  rcases (SortedMap.mem_ids _ k).mp hkr with ⟨r, hr⟩
  have hp' := hbase k s p hs hp
  have hr' := hrover k r hr
  -- What the rover should get is the differential correction of its range.
  have hspec : range k = differential (calcSatToStationRange s base) p r := by
    rw [hp', hr', differential_bias]
  have hneg : calcSatToStationRange s base - p = -bias k := by
    rw [hp']
    ring
  rw [hspec, pipeline_eq_differential_iff satPos base basePR roverPR k s p r hs hp hr, ← hspec,
    hneg, abs_neg, hr', sub_neg_eq_add, add_left_inj]

end Functions

/-- A range observed 100 too long is corrected by another 100 upwards. -/
theorem calcSatRangeCorrection_unsigned :
    let sat : EcefPos ℝ := { x := -17104.3, y := -5228.5, z := 19811.5 }
    let base : LatLonAltPos ℝ := { lat := 85.934710, lon := 17.747955, alt := 5 }
    let observed := calcSatToStationRange sat base + 100
    (calcSatRangeCorrection { locations := SortedMap.empty.insert 1 sat } base
        { ranges := SortedMap.empty.insert 1 observed }).value.ranges.find 1 = some 100 ∧
      observed + 100 ≠ calcSatToStationRange sat base := by
  intro sat base observed
  constructor
  · rw [calcSatRangeCorrection_find]
    simp only [SortedMap.find_insert, SortedMap.find_empty, if_true, Option.getD_none,
      Option.bind_some, Option.map_some, Option.some.injEq, observed]
    rw [sub_add_cancel_left, abs_neg, abs_of_pos (by norm_num)]
  · simp only [observed, add_assoc]
    norm_num

theorem calcSatRangeCorrection_signed_iff_example :
    let sat : EcefPos ℝ := { x := -17104.3, y := -5228.5, z := 19811.5 }
    let base : LatLonAltPos ℝ := { lat := 85.934710, lon := 17.747955, alt := 5 }
    let satPos : SatLocation ℝ := { locations := SortedMap.empty.insert 1 sat }
    let pseudoRanges : SatRanges ℝ :=
      { ranges := SortedMap.empty.insert 1 (calcSatToStationRange sat base - 100) }
    (∀ k s p, satPos.locations.find k = some s → pseudoRanges.ranges.find k = some p →
        ∃ c, (calcSatRangeCorrection satPos base pseudoRanges).value.ranges.find k = some c ∧
          p + c = calcSatToStationRange s base) ∧
      ∀ k, k ∉ satPos.locations.ids ∩ pseudoRanges.ranges.ids →
        (calcSatRangeCorrection satPos base pseudoRanges).value.ranges.find k = none := by
  intro sat base satPos pseudoRanges
  refine (calcSatRangeCorrection_signed_iff satPos base pseudoRanges).mpr ?_
  intro k s p hs hp
  simp only [satPos, pseudoRanges, SortedMap.find_insert, SortedMap.find_empty, Option.getD_none,
    Option.ite_none_right_eq_some, Option.some.injEq] at hs hp
  rw [← hp.2, ← hs.2, sub_le_self_iff]
  norm_num

/-- A correction of 5 for a range of 20000. -/
theorem applyCorrectionOnPseudoRange_drops :
    let corrRanges : SatRanges ℚ := { ranges := SortedMap.empty.insert 1 5 }
    let pseudoRanges : SatRanges ℚ := { ranges := SortedMap.empty.insert 1 20000 }
    (applyCorrectionOnPseudoRange corrRanges pseudoRanges).value.ranges.find 1 = some 5 ∧
      (some 5 : Option ℚ) ≠ some (20000 + 5) := by
  decide +kernel

/-- One satellite, seen by base and rover with a shared bias of 100 from a true
    rover range of 20000. -/
theorem pipeline_loses_range :
    let sat : EcefPos ℝ := { x := -17104.3, y := -5228.5, z := 19811.5 }
    let base : LatLonAltPos ℝ := { lat := 85.934710, lon := 17.747955, alt := 5 }
    (pipeline { locations := SortedMap.empty.insert 1 sat } base
        { ranges := SortedMap.empty.insert 1 (calcSatToStationRange sat base + 100) }
        { ranges := SortedMap.empty.insert 1 (20000 + 100) }).ranges.find 1 ≠ some 20000 := by
  intro sat base h
  -- What comes out is the bias, whatever the rover's range.
  rw [pipeline_find] at h
  simp only [SortedMap.find_insert, SortedMap.find_empty, if_true, Option.getD_none,
    Option.bind_some, Option.map_some, Option.some.injEq] at h
  rw [sub_add_cancel_left, abs_neg, abs_of_pos (by norm_num)] at h
  norm_num at h

/-- A rover whose range is not the shared error, and one whose range is. -/
theorem pipeline_recovers_iff_example :
    let sat : EcefPos ℝ := { x := -17104.3, y := -5228.5, z := 19811.5 }
    let base : LatLonAltPos ℝ := { lat := 85.934710, lon := 17.747955, alt := 5 }
    let satPos : SatLocation ℝ := { locations := SortedMap.empty.insert 1 sat }
    let basePR : SatRanges ℝ :=
      { ranges := SortedMap.empty.insert 1 (calcSatToStationRange sat base + 100) }
    let roverPR : ℝ → SatRanges ℝ :=
      fun range => { ranges := SortedMap.empty.insert 1 (range + 100) }
    ((∀ k, k ∈ satPos.locations.ids → k ∈ basePR.ranges.ids → k ∈ (roverPR 20000).ranges.ids →
        (pipeline satPos base basePR (roverPR 20000)).ranges.find k = some 20000) ↔
      ∀ k, k ∈ satPos.locations.ids → k ∈ basePR.ranges.ids → k ∈ (roverPR 20000).ranges.ids →
        (20000 : ℝ) = |100|) ∧
      ∀ k, k ∈ satPos.locations.ids → k ∈ basePR.ranges.ids → k ∈ (roverPR 100).ranges.ids →
        (pipeline satPos base basePR (roverPR 100)).ranges.find k = some 100 := by
  intro sat base satPos basePR roverPR
  have hbase : ∀ k s p, satPos.locations.find k = some s → basePR.ranges.find k = some p →
      p = calcSatToStationRange s base + 100 := by
    intro k s p hs hp
    simp only [satPos, basePR, SortedMap.find_insert, SortedMap.find_empty, Option.getD_none,
      Option.ite_none_right_eq_some, Option.some.injEq] at hs hp
    rw [← hp.2, ← hs.2]
  have hrover : ∀ range k r, (roverPR range).ranges.find k = some r → r = range + 100 := by
    intro range k r hr
    simp only [roverPR, SortedMap.find_insert, SortedMap.find_empty, Option.getD_none,
      Option.ite_none_right_eq_some, Option.some.injEq] at hr
    exact hr.2.symm
  constructor
  · exact pipeline_recovers_iff satPos base basePR (roverPR 20000) (fun _ => 100)
      (fun _ => 20000) hbase (hrover 20000)
  · refine (pipeline_recovers_iff satPos base basePR (roverPR 100) (fun _ => 100)
      (fun _ => 100) hbase (hrover 100)).mpr (fun k _ _ _ => ?_)
    rw [abs_of_pos (by norm_num)]

end SimpleDgps
