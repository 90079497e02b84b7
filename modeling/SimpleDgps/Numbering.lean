import SimpleDgps.Trilateration

/-!
# Satellite Numbering

What the ids of the satellites have to do with the position.

The ids decide in which order the loop of trilateration meets the satellites,
and so which satellite gets which row of the system. Other ids permute the rows.
The regression combines the rows in sums over all of them, three of which decide
the outcome: `normalMinor`, `normalDet` and `rangeMoment`. A sum does not notice
the order of its terms, so neither does the outcome, be it a position or the
null pointer of a singular matrix.

## Main definitions

* `SatLocation.renumber`, `SatRanges.renumber`: The same data under other ids.

## Theorems

* `satSum_renumber`: A sum over the renumbered satellites.
* `trillatPosFromRange_sums`: The outcome in terms of three sums.
* `trillat_renumber`: The outcome does not depend on the ids.
-/

namespace SimpleDgps

open Toolkit Loop Memory

variable {K : Type} [Field K]

omit [Field K] in
/-- The same positions under other ids. -/
def SatLocation.renumber (σ : Int → Int) (p : SatLocation K) : SatLocation K :=
  { locations := p.locations.rename σ }

omit [Field K] in
/-- The same ranges under other ids. -/
def SatRanges.renumber (σ : Int → Int) (r : SatRanges K) : SatRanges K :=
  { ranges := r.ranges.rename σ }

omit [Field K] in
theorem size_renumber (σ : Int → Int) (p : SatLocation K) (hσ : Set.InjOn σ p.locations.ids) :
    (p.renumber σ).locations.size = p.locations.size := by
  unfold SatLocation.renumber SortedMap.size
  rw [(SortedMap.rename_perm σ p.locations hσ).length_eq, List.length_map]

/-- A sum over the renumbered satellites is a sum over the satellites, each
    term asked for the new id. -/
theorem satSum_renumber (σ : Int → Int) (p : SatLocation K) (hσ : Set.InjOn σ p.locations.ids)
    (f : Int → EcefPos K → K) :
    satSum (p.renumber σ) f = satSum p (fun k s => f (σ k) s) := by
  unfold satSum SatLocation.renumber
  rw [((SortedMap.rename_perm σ p.locations hσ).map (fun it => f it.1 it.2)).sum_eq, List.map_map]
  rfl

theorem rangeOf_renumber (σ : Int → Int) (r : SatRanges K) (hσ : Set.InjOn σ r.ranges.ids) (k : Int)
    (hk : k ∈ r.ranges.ids) : rangeOf (r.renumber σ) (σ k) = rangeOf r k := by
  unfold rangeOf SatRanges.renumber
  rw [SortedMap.find_rename σ r.ranges hσ k hk]

/-- The range moment pairs each satellite with its own range again. -/
theorem rangeMoment_renumber (σ : Int → Int) (p : SatLocation K) (r : SatRanges K)
    (hids : r.ranges.ids = p.locations.ids) (hσ : Set.InjOn σ p.locations.ids) :
    rangeMoment (p.renumber σ) (r.renumber σ) = rangeMoment p r := by
  unfold rangeMoment
  rw [satSum_renumber σ p hσ]
  refine satSum_congr p _ _ (fun k s hs => ?_)
  have hk : k ∈ r.ranges.ids := by
    rw [hids]
    exact (SortedMap.mem_ids p.locations k).mpr ⟨s, hs⟩
  rw [rangeOf_renumber σ r (by rwa [hids]) k hk]

omit [Field K] in
/-- Maps with the same ids have a range for every satellite. -/
theorem hasRanges_of_ids (p : SatLocation K) (r : SatRanges K)
    (hids : r.ranges.ids = p.locations.ids) : HasRanges p r := by
  intro k s hs
  have hk : k ∈ r.ranges.ids := by
    rw [hids]
    exact (SortedMap.mem_ids p.locations k).mpr ⟨s, hs⟩
  exact (SortedMap.mem_ids r.ranges k).mp hk

omit [Field K] in
theorem hasRanges_renumber (σ : Int → Int) (p : SatLocation K) (r : SatRanges K)
    (hids : r.ranges.ids = p.locations.ids) (hσ : Set.InjOn σ p.locations.ids) :
    HasRanges (p.renumber σ) (r.renumber σ) := by
  refine (SortedMap.forall_find _ _).mpr (fun e he => ?_)
  -- The entry comes from a satellite, and that one has a range.
  rcases List.mem_map.mp ((SortedMap.rename_perm σ p.locations hσ).mem_iff.mp he)
    with ⟨e', he', rfl⟩
  have hfind := (SortedMap.find_eq_some_iff p.locations e'.1 e'.2).mpr he'
  rcases hasRanges_of_ids p r hids e'.1 e'.2 hfind with ⟨range, hrange⟩
  refine ⟨range, ?_⟩
  have hmem : e'.1 ∈ r.ranges.ids := (SortedMap.mem_ids r.ranges e'.1).mpr ⟨range, hrange⟩
  unfold SatRanges.renumber
  rw [SortedMap.find_rename σ r.ranges (by rwa [hids]) e'.1 hmem, hrange]

section Conversion

variable [LinearOrder K] [FloorRing K] [DoubleToInt K] (chk : Check)

open DoubleToInt (toInt)

/-- The outcome for three satellites in terms of three sums over them. -/
theorem trillatPosFromRange_sums (p : SatLocation K) (r : SatRanges K) (h : HasRanges p r)
    (hsize : p.locations.size = 3) :
    trillatPosFromRange chk p r
      = if toInt (normalDet p) = 0 then .error .nullPointer
        else
          let t := normalMinor p / (toInt (normalDet p) : K) * rangeMoment p r
          .ok { value := { x := t, y := -t, z := t }, cout := [] } := by
  have hscale : scaleFn (rowFn p) (rhsFn p r)
      = normalMinor p / (toInt (normalDet p) : K) * rangeMoment p r := by
    rw [scaleFn, detFn_rowFn_two p hsize, detFn_rowFn_three p hsize, rangeMoment_eq p r hsize]
  rw [trillatPosFromRange_three chk p r h hsize, detFn_rowFn_three p hsize, hscale]

/-- The outcome does not depend on the ids: a position stays the same position,
    and a singular matrix stays singular. -/
theorem trillat_renumber (p : SatLocation K) (r : SatRanges K)
    (hsize : p.locations.size = posMTrillatASize) (hids : r.ranges.ids = p.locations.ids)
    (σ : Int → Int) (hσ : Set.InjOn σ p.locations.ids) :
    trillatPosFromRange chk (p.renumber σ) (r.renumber σ) = trillatPosFromRange chk p r ∧
      ((∃ result, trillatPosFromRange chk p r = .ok result) ∨
        trillatPosFromRange chk p r = .error .nullPointer) := by
  have hminor : normalMinor (p.renumber σ) = normalMinor p := by
    simp only [normalMinor, satSum_renumber σ p hσ]
  have hdet : normalDet (p.renumber σ) = normalDet p := by
    simp only [normalDet, satSum_renumber σ p hσ]
  have hthree : p.locations.size = 3 := hsize
  have hthree' : (p.renumber σ).locations.size = 3 := (size_renumber σ p hσ).trans hsize
  have hranges := hasRanges_of_ids p r hids
  rw [trillatPosFromRange_sums chk _ _ (hasRanges_renumber σ p r hids hσ) hthree', hminor, hdet,
    rangeMoment_renumber σ p r hids hσ, trillatPosFromRange_sums chk p r hranges hthree]
  refine ⟨rfl, ?_⟩
  by_cases hzero : toInt (normalDet p) = 0
  · exact Or.inr (if_pos hzero)
  · exact Or.inl ⟨_, if_neg hzero⟩

end Conversion

/-- Three satellites numbered the other way round. -/
theorem trillat_renumber_example :
    let satPos : SatLocation ℚ := { locations :=
      ((SortedMap.empty.insert 1 ⟨3, 1, 1⟩).insert 2 ⟨1, 3, 1⟩).insert 16 ⟨1, 1, 3⟩ }
    let ranges : SatRanges ℚ := { ranges := ((SortedMap.empty.insert 1 2).insert 2 3).insert 16 4 }
    trillatPosFromRange .buffer (satPos.renumber (fun k => -k)) (ranges.renumber (fun k => -k))
      = trillatPosFromRange .buffer satPos ranges := by
  intro satPos ranges
  have hids : ranges.ranges.ids = satPos.locations.ids := by
    ext k
    rw [SortedMap.ids, SortedMap.ids, Set.mem_ofPred_eq, Set.mem_ofPred_eq]
    simp only [ranges, satPos, SortedMap.find_insert, SortedMap.find_empty]
    split_ifs <;> rfl
  exact (trillat_renumber .buffer satPos ranges (by decide) hids (fun k => -k)
    neg_injective.injOn).1

end SimpleDgps
