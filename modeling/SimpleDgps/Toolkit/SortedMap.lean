import Mathlib.Data.List.Pairwise
import Mathlib.Order.Lattice

/-!
# Ordered Maps

A finite map kept as a list of entries in strictly increasing key order, which
is what iterating an ordered map from its beginning to its end visits.

The order is a field of the structure, so a map with a repeated key cannot be
built. Insertion follows the convention of the ordered containers that refuse
to overwrite: an entry already present under the key stays.

Programs build such a map by walking the entries of another one and inserting,
for some of them, a value computed from the entry. `find_foldl_insertIf` is the
lookup rule for that pattern, whatever decides which entries are inserted.

## Main definitions

* `SortedMap`: A map as its entries in key order.
* `find`: Looking a key up.
* `insert`: Inserting under a key that is not present yet.
* `insertIf`: Inserting a value computed from an entry, if there is one.
* `filter`: Keeping the entries whose keys pass a test.
* `rename`: Moving every entry to a new key.
* `size`: The number of entries.
* `ids`: The keys that have an entry.

## Theorems

* `find_eq_some_iff`: A lookup succeeds exactly on the entries.
* `forall_find`: Checking every lookup by checking every entry.
* `forall_common_congr`: Checking the common keys of two maps.
* `find_insert`: What an insertion changes.
* `find_foldl_insertIf`: Lookup in a map built by walking another one.
* `find_filter`: Lookup in a map whose keys were tested.
* `filter_eq_self`: A test that every key passes changes nothing.
* `rename_perm`: The entries of a renamed map, up to their order.
* `find_rename`: Lookup in a renamed map.
-/

namespace Toolkit

/-- A finite map as its entries, in strictly increasing key order. -/
structure SortedMap (κ α : Type) [LinearOrder κ] where
  entries : List (κ × α)
  sorted : entries.Pairwise (fun e e' => e.1 < e'.1)

namespace SortedMap

variable {κ α β : Type} [LinearOrder κ]

/-- The map without entries. -/
def empty : SortedMap κ α :=
  { entries := [], sorted := List.Pairwise.nil }

/-- The number of entries. -/
def size (m : SortedMap κ α) : Nat := m.entries.length

/-- The value of the first entry under the key. -/
def lookup (k : κ) : List (κ × α) → Option α
  | [] => none
  | e :: rest => if e.1 = k then some e.2 else lookup k rest

/-- The value under the key, if there is one. -/
def find (m : SortedMap κ α) (k : κ) : Option α := lookup k m.entries

/-- The keys that have an entry. -/
def ids (m : SortedMap κ α) : Set κ := { k | (m.find k).isSome }

/-- Insert into a list of entries, keeping an entry that is already there. -/
def insertEntry (k : κ) (x : α) : List (κ × α) → List (κ × α)
  | [] => [(k, x)]
  | e :: rest =>
    if k < e.1 then (k, x) :: e :: rest
    else if e.1 = k then e :: rest
    else e :: insertEntry k x rest

theorem mem_insertEntry (k : κ) (x : α) (l : List (κ × α)) (e : κ × α)
    (h : e ∈ insertEntry k x l) : e = (k, x) ∨ e ∈ l := by
  induction l with
  | nil => exact Or.inl (List.mem_singleton.mp h)
  | cons e' rest ih =>
      unfold insertEntry at h
      split_ifs at h with hlt heq
      · exact List.mem_cons.mp h
      · exact Or.inr h
      · rcases List.mem_cons.mp h with he | hrest
        · exact Or.inr (List.mem_cons.mpr (Or.inl he))
        · rcases ih hrest with hk | hmem
          · exact Or.inl hk
          · exact Or.inr (List.mem_cons_of_mem e' hmem)

theorem insertEntry_sorted (k : κ) (x : α) (l : List (κ × α))
    (h : l.Pairwise (fun e e' => e.1 < e'.1)) :
    (insertEntry k x l).Pairwise (fun e e' => e.1 < e'.1) := by
  induction l with
  | nil => exact List.pairwise_singleton _ _
  | cons e rest ih =>
      rcases List.pairwise_cons.mp h with ⟨hhead, htail⟩
      unfold insertEntry
      -- The new entry goes in front, is dropped, or goes further down.
      split_ifs with hlt heq
      · refine List.pairwise_cons.mpr ⟨fun e' he' => ?_, h⟩
        rcases List.mem_cons.mp he' with rfl | hmem
        · exact hlt
        · exact hlt.trans (hhead e' hmem)
      · exact h
      · refine List.pairwise_cons.mpr ⟨fun e' he' => ?_, ih htail⟩
        rcases mem_insertEntry k x rest e' he' with rfl | hmem
        · exact lt_of_le_of_ne (not_lt.mp hlt) heq
        · exact hhead e' hmem

/-- Insert under a key; an entry already present under it stays. -/
def insert (m : SortedMap κ α) (k : κ) (x : α) : SortedMap κ α :=
  { entries := insertEntry k x m.entries, sorted := insertEntry_sorted k x m.entries m.sorted }

/-! ### Lookup -/

@[simp] theorem find_empty (k : κ) : (empty : SortedMap κ α).find k = none := rfl

theorem mem_ids (m : SortedMap κ α) (k : κ) : k ∈ m.ids ↔ ∃ x, m.find k = some x :=
  Option.isSome_iff_exists

theorem find_eq_none_iff (m : SortedMap κ α) (k : κ) : m.find k = none ↔ k ∉ m.ids := by
  rw [ids, Set.mem_ofPred_eq, Option.not_isSome_iff_eq_none]

/-- A statement about all common keys of two maps, exchanged entry by entry. -/
theorem forall_common_congr (m : SortedMap κ α) (m' : SortedMap κ β) (P Q : κ → α → β → Prop)
    (h : ∀ k x y, m.find k = some x → m'.find k = some y → (P k x y ↔ Q k x y)) :
    (∀ k x y, m.find k = some x → m'.find k = some y → P k x y) ↔
      ∀ k x y, m.find k = some x → m'.find k = some y → Q k x y := by
  refine forall_congr' (fun k => forall_congr' (fun x => forall_congr' (fun y => ?_)))
  exact imp_congr_right (fun hx => imp_congr_right (fun hy => h k x y hx hy))

theorem lookup_eq_none (k : κ) (l : List (κ × α)) (h : ∀ e ∈ l, e.1 ≠ k) : lookup k l = none := by
  induction l with
  | nil => rfl
  | cons e rest ih =>
      rw [lookup, if_neg (h e (List.mem_cons_self ..))]
      exact ih (fun e' he' => h e' (List.mem_cons_of_mem e he'))

theorem lookup_eq_some_iff (k : κ) (x : α) (l : List (κ × α))
    (h : l.Pairwise (fun e e' => e.1 < e'.1)) : lookup k l = some x ↔ (k, x) ∈ l := by
  induction l with
  | nil => simp only [lookup, reduceCtorEq, List.not_mem_nil]
  | cons e rest ih =>
      rcases List.pairwise_cons.mp h with ⟨hhead, htail⟩
      by_cases hk : e.1 = k
      · rw [lookup, if_pos hk, Option.some.injEq, List.mem_cons]
        constructor
        · intro hx
          exact Or.inl (by rw [← hk, ← hx])
        · rintro (he | hmem)
          · rw [← he]
          · -- A later entry has a larger key.
            exact absurd (hhead _ hmem) (by simp only [hk, lt_irrefl, not_false_eq_true])
      · rw [lookup, if_neg hk, ih htail, List.mem_cons]
        constructor
        · exact Or.inr
        · rintro (he | hmem)
          · exact absurd (by rw [← he]) hk
          · exact hmem

/-- A lookup succeeds exactly on the entries. -/
theorem find_eq_some_iff (m : SortedMap κ α) (k : κ) (x : α) :
    m.find k = some x ↔ (k, x) ∈ m.entries :=
  lookup_eq_some_iff k x m.entries m.sorted

/-- What holds of every lookup holds of every entry, and conversely. -/
theorem forall_find (m : SortedMap κ α) (P : κ → α → Prop) :
    (∀ k x, m.find k = some x → P k x) ↔ ∀ e ∈ m.entries, P e.1 e.2 := by
  constructor
  · intro h e he
    exact h e.1 e.2 ((find_eq_some_iff m e.1 e.2).mpr he)
  · intro h k x hx
    exact h (k, x) ((find_eq_some_iff m k x).mp hx)

theorem lookup_insertEntry (k k' : κ) (x : α) (l : List (κ × α))
    (h : l.Pairwise (fun e e' => e.1 < e'.1)) :
    lookup k' (insertEntry k x l)
      = if k = k' then some ((lookup k l).getD x) else lookup k' l := by
  induction l with
  | nil => simp only [insertEntry, lookup, Option.getD_none]
  | cons e rest ih =>
      rcases List.pairwise_cons.mp h with ⟨hhead, htail⟩
      by_cases hlt : k < e.1
      · -- Every entry lies above `k`, so none is found under it.
        have hnone : lookup k (e :: rest) = none := by
          refine lookup_eq_none k _ (fun e' he' => ?_)
          rcases List.mem_cons.mp he' with rfl | hmem
          · exact (ne_of_lt hlt).symm
          · exact (ne_of_lt (hlt.trans (hhead e' hmem))).symm
        rw [insertEntry, if_pos hlt, lookup, hnone, Option.getD_none]
      · by_cases heq : e.1 = k
        · rw [insertEntry, if_neg hlt, if_pos heq]
          by_cases hk : k = k'
          · rw [if_pos hk, lookup, if_pos (heq.trans hk), lookup, if_pos heq, Option.getD_some]
          · rw [if_neg hk]
        · rw [insertEntry, if_neg hlt, if_neg heq, lookup, ih htail, lookup, lookup, if_neg heq]
          by_cases hk : k = k'
          · rw [if_pos hk, if_pos hk, if_neg (by rwa [← hk])]
          · rw [if_neg hk, if_neg hk]

/-- What an insertion changes: nothing but the key, and that only if it was
    not there. -/
theorem find_insert (m : SortedMap κ α) (k k' : κ) (x : α) :
    (m.insert k x).find k' = if k = k' then some ((m.find k).getD x) else m.find k' :=
  lookup_insertEntry k k' x m.entries m.sorted

/-! ### Building a map from another one -/

/-- Insert the value computed from an entry under its key, if there is one. -/
def insertIf (f : κ → α → Option β) (m : SortedMap κ β) (e : κ × α) : SortedMap κ β :=
  match f e.1 e.2 with
  | none => m
  | some y => m.insert e.1 y

theorem find_foldl_insertIf_list (f : κ → α → Option β) (k : κ) :
    ∀ (l : List (κ × α)) (m : SortedMap κ β), l.Pairwise (fun e e' => e.1 < e'.1) →
      (∀ e ∈ l, m.find e.1 = none) →
      (l.foldl (insertIf f) m).find k = ((lookup k l).bind (f k)).or (m.find k) := by
  intro l
  induction l with
  | nil => intro m _ _; rfl
  | cons e rest ih =>
      intro m hsorted hfresh
      rcases List.pairwise_cons.mp hsorted with ⟨hhead, htail⟩
      -- The map built so far has no entry under this key, so the insertion takes effect.
      have hstep : ∀ k', (insertIf f m e).find k'
          = if e.1 = k' then (f e.1 e.2).or (m.find k') else m.find k' := by
        intro k'
        unfold insertIf
        cases hf : f e.1 e.2 with
        | none => simp only [Option.none_or, ite_self]
        | some y =>
            simp only [find_insert, hfresh e (List.mem_cons_self ..), Option.getD_none,
              Option.some_or]
      -- Later keys are larger, so they are still unused.
      have hfresh' : ∀ e' ∈ rest, (insertIf f m e).find e'.1 = none := by
        intro e' he'
        rw [hstep, if_neg (ne_of_lt (hhead e' he'))]
        exact hfresh e' (List.mem_cons_of_mem e he')
      rw [List.foldl_cons, ih _ htail hfresh', hstep]
      by_cases hk : e.1 = k
      · -- The key is this entry's, so no later entry has it.
        have hnone : lookup k rest = none :=
          lookup_eq_none k rest (fun e' he' => by rw [← hk]; exact (ne_of_lt (hhead e' he')).symm)
        rw [lookup, if_pos hk, if_pos hk, hnone, Option.bind_none, Option.none_or,
          Option.bind_some, hk]
      · rw [lookup, if_neg hk, if_neg hk]

/-- A map built by walking the entries of another one holds under each key the
    value computed from that key's entry. -/
theorem find_foldl_insertIf (f : κ → α → Option β) (m : SortedMap κ α) (k : κ) :
    (m.entries.foldl (insertIf f) empty).find k = (m.find k).bind (f k) := by
  rw [find_foldl_insertIf_list f k m.entries empty m.sorted (fun e _ => rfl), find_empty,
    Option.or_none]
  rfl

/-! ### Testing keys -/

/-- Keep the entries whose keys pass a test. -/
def filter (keep : κ → Bool) (m : SortedMap κ α) : SortedMap κ α :=
  { entries := m.entries.filter (fun e => keep e.1), sorted := m.sorted.filter _ }

/-- A key that fails the test is gone, and the others keep their values. -/
theorem find_filter (keep : κ → Bool) (m : SortedMap κ α) (k : κ) :
    (m.filter keep).find k = if keep k then m.find k else none := by
  refine Option.ext (fun x => ?_)
  rw [find_eq_some_iff, filter, List.mem_filter, ← find_eq_some_iff]
  cases keep k with
  | true => simp only [and_true, if_true]
  | false => simp only [Bool.false_eq_true, and_false, if_false, reduceCtorEq]

/-- A test that every key passes changes nothing. -/
theorem filter_eq_self (keep : κ → Bool) (m : SortedMap κ α) (h : ∀ e ∈ m.entries, keep e.1) :
    m.filter keep = m := by
  have hentries : (m.filter keep).entries = m.entries := List.filter_eq_self.mpr h
  cases hm : m.filter keep with
  | mk entries sorted =>
      rw [hm] at hentries
      cases m with
      | mk entries' sorted' =>
          simp only at hentries
          simp only [hentries]

/-! ### Renaming keys -/

section Rename

variable {κ' : Type} [LinearOrder κ']

/-- Insert every entry under its new key. -/
def rename (σ : κ → κ') (m : SortedMap κ α) : SortedMap κ' α :=
  m.entries.foldl (fun m' e => m'.insert (σ e.1) e.2) empty

/-- Inserting under a fresh key adds one entry, wherever it ends up. -/
theorem insertEntry_perm (k : κ) (x : α) (l : List (κ × α)) (h : ∀ e ∈ l, e.1 ≠ k) :
    (insertEntry k x l).Perm ((k, x) :: l) := by
  induction l with
  | nil => exact List.Perm.refl _
  | cons e rest ih =>
      unfold insertEntry
      by_cases hlt : k < e.1
      · rw [if_pos hlt]
      · rw [if_neg hlt, if_neg (h e (List.mem_cons_self ..))]
        -- The entry that stays in front changes places with the new one.
        have hrest := ih (fun e' he' => h e' (List.mem_cons_of_mem e he'))
        exact (hrest.cons e).trans (List.Perm.swap (k, x) e rest)

omit [LinearOrder κ] in
theorem rename_foldl_perm (σ : κ → κ') :
    ∀ (l : List (κ × α)) (m' : SortedMap κ' α), l.Pairwise (fun e e' => σ e.1 ≠ σ e'.1) →
      (∀ e ∈ l, ∀ e' ∈ m'.entries, e'.1 ≠ σ e.1) →
      (l.foldl (fun m' e => m'.insert (σ e.1) e.2) m').entries.Perm
        (l.map (fun e => (σ e.1, e.2)) ++ m'.entries) := by
  intro l
  induction l with
  | nil => intro m' _ _; exact List.Perm.refl _
  | cons e rest ih =>
      intro m' hdistinct hfresh
      rcases List.pairwise_cons.mp hdistinct with ⟨hhead, htail⟩
      have hinsert : (m'.insert (σ e.1) e.2).entries.Perm ((σ e.1, e.2) :: m'.entries) :=
        insertEntry_perm _ _ _ (hfresh e (List.mem_cons_self ..))
      -- The new key of this entry is not one of the later ones.
      have hfresh' : ∀ e' ∈ rest, ∀ e'' ∈ (m'.insert (σ e.1) e.2).entries, e''.1 ≠ σ e'.1 := by
        intro e' he' e'' he''
        rcases List.mem_cons.mp (hinsert.mem_iff.mp he'') with rfl | hmem
        · exact hhead e' he'
        · exact hfresh e' (List.mem_cons_of_mem e he') e'' hmem
      rw [List.foldl_cons, List.map_cons, List.cons_append]
      refine (ih _ htail hfresh').trans ?_
      exact (hinsert.append_left _).trans List.perm_middle

/-- A renaming that keeps the keys apart moves the entries and nothing else. -/
theorem rename_perm (σ : κ → κ') (m : SortedMap κ α) (hσ : Set.InjOn σ m.ids) :
    (m.rename σ).entries.Perm (m.entries.map (fun e => (σ e.1, e.2))) := by
  have hids : ∀ e ∈ m.entries, e.1 ∈ m.ids := fun e he =>
    (mem_ids m e.1).mpr ⟨e.2, (find_eq_some_iff m e.1 e.2).mpr he⟩
  have hdistinct : m.entries.Pairwise (fun e e' => σ e.1 ≠ σ e'.1) := by
    refine m.sorted.imp_of_mem (fun {e e'} he he' hlt heq => ?_)
    exact absurd (hσ (hids e he) (hids e' he') heq) (ne_of_lt hlt)
  have hperm := rename_foldl_perm σ m.entries (empty : SortedMap κ' α) hdistinct
    (fun e _ e' he' => absurd he' List.not_mem_nil)
  rwa [empty, List.append_nil] at hperm

/-- Under its new key an entry has its old value. -/
theorem find_rename (σ : κ → κ') (m : SortedMap κ α) (hσ : Set.InjOn σ m.ids) (k : κ)
    (hk : k ∈ m.ids) : (m.rename σ).find (σ k) = m.find k := by
  rcases (mem_ids m k).mp hk with ⟨x, hx⟩
  rw [hx, find_eq_some_iff, (rename_perm σ m hσ).mem_iff]
  exact List.mem_map.mpr ⟨(k, x), (find_eq_some_iff m k x).mp hx, rfl⟩

end Rename

end SortedMap

end Toolkit
