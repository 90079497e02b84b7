import SimpleDgps.Toolkit.Transition

/-!
# Two Streams of Events

Events of two kinds that reach a system in an order nobody controls.

Two events of different kinds that can both happen in a state should lead to the
same state in either order. That is a property of single steps, and `Independent`
asks for no more: in a state with an invariant the two steps close to a square.
A system may give up on the way, and what it does then can depend on the order.
So the squares are only asked for where both steps lead to a good state, one from
which the system has not given up, and a state before a good state is good.

From the squares follows the whole grid. A list of events of one kind and a list
of the other, each of which can happen alone and ends well, can happen in every
order that keeps both lists in sequence, and every such order ends in the same
state: `run_merge`.

## Main definitions

* `Merge`: A list made from two lists, each kept in order.
* `Independent`: Events of two kinds that do not get in each other's way.

## Theorems

* `run_good`: A run that ends well has good states all along.
* `run_square`: One event against a list of the other kind.
* `run_merge`: Every order ends in the same state.
-/

namespace Toolkit

namespace Transition

variable {σ ε : Type}

/-- A list made from two lists, each of which is kept in order. -/
inductive Merge {α : Type} : List α → List α → List α → Prop
  | nil : Merge [] [] []
  | left (x : α) (l m n : List α) (h : Merge l m n) : Merge (x :: l) m (x :: n)
  | right (x : α) (l m n : List α) (h : Merge l m n) : Merge l (x :: m) (x :: n)

/-- One list after the other is one way to merge them. -/
theorem merge_append {α : Type} (l m : List α) : Merge l m (l ++ m) := by
  induction l with
  | nil =>
      induction m with
      | nil => exact Merge.nil
      | cons y m ih => exact Merge.right y [] m m ih
  | cons x l ih => exact Merge.left x l m (l ++ m) ih

/-- The other order is another. -/
theorem Merge.symm {α : Type} (l m n : List α) (h : Merge l m n) : Merge m l n := by
  induction h with
  | nil => exact Merge.nil
  | left x l m n _ ih => exact Merge.right x m l n ih
  | right x l m n _ ih => exact Merge.left x m l n ih

/-- Events of two kinds that do not get in each other's way. -/
structure Independent (step : σ → ε → Option σ) (P Q : ε → Prop) (Inv Good : σ → Prop) :
    Prop where
  inv : ∀ s e t, Inv s → step s e = some t → Inv t
  back : ∀ s e t, step s e = some t → Good t → Good s
  square : ∀ s p q a b, Inv s → P p → Q q → step s p = some a → step s q = some b → Good a →
    Good b → ∃ t, step a q = some t ∧ step b p = some t ∧ Good t

variable {step : σ → ε → Option σ} {P Q : ε → Prop} {Inv Good : σ → Prop}

theorem Independent.symm (h : Independent step P Q Inv Good) :
    Independent step Q P Inv Good where
  inv := h.inv
  back := h.back
  square := fun s q p b a hs hq hp hb ha hgood hgood' => by
    rcases h.square s p q a b hs hp hq ha hb hgood' hgood with ⟨t, ht, ht', hgoodt⟩
    exact ⟨t, ht', ht, hgoodt⟩

/-- A run that ends well started well. -/
theorem run_good (h : Independent step P Q Inv Good) (l : List ε) : ∀ s t : σ,
    run step l s = some t → Good t → Good s := by
  induction l with
  | nil =>
      intro s t hrun hgood
      rw [run, Option.some.injEq] at hrun
      rw [hrun]
      exact hgood
  | cons e rest ih =>
      intro s t hrun hgood
      rw [run, Option.bind_eq_some_iff] at hrun
      rcases hrun with ⟨u, hu, hrest⟩
      exact h.back s e u hu (ih u t hrest hgood)

/-- One event against a list of the other kind: the squares side by side. -/
theorem run_square (h : Independent step P Q Inv Good) (m : List ε) : ∀ (s a b : σ) (p : ε),
    Inv s → P p → (∀ q ∈ m, Q q) → step s p = some a → run step m s = some b → Good a → Good b →
    ∃ t, run step m a = some t ∧ step b p = some t ∧ Good t := by
  induction m with
  | nil =>
      intro s a b p _ _ _ ha hb hgood _
      rw [run, Option.some.injEq] at hb
      exact ⟨a, rfl, by rw [← hb]; exact ha, hgood⟩
  | cons q rest ih =>
      intro s a b p hs hp hm ha hb hgood hgood'
      rw [run, Option.bind_eq_some_iff] at hb
      rcases hb with ⟨c, hc, hrest⟩
      have hgoodc : Good c := run_good h rest c b hrest hgood'
      rcases h.square s p q a c hs hp (hm q (List.mem_cons_self ..)) ha hc hgood hgoodc
        with ⟨d, hd, hd', hgoodd⟩
      rcases ih c d b p (h.inv s q c hs hc) hp (fun q' hq' => hm q' (List.mem_cons_of_mem q hq'))
        hd' hrest hgoodd hgood' with ⟨t, ht, ht', hgoodt⟩
      exact ⟨t, by rw [run_cons step q rest a d hd]; exact ht, ht', hgoodt⟩

/-- Two lists that each end well can happen one after the other. -/
theorem run_after (h : Independent step P Q Inv Good) (l : List ε) : ∀ (m : List ε) (s a b : σ),
    Inv s → (∀ p ∈ l, P p) → (∀ q ∈ m, Q q) → run step l s = some a → run step m s = some b →
    Good a → Good b → ∃ t, run step m a = some t ∧ Good t := by
  induction l with
  | nil =>
      intro m s a b _ _ _ ha hb _ hgood'
      rw [run, Option.some.injEq] at ha
      rw [← ha]
      exact ⟨b, hb, hgood'⟩
  | cons p rest ih =>
      intro m s a b hs hl hm ha hb hgood hgood'
      rw [run, Option.bind_eq_some_iff] at ha
      rcases ha with ⟨c, hc, hrest⟩
      have hgoodc : Good c := run_good h rest c a hrest hgood
      rcases run_square h m s c b p hs (hl p (List.mem_cons_self ..)) hm hc hb hgoodc hgood'
        with ⟨d, hd, _, hgoodd⟩
      exact ih m c a d (h.inv s p c hs hc) (fun p' hp' => hl p' (List.mem_cons_of_mem p hp')) hm
        hrest hd hgood hgoodd

/-- An order that merges the two lists ends where the one after the other does. -/
theorem run_merge_aux (h : Independent step P Q Inv Good) (l m n : List ε) (hmerge : Merge l m n) :
    ∀ s a b t : σ, Inv s → (∀ p ∈ l, P p) → (∀ q ∈ m, Q q) → run step l s = some a →
    run step m s = some b → Good a → Good b → run step m a = some t → run step n s = some t := by
  induction hmerge with
  | nil =>
      intro s a b t _ _ _ ha _ _ _ ht
      rw [run, Option.some.injEq] at ha
      rw [ha]
      exact ht
  | left p l m n hmerge ih =>
      intro s a b t hs hl hm ha hb hgood hgood' ht
      rw [run, Option.bind_eq_some_iff] at ha
      rcases ha with ⟨c, hc, hrest⟩
      have hgoodc : Good c := run_good h l c a hrest hgood
      rcases run_square h m s c b p hs (hl p (List.mem_cons_self ..)) hm hc hb hgoodc hgood'
        with ⟨d, hd, _, hgoodd⟩
      rw [run_cons step p n s c hc]
      exact ih c a d t (h.inv s p c hs hc) (fun p' hp' => hl p' (List.mem_cons_of_mem p hp')) hm
        hrest hd hgood hgoodd ht
  | right q l m n hmerge ih =>
      intro s a b t hs hl hm ha hb hgood hgood' ht
      rw [run, Option.bind_eq_some_iff] at hb ht
      rcases hb with ⟨c, hc, hrest⟩
      rcases ht with ⟨a', ha', hrest'⟩
      have hgoodc : Good c := run_good h m c b hrest hgood'
      rcases run_square h.symm l s c a q hs (hm q (List.mem_cons_self ..)) hl hc ha hgoodc hgood
        with ⟨d, hd, hd', hgoodd⟩
      -- The event after the first list and the first list after the event meet in one state.
      have hmeet : d = a' := Option.some.inj (hd'.symm.trans ha')
      rw [hmeet] at hd hgoodd
      rw [run_cons step q n s c hc]
      exact ih c a' b t (h.inv s q c hs hc) hl (fun q' hq' => hm q' (List.mem_cons_of_mem q hq'))
        hd hrest hgoodd hgood' hrest'

/-- Two lists of independent events that each end well can happen in every order,
    and every order ends in the same state. -/
theorem run_merge (h : Independent step P Q Inv Good) (l m : List ε) (s a b : σ) (hs : Inv s)
    (hl : ∀ p ∈ l, P p) (hm : ∀ q ∈ m, Q q) (ha : run step l s = some a)
    (hb : run step m s = some b) (hgood : Good a) (hgood' : Good b) :
    ∃ t, Good t ∧ run step m a = some t ∧ run step l b = some t ∧
      ∀ n, Merge l m n → run step n s = some t := by
  rcases run_after h l m s a b hs hl hm ha hb hgood hgood' with ⟨t, ht, hgoodt⟩
  have hall : ∀ n, Merge l m n → run step n s = some t := fun n hn =>
    run_merge_aux h l m n hn s a b t hs hl hm ha hb hgood hgood' ht
  refine ⟨t, hgoodt, ht, ?_, hall⟩
  have hother := hall (m ++ l) (merge_append m l).symm
  rwa [run_append, hb, Option.bind_some] at hother

end Transition

end Toolkit
