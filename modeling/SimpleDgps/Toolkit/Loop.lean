import Mathlib.Order.Basic

/-!
# Counted Loops That May Fail

The `for` loop of an imperative program, as a function on the loop state.

A body that indexes an array can fail, so a loop runs in `Except`. The
statements below are about the whole loop and never about its unrolling:
`upTo_eq` asks for the sequence of states the loop passes through, one
equation per iteration, and hands back the final one, and `upTo_error` asks for
the states up to the iteration that fails. The caller chooses the sequence,
which is the loop invariant in its strongest form.

`nest_eq` is the same rule for two nested loops. The states are indexed by
the completed outer rounds and the completed inner iterations of the current
one, and the only extra condition is that a finished inner loop is the start of
the next outer round.

Where the states have no closed form an invariant takes their place.
`upTo_total` asks that every iteration succeeds and keeps it, and `upTo_rounds`
is about a loop that is known to have ended: each of its iterations was entered
in a state of the invariant and succeeded, whatever follows from that.

## Main definitions

* `upTo`: A loop whose counter runs from zero to a bound.
* `nest`: Two nested loops over a pair of counters.

## Theorems

* `upTo_eq`: A loop that follows a sequence of states ends in its last one.
* `upTo_error`: A loop that follows a sequence up to a failing iteration fails.
* `nest_eq`: The rule for two nested loops.
* `upTo_total`, `nest_total`: Loops that keep an invariant end.
* `upTo_rounds`, `nest_rounds`: Loops that ended kept it in every iteration.
* `nest_error_zero`: A nest whose very first inner loop fails.
* `walk_eq`, `walk_error`: The same two rules for a walk over a list.
* `walk_congr_on`: Two walks whose steps agree under an invariant.
* `walk_congr`: A walk depends on its step at the list's own elements only.
* `walk_rounds`: A walk that ended went through every element.
-/

namespace Toolkit

namespace Loop

variable {σ ε : Type}

@[simp] theorem ok_bind {α β : Type} (a : α) (f : α → Except ε β) :
    (Except.ok a >>= f) = f a := rfl

@[simp] theorem error_bind {α β : Type} (e : ε) (f : α → Except ε β) :
    ((Except.error e : Except ε α) >>= f) = Except.error e := rfl

/-- A sequence that has a result has one after its first step. -/
theorem bind_eq_ok {α β : Type} (x : Except ε α) (f : α → Except ε β) (b : β)
    (h : (x >>= f) = .ok b) : ∃ a, x = .ok a ∧ f a = .ok b := by
  cases x with
  | error e =>
      rw [error_bind] at h
      exact absurd h (by simp only [reduceCtorEq, not_false_eq_true])
  | ok a => exact ⟨a, rfl, h⟩

/-- A computation that fails has no result. -/
theorem error_no_result {α : Type} (e : ε) : ¬∃ a : α, (Except.error e : Except ε α) = .ok a := by
  rintro ⟨a, ha⟩
  exact absurd ha (by simp only [reduceCtorEq, not_false_eq_true])

/-- The loop `for (i = 0; i < n; i++) s = body(i, s)`. -/
def upTo : Nat → (Nat → σ → Except ε σ) → σ → Except ε σ
  | 0, _, s => .ok s
  | n + 1, body, s => upTo n body s >>= body n

theorem upTo_succ (n : Nat) (body : Nat → σ → Except ε σ) (s : σ) :
    upTo (n + 1) body s = upTo n body s >>= body n := rfl

/-- A loop that passes through `S 0`, `S 1`, and so on ends in `S n`. -/
theorem upTo_eq (S : Nat → σ) (n : Nat) (body : Nat → σ → Except ε σ)
    (h : ∀ i, i < n → body i (S i) = .ok (S (i + 1))) : upTo n body (S 0) = .ok (S n) := by
  induction n with
  | zero => rfl
  | succ k ih =>
      -- The first `k` iterations follow the sequence, and so does the last one.
      rw [upTo_succ, ih (fun i hi => h i (by omega)), ok_bind]
      exact h k (by omega)

/-- A loop that passes through `S 0` up to `S k` and fails in iteration `k`
    fails, whatever its bound. -/
theorem upTo_error (S : Nat → σ) (n k : Nat) (body : Nat → σ → Except ε σ) (e : ε) (hk : k < n)
    (h : ∀ i, i < k → body i (S i) = .ok (S (i + 1))) (he : body k (S k) = .error e) :
    upTo n body (S 0) = .error e := by
  induction n with
  | zero => omega
  | succ m ih =>
      rw [upTo_succ]
      by_cases hkm : k = m
      · -- The loop reaches the failing iteration as its last one.
        rw [← hkm, upTo_eq S k body h, ok_bind]
        exact he
      · -- It failed before its last one.
        rw [ih (by omega), error_bind]

/-- Two nested loops, the outer counter first. -/
def nest (m n : Nat) (body : Nat → Nat → σ → Except ε σ) (s : σ) : Except ε σ :=
  upTo m (fun i => upTo n (body i)) s

/-- Two nested loops that pass through `S i j` after `i` outer rounds and `j`
    inner iterations of the current one. -/
theorem nest_eq (S : Nat → Nat → σ) (m n : Nat) (body : Nat → Nat → σ → Except ε σ)
    (hrow : ∀ i, i < m → S i n = S (i + 1) 0)
    (h : ∀ i j, i < m → j < n → body i j (S i j) = .ok (S i (j + 1))) :
    nest m n body (S 0 0) = .ok (S m 0) := by
  -- Seen from outside, a round leads from the start of a row to the start of the next.
  refine upTo_eq (fun i => S i 0) m _ (fun i hi => ?_)
  rw [← hrow i hi]
  exact upTo_eq (S i) n (body i) (fun j hj => h i j hi hj)

/-- A loop whose iterations all succeed and keep an invariant ends, and the
    invariant holds of its result. -/
theorem upTo_total (I : Nat → σ → Prop) (n : Nat) (body : Nat → σ → Except ε σ) (s : σ)
    (h0 : I 0 s) (h : ∀ i s, i < n → I i s → ∃ s', body i s = .ok s' ∧ I (i + 1) s') :
    ∃ t, upTo n body s = .ok t ∧ I n t := by
  induction n with
  | zero => exact ⟨s, rfl, h0⟩
  | succ k ih =>
      rcases ih (fun i s' hi => h i s' (by omega)) with ⟨u, hu, hI⟩
      rcases h k u (by omega) hI with ⟨t, ht, hI'⟩
      refine ⟨t, ?_, hI'⟩
      rw [upTo_succ, hu, ok_bind]
      exact ht

/-- A loop that did end went through every iteration in a state of the
    invariant. -/
theorem upTo_rounds (I : Nat → σ → Prop) (n : Nat) (body : Nat → σ → Except ε σ) (s t : σ)
    (h0 : I 0 s) (h : ∀ i s s', i < n → I i s → body i s = .ok s' → I (i + 1) s')
    (hrun : upTo n body s = .ok t) :
    I n t ∧ ∀ i, i < n → ∃ u v, I i u ∧ body i u = .ok v := by
  induction n generalizing t with
  | zero =>
      rw [upTo, Except.ok.injEq] at hrun
      rw [← hrun]
      exact ⟨h0, fun i hi => absurd hi (Nat.not_lt_zero i)⟩
  | succ k ih =>
      rcases bind_eq_ok _ _ _ hrun with ⟨u, hu, hlast⟩
      rcases ih u (fun i s s' hi => h i s s' (by omega)) hu with ⟨hI, hrounds⟩
      refine ⟨h k u t (by omega) hI hlast, fun i hi => ?_⟩
      by_cases hik : i = k
      · rw [hik]
        exact ⟨u, t, hI, hlast⟩
      · exact hrounds i (by omega)

/-- The first rule for two nested loops. -/
theorem nest_total (I : Nat → Nat → σ → Prop) (m n : Nat) (body : Nat → Nat → σ → Except ε σ)
    (s : σ) (h0 : I 0 0 s) (hrow : ∀ i s, i < m → I i n s → I (i + 1) 0 s)
    (h : ∀ i j s, i < m → j < n → I i j s → ∃ s', body i j s = .ok s' ∧ I i (j + 1) s') :
    ∃ t, nest m n body s = .ok t ∧ I m 0 t := by
  refine upTo_total (fun i => I i 0) m _ s h0 (fun i u hi hI => ?_)
  rcases upTo_total (I i) n (body i) u hI (fun j u' hj => h i j u' hi hj) with ⟨t, ht, hI'⟩
  exact ⟨t, ht, hrow i t hi hI'⟩

/-- The second rule for two nested loops. -/
theorem nest_rounds (I : Nat → Nat → σ → Prop) (m n : Nat) (body : Nat → Nat → σ → Except ε σ)
    (s t : σ) (h0 : I 0 0 s) (hrow : ∀ i s, i < m → I i n s → I (i + 1) 0 s)
    (h : ∀ i j s s', i < m → j < n → I i j s → body i j s = .ok s' → I i (j + 1) s')
    (hrun : nest m n body s = .ok t) :
    I m 0 t ∧ ∀ i j, i < m → j < n → ∃ u v, I i j u ∧ body i j u = .ok v := by
  have hinner : ∀ i u v, i < m → I i 0 u → upTo n (body i) u = .ok v →
      I i n v ∧ ∀ j, j < n → ∃ u v, I i j u ∧ body i j u = .ok v := fun i u v hi hI hv =>
    upTo_rounds (I i) n (body i) u v hI (fun j u' v' hj => h i j u' v' hi hj) hv
  rcases upTo_rounds (fun i => I i 0) m _ s t h0
    (fun i u v hi hI hv => hrow i v hi (hinner i u v hi hI hv).1) hrun with ⟨hI, hrounds⟩
  refine ⟨hI, fun i j hi hj => ?_⟩
  rcases hrounds i hi with ⟨u, v, hI', hv⟩
  exact (hinner i u v hi hI' hv).2 j hj

/-- A nest whose first inner loop already fails in its first iteration. -/
theorem nest_error_zero (m n : Nat) (body : Nat → Nat → σ → Except ε σ) (s : σ) (e : ε)
    (hm : 0 < m) (hn : 0 < n) (he : body 0 0 s = .error e) : nest m n body s = .error e := by
  refine upTo_error (fun _ => s) m 0 _ e hm (fun i hi => absurd hi (Nat.not_lt_zero i)) ?_
  exact upTo_error (fun _ => s) n 0 _ e hn (fun i hi => absurd hi (Nat.not_lt_zero i)) he

/-- A walk over a list that passes through `S 0`, `S 1`, and so on ends in the
    state its length names. -/
theorem walk_eq {α : Type} (f : σ → α → Except ε σ) :
    ∀ (l : List α) (S : Nat → σ),
      (∀ i (hi : i < l.length), f (S i) l[i] = .ok (S (i + 1))) →
      l.foldlM f (S 0) = .ok (S l.length) := by
  intro l
  induction l with
  | nil => intro S _; rfl
  | cons a rest ih =>
      intro S h
      have hhead : f (S 0) a = .ok (S 1) := h 0 (Nat.succ_pos rest.length)
      rw [List.foldlM_cons, hhead, ok_bind, List.length_cons]
      -- The rest of the walk follows the rest of the sequence.
      refine ih (fun i => S (i + 1)) (fun i hi => ?_)
      exact h (i + 1) (by rw [List.length_cons]; omega)

/-- A walk that passes through `S 0` up to `S k` and fails on element `k`
    fails. -/
theorem walk_error {α : Type} (f : σ → α → Except ε σ) (e : ε) :
    ∀ (l : List α) (S : Nat → σ) (k : Nat) (hk : k < l.length),
      (∀ i (_ : i < k) (hi : i < l.length), f (S i) l[i] = .ok (S (i + 1))) →
      f (S k) l[k] = .error e → l.foldlM f (S 0) = .error e := by
  intro l
  induction l with
  | nil => intro S k hk; exact absurd hk (Nat.not_lt_zero k)
  | cons a rest ih =>
      intro S k hk h he
      cases k with
      | zero =>
          -- The head of the list is the element that fails.
          have hhead : f (S 0) a = .error e := he
          rw [List.foldlM_cons, hhead, error_bind]
      | succ k =>
          have hhead : f (S 0) a = .ok (S 1) :=
            h 0 (Nat.succ_pos k) (Nat.succ_pos rest.length)
          rw [List.foldlM_cons, hhead, ok_bind]
          refine ih (fun i => S (i + 1)) k (by rw [List.length_cons] at hk; omega)
            (fun i hik hi => ?_) he
          exact h (i + 1) (by omega) (by rw [List.length_cons]; omega)

/-- Two walks agree if their steps do wherever an invariant holds that one of them
    keeps. It is about the rest of the list and the state. -/
theorem walk_congr_on {α : Type} (I : List α → σ → Prop) (f g : σ → α → Except ε σ)
    (hstep : ∀ a rest s, I (a :: rest) s → f s a = g s a)
    (hkeep : ∀ a rest s s', I (a :: rest) s → f s a = .ok s' → I rest s') :
    ∀ (l : List α) (s : σ), I l s → l.foldlM f s = l.foldlM g s := by
  intro l
  induction l with
  | nil => intro s _; rfl
  | cons a rest ih =>
      intro s h
      rw [List.foldlM_cons, List.foldlM_cons, ← hstep a rest s h]
      cases hrun : f s a with
      | error e => rw [error_bind, error_bind]
      | ok s' =>
          rw [ok_bind, ok_bind]
          exact ih s' (hkeep a rest s s' h hrun)

/-- A walk depends on its step at the list's own elements only. -/
theorem walk_congr {α : Type} (f g : σ → α → Except ε σ) (l : List α) (s : σ)
    (h : ∀ a ∈ l, ∀ s, f s a = g s a) : l.foldlM f s = l.foldlM g s :=
  walk_congr_on (fun rest _ => ∀ a ∈ rest, ∀ s, f s a = g s a) f g
    (fun a _ s h => h a (List.mem_cons_self ..) s)
    (fun a _ _ _ h _ b hb => h b (List.mem_cons_of_mem a hb)) l s h

/-- A walk that did end went through every element. -/
theorem walk_rounds {α : Type} (f : σ → α → Except ε σ) :
    ∀ (l : List α) (s t : σ), l.foldlM f s = .ok t → ∀ a ∈ l, ∃ u v, f u a = .ok v := by
  intro l
  induction l with
  | nil => intro s t _ a ha; exact absurd ha List.not_mem_nil
  | cons b rest ih =>
      intro s t hrun a ha
      rw [List.foldlM_cons] at hrun
      rcases bind_eq_ok _ _ _ hrun with ⟨u, hu, hrest⟩
      rcases List.mem_cons.mp ha with rfl | ha'
      · exact ⟨s, u, hu⟩
      · exact ih u t hrest a ha'

end Loop

end Toolkit
