import Mathlib.Data.List.Basic

/-!
# Incremental Framing

Cutting a byte stream into messages while it is still arriving.

A `Framer` looks at the front of a buffer. Either it asks for more data, or it
takes at least one byte and possibly yields a message, and more data behind
what it took does not change its mind. `drain` applies it until it asks for
more. A receiver appends each piece it gets to what was left over and drains
again, and the result of that cannot depend on where the pieces were cut:
`messages_append` and `rest_append` say that draining a buffer and then the
leftover with more data behind it is draining everything at once.

`drain` recurses on a bound for the buffer's length, which every step that
takes something lowers, so it computes and the bound is irrelevant as soon as
it is large enough.

## Main definitions

* `Framer`: A step that takes bytes off the front of a buffer.
* `drain`: The step applied until it asks for more data.
* `consumed`, `messages`, `rest`: What draining a whole buffer takes, yields
  and leaves.
* `feed`: One more piece for a receiver that kept a leftover.

## Theorems

* `drain_bound`: The bound does not matter once it covers the buffer.
* `drain_append`: Draining a buffer that arrives in two pieces.
* `messages_append`: The messages of a buffer that arrives in two pieces.
* `rest_append`: Its leftover.
* `messages_rest`: A leftover holds no message until more data arrives.
* `foldl_feed`: A buffer in any number of pieces.
-/

namespace Toolkit

/-- A step that takes bytes off the front of a buffer and may yield a message,
    or asks for more data. -/
structure Framer (β μ : Type) where
  step : List β → Option (Nat × Option μ)
  /-- A step that takes something takes at least one element. -/
  pos : ∀ buf n m, step buf = some (n, m) → 0 < n
  /-- A step takes what is there. -/
  le : ∀ buf n m, step buf = some (n, m) → n ≤ buf.length
  /-- More data does not change a step that takes something. -/
  extend : ∀ buf more n m, step buf = some (n, m) → step (buf ++ more) = some (n, m)

namespace Framing

variable {β μ : Type} (F : Framer β μ)

/-- Apply the step until it asks for more data, at most `bound` times. The
    result is the number of elements taken and the messages in order. -/
def drain : Nat → List β → Nat × List μ
  | 0, _ => (0, [])
  | bound + 1, buf => match F.step buf with
    | none => (0, [])
    | some (n, m) => (n + (drain bound (buf.drop n)).1, m.toList ++ (drain bound (buf.drop n)).2)

/-- How much draining the buffer takes. -/
def consumed (buf : List β) : Nat := (drain F buf.length buf).1

/-- The messages in the buffer. -/
def messages (buf : List β) : List μ := (drain F buf.length buf).2

/-- What draining the buffer leaves. -/
def rest (buf : List β) : List β := buf.drop (consumed F buf)

theorem drain_none (bound : Nat) (buf : List β) (h : F.step buf = none) :
    drain F bound buf = (0, []) := by
  cases bound with
  | zero => rfl
  | succ k => simp only [drain, h]

theorem drain_some (bound : Nat) (buf : List β) (n : Nat) (m : Option μ)
    (h : F.step buf = some (n, m)) : drain F (bound + 1) buf
      = (n + (drain F bound (buf.drop n)).1, m.toList ++ (drain F bound (buf.drop n)).2) := by
  simp only [drain, h]

/-- An empty buffer has nothing to take. -/
theorem step_nil : F.step [] = none := by
  cases hstep : F.step [] with
  | none => rfl
  | some r =>
      have hpos := F.pos [] r.1 r.2 hstep
      have hle := F.le [] r.1 r.2 hstep
      rw [List.length_nil] at hle
      omega

/-- The bound does not matter once it covers the buffer. -/
theorem drain_bound : ∀ (bound bound' : Nat) (buf : List β), buf.length ≤ bound →
    buf.length ≤ bound' → drain F bound buf = drain F bound' buf := by
  intro bound
  induction bound with
  | zero =>
      intro bound' buf hbuf _
      rw [List.eq_nil_of_length_eq_zero (Nat.le_zero.mp hbuf), drain_none F _ [] (step_nil F),
        drain_none F _ [] (step_nil F)]
  | succ k ih =>
      intro bound' buf hbuf hbuf'
      cases hstep : F.step buf with
      | none => rw [drain_none F _ buf hstep, drain_none F _ buf hstep]
      | some r =>
          have hpos := F.pos buf r.1 r.2 hstep
          have hle := F.le buf r.1 r.2 hstep
          have hdrop : (buf.drop r.1).length = buf.length - r.1 := List.length_drop
          cases bound' with
          | zero => omega
          | succ k' =>
              -- Both sides take the step and leave the same shorter buffer.
              rw [drain_some F k buf r.1 r.2 hstep, drain_some F k' buf r.1 r.2 hstep,
                ih k' (buf.drop r.1) (by omega) (by omega)]

/-! ### Whole buffers -/

theorem drain_whole (buf : List β) (n : Nat) (m : Option μ) (h : F.step buf = some (n, m)) :
    drain F buf.length buf
      = (n + consumed F (buf.drop n), m.toList ++ messages F (buf.drop n)) := by
  have hpos := F.pos buf n m h
  have hle := F.le buf n m h
  have hdrop : (buf.drop n).length = buf.length - n := List.length_drop
  -- The buffer is not empty, so there is a bound to count down from.
  have hsucc : buf.length = (buf.length - 1) + 1 := by omega
  rw [hsucc, drain_some F _ buf n m h,
    drain_bound F (buf.length - 1) (buf.drop n).length (buf.drop n) (by omega) (Nat.le_refl _)]
  rfl

theorem messages_none (buf : List β) (h : F.step buf = none) : messages F buf = [] := by
  rw [messages, drain_none F _ buf h]

theorem rest_none (buf : List β) (h : F.step buf = none) : rest F buf = buf := by
  rw [rest, consumed, drain_none F _ buf h, List.drop_zero]

theorem messages_some (buf : List β) (n : Nat) (m : Option μ) (h : F.step buf = some (n, m)) :
    messages F buf = m.toList ++ messages F (buf.drop n) := by
  rw [messages, drain_whole F buf n m h]

theorem rest_some (buf : List β) (n : Nat) (m : Option μ) (h : F.step buf = some (n, m)) :
    rest F buf = rest F (buf.drop n) := by
  rw [rest, consumed, drain_whole F buf n m h, rest, List.drop_drop]

/-- Draining a buffer that arrives in two pieces is draining the first piece
    and then its leftover with the second piece behind it. -/
theorem drain_append : ∀ (l : Nat) (buf more : List β), buf.length ≤ l →
    messages F (buf ++ more) = messages F buf ++ messages F (rest F buf ++ more) ∧
      rest F (buf ++ more) = rest F (rest F buf ++ more) := by
  intro l
  induction l with
  | zero =>
      intro buf more hbuf
      rw [List.eq_nil_of_length_eq_zero (Nat.le_zero.mp hbuf), messages_none F [] (step_nil F),
        rest_none F [] (step_nil F)]
      exact ⟨rfl, rfl⟩
  | succ k ih =>
      intro buf more hbuf
      cases hstep : F.step buf with
      | none =>
          -- The first piece is its own leftover.
          rw [messages_none F buf hstep, rest_none F buf hstep, List.nil_append]
          exact ⟨rfl, rfl⟩
      | some r =>
          have hpos := F.pos buf r.1 r.2 hstep
          have hle := F.le buf r.1 r.2 hstep
          have hdrop : (buf.drop r.1).length = buf.length - r.1 := List.length_drop
          -- The longer buffer takes the same step and leaves the second piece behind it.
          have hstep' := F.extend buf more r.1 r.2 hstep
          have hbehind : (buf ++ more).drop r.1 = buf.drop r.1 ++ more :=
            List.drop_append_of_le_length hle
          rcases ih (buf.drop r.1) more (by omega) with ⟨hmessages, hrest⟩
          rw [messages_some F _ r.1 r.2 hstep', messages_some F buf r.1 r.2 hstep,
            rest_some F _ r.1 r.2 hstep', rest_some F buf r.1 r.2 hstep, hbehind, hmessages, hrest,
            List.append_assoc]
          exact ⟨rfl, rfl⟩

/-- The messages of a buffer that arrives in two pieces. -/
theorem messages_append (buf more : List β) :
    messages F (buf ++ more) = messages F buf ++ messages F (rest F buf ++ more) :=
  (drain_append F buf.length buf more (Nat.le_refl _)).1

/-- The leftover of a buffer that arrives in two pieces. -/
theorem rest_append (buf more : List β) :
    rest F (buf ++ more) = rest F (rest F buf ++ more) :=
  (drain_append F buf.length buf more (Nat.le_refl _)).2

/-- A leftover holds no message until more data arrives. -/
theorem messages_rest (buf : List β) : messages F (rest F buf) = [] := by
  have h := messages_append F buf []
  rw [List.append_nil, List.append_nil] at h
  exact List.self_eq_append_right.mp h

/-- Nothing is lost between what is taken and what is left. -/
theorem take_consumed (buf : List β) : buf.take (consumed F buf) ++ rest F buf = buf :=
  List.take_append_drop _ buf

/-! ### Buffers in pieces -/

/-- A receiver with a leftover and its messages so far gets one more piece. -/
def feed (s : List β × List μ) (piece : List β) : List β × List μ :=
  (rest F (s.1 ++ piece), s.2 ++ messages F (s.1 ++ piece))

/-- Feeding a leftover in pieces is draining it with all of them at once. -/
theorem foldl_feed (pieces : List (List β)) : ∀ (buf : List β) (msgs : List μ),
    pieces.foldl (feed F) (rest F buf, msgs)
      = (rest F (buf ++ pieces.flatten), msgs ++ messages F (rest F buf ++ pieces.flatten)) := by
  induction pieces with
  | nil =>
      intro buf msgs
      rw [List.foldl_nil, List.flatten_nil, List.append_nil, List.append_nil, messages_rest,
        List.append_nil]
  | cons piece pieces ih =>
      intro buf msgs
      -- After the first piece the leftover is that of a longer buffer.
      rw [List.foldl_cons, List.flatten_cons, feed, ← rest_append, ih, ← List.append_assoc,
        ← List.append_assoc, messages_append F (rest F buf ++ piece), ← rest_append,
        List.append_assoc msgs]

end Framing

end Toolkit
