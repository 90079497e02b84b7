import SimpleDgps.Session.Wire
import Mathlib.Algebra.BigOperators.Fin

/-!
# Partial Writes

What one call of `sendMessage` does with a frame, whatever the port accepts.

The port takes a part of what it is offered, or reports an error and takes
nothing. Here its answers are a sequence without end, since nobody knows in
advance how many calls there will be, and `PortContract` says the one thing that
is known about it: as long as there was no error a call accepts at least one
byte and not more than are left.

`writeLoop_delivers` is the induction over the frame. Every round either ends
the loop or leaves a shorter frame and the rest of the answers, so the loop ends
within as many calls as the frame has bytes. What the port accepted, put
together in order, is the beginning of the frame that the rounds have erased.

## Main definitions

* `WriteSome.granted`: The number of bytes a call accepts.
* `PortContract`: The answers the port can give to a frame.
* `Answers`: What the port's record says of a call.
* `Delivery`: What became of a frame.

## Theorems

* `portContract_tail`: The contract for what is left after one call.
* `delivery_cons`: One more call in front of a delivery.
* `writeLoop_delivers`: The write loop delivers.
* `sendMessage_delivers`: So does the call.
-/

namespace SimpleDgps

open Toolkit

/-- The number of bytes a call accepts. -/
def WriteSome.granted : WriteSome → Nat
  | .accepted count => count
  | .error _ => 0

/-- The answers the port can give to a frame: before the first error every call
    accepts between one byte and all that are left. -/
def PortContract (length : Nat) (outcomes : Nat → WriteSome) : Prop :=
  ∀ k count, (∀ i, i < k → ∀ message, outcomes i ≠ .error message) →
    ∑ i ∈ Finset.range k, (outcomes i).granted < length → outcomes k = .accepted count →
    1 ≤ count ∧ ∑ i ∈ Finset.range k, (outcomes i).granted + count ≤ length

/-- What the port's record says of a call. -/
inductive Answers : WriteSome → PortEvent → Prop
  | accepted (bytes : List UInt8) : Answers (.accepted bytes.length) (.accepted bytes)
  | failed (message : String) : Answers (.error message) (.failed message)

namespace Session

variable {μ : Type} (F : Frame μ)

/-- What became of a frame after `n` calls that left `events` in the record. -/
structure Delivery (s t : Session μ) (buf : List UInt8) (outcomes : Nat → WriteSome) (n : Nat)
    (events : List PortEvent) : Prop where
  bounded : n ≤ buf.length
  logged : t.portLog = s.portLog ++ events
  answered : List.Forall₂ Answers ((List.range n).map outcomes) events
  inOrder : events.flatMap PortEvent.bytes <+: buf
  whole : events.flatMap PortEvent.bytes = buf ↔
    ∀ k, k < n → ∀ message, outcomes k ≠ .error message
  stops : ∀ k, k < n → ∀ message, outcomes k = .error message → k + 1 = n ∧ t.stopped = true

/-- The answers to a call and to the calls after it. -/
theorem range_succ_map (outcomes : Nat → WriteSome) (n : Nat) :
    (List.range (n + 1)).map outcomes
      = outcomes 0 :: (List.range n).map (fun k => outcomes (k + 1)) := by
  rw [List.range_succ_eq_map, List.map_cons, List.map_map]
  rfl

/-- After a call that accepted something the contract holds for what is left. -/
theorem portContract_tail (length count : Nat) (outcomes : Nat → WriteSome)
    (h : PortContract length outcomes) (hfirst : outcomes 0 = .accepted count) :
    PortContract (length - count) (fun k => outcomes (k + 1)) := by
  intro k count' hclean hleft hnext
  beta_reduce at hleft ⊢
  have hsum : ∑ i ∈ Finset.range (k + 1), (outcomes i).granted
      = ∑ i ∈ Finset.range k, (outcomes (i + 1)).granted + count := by
    rw [Finset.sum_range_succ', hfirst]
    rfl
  have hclean' : ∀ i, i < k + 1 → ∀ message, outcomes i ≠ .error message := by
    intro i hi message
    cases i with
    | zero =>
        rw [hfirst]
        simp only [ne_eq, reduceCtorEq, not_false_eq_true]
    | succ i => exact hclean i (by omega) message
  have hcontract := h (k + 1) count' hclean' (by omega) hnext
  omega

/-- An empty frame takes no call. -/
theorem delivery_nil (s : Session μ) (outcomes : Nat → WriteSome) :
    Delivery s s [] outcomes 0 [] where
  bounded := Nat.le_refl 0
  logged := (List.append_nil s.portLog).symm
  answered := List.Forall₂.nil
  inOrder := List.nil_prefix
  whole := iff_of_true rfl (fun k hk => absurd hk (Nat.not_lt_zero k))
  stops := fun k hk => absurd hk (Nat.not_lt_zero k)

/-- A call that fails is the last one. -/
theorem delivery_error (s : Session μ) (buf : List UInt8) (outcomes : Nat → WriteSome)
    (message : String) (hbuf : buf ≠ []) (hfirst : outcomes 0 = .error message) :
    Delivery s (breakOff s message) buf outcomes 1 [.failed message] where
  bounded := List.length_pos_iff.mpr hbuf
  logged := rfl
  answered := by
    rw [range_succ_map, hfirst]
    exact List.Forall₂.cons (Answers.failed message) List.Forall₂.nil
  inOrder := List.nil_prefix
  whole := iff_of_false (fun h => hbuf h.symm) (fun h => h 0 Nat.zero_lt_one message hfirst)
  stops := fun k hk _ _ => ⟨by omega, rfl⟩

/-- A call that accepts a piece goes in front of the delivery of what is left. -/
theorem delivery_cons (s t : Session μ) (buf : List UInt8) (outcomes : Nat → WriteSome)
    (count n : Nat) (events : List PortEvent) (hfirst : outcomes 0 = .accepted count)
    (hcount : 1 ≤ count ∧ count ≤ buf.length)
    (h : Delivery { s with portLog := s.portLog ++ [.accepted (buf.take count)] } t
      (buf.drop count) (fun k => outcomes (k + 1)) n events) :
    Delivery s t buf outcomes (n + 1) (.accepted (buf.take count) :: events) where
  bounded := by
    have hbounded := h.bounded
    rw [List.length_drop] at hbounded
    omega
  logged := by
    rw [h.logged]
    exact List.append_assoc _ _ _
  answered := by
    have hlength : (buf.take count).length = count := List.length_take_of_le hcount.2
    have hanswer := Answers.accepted (buf.take count)
    rw [hlength, ← hfirst] at hanswer
    rw [range_succ_map]
    exact List.Forall₂.cons hanswer h.answered
  inOrder := by
    rw [List.flatMap_cons]
    conv_rhs => rw [← List.take_append_drop count buf]
    exact (List.prefix_append_right_inj _).mpr h.inOrder
  whole := by
    have hsplit : (PortEvent.accepted (buf.take count) :: events).flatMap PortEvent.bytes = buf ↔
        events.flatMap PortEvent.bytes = buf.drop count := by
      rw [List.flatMap_cons]
      conv_lhs => rhs; rw [← List.take_append_drop count buf]
      exact List.append_right_inj _
    rw [hsplit, h.whole]
    constructor
    · intro hclean k hk message
      cases k with
      | zero =>
          rw [hfirst]
          simp only [ne_eq, reduceCtorEq, not_false_eq_true]
      | succ k => exact hclean k (by omega) message
    · intro hclean k hk message
      exact hclean (k + 1) (by omega) message
  stops := by
    intro k hk message herror
    cases k with
    | zero =>
        rw [hfirst] at herror
        cases herror
    | succ k =>
        rcases h.stops k (by omega) message herror with ⟨hlast, hstopped⟩
        exact ⟨by omega, hstopped⟩

/-- The write loop delivers: the induction is on the bytes that are left. -/
theorem writeLoop_delivers : ∀ (length : Nat) (s : Session μ) (buf : List UInt8)
    (outcomes : Nat → WriteSome), buf.length ≤ length → PortContract buf.length outcomes →
    ∃ (n : Nat) (events : List PortEvent) (t : Session μ),
      writeLoop s buf ((List.range n).map outcomes) = some (t, []) ∧
        Delivery s t buf outcomes n events := by
  intro length
  induction length with
  | zero =>
      intro s buf outcomes hle _
      have hnil : buf = [] := List.length_eq_zero_iff.mp (Nat.le_zero.mp hle)
      rw [hnil]
      exact ⟨0, [], s, rfl, delivery_nil s outcomes⟩
  | succ length ih =>
      intro s buf outcomes hle hport
      by_cases hempty : buf.isEmpty = true
      · rw [List.isEmpty_iff.mp hempty]
        exact ⟨0, [], s, rfl, delivery_nil s outcomes⟩
      · have hbuf : buf ≠ [] := fun hnil => hempty (List.isEmpty_iff.mpr hnil)
        cases hfirst : outcomes 0 with
        | error message =>
            refine ⟨1, [.failed message], breakOff s message, ?_,
              delivery_error s buf outcomes message hbuf hfirst⟩
            rw [range_succ_map, hfirst, writeLoop, if_neg hempty]
            rfl
        | accepted count =>
            -- The first call is bound by the contract, and the others by what it leaves.
            have hcount := hport 0 count (fun i hi => absurd hi (Nat.not_lt_zero i))
              (by rw [Finset.sum_range_zero]; exact List.length_pos_iff.mpr hbuf) hfirst
            rw [Finset.sum_range_zero, Nat.zero_add] at hcount
            have htail := portContract_tail buf.length count outcomes hport hfirst
            rw [← List.length_drop] at htail
            rcases ih { s with portLog := s.portLog ++ [.accepted (buf.take count)] }
              (buf.drop count) _ (by rw [List.length_drop]; omega) htail
              with ⟨n, events, t, hloop, hdelivery⟩
            refine ⟨n + 1, .accepted (buf.take count) :: events, t, ?_,
              delivery_cons s t buf outcomes count n events hfirst hcount hdelivery⟩
            rw [range_succ_map, hfirst, writeLoop, if_neg hempty, if_pos hcount]
            exact hloop

/-- Sending a message ends within as many calls as its frame has bytes. The port
    has then accepted a beginning of the frame, all of it unless a call failed,
    and after a failed call there is no other one. -/
theorem sendMessage_delivers (s : Session μ) (msg : OutMessage) (outcomes : Nat → WriteSome)
    (hport : PortContract (F.bytes msg).length outcomes) :
    ∃ (n : Nat) (events : List PortEvent) (t : Session μ),
      sendMessage F s msg ((List.range n).map outcomes) = some (t, []) ∧
        Delivery s t (F.bytes msg) outcomes n events := by
  rcases writeLoop_delivers (F.bytes msg).length s (F.bytes msg) outcomes (Nat.le_refl _) hport
    with ⟨n, events, t, hloop, hdelivery⟩
  refine ⟨n, events, t, ?_, hdelivery⟩
  rw [sendMessage_eq]
  exact hloop

/-- The port takes three bytes of a poll frame and then fails. -/
theorem sendMessage_delivers_example :
    ∃ (n : Nat) (events : List PortEvent) (t : Session (List UInt8)),
      sendMessage ubxFrame freshSession .navPosllhPoll ((List.range n).map (fun k =>
          if k = 0 then .accepted 3 else .error "Input/output error")) = some (t, []) ∧
        Delivery freshSession t (ubxFrame.bytes .navPosllhPoll) (fun k =>
          if k = 0 then .accepted 3 else .error "Input/output error") n events := by
  refine sendMessage_delivers ubxFrame freshSession .navPosllhPoll _ (fun k count _ _ hnext => ?_)
  have hlength : (ubxFrame.bytes .navPosllhPoll).length = 8 := by decide
  rw [hlength]
  by_cases hk : k = 0
  · rw [if_pos hk, WriteSome.accepted.injEq] at hnext
    rw [hk, Finset.sum_range_zero]
    omega
  · rw [if_neg hk] at hnext
    cases hnext

end Session

end SimpleDgps
