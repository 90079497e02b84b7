import SimpleDgps.Session.Moves
import SimpleDgps.Session.Ubx

/-!
# The Received Stream

The session as a receiver of a byte stream.

A read hands over some of the stream's next bytes, and where it stops is up to
the port. The handler appends the bytes, takes off what the framing recognises,
and arms the next read. On the two fields that matter, the leftover and the
messages dispatched so far, this is the receiver of `Toolkit.Framing` being fed
one more piece (`receive_feed`), so the library's theorem about pieces applies:
the messages and the leftover are those of the whole stream, processed at once.

## Main definitions

* `receive`: The events of one successful read.
* `afterRead`: The session after them.
* `Streaming`: The stream's invariant.

## Theorems

* `run_receive`: A successful read can always happen, and leads there.
* `receive_feed`: It feeds the leftover.
* `run_receive_all`: Any number of successful reads.
* `receive_independent`: How the stream is cut does not matter.
* `streaming_step`: Every event preserves the stream's invariant.
* `run_streaming`: It holds in every reachable state.
-/

namespace SimpleDgps

open Toolkit Transition

namespace Session

variable {μ : Type} (F : Frame μ)

/-- The events of one successful read. -/
def receive (data : List UInt8) : List Event :=
  [.readCompletes 0 .success data, .readHandler 0]

/-- The session after a successful read. -/
def afterRead (s : Session μ) (data : List UInt8) (h : data.length ≤ inputBufSize) : Session μ :=
  performRead (processInputData F { s with
    reads := []
    inputBuf := s.inputBuf.fill data h
    delivered := s.delivered ++ data
    inData := s.inData ++ data
    received := s.received ++ data })

/-- A successful read can always happen while one is armed. -/
theorem run_receive (s : Session μ) (hreads : s.reads = [.waiting]) (hrunning : s.stopped = false)
    (data : List UInt8) (h : data.length ≤ inputBufSize) :
    run (step F) (receive data) s = some (afterRead F s data h) := by
  have hcompletes : step F s (.readCompletes 0 .success data) = some { s with
      reads := [.completed .success data.length]
      inputBuf := s.inputBuf.fill data h
      delivered := s.delivered ++ data } := by
    simp only [step, dif_pos h, hreads, List.getElem?_cons_zero, List.set_cons_zero, if_true]
  have hnot : ¬s.stopped = true := by rw [hrunning]; exact Bool.false_ne_true
  rw [receive, run_cons _ _ _ s _ hcompletes]
  -- The handler finds the data at the front of the input buffer.
  simp only [run, step, if_neg hnot, List.getElem?_cons_zero, readHandler, InputBuf.fill_take,
    Option.bind_some]
  rfl

/-- A successful read feeds the leftover. -/
theorem receive_feed (s : Session μ) (data : List UInt8) (h : data.length ≤ inputBufSize) :
    ((afterRead F s data h).inData, (afterRead F s data h).dispatched)
      = Framing.feed F.input (s.inData, s.dispatched) data := by
  unfold afterRead
  rw [processInputData_eq]
  rfl

/-- What was taken and what is left is what was there, with the data behind it. -/
theorem receive_conserves (s : Session μ) (data : List UInt8) (h : data.length ≤ inputBufSize) :
    (afterRead F s data h).consumed ++ (afterRead F s data h).inData
      = s.consumed ++ s.inData ++ data := by
  have hsplit := Framing.take_consumed F.input (s.inData ++ data)
  unfold afterRead
  rw [processInputData_eq]
  simp only [performRead]
  rw [List.append_assoc, hsplit, List.append_assoc]

/-- Any number of successful reads. -/
theorem run_receive_all (chunks : List (List UInt8)) : ∀ s : Session μ,
    s.reads = [.waiting] → s.stopped = false → (∀ c ∈ chunks, c.length ≤ inputBufSize) →
    ∃ t, run (step F) (chunks.flatMap receive) s = some t ∧
      (t.inData, t.dispatched) = chunks.foldl (Framing.feed F.input) (s.inData, s.dispatched) ∧
      t.consumed ++ t.inData = s.consumed ++ s.inData ++ chunks.flatten := by
  induction chunks with
  | nil =>
      intro s _ _ _
      exact ⟨s, rfl, rfl, by rw [List.flatten_nil, List.append_nil]⟩
  | cons c chunks ih =>
      intro s hreads hrunning hlength
      have hc : c.length ≤ inputBufSize := hlength c (List.mem_cons_self ..)
      -- The handler arms the next read, so the remaining ones can happen too.
      have hreads' : (afterRead F s c hc).reads = [.waiting] := by
        unfold afterRead
        rw [processInputData_eq]
        rfl
      have hrunning' : (afterRead F s c hc).stopped = false := by
        unfold afterRead
        rw [processInputData_eq]
        exact hrunning
      rcases ih (afterRead F s c hc) hreads' hrunning'
        (fun c' hc' => hlength c' (List.mem_cons_of_mem c hc')) with ⟨t, hrun, hfeed, hbytes⟩
      refine ⟨t, ?_, ?_, ?_⟩
      · rw [List.flatMap_cons, run_append, run_receive F s hreads hrunning c hc, Option.bind_some]
        exact hrun
      · rw [hfeed, receive_feed, List.foldl_cons]
      · rw [hbytes, receive_conserves, List.flatten_cons, List.append_assoc]

/-- How the stream is cut into reads does not matter, and no byte is lost or
    repeated at any of the cuts. -/
theorem receive_independent (s : Session μ) (hreads : s.reads = [.waiting])
    (hrunning : s.stopped = false) (hempty : s.inData = []) (chunks : List (List UInt8))
    (hchunks : ∀ c ∈ chunks, 1 ≤ c.length ∧ c.length ≤ inputBufSize) :
    (∃ t, run (step F) (chunks.flatMap receive) s = some t ∧
      t.dispatched = (processInputData F { s with inData := chunks.flatten }).dispatched ∧
      t.inData = (processInputData F { s with inData := chunks.flatten }).inData) ∧
    ∀ k, ∃ u, run (step F) ((chunks.take k).flatMap receive) s = some u ∧
      u.consumed ++ u.inData = s.consumed ++ (chunks.take k).flatten := by
  constructor
  · rcases run_receive_all F chunks s hreads hrunning (fun c hc => (hchunks c hc).2)
      with ⟨t, hrun, hfeed, _⟩
    have hstep := Framing.step_nil F.input
    have hrest : s.inData = Framing.rest F.input [] := by
      rw [hempty, Framing.rest_none F.input [] hstep]
    -- An empty input is the leftover of an empty stream.
    rw [hrest, Framing.foldl_feed, Framing.rest_none F.input [] hstep, List.nil_append,
      Prod.mk.injEq] at hfeed
    rw [processInputData_eq]
    exact ⟨t, hrun, hfeed.2, hfeed.1⟩
  · intro k
    rcases run_receive_all F (chunks.take k) s hreads hrunning
      (fun c hc => (hchunks c (List.mem_of_mem_take hc)).2) with ⟨u, hrun, _, hbytes⟩
    rw [hempty, List.append_nil] at hbytes
    exact ⟨u, hrun, hbytes⟩

/-- Two frames in three reads, the first and the last cut inside a frame. -/
theorem receive_independent_example :
    let frame := encode 0x01 0x02 (List.replicate 28 7)
    let chunks := [frame.take 10, frame.drop 10 ++ frame.take 3, frame.drop 3]
    ∃ t, run (step ubxFrame) (chunks.flatMap receive) (performRead freshSession) = some t ∧
      t.dispatched = [List.replicate 28 7, List.replicate 28 7] ∧ t.inData = [] := by
  intro frame chunks
  rcases (receive_independent ubxFrame (performRead freshSession) rfl rfl rfl chunks
    (by decide +kernel)).1 with ⟨t, hrun, hdispatched, hinData⟩
  refine ⟨t, hrun, ?_, ?_⟩
  · rw [hdispatched]
    decide +kernel
  · rw [hinData]
    decide +kernel

/-! ### The stream in every reachable state -/

/-- The session has dispatched and kept what the bytes it received amount to,
    and every byte it received was either taken or kept. -/
structure Streaming (s : Session μ) : Prop where
  dispatched : s.dispatched = Framing.messages F.input s.received
  inData : s.inData = Framing.rest F.input s.received
  conserved : s.consumed ++ s.inData = s.received

theorem streaming_initial (device : String) (inputBuf : InputBuf) :
    Streaming F (initial device inputBuf) := by
  have hstep := Framing.step_nil F.input
  exact ⟨(Framing.messages_none F.input [] hstep).symm, (Framing.rest_none F.input [] hstep).symm,
    rfl⟩

/-- The invariant is about four fields. -/
theorem streaming_congr (s t : Session μ) (hdispatched : t.dispatched = s.dispatched)
    (hinData : t.inData = s.inData) (hconsumed : t.consumed = s.consumed)
    (hreceived : t.received = s.received) (h : Streaming F s) : Streaming F t :=
  ⟨by rw [hdispatched, hreceived, h.dispatched], by rw [hinData, hreceived, h.inData],
    by rw [hconsumed, hinData, hreceived, h.conserved]⟩

/-- Appending data and processing the input keeps the invariant. -/
theorem streaming_processInputData (s : Session μ) (data : List UInt8) (h : Streaming F s) :
    Streaming F (processInputData F
      { s with inData := s.inData ++ data, received := s.received ++ data }) := by
  rw [processInputData_eq]
  refine ⟨?_, ?_, ?_⟩ <;> simp only
  · rw [Framing.messages_append F.input s.received data, h.dispatched, h.inData]
  · rw [Framing.rest_append F.input s.received data, h.inData]
  · rw [List.append_assoc, Framing.take_consumed, ← List.append_assoc, h.conserved]

theorem streaming_step (s : Session μ) (e : Event) (t : Session μ) (h : Streaming F s)
    (hstep : step F s e = some t) : Streaming F t := by
  cases move_of_step F s t e hstep with
  | refused => exact streaming_congr F s _ rfl rfl rfl rfl h
  | threw => exact streaming_congr F s _ rfl rfl rfl rfl h
  | started env hclosed options outcomes u v hconfig hpoll =>
      rw [hpoll.frame, hconfig.frame]
      exact streaming_congr F s _ rfl rfl rfl rfl h
  | readCompleted => exact streaming_congr F s _ rfl rfl rfl rfl h
  | readHandled i hrunning ec bytesCount hop =>
      cases ec with
      | operationAborted => exact streaming_congr F s _ rfl rfl rfl rfl h
      | failure message => exact streaming_congr F s _ rfl rfl rfl rfl h
      | success =>
          have hprocessed := streaming_processInputData F { s with reads := s.reads.eraseIdx i }
            (s.inputBuf.bytes.take bytesCount) (streaming_congr F s _ rfl rfl rfl rfl h)
          refine streaming_congr F _ _ ?_ ?_ ?_ ?_ hprocessed <;> rfl
  | waitCompleted => exact streaming_congr F s _ rfl rfl rfl rfl h
  | waitAborted => exact streaming_congr F s _ rfl rfl rfl rfl h
  | polled i outcomes hrunning ec hop u hpoll =>
      rw [hpoll.frame]
      exact streaming_congr F s _ rfl rfl rfl rfl h

/-- In every state a session reaches, the messages dispatched and the leftover
    are those of the received bytes processed at once. -/
theorem run_streaming (device : String) (inputBuf : InputBuf) (events : List Event)
    (t : Session μ) (hrun : run (step F) events (initial device inputBuf) = some t) :
    Streaming F t :=
  run_invariant (step F) (fun _ => True) (Streaming F)
    (fun s e t hs _ hstep => streaming_step F s e t hs hstep) events _ t
    (streaming_initial F device inputBuf) (fun _ _ => trivial) hrun

end Session

end SimpleDgps
