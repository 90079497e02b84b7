import SimpleDgps.Session.Moves
import SimpleDgps.Session.Ubx

/-!
# The Bytes on the Wire

What the serial port accepted over a whole run.

The receiver expects the configuration frame and then poll frames. A write that
fails stops the io object, so a poll frame that breaks off in the timer's
handler is the last thing on the wire. In `start` it is not. Neither
`configureUbxOutput` nor `sendPosPoll` reports a failure to its caller, so
after a configuration frame that broke off the poll frame is written all the
same, and `start` returns true.

`Whole` describes the states of the runs in which that does not happen, and
`Cut` the others from the failure on. Every run ends in one of the two,
according to whether a `write_some` inside a `start` failed
(`run_whole_or_cut`), and that is the exact condition for the wire to carry
whole frames: `whole_frames_iff`.

## Main definitions

* `wire`: The bytes the port accepted.
* `polls`: A number of poll frames.
* `WholeFrames`: The wire carries whole frames, and `start` tells the truth.
* `Event.cleanStart`: No `write_some` of a `start` fails.
* `Whole`, `Cut`: The states with and without such a failure.

## Theorems

* `sends_wire`: What sending a buffer adds to the wire.
* `whole_step`, `whole_cut`, `cut_step`: How an event leads from state to state.
* `run_whole_or_cut`: Where a run ends.
* `whole_frames_iff`: When the wire carries whole frames.
-/

namespace SimpleDgps

open Toolkit Transition

/-- The bytes the port accepted in a call. -/
def PortEvent.bytes : PortEvent → List UInt8
  | .accepted bytes => bytes
  | .failed _ => []

namespace Session

variable {μ : Type} (F : Frame μ)

/-- The bytes the port accepted so far. -/
def wire (s : Session μ) : List UInt8 := s.portLog.flatMap PortEvent.bytes

/-- A number of poll frames. -/
def polls (k : Nat) : List UInt8 := (List.replicate k (F.bytes .navPosllhPoll)).flatten

/-- The wire carries the configuration frame and then poll frames, nothing
    follows a failed call, and `start` has returned true only after its own two
    frames were written. -/
structure WholeFrames (s : Session μ) : Prop where
  prefixed : ∃ k, wire s <+: F.bytes cfgPrtUsb ++ polls F k
  silent : ∀ before message after, s.portLog = before ++ .failed message :: after →
    after.flatMap PortEvent.bytes = []
  started : .returned true ∈ s.returned →
    F.bytes cfgPrtUsb ++ F.bytes .navPosllhPoll <+: wire s

/-- No `write_some` of a `start` fails. -/
def Event.cleanStart : Event → Prop
  | .start env => ∀ message, .error message ∉ env.outcomes
  | _ => True

theorem polls_succ (k : Nat) : polls F (k + 1) = polls F k ++ F.bytes .navPosllhPoll := by
  unfold polls
  rw [List.replicate_succ', List.flatten_append, List.flatten_singleton]

/-- The states of a session none of whose starts failed to write. -/
inductive Whole (s : Session μ) : Prop
  | silent (hlog : s.portLog = []) (hwaits : s.waits = []) (hreturned : .returned true ∉ s.returned)
  | writing (k : Nat) (pieces : List (List UInt8)) (hopen : s.portOpen = true)
      (hlog : s.portLog = pieces.map PortEvent.accepted)
      (hbytes : pieces.flatten = F.bytes cfgPrtUsb ++ polls F (k + 1))
  | broken (k : Nat) (pieces : List (List UInt8)) (part : List UInt8) (message : String)
      (hopen : s.portOpen = true) (hstopped : s.stopped = true)
      (hlog : s.portLog = pieces.map PortEvent.accepted ++ [.failed message])
      (hbytes : pieces.flatten = F.bytes cfgPrtUsb ++ polls F (k + 1) ++ part)
      (hpart : part <+: F.bytes .navPosllhPoll)

/-- The states of a session after a start failed to write. -/
structure Cut (s : Session μ) : Prop where
  portOpen : s.portOpen = true
  stopped : s.stopped = true
  returned : .returned true ∈ s.returned
  short : (wire s).length < (F.bytes cfgPrtUsb).length + (F.bytes .navPosllhPoll).length

/-! ### Sending a buffer -/

theorem bytes_accepted (pieces : List (List UInt8)) :
    (pieces.map PortEvent.accepted).flatMap PortEvent.bytes = pieces.flatten := by
  rw [List.flatMap_map]
  exact List.flatMap_id'

theorem wire_accept (s : Session μ) (pieces : List (List UInt8)) :
    wire (accept s pieces) = wire s ++ pieces.flatten := by
  unfold wire accept
  rw [List.flatMap_append, bytes_accepted]

theorem wire_breakOff (s : Session μ) (message : String) :
    wire (breakOff s message) = wire s := by
  unfold wire breakOff
  rw [List.flatMap_append]
  exact List.append_nil _

/-- What sending a buffer adds to the wire, and that a failure leaves it short
    and the io object stopped. -/
theorem sends_wire (s t : Session μ) (buf : List UInt8) (outcomes rest : List WriteSome)
    (h : Sends s buf outcomes rest t) :
    ∃ sent, wire t = wire s ++ sent ∧ sent.length ≤ buf.length ∧
      (s.stopped = true → t.stopped = true) ∧
      ∀ message, .error message ∈ outcomes → .error message ∉ rest →
        sent.length < buf.length ∧ t.stopped = true := by
  cases h with
  | whole pieces used hused hlength hbytes hok =>
      refine ⟨buf, ?_, Nat.le_refl _, fun hstopped => hstopped, fun message hmem hrest => ?_⟩
      · rw [wire_accept, hbytes]
      · rw [hused] at hmem
        rcases List.mem_append.mp hmem with hmem' | hmem'
        · exact absurd hmem' (hok message)
        · exact absurd hmem' hrest
  | broken pieces used message hused hlength hbytes hpart =>
      have hshort : pieces.flatten.length < buf.length :=
        Nat.lt_of_le_of_ne hbytes.length_le (fun heq => hpart (hbytes.eq_of_length heq))
      refine ⟨pieces.flatten, ?_, Nat.le_of_lt hshort, fun _ => rfl, fun _ _ _ => ⟨hshort, rfl⟩⟩
      rw [wire_breakOff, wire_accept]

/-- Outcomes without an error send the whole buffer. -/
theorem sends_whole (s t : Session μ) (buf : List UInt8) (outcomes rest : List WriteSome)
    (h : Sends s buf outcomes rest t) (hok : ∀ message, .error message ∉ outcomes) :
    ∃ pieces : List (List UInt8), pieces.flatten = buf ∧ t = accept s pieces ∧
      ∀ message, .error message ∉ rest := by
  cases h with
  | whole pieces used hused hlength hbytes _ =>
      refine ⟨pieces, hbytes, rfl, fun message hmem => hok message ?_⟩
      rw [hused]
      exact List.mem_append.mpr (Or.inr hmem)
  | broken pieces used message hused hlength hbytes hpart =>
      refine absurd ?_ (hok message)
      rw [hused]
      exact List.mem_append.mpr (Or.inr (List.mem_cons_self ..))

/-! ### One event -/

/-- `Whole` is about the port, its record, the timer and what `start` returned. -/
theorem whole_congr (s t : Session μ) (hlog : t.portLog = s.portLog)
    (hopen : t.portOpen = s.portOpen) (hstopped : s.stopped = true → t.stopped = true)
    (hwaits : s.waits = [] → t.waits = [])
    (hreturned : .returned true ∈ t.returned → .returned true ∈ s.returned) (h : Whole F s) :
    Whole F t := by
  cases h with
  | silent hlog' hwaits' hreturned' =>
      exact Whole.silent (hlog.trans hlog') (hwaits hwaits')
        (fun hmem => hreturned' (hreturned hmem))
  | writing k pieces hopen' hlog' hbytes =>
      exact Whole.writing k pieces (hopen.trans hopen') (hlog.trans hlog') hbytes
  | broken k pieces part message hopen' hstopped' hlog' hbytes hpart =>
      exact Whole.broken k pieces part message (hopen.trans hopen') (hstopped hstopped')
        (hlog.trans hlog') hbytes hpart

/-- A closed port has accepted nothing. -/
theorem whole_closed (s : Session μ) (h : Whole F s) (hclosed : s.portOpen = false) :
    s.portLog = [] ∧ s.waits = [] ∧ .returned true ∉ s.returned := by
  cases h with
  | silent hlog hwaits hreturned => exact ⟨hlog, hwaits, hreturned⟩
  | writing k pieces hopen => rw [hopen] at hclosed; cases hclosed
  | broken k pieces part message hopen => rw [hopen] at hclosed; cases hclosed

theorem mem_append_other (l : List StartResult) (r : StartResult) (hr : r ≠ .returned true)
    (h : .returned true ∈ l ++ [r]) : .returned true ∈ l := by
  rcases List.mem_append.mp h with hmem | hmem
  · exact hmem
  · exact absurd (List.mem_singleton.mp hmem).symm hr

theorem whole_step (s : Session μ) (e : Event) (t : Session μ) (h : Whole F s)
    (hclean : e.cleanStart) (hstep : step F s e = some t) : Whole F t := by
  cases move_of_step F s t e hstep with
  | refused env hrefused =>
      exact whole_congr F s _ rfl rfl (fun hs => hs) (fun hw => hw)
        (mem_append_other _ _ (by decide)) h
  | threw env hclosed options message =>
      rcases whole_closed F s h hclosed with ⟨hlog, hwaits, hreturned⟩
      exact Whole.silent hlog hwaits (fun hmem =>
        hreturned
          (mem_append_other _ _ (by simp only [ne_eq, reduceCtorEq, not_false_eq_true]) hmem))
  | started env hclosed options outcomes u v hconfig hpoll =>
      -- Nothing was written before, and both frames go out whole.
      rcases whole_closed F s h hclosed with ⟨hlog, _, _⟩
      rcases sends_whole _ u _ _ _ hconfig hclean with ⟨config, hconfigBytes, hu, hclean'⟩
      rcases sends_whole u v _ _ _ hpoll hclean' with ⟨poll, hpollBytes, hv, _⟩
      refine Whole.writing 0 (config ++ poll) ?_ ?_ ?_
      · rw [hv, hu]
        rfl
      · rw [hv, hu]
        simp only [performRead, armTimer, accept, hlog, List.nil_append, List.map_append]
      · rw [List.flatten_append, hconfigBytes, hpollBytes, polls_succ]
        rfl
  | readCompleted i ec data hdata hop =>
      exact whole_congr F s _ rfl rfl (fun hs => hs) (fun hw => hw) (fun hmem => hmem) h
  | readHandled i hrunning ec bytesCount hop =>
      rcases readHandler_frame F { s with reads := s.reads.eraseIdx i } ec bytesCount
        with ⟨hlog, hopen, hwaits, hreturned⟩
      refine whole_congr F s _ hlog hopen (fun hs => ?_) (fun hw => hwaits.trans hw)
        (fun hmem => by rw [hreturned] at hmem; exact hmem) h
      rw [hrunning] at hs
      cases hs
  | waitCompleted i ec seconds hop =>
      refine whole_congr F s _ rfl rfl (fun hs => hs) (fun hw => ?_) (fun hmem => hmem) h
      simp only [hw, List.set_nil]
  | waitAborted i outcomes hrunning hop =>
      refine whole_congr F s _ rfl rfl (fun hs => hs) (fun hw => ?_) (fun hmem => hmem) h
      simp only [hw, List.eraseIdx_nil]
  | polled i outcomes hrunning ec hop u hpoll =>
      cases h with
      | silent hlog hwaits hreturned =>
          -- No wait was ever armed.
          rw [hwaits, List.getElem?_nil] at hop
          cases hop
      | broken k pieces part message hopen hstopped =>
          -- The io object is stopped, so no handler runs.
          rw [hrunning] at hstopped
          cases hstopped
      | writing k pieces hopen hlog hbytes =>
          cases hpoll with
          | whole pieces' used hused hlength hbytes' hok =>
              refine Whole.writing (k + 1) (pieces ++ pieces') hopen ?_ ?_
              · simp only [armTimer, accept, hlog, List.map_append]
              · rw [List.flatten_append, hbytes, hbytes', polls_succ F (k + 1), List.append_assoc]
          | broken pieces' used message hused hlength hbytes' hpart =>
              refine Whole.broken k (pieces ++ pieces') pieces'.flatten message hopen rfl ?_ ?_
                hbytes'
              · simp only [armTimer, breakOff, accept, hlog, List.map_append]
              · rw [List.flatten_append, hbytes]

/-- A start that fails to write arms everything and returns true all the same. -/
theorem whole_cut (s : Session μ) (e : Event) (t : Session μ) (h : Whole F s)
    (hdirty : ¬e.cleanStart) (hstep : step F s e = some t) : Cut F t := by
  cases e with
  | readCompletes i ec data => exact absurd trivial hdirty
  | readHandler i => exact absurd trivial hdirty
  | waitCompletes i ec => exact absurd trivial hdirty
  | waitHandler i outcomes => exact absurd trivial hdirty
  | start env =>
      simp only [Event.cleanStart, not_forall, not_not] at hdirty
      rcases hdirty with ⟨message, hmem⟩
      cases move_of_step F s t _ hstep with
      | refused _ hrefused houtcomes =>
          -- A start that writes nothing has no failed write.
          rw [houtcomes] at hmem
          cases hmem
      | threw _ hclosed options message' houtcomes =>
          rw [houtcomes] at hmem
          cases hmem
      | started _ hclosed options outcomes u v hconfig hpoll =>
          rcases whole_closed F s h hclosed with ⟨hlog, _, _⟩
          rcases sends_wire _ u _ _ _ hconfig with ⟨config, hu, hconfigLe, _, hconfigCut⟩
          rcases sends_wire u v _ _ _ hpoll with ⟨poll, hv, hpollLe, hstopped, hpollCut⟩
          have hwire : wire { performRead (armTimer v) with
              returned := v.returned ++ [.returned true] } = config ++ poll := by
            have hempty : wire { s with portOpen := true, options := options } = [] := by
              unfold wire
              rw [hlog, List.flatMap_nil]
            have hsame : wire { performRead (armTimer v) with
                returned := v.returned ++ [.returned true] } = wire v := rfl
            rw [hsame, hv, hu, hempty, List.nil_append]
          have hopen : v.portOpen = true := by rw [hpoll.frame, hconfig.frame]
          have hlast : StartResult.returned true ∈ v.returned ++ [.returned true] :=
            List.mem_append.mpr (Or.inr (List.mem_singleton.mpr rfl))
          -- The failed call was for the poll frame or for the configuration frame.
          by_cases hmid : .error message ∈ outcomes
          · rcases hpollCut message hmid List.not_mem_nil with ⟨hshort, hstop⟩
            refine ⟨hopen, hstop, hlast, ?_⟩
            rw [hwire, List.length_append]
            omega
          · rcases hconfigCut message hmem hmid with ⟨hshort, hstop⟩
            refine ⟨hopen, hstopped hstop, hlast, ?_⟩
            rw [hwire, List.length_append]
            omega

/-- After that the wire does not change any more. -/
theorem cut_step (s : Session μ) (e : Event) (t : Session μ) (h : Cut F s)
    (hstep : step F s e = some t) : Cut F t := by
  have hnot : s.stopped ≠ false := by rw [h.stopped]; decide
  have hopen : s.portOpen ≠ false := by rw [h.portOpen]; decide
  cases move_of_step F s t e hstep with
  | refused =>
      exact ⟨h.portOpen, h.stopped, List.mem_append.mpr (Or.inl h.returned), h.short⟩
  | threw env hclosed => exact absurd hclosed hopen
  | started env hclosed => exact absurd hclosed hopen
  | readCompleted => exact ⟨h.portOpen, h.stopped, h.returned, h.short⟩
  | readHandled i hrunning => exact absurd hrunning hnot
  | waitCompleted => exact ⟨h.portOpen, h.stopped, h.returned, h.short⟩
  | waitAborted i outcomes hrunning => exact absurd hrunning hnot
  | polled i outcomes hrunning => exact absurd hrunning hnot

/-! ### Runs -/

/-- A cut stays. -/
theorem run_cut (events : List Event) (s t : Session μ) (h : Cut F s)
    (hrun : run (step F) events s = some t) : Cut F t :=
  run_invariant (step F) (fun _ => True) (Cut F)
    (fun s e t hs _ hstep => cut_step F s e t hs hstep) events s t h (fun _ _ => trivial) hrun

/-- Where a run ends, according to whether a start failed to write. -/
theorem run_whole_or_cut (events : List Event) : ∀ s t : Session μ, Whole F s →
    run (step F) events s = some t →
    ((∀ e ∈ events, e.cleanStart) ∧ Whole F t) ∨ ((∃ e ∈ events, ¬e.cleanStart) ∧ Cut F t) := by
  induction events with
  | nil =>
      intro s t h hrun
      rw [run, Option.some.injEq] at hrun
      rw [← hrun]
      exact Or.inl ⟨fun _ hmem => absurd hmem List.not_mem_nil, h⟩
  | cons e rest ih =>
      intro s t h hrun
      rw [run, Option.bind_eq_some_iff] at hrun
      rcases hrun with ⟨u, hu, hrest⟩
      by_cases hclean : e.cleanStart
      · rcases ih u t (whole_step F s e u h hclean hu) hrest
          with ⟨hall, hwhole⟩ | ⟨⟨e', he', hdirty⟩, hcut⟩
        · exact Or.inl ⟨List.forall_mem_cons.mpr ⟨hclean, hall⟩, hwhole⟩
        · exact Or.inr ⟨⟨e', List.mem_cons_of_mem e he', hdirty⟩, hcut⟩
      · refine Or.inr ⟨⟨e, List.mem_cons_self .., hclean⟩, ?_⟩
        exact run_cut F rest u t (whole_cut F s e u h hclean hu) hrest

/-! ### Whole frames -/

theorem wire_pieces (s : Session μ) (pieces : List (List UInt8))
    (hlog : s.portLog = pieces.map PortEvent.accepted) : wire s = pieces.flatten := by
  rw [wire, hlog, bytes_accepted]

theorem failed_not_mem (pieces : List (List UInt8)) (message : String) :
    PortEvent.failed message ∉ pieces.map PortEvent.accepted := by
  intro hmem
  rcases List.mem_map.mp hmem with ⟨piece, _, heq⟩
  cases heq

/-- The last event of a record is the only one that can have failed. -/
theorem after_failed (pieces : List (List UInt8)) (message message' : String)
    (before after : List PortEvent)
    (h : pieces.map PortEvent.accepted ++ [.failed message]
      = before ++ .failed message' :: after) : after = [] := by
  by_contra hafter
  -- Without its last event the record would still hold the failure.
  have hlast := congrArg List.dropLast h
  rw [List.dropLast_concat, List.dropLast_append_of_ne_nil (List.cons_ne_nil _ _),
    List.dropLast_cons_of_ne_nil hafter] at hlast
  refine failed_not_mem pieces message' ?_
  rw [hlast]
  exact List.mem_append.mpr (Or.inr (List.mem_cons_self ..))

theorem poll_before_polls (k : Nat) : F.bytes .navPosllhPoll <+: polls F (k + 1) := by
  unfold polls
  rw [List.replicate_succ, List.flatten_cons]
  exact List.prefix_append _ _

/-- In the states without a failed start the wire carries whole frames. -/
theorem wholeFrames_of_whole (s : Session μ) (h : Whole F s) : WholeFrames F s := by
  cases h with
  | silent hlog hwaits hreturned =>
      have hwire : wire s = [] := by rw [wire, hlog, List.flatMap_nil]
      refine ⟨⟨0, by rw [hwire]; exact List.nil_prefix⟩, fun before message after heq => ?_,
        fun hmem => absurd hmem hreturned⟩
      rw [hlog] at heq
      exact absurd heq.symm (List.append_ne_nil_of_right_ne_nil _ (List.cons_ne_nil _ _))
  | writing k pieces hopen hlog hbytes =>
      have hwire : wire s = F.bytes cfgPrtUsb ++ polls F (k + 1) := by
        rw [wire_pieces s pieces hlog, hbytes]
      refine ⟨⟨k + 1, [], by rw [List.append_nil, hwire]⟩, fun before message after heq => ?_,
        fun _ => ?_⟩
      · refine absurd ?_ (failed_not_mem pieces message)
        rw [← hlog, heq]
        exact List.mem_append.mpr (Or.inr (List.mem_cons_self ..))
      · rw [hwire]
        exact (List.prefix_append_right_inj _).mpr (poll_before_polls F k)
  | broken k pieces part message hopen hstopped hlog hbytes hpart =>
      have hwire : wire s = F.bytes cfgPrtUsb ++ (polls F (k + 1) ++ part) := by
        have hfailed : [PortEvent.failed message].flatMap PortEvent.bytes = [] := rfl
        rw [wire, hlog, List.flatMap_append, bytes_accepted, hfailed, List.append_nil, hbytes,
          List.append_assoc]
      refine ⟨⟨k + 2, ?_⟩, fun before message' after heq => ?_, fun _ => ?_⟩
      · -- The part of the last frame goes on to a whole one.
        rw [hwire, polls_succ F (k + 1)]
        exact (List.prefix_append_right_inj _).mpr ((List.prefix_append_right_inj _).mpr hpart)
      · rw [hlog] at heq
        rw [after_failed pieces message message' before after heq, List.flatMap_nil]
      · rw [hwire]
        exact (List.prefix_append_right_inj _).mpr
          ((poll_before_polls F k).trans (List.prefix_append _ _))

/-- After a failed start it does not, the wire being too short for the frames
    that `start` claims to have written. -/
theorem not_wholeFrames_of_cut (s : Session μ) (h : Cut F s) : ¬WholeFrames F s := by
  intro hwhole
  have hle := (hwhole.started h.returned).length_le
  have hshort := h.short
  rw [List.length_append] at hle
  omega

/-- The wire carries whole frames exactly if no `write_some` of a `start`
    failed. -/
theorem whole_frames_iff (device : String) (inputBuf : InputBuf) (events : List Event)
    (t : Session μ) (hrun : run (step F) events (initial device inputBuf) = some t) :
    WholeFrames F t ↔ ∀ e ∈ events, e.cleanStart := by
  have hinitial : Whole F (initial device inputBuf) := Whole.silent rfl rfl List.not_mem_nil
  rcases run_whole_or_cut F events _ t hinitial hrun with ⟨hclean, hwhole⟩ | ⟨⟨e, he, hdirty⟩, hcut⟩
  · exact iff_of_true (wholeFrames_of_whole F t hwhole) hclean
  · exact iff_of_false (not_wholeFrames_of_cut F t hcut) (fun hclean => hdirty (hclean e he))

/-- The first write of the configuration frame fails, the poll frame is
    accepted, and `start` returns true. -/
theorem start_skips_configuration :
    ∃ t, run (step ubxFrame) [.start (openingWith [.error "Input/output error", .accepted 8])]
        freshSession = some t ∧
      wire t = ubxFrame.bytes .navPosllhPoll ∧
      (∀ k, ¬wire t <+: ubxFrame.bytes cfgPrtUsb ++ polls ubxFrame k) ∧
      t.returned = [.returned true] := by
  have hview : (run (step ubxFrame)
      [.start (openingWith [.error "Input/output error", .accepted 8])] freshSession).map
        (fun t => (wire t, t.returned))
      = some (ubxFrame.bytes .navPosllhPoll, [.returned true]) := by decide +kernel
  rcases Option.map_eq_some_iff.mp hview with ⟨t, hrun, heq⟩
  rw [Prod.mk.injEq] at heq
  refine ⟨t, hrun, heq.1, fun k hprefix => ?_, heq.2⟩
  -- The two frames differ in their third byte already.
  have hshort : wire t <+: ubxFrame.bytes cfgPrtUsb := by
    refine List.prefix_of_prefix_length_le hprefix (List.prefix_append _ _) ?_
    rw [heq.1]
    decide +kernel
  rw [heq.1] at hshort
  exact absurd hshort (by decide +kernel)

theorem whole_frames_iff_example :
    ∃ t, run (step ubxFrame) [.start (openingWith [.accepted 20, .accepted 8, .accepted 8]),
        .waitCompletes 0 .success, .waitHandler 0 [.accepted 3, .error "Input/output error"]]
        freshSession = some t ∧ WholeFrames ubxFrame t := by
  have hsome : (run (step ubxFrame) [.start (openingWith [.accepted 20, .accepted 8, .accepted 8]),
      .waitCompletes 0 .success, .waitHandler 0 [.accepted 3, .error "Input/output error"]]
      freshSession).isSome := by decide +kernel
  rcases Option.isSome_iff_exists.mp hsome with ⟨t, hrun⟩
  refine ⟨t, hrun, (whole_frames_iff ubxFrame _ _ _ t hrun).mpr ?_⟩
  refine List.forall_mem_cons.mpr ⟨fun message hmem => ?_, ?_⟩
  · simp only [openingWith, List.mem_cons, reduceCtorEq, List.not_mem_nil, or_self] at hmem
  · exact List.forall_mem_cons.mpr ⟨trivial, List.forall_mem_singleton.mpr trivial⟩

end Session

end SimpleDgps
