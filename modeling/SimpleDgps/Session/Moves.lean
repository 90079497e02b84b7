import SimpleDgps.Session.Model

/-!
# What an Event Can Do

The step function once more, as a relation with one case for each way an event
can go.

The invariants of a session are about its fields, and most of what the step
function computes on the way is of no interest to them. `Move` names the cases,
with the conditions under which each arises and the state it leads to, and
`move_of_step` is the only place where the step function is taken apart.

Writing gets the same treatment. `Sends` says what became of a buffer: the port
accepted all of it in pieces, or it accepted pieces of a proper prefix before a
call failed. `writeLoop_sends` is the induction over the loop.

## Main definitions

* `accept`, `breakOff`: The session after the port accepted pieces, and after a
  call of `write_some` failed.
* `Sends`: What became of a buffer that was written.
* `Move`: What became of an event.

## Theorems

* `processInputData_eq`: What processing the input changes.
* `readHandler_frame`: What a read's handler leaves alone.
* `writeLoop_sends`: The write loop sends its buffer.
* `Sends.frame`: Writing leaves most of the session alone.
* `sendMessage_sends`, `sendPosPoll_sends`: So do the functions over it.
* `move_of_step`: Every step is a move.
-/

namespace SimpleDgps

open Toolkit

namespace Session

variable {μ : Type} (F : Frame μ)

/-! ### Processing the input -/

/-- What processing the input changes; an empty input has nothing to take. -/
theorem processInputData_eq (s : Session μ) : processInputData F s
    = { s with
        dispatched := s.dispatched ++ Framing.messages F.input s.inData
        inData := Framing.rest F.input s.inData
        consumed := s.consumed ++ s.inData.take (Framing.consumed F.input s.inData) } := by
  unfold processInputData
  by_cases hempty : s.inData.isEmpty = true
  · have hnil : s.inData = [] := List.isEmpty_iff.mp hempty
    have hstep := Framing.step_nil F.input
    rw [if_pos hempty, hnil, Framing.messages_none F.input [] hstep,
      Framing.rest_none F.input [] hstep, List.take_nil, List.append_nil, List.append_nil, ← hnil]
  · rw [if_neg hempty]
    rfl

/-- The read's handler does not touch the port or the timer. -/
theorem readHandler_frame (s : Session μ) (ec : ErrorCode) (bytesCount : Nat) :
    (readHandler F s ec bytesCount).portLog = s.portLog ∧
      (readHandler F s ec bytesCount).portOpen = s.portOpen ∧
      (readHandler F s ec bytesCount).waits = s.waits ∧
      (readHandler F s ec bytesCount).returned = s.returned := by
  cases ec with
  | operationAborted => exact ⟨rfl, rfl, rfl, rfl⟩
  | failure message => exact ⟨rfl, rfl, rfl, rfl⟩
  | success =>
      unfold readHandler
      simp only
      rw [processInputData_eq]
      exact ⟨rfl, rfl, rfl, rfl⟩

/-! ### Writing a buffer -/

/-- The session after the port accepted the pieces one by one. -/
def accept (s : Session μ) (pieces : List (List UInt8)) : Session μ :=
  { s with portLog := s.portLog ++ pieces.map PortEvent.accepted }

/-- The session after a call of `write_some` failed. -/
def breakOff (s : Session μ) (message : String) : Session μ :=
  { s with
    portLog := s.portLog ++ [.failed message]
    cerr := s.cerr ++ ["ERROR: write failed with message: " ++ message]
    stopped := true }

/-- What became of a buffer that was written, and of the outcomes that were
    there for it. -/
inductive Sends (s : Session μ) (buf : List UInt8) (outcomes rest : List WriteSome) :
    Session μ → Prop
  | whole (pieces : List (List UInt8)) (used : List WriteSome) (hused : outcomes = used ++ rest)
      (hlength : used.length ≤ buf.length) (hbytes : pieces.flatten = buf)
      (hok : ∀ message, WriteSome.error message ∉ used) :
      Sends s buf outcomes rest (accept s pieces)
  | broken (pieces : List (List UInt8)) (used : List WriteSome) (message : String)
      (hused : outcomes = used ++ .error message :: rest) (hlength : used.length < buf.length)
      (hbytes : pieces.flatten <+: buf) (hpart : pieces.flatten ≠ buf) :
      Sends s buf outcomes rest (breakOff (accept s pieces) message)

theorem accept_nil (s : Session μ) : accept s [] = s := by
  simp only [accept, List.map_nil, List.append_nil]

theorem accept_cons (s : Session μ) (piece : List UInt8) (pieces : List (List UInt8)) :
    accept { s with portLog := s.portLog ++ [.accepted piece] } pieces
      = accept s (piece :: pieces) := by
  simp only [accept, List.map_cons, List.append_assoc, List.singleton_append]

/-- An empty buffer is sent without a call. -/
theorem sends_nil (s : Session μ) (outcomes : List WriteSome) :
    Sends s [] outcomes outcomes s := by
  have hwhole : Sends s [] outcomes outcomes (accept s []) :=
    Sends.whole [] [] (List.nil_append outcomes).symm (Nat.le_refl 0) rfl
      (fun _ hmem => absurd hmem List.not_mem_nil)
  rwa [accept_nil] at hwhole

/-- A buffer is sent by one call that accepts a piece of it and by sending the
    remainder. -/
theorem sends_cons (s : Session μ) (buf : List UInt8) (outcomes rest : List WriteSome)
    (count : Nat) (hcount : 1 ≤ count ∧ count ≤ buf.length) (t : Session μ)
    (h : Sends { s with portLog := s.portLog ++ [.accepted (buf.take count)] } (buf.drop count)
      outcomes rest t) : Sends s buf (.accepted count :: outcomes) rest t := by
  have hdrop : (buf.drop count).length = buf.length - count := List.length_drop
  -- In both cases the accepted piece goes in front of the pieces of the remainder.
  cases h with
  | whole pieces used hused hlength hbytes hok =>
      rw [accept_cons]
      refine Sends.whole (buf.take count :: pieces) (.accepted count :: used)
        (by rw [hused, List.cons_append]) ?_ ?_ (fun message hmem => ?_)
      · rw [List.length_cons]
        omega
      · rw [List.flatten_cons, hbytes, List.take_append_drop]
      · rcases List.mem_cons.mp hmem with heq | hmem'
        · cases heq
        · exact hok message hmem'
  | broken pieces used message hused hlength hbytes hpart =>
      rw [accept_cons]
      refine Sends.broken (buf.take count :: pieces) (.accepted count :: used) message
        (by rw [hused, List.cons_append]) ?_ ?_ (fun heq => hpart ?_)
      · rw [List.length_cons]
        omega
      · rw [List.flatten_cons]
        conv_rhs => rw [← List.take_append_drop count buf]
        exact (List.prefix_append_right_inj _).mpr hbytes
      · have hwhole : buf.take count ++ pieces.flatten = buf.take count ++ buf.drop count := by
          rw [List.take_append_drop, ← List.flatten_cons, heq]
        exact List.append_cancel_left hwhole

/-- The write loop sends its buffer. -/
theorem writeLoop_sends : ∀ (outcomes : List WriteSome) (s : Session μ) (buf : List UInt8)
    (t : Session μ) (rest : List WriteSome), writeLoop s buf outcomes = some (t, rest) →
    Sends s buf outcomes rest t := by
  intro outcomes
  induction outcomes with
  | nil =>
      intro s buf t rest h
      rw [writeLoop, Option.ite_none_right_eq_some, Option.some.injEq, Prod.mk.injEq] at h
      rcases h with ⟨hempty, hs, hrest⟩
      rw [← hs, ← hrest, List.isEmpty_iff.mp hempty]
      exact sends_nil s []
  | cons outcome outcomes ih =>
      intro s buf t rest h
      by_cases hempty : buf.isEmpty = true
      · -- The loop is over and the remaining outcomes are for later calls.
        unfold writeLoop at h
        rw [if_pos hempty, Option.some.injEq, Prod.mk.injEq] at h
        rw [← h.1, ← h.2, List.isEmpty_iff.mp hempty]
        exact sends_nil s (outcome :: outcomes)
      · have hpos : 0 < buf.length := List.length_pos_iff.mpr (fun hnil =>
          hempty (List.isEmpty_iff.mpr hnil))
        unfold writeLoop at h
        rw [if_neg hempty] at h
        cases outcome with
        | error message =>
            simp only [Option.some.injEq, Prod.mk.injEq] at h
            rw [← h.1, ← h.2]
            have hbroken : Sends s buf (.error message :: outcomes) outcomes
                (breakOff (accept s []) message) :=
              Sends.broken [] [] message rfl hpos List.nil_prefix
                (fun hnil => hempty (List.isEmpty_iff.mpr hnil.symm))
            rwa [accept_nil] at hbroken
        | accepted count =>
            simp only [Option.ite_none_right_eq_some] at h
            exact sends_cons s buf outcomes rest count h.1 t (ih _ _ t rest h.2)

/-- Writing changes the record of the port, what was printed, and the stop
    flag. -/
theorem Sends.frame (s t : Session μ) (buf : List UInt8) (outcomes rest : List WriteSome)
    (h : Sends s buf outcomes rest t) :
    t = { s with portLog := t.portLog, cerr := t.cerr, stopped := t.stopped } := by
  cases h with
  | whole => rfl
  | broken => rfl

/-! ### The functions over the loop -/

theorem sendMessage_eq (s : Session μ) (msg : OutMessage) (outcomes : List WriteSome) :
    sendMessage F s msg outcomes = writeLoop s (F.bytes msg) outcomes := by
  unfold sendMessage Frame.bytes
  simp only [F.succeeds msg, if_true]

theorem sendMessage_sends (s t : Session μ) (msg : OutMessage) (outcomes rest : List WriteSome)
    (h : sendMessage F s msg outcomes = some (t, rest)) :
    Sends s (F.bytes msg) outcomes rest t := by
  rw [sendMessage_eq] at h
  exact writeLoop_sends outcomes s (F.bytes msg) t rest h

/-- The session after its timer was armed. -/
def armTimer (s : Session μ) : Session μ :=
  { s with waits := s.waits.map WaitOp.cancel ++ [.waiting 1] }

/-- The timer is armed whatever became of the poll frame. -/
theorem sendPosPoll_sends (s t : Session μ) (outcomes rest : List WriteSome)
    (h : sendPosPoll F s outcomes = some (t, rest)) :
    ∃ u, Sends s (F.bytes .navPosllhPoll) outcomes rest u ∧ t = armTimer u := by
  unfold sendPosPoll at h
  rw [Option.bind_eq_bind, Option.bind_eq_some_iff] at h
  rcases h with ⟨⟨u, rest'⟩, hsend, heq⟩
  simp only [Option.some.injEq, Prod.mk.injEq] at heq
  rw [heq.2] at hsend
  exact ⟨u, sendMessage_sends F s u _ _ _ hsend, heq.1.symm⟩

/-- The message that configures the port: the receiver's own protocol in both
    directions, and no text protocol. -/
def cfgPrtUsb : OutMessage :=
  .cfgPrtUsb { ubx := true, nmea := false } { ubx := true, nmea := false }

theorem setOptions_eq (setOption : SerialOption → Option String) :
    ∀ (l : List SerialOption) (s : Session μ), ∃ options,
      (setOptions setOption l s).1 = { s with options := options } := by
  intro l
  induction l with
  | nil => intro s; exact ⟨s.options, rfl⟩
  | cons option rest ih =>
      intro s
      unfold setOptions
      cases setOption option with
      | some message => exact ⟨s.options, rfl⟩
      | none => exact ih { s with options := s.options ++ [option] }

/-! ### The moves -/

/-- What became of an event. -/
inductive Move (s : Session μ) : Event → Session μ → Prop
  | refused (env : StartEnv) (hopen : s.portOpen ∨ env.opened ≠ .success)
      (houtcomes : env.outcomes = []) :
      Move s (.start env) { s with
        cerr := s.cerr ++ ["ERROR: Failed to open " ++ s.device]
        returned := s.returned ++ [.returned false] }
  | threw (env : StartEnv) (hclosed : s.portOpen = false) (options : List SerialOption)
      (message : String) (houtcomes : env.outcomes = []) :
      Move s (.start env) { s with
        portOpen := true, options := options, returned := s.returned ++ [.threw message] }
  | started (env : StartEnv) (hclosed : s.portOpen = false) (options : List SerialOption)
      (outcomes : List WriteSome) (u v : Session μ)
      (hconfig : Sends { s with portOpen := true, options := options } (F.bytes cfgPrtUsb)
        env.outcomes outcomes u)
      (hpoll : Sends u (F.bytes .navPosllhPoll) outcomes [] v) :
      Move s (.start env)
        { performRead (armTimer v) with returned := v.returned ++ [.returned true] }
  | readCompleted (i : Nat) (ec : ErrorCode) (data : List UInt8)
      (hdata : data.length ≤ inputBufSize) (hop : s.reads[i]? = some .waiting) :
      Move s (.readCompletes i ec data) { s with
        reads := s.reads.set i (.completed ec data.length)
        inputBuf := s.inputBuf.fill data hdata
        delivered := if ec = .success then s.delivered ++ data else s.delivered }
  | readHandled (i : Nat) (hrunning : s.stopped = false) (ec : ErrorCode) (bytesCount : Nat)
      (hop : s.reads[i]? = some (.completed ec bytesCount)) :
      Move s (.readHandler i)
        (readHandler F { s with reads := s.reads.eraseIdx i } ec bytesCount)
  | waitCompleted (i : Nat) (ec : ErrorCode) (seconds : Nat)
      (hop : s.waits[i]? = some (.waiting seconds)) :
      Move s (.waitCompletes i ec) { s with waits := s.waits.set i (.completed ec) }
  | waitAborted (i : Nat) (outcomes : List WriteSome) (hrunning : s.stopped = false)
      (hop : s.waits[i]? = some (.completed .operationAborted)) :
      Move s (.waitHandler i outcomes) { s with waits := s.waits.eraseIdx i }
  | polled (i : Nat) (outcomes : List WriteSome) (hrunning : s.stopped = false) (ec : ErrorCode)
      (hop : s.waits[i]? = some (.completed ec)) (u : Session μ)
      (hpoll : Sends { s with waits := s.waits.eraseIdx i } (F.bytes .navPosllhPoll)
        outcomes [] u) :
      Move s (.waitHandler i outcomes) (armTimer u)

theorem finish_eq_some (x : Option (Session μ × List WriteSome)) (t : Session μ)
    (h : finish x = some t) : x = some (t, []) := by
  unfold finish at h
  split at h
  · rename_i u
    rw [Option.some.injEq] at h
    rw [h]
  · cases h

theorem start_move (s t : Session μ) (env : StartEnv) (h : start F s env = some (t, [])) :
    Move F s (.start env) t := by
  unfold start at h
  by_cases hopen : s.portOpen ∨ env.opened ≠ .success
  · rw [if_pos hopen, Option.some.injEq, Prod.mk.injEq] at h
    rw [← h.1]
    exact Move.refused env hopen h.2
  · rw [if_neg hopen] at h
    have hclosed : s.portOpen = false := by
      simp only [not_or, Bool.not_eq_true] at hopen
      exact hopen.1
    rcases setOptions_eq env.setOption serialOptions { s with portOpen := true }
      with ⟨options, hoptions⟩
    -- Setting the options leaves everything but the options alone.
    rcases hset : setOptions env.setOption serialOptions { s with portOpen := true }
      with ⟨u, message⟩
    rw [hset] at h hoptions
    simp only at hoptions
    -- An option that throws ends the call, otherwise both frames are sent.
    cases message with
    | some message =>
        simp only [Option.some.injEq, Prod.mk.injEq] at h
        rw [← h.1, hoptions]
        exact Move.threw env hclosed options message h.2
    | none =>
        simp only [Option.bind_eq_bind, Option.bind_eq_some_iff, Option.some.injEq,
          Prod.mk.injEq] at h
        rcases h with ⟨⟨v, mid⟩, hconfig, ⟨w, rest⟩, hpoll, hw, hrest⟩
        simp only at hconfig hpoll hw hrest
        rw [hrest] at hpoll
        rw [hoptions] at hconfig
        rcases sendPosPoll_sends F v w mid [] hpoll with ⟨x, hsend, hx⟩
        rw [← hw, hx]
        exact Move.started env hclosed options mid v x
          (sendMessage_sends F _ v cfgPrtUsb env.outcomes mid hconfig) hsend

/-- Every step is a move. -/
theorem move_of_step (s t : Session μ) (e : Event) (h : step F s e = some t) : Move F s e t := by
  cases e with
  | start env => exact start_move F s t env (finish_eq_some _ t h)
  | readCompletes i ec data =>
      simp only [step] at h
      by_cases hdata : data.length ≤ inputBufSize
      · rw [dif_pos hdata] at h
        cases hop : s.reads[i]? with
        | none => rw [hop] at h; cases h
        | some op =>
            rw [hop] at h
            cases op with
            | completed ec' bytesCount => cases h
            | waiting =>
                rw [← Option.some.inj h]
                exact Move.readCompleted i ec data hdata hop
      · rw [dif_neg hdata] at h
        cases h
  | readHandler i =>
      simp only [step, Option.ite_none_left_eq_some, Bool.not_eq_true] at h
      cases hop : s.reads[i]? with
      | none => rw [hop] at h; cases h.2
      | some op =>
          rw [hop] at h
          cases op with
          | waiting => cases h.2
          | completed ec bytesCount =>
              rw [← Option.some.inj h.2]
              exact Move.readHandled i h.1 ec bytesCount hop
  | waitCompletes i ec =>
      simp only [step] at h
      cases hop : s.waits[i]? with
      | none => rw [hop] at h; cases h
      | some op =>
          rw [hop] at h
          cases op with
          | completed ec' => cases h
          | waiting seconds =>
              rw [← Option.some.inj h]
              exact Move.waitCompleted i ec seconds hop
  | waitHandler i outcomes =>
      simp only [step, Option.ite_none_left_eq_some, Bool.not_eq_true] at h
      cases hop : s.waits[i]? with
      | none => rw [hop] at h; cases h.2
      | some op =>
          rw [hop] at h
          cases op with
          | waiting seconds => cases h.2
          | completed ec =>
              have hhandler := finish_eq_some _ t h.2
              unfold waitHandler at hhandler
              by_cases haborted : ec = .operationAborted
              · rw [if_pos haborted, Option.some.injEq, Prod.mk.injEq] at hhandler
                rw [← hhandler.1]
                exact Move.waitAborted i outcomes h.1 (by rw [hop, haborted])
              · rw [if_neg haborted] at hhandler
                rcases sendPosPoll_sends F _ t outcomes [] hhandler with ⟨u, hsend, hu⟩
                rw [hu]
                exact Move.polled i outcomes h.1 ec hop u hsend

end Session

end SimpleDgps
