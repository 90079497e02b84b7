import SimpleDgps.Session.Order

/-!
# The Life of a Session

How a session begins, how long it lives, and how it ends.

Only one call of `start` gets anywhere. The port is never closed again, so every
later call fails to open it, whether the one that opened it returned true or threw
(`returned_shape`).

A session ends in two ways. The io object is stopped, by a read or a write that
failed, or setting an option threw and left the port open with nothing armed. In
both cases that is the end of it once the event is over: no later one brings it back,
writes, receives or dispatches anything, and every further `start` reports failure
(`dead_forever`). The event itself goes on after the failure. A `start` whose first
frame cannot be written still sends the second one and returns true.

Until then it is alive. While nothing completed with an error there is always a
way to go on, whatever happened before: the next read can bring any data the
buffer holds and the timer can run out, and the data is received and a poll frame
written (`always_alive`).

## Main definitions

* `Dead`: A session that nothing can happen to any more.
* `Begun`: What a session's port says about its past.

## Theorems

* `begun_step`: Every event preserves it.
* `returned_shape`: At most one start gets through.
* `dead_step`, `dead_forever`: The end is final.
* `poll_due`, `receive_due`: How a session goes on.
* `always_alive`: No session falls silent by itself.
-/

namespace SimpleDgps

open Toolkit Transition

namespace Session

variable {μ : Type} (F : Frame μ)

/-! ### The beginning -/

/-- A number of starts that failed to open the port. -/
def refusals (n : Nat) : List StartResult := List.replicate n (.returned false)

theorem refusals_succ (n : Nat) : refusals n ++ [.returned false] = refusals (n + 1) := by
  unfold refusals
  rw [List.replicate_succ']

/-- What a session's port says about its past: the port was opened by one start,
    which returned true or threw, and a start that threw left nothing armed. -/
inductive Begun (s : Session μ) : Prop
  | closed (n : Nat) (hclosed : s.portOpen = false) (hrunning : s.stopped = false)
      (hreturned : s.returned = refusals n)
  | started (n m : Nat) (hopen : s.portOpen = true)
      (hreturned : s.returned = refusals n ++ .returned true :: refusals m)
  | threw (n m : Nat) (message : String) (hopen : s.portOpen = true) (hrunning : s.stopped = false)
      (hreads : s.reads = []) (hwaits : s.waits = [])
      (hreturned : s.returned = refusals n ++ .threw message :: refusals m)

/-- It is about the port, what is armed, and what returned. -/
theorem begun_congr (s t : Session μ) (hopen : t.portOpen = s.portOpen)
    (hstopped : s.portOpen = false ∨ (s.reads = [] ∧ s.waits = []) → t.stopped = s.stopped)
    (hreads : s.reads = [] → t.reads = []) (hwaits : s.waits = [] → t.waits = [])
    (hreturned : t.returned = s.returned) (h : Begun s) : Begun t := by
  cases h with
  | closed n hclosed hrunning hreturned' =>
      exact Begun.closed n (hopen.trans hclosed) ((hstopped (Or.inl hclosed)).trans hrunning)
        (hreturned.trans hreturned')
  | started n m hopen' hreturned' =>
      exact Begun.started n m (hopen.trans hopen') (hreturned.trans hreturned')
  | threw n m message hopen' hrunning hreads' hwaits' hreturned' =>
      exact Begun.threw n m message (hopen.trans hopen')
        ((hstopped (Or.inr ⟨hreads', hwaits'⟩)).trans hrunning) (hreads hreads') (hwaits hwaits')
        (hreturned.trans hreturned')

/-- A refused start changes nothing but what returned. -/
theorem begun_refused (s : Session μ) (line : String) (h : Begun s) :
    Begun { s with cerr := s.cerr ++ [line], returned := s.returned ++ [.returned false] } := by
  cases h with
  | closed n hclosed hrunning hreturned =>
      refine Begun.closed (n + 1) hclosed hrunning ?_
      rw [← refusals_succ, ← hreturned]
  | started n m hopen hreturned =>
      refine Begun.started n (m + 1) hopen ?_
      simp only [hreturned]
      rw [← refusals_succ, List.append_assoc, List.cons_append]
  | threw n m message hopen hrunning hreads hwaits hreturned =>
      refine Begun.threw n (m + 1) message hopen hrunning hreads hwaits ?_
      simp only [hreturned]
      rw [← refusals_succ, List.append_assoc, List.cons_append]

theorem begun_closed (s : Session μ) (h : Begun s) (hclosed : s.portOpen = false) :
    s.stopped = false ∧ ∃ n, s.returned = refusals n := by
  cases h with
  | closed n _ hrunning hreturned => exact ⟨hrunning, n, hreturned⟩
  | started n m hopen => rw [hopen] at hclosed; cases hclosed
  | threw n m message hopen => rw [hopen] at hclosed; cases hclosed

theorem begun_step (s : Session μ) (e : Event) (t : Session μ) (hsingle : Single s) (h : Begun s)
    (hstep : step F s e = some t) : Begun t := by
  cases move_of_step F s t e hstep with
  | refused => exact begun_refused s _ h
  | threw env hclosed options message =>
      rcases begun_closed s h hclosed with ⟨hrunning, n, hreturned⟩
      -- With the port closed nothing is armed, and the throw comes before anything is.
      rcases hsingle.closed hclosed with ⟨hreads, hwaits, _⟩
      exact Begun.threw n 0 message rfl hrunning hreads hwaits (by rw [hreturned]; rfl)
  | started env hclosed options outcomes u v hconfig hpoll =>
      rcases begun_closed s h hclosed with ⟨_, n, hreturned⟩
      have hframe : v.portOpen = true ∧ v.returned = s.returned := by
        rw [hpoll.frame, hconfig.frame]
        exact ⟨rfl, rfl⟩
      refine Begun.started n 0 hframe.1 ?_
      simp only [hframe.2, hreturned]
      rfl
  | readCompleted i ec data hdata hop =>
      refine begun_congr s _ rfl (fun _ => rfl) (fun hr => ?_) (fun hw => hw) rfl h
      rw [hr, List.getElem?_nil] at hop
      cases hop
  | readHandled i hrunning ec bytesCount hop =>
      rcases readHandler_frame F { s with reads := s.reads.eraseIdx i } ec bytesCount
        with ⟨_, hopen, hwaits, hreturned⟩
      -- The read was armed, so the port is open and the session did start.
      have hne : s.reads ≠ [] := by
        intro hr
        rw [hr, List.getElem?_nil] at hop
        cases hop
      refine begun_congr s _ hopen (fun hdead => ?_) (fun hr => absurd hr hne)
        (fun hw => hwaits.trans hw) hreturned h
      rcases hdead with hclosed | ⟨hr, _⟩
      · rw [hsingle.open_of_read s i _ hop] at hclosed
        cases hclosed
      · exact absurd hr hne
  | waitCompleted i ec seconds hop =>
      refine begun_congr s _ rfl (fun _ => rfl) (fun hr => hr) (fun hw => ?_) rfl h
      rw [hw, List.getElem?_nil] at hop
      cases hop
  | waitAborted i outcomes hrunning hop =>
      refine begun_congr s _ rfl (fun _ => rfl) (fun hr => hr) (fun hw => ?_) rfl h
      rw [hw, List.getElem?_nil] at hop
      cases hop
  | polled i outcomes hrunning ec hop u hpoll =>
      have hne : s.waits ≠ [] := by
        intro hw
        rw [hw, List.getElem?_nil] at hop
        cases hop
      have hframe : u.portOpen = s.portOpen ∧ u.reads = s.reads ∧ u.returned = s.returned := by
        rw [hpoll.frame]
        exact ⟨rfl, rfl, rfl⟩
      refine begun_congr s _ hframe.1 (fun hdead => ?_) (fun hr => hframe.2.1.trans hr)
        (fun hw => absurd hw hne) hframe.2.2 h
      rcases hdead with hclosed | ⟨_, hw⟩
      · rw [hsingle.open_of_wait s i _ hop] at hclosed
        cases hclosed
      · exact absurd hw hne

theorem run_begun (device : String) (inputBuf : InputBuf) (events : List Event) (t : Session μ)
    (hrun : run (step F) events (initial device inputBuf) = some t) : Begun t := by
  have hboth := run_invariant (step F) (fun _ => True) (fun s => Single s ∧ Begun s)
    (fun s e t hs _ hstep =>
      ⟨single_step F s e t hs.1 hstep, begun_step F s e t hs.1 hs.2 hstep⟩) events _ t
    ⟨single_initial device inputBuf, Begun.closed 0 rfl rfl rfl⟩ (fun _ _ => trivial) hrun
  exact hboth.2

/-- At most one start gets through: all others, before it and after it, report
    that the port could not be opened. -/
theorem returned_shape (device : String) (inputBuf : InputBuf) (events : List Event)
    (t : Session μ) (hrun : run (step F) events (initial device inputBuf) = some t) :
    (t.portOpen = false ∧ ∃ n, t.returned = refusals n) ∨
      (t.portOpen = true ∧ ∃ n m r, (r = .returned true ∨ ∃ message, r = .threw message) ∧
        t.returned = refusals n ++ r :: refusals m) := by
  cases run_begun F device inputBuf events t hrun with
  | closed n hclosed hrunning hreturned => exact Or.inl ⟨hclosed, n, hreturned⟩
  | started n m hopen hreturned => exact Or.inr ⟨hopen, n, m, _, Or.inl rfl, hreturned⟩
  | threw n m message hopen hrunning hreads hwaits hreturned =>
      exact Or.inr ⟨hopen, n, m, _, Or.inr ⟨message, rfl⟩, hreturned⟩

/-- A start that cannot open the port, one that does, and one too many. -/
theorem returned_shape_example :
    let events : List Event := [.start { openingWith [] with opened := .failure "No such device" },
      .start (openingWith [.accepted 28, .accepted 8]), .start (openingWith [])]
    ∃ t, run (step ubxFrame) events freshSession = some t ∧
      ((t.portOpen = false ∧ ∃ n, t.returned = refusals n) ∨
        (t.portOpen = true ∧ ∃ n m r, (r = .returned true ∨ ∃ message, r = .threw message) ∧
          t.returned = refusals n ++ r :: refusals m)) := by
  intro events
  have hsome : (run (step ubxFrame) events freshSession).isSome := by decide +kernel
  rcases Option.isSome_iff_exists.mp hsome with ⟨t, hrun⟩
  exact ⟨t, hrun, returned_shape ubxFrame _ _ events t hrun⟩

/-! ### The end -/

/-- A session whose port is open and that has no handler to call any more. -/
def Dead (s : Session μ) : Prop :=
  s.portOpen = true ∧ (s.stopped = true ∨ (s.reads = [] ∧ s.waits = []))

/-- What a dead session keeps for good. -/
structure Remains (s t : Session μ) : Prop where
  portLog : t.portLog = s.portLog
  dispatched : t.dispatched = s.dispatched
  inData : t.inData = s.inData
  received : t.received = s.received
  returned : ∃ n, t.returned = s.returned ++ refusals n

/-- Nothing brings a dead session back. -/
theorem dead_step (s : Session μ) (e : Event) (t : Session μ) (h : Dead s)
    (hstep : step F s e = some t) : Dead t ∧ Remains s t := by
  rcases h with ⟨hopen, hdead⟩
  have hsame : ∃ n, s.returned = s.returned ++ refusals n := ⟨0, (List.append_nil _).symm⟩
  cases move_of_step F s t e hstep with
  | refused => exact ⟨⟨hopen, hdead⟩, ⟨rfl, rfl, rfl, rfl, 1, rfl⟩⟩
  | threw env hclosed => rw [hopen] at hclosed; cases hclosed
  | started env hclosed => rw [hopen] at hclosed; cases hclosed
  | readCompleted i ec data hdata hop =>
      rcases hdead with hstopped | ⟨hreads, _⟩
      · exact ⟨⟨hopen, Or.inl hstopped⟩, ⟨rfl, rfl, rfl, rfl, hsame⟩⟩
      · rw [hreads, List.getElem?_nil] at hop
        cases hop
  | readHandled i hrunning ec bytesCount hop =>
      rcases hdead with hstopped | ⟨hreads, _⟩
      · rw [hrunning] at hstopped
        cases hstopped
      · rw [hreads, List.getElem?_nil] at hop
        cases hop
  | waitCompleted i ec seconds hop =>
      rcases hdead with hstopped | ⟨_, hwaits⟩
      · exact ⟨⟨hopen, Or.inl hstopped⟩, ⟨rfl, rfl, rfl, rfl, hsame⟩⟩
      · rw [hwaits, List.getElem?_nil] at hop
        cases hop
  | waitAborted i outcomes hrunning hop =>
      rcases hdead with hstopped | ⟨_, hwaits⟩
      · rw [hrunning] at hstopped
        cases hstopped
      · rw [hwaits, List.getElem?_nil] at hop
        cases hop
  | polled i outcomes hrunning ec hop =>
      rcases hdead with hstopped | ⟨_, hwaits⟩
      · rw [hrunning] at hstopped
        cases hstopped
      · rw [hwaits, List.getElem?_nil] at hop
        cases hop

theorem Remains.trans (s t u : Session μ) (h : Remains s t) (h' : Remains t u) : Remains s u := by
  rcases h.returned with ⟨n, hn⟩
  rcases h'.returned with ⟨m, hm⟩
  refine ⟨h'.portLog.trans h.portLog, h'.dispatched.trans h.dispatched, h'.inData.trans h.inData,
    h'.received.trans h.received, n + m, ?_⟩
  rw [hm, hn, List.append_assoc, refusals, refusals, refusals, List.replicate_append_replicate]

theorem run_dead (events : List Event) (s t : Session μ) (h : Dead s)
    (hrun : run (step F) events s = some t) : Dead t ∧ Remains s t := by
  refine run_invariant (step F) (fun _ => True) (fun u => Dead u ∧ Remains s u)
    (fun u e v hu _ hstep => ?_) events s t
    ⟨h, ⟨rfl, rfl, rfl, rfl, 0, (List.append_nil _).symm⟩⟩ (fun _ _ => trivial) hrun
  rcases dead_step F u e v hu.1 hstep with ⟨hdead, hremains⟩
  exact ⟨hdead, hu.2.trans s u v hremains⟩

/-- A session that has been stopped, or whose start threw, is dead. -/
theorem dead_of_begun (s : Session μ) (h : Begun s)
    (hend : s.stopped = true ∨ ∃ message, .threw message ∈ s.returned) : Dead s := by
  have hrefusals : ∀ n message, StartResult.threw message ∉ refusals n := by
    intro n message hmem
    cases (List.mem_replicate.mp hmem).2
  cases h with
  | closed n hclosed hrunning hreturned =>
      rcases hend with hstopped | ⟨message, hmem⟩
      · rw [hrunning] at hstopped
        cases hstopped
      · rw [hreturned] at hmem
        exact absurd hmem (hrefusals n message)
  | started n m hopen hreturned =>
      rcases hend with hstopped | ⟨message, hmem⟩
      · exact ⟨hopen, Or.inl hstopped⟩
      · rw [hreturned] at hmem
        rcases List.mem_append.mp hmem with hmem' | hmem'
        · exact absurd hmem' (hrefusals n message)
        · rcases List.mem_cons.mp hmem' with heq | hmem''
          · cases heq
          · exact absurd hmem'' (hrefusals m message)
  | threw n m message hopen hrunning hreads hwaits => exact ⟨hopen, Or.inr ⟨hreads, hwaits⟩⟩

/-- No event after the one in which a failure stopped the io object, or a start
    threw, writes, receives or dispatches anything, and no later start succeeds. -/
theorem dead_forever (device : String) (inputBuf : InputBuf) (events more : List Event)
    (s t : Session μ) (hrun : run (step F) events (initial device inputBuf) = some s)
    (hend : s.stopped = true ∨ ∃ message, .threw message ∈ s.returned)
    (hmore : run (step F) more s = some t) :
    wire t = wire s ∧ t.dispatched = s.dispatched ∧ t.inData = s.inData ∧
      t.received = s.received ∧ ∃ n, t.returned = s.returned ++ refusals n := by
  have hdead := dead_of_begun s (run_begun F device inputBuf events s hrun) hend
  have hremains := (run_dead F more s t hdead hmore).2
  exact ⟨by rw [wire, wire, hremains.portLog], hremains.dispatched, hremains.inData,
    hremains.received, hremains.returned⟩

/-- A read that fails, and then a read that would still complete and a second
    start. -/
theorem dead_forever_example :
    let events : List Event := [.start (openingWith [.accepted 28, .accepted 8]),
      .readCompletes 0 (.failure "End of file") [], .readHandler 0]
    let more : List Event := [.waitCompletes 0 .success, .start (openingWith [])]
    ∃ s t, run (step ubxFrame) events freshSession = some s ∧ run (step ubxFrame) more s = some t ∧
      wire t = wire s ∧ t.dispatched = s.dispatched := by
  intro events more
  have hview : (run (step ubxFrame) events freshSession).bind (fun s =>
      (run (step ubxFrame) more s).map (fun _ => s.stopped)) = some true := by decide +kernel
  rcases Option.bind_eq_some_iff.mp hview with ⟨s, hs, hview'⟩
  rcases Option.map_eq_some_iff.mp hview' with ⟨t, ht, hstopped⟩
  rcases dead_forever ubxFrame _ _ events more s t hs (Or.inl hstopped) ht
    with ⟨hwire, hdispatched, _⟩
  exact ⟨s, t, hs, ht, hwire, hdispatched⟩

/-! ### In between -/

/-- The port can accept a whole buffer. -/
theorem writeLoop_whole (s : Session μ) (buf : List UInt8) :
    ∃ outcomes pieces, writeLoop s buf outcomes = some (accept s pieces, []) ∧
      pieces.flatten = buf := by
  by_cases hempty : buf.isEmpty = true
  · refine ⟨[], [], ?_, (List.isEmpty_iff.mp hempty).symm⟩
    rw [writeLoop, if_pos hempty, accept_nil]
  · have hpos : 1 ≤ buf.length := List.length_pos_iff.mpr (fun hnil =>
      hempty (List.isEmpty_iff.mpr hnil))
    refine ⟨[.accepted buf.length], [buf], ?_, List.append_nil buf⟩
    rw [writeLoop, if_neg hempty]
    simp only [if_pos (And.intro hpos (Nat.le_refl buf.length)), List.take_length,
      List.drop_length, writeLoop, List.isEmpty_nil, if_true]
    rfl

/-- A timer that ran out can send its poll frame. -/
theorem poll_once (s : Session μ) (hwaits : s.waits = [.completed .success])
    (hrunning : s.stopped = false) :
    ∃ outcomes t, step F s (.waitHandler 0 outcomes) = some t ∧
      wire t = wire s ++ F.bytes .navPosllhPoll ∧ t.stopped = false ∧ t.reads = s.reads ∧
      t.received = s.received ∧ t.inputBuf = s.inputBuf := by
  rcases writeLoop_whole { s with waits := s.waits.eraseIdx 0 } (F.bytes .navPosllhPoll)
    with ⟨outcomes, pieces, hloop, hbytes⟩
  have hnot : ¬s.stopped = true := by rw [hrunning]; exact Bool.false_ne_true
  refine ⟨outcomes, armTimer (accept { s with waits := s.waits.eraseIdx 0 } pieces), ?_, ?_,
    hrunning, rfl, rfl, rfl⟩
  · simp only [step, if_neg hnot, hwaits, List.getElem?_cons_zero]
    rw [hwaits] at hloop
    unfold waitHandler
    rw [if_neg (by decide), sendPosPoll, sendMessage_eq, hloop]
    rfl
  · have hsame : ∀ u : Session μ, wire (armTimer u) = wire u := fun u => rfl
    rw [hsame, wire_accept, hbytes]
    rfl

/-- Whether the timer ran out or not, it can run out and send its poll frame. -/
theorem poll_due (s : Session μ) (harmed : Armed s) (hrunning : s.stopped = false)
    (hwaits : s.waits.length = 1) :
    ∃ more t, run (step F) more s = some t ∧
      wire t = wire s ++ F.bytes .navPosllhPoll ∧ t.stopped = false ∧ t.reads = s.reads ∧
      t.received = s.received ∧ t.inputBuf = s.inputBuf := by
  rcases List.length_eq_one_iff.mp hwaits with ⟨op, hop⟩
  cases op with
  | completed ec =>
      have hec := harmed.waits ec (by rw [hop]; exact List.mem_cons_self ..)
      rcases poll_once F s (by rw [hop, hec]) hrunning with ⟨outcomes, t, hstep, ht⟩
      exact ⟨[.waitHandler 0 outcomes], t, run_cons _ _ _ s t hstep, ht⟩
  | waiting seconds =>
      have hcompletes : step F s (.waitCompletes 0 .success)
          = some { s with waits := [.completed .success] } := by
        simp only [step, hop, List.getElem?_cons_zero, List.set_cons_zero]
      rcases poll_once F { s with waits := [.completed .success] } rfl hrunning
        with ⟨outcomes, t, hstep, ht⟩
      refine ⟨[.waitCompletes 0 .success, .waitHandler 0 outcomes], t, ?_, ht⟩
      rw [run_cons _ _ _ s _ hcompletes]
      exact run_cons _ _ _ _ t hstep

theorem receive_isRead (data : List UInt8) : ∀ e ∈ receive data, e.isRead := by
  intro e he
  simp only [receive, List.mem_cons, List.not_mem_nil, or_false] at he
  rcases he with rfl | rfl <;> exact trivial

/-- A read without an error takes its bytes and arms the next one. -/
theorem readHandler_success (s : Session μ) (bytesCount : Nat) (hreads : s.reads = []) :
    (readHandler F s .success bytesCount).reads = [.waiting] ∧
      (readHandler F s .success bytesCount).stopped = s.stopped ∧
      (readHandler F s .success bytesCount).received
        = s.received ++ s.inputBuf.bytes.take bytesCount := by
  unfold readHandler
  simp only
  rw [processInputData_eq]
  refine ⟨?_, rfl, rfl⟩
  simp only [performRead]
  rw [hreads]
  rfl

theorem afterRead_received (s : Session μ) (data : List UInt8)
    (hdata : data.length ≤ inputBufSize) :
    (afterRead F s data hdata).received = s.received ++ data ∧
      (afterRead F s data hdata).stopped = s.stopped := by
  rw [afterRead, processInputData_eq]
  exact ⟨rfl, rfl⟩

/-- Whether the read has completed or not, it can be handled and bring more data. -/
theorem receive_due (s : Session μ) (hsingle : Single s) (harmed : Armed s)
    (hreads : s.reads.length = 1) (u : Session μ) (hrunning : u.stopped = false)
    (hsame : u.reads = s.reads ∧ u.received = s.received ∧ u.inputBuf = s.inputBuf)
    (data : List UInt8) (hdata : data.length ≤ inputBufSize) :
    ∃ more t, run (step F) more u = some t ∧ (∀ e ∈ more, e.isRead) ∧
      t.received = s.delivered ++ data ∧ t.stopped = false := by
  rcases hsame with ⟨hreads', hreceived, hbuf⟩
  have hconserved := hsingle.delivered
  rcases List.length_eq_one_iff.mp hreads with ⟨op, hop⟩
  cases op with
  | waiting =>
      rw [inFlight_waiting s hop, List.append_nil] at hconserved
      rcases afterRead_received F u data hdata with ⟨hall, hstill⟩
      refine ⟨receive data, _, run_receive F u (hreads'.trans hop) hrunning data hdata,
        receive_isRead data, ?_, hstill.trans hrunning⟩
      rw [hall, hreceived, hconserved]
  | completed ec bytesCount =>
      -- The read that has completed is handled first, and that arms the next one.
      have hec := harmed.reads ec bytesCount (by rw [hop]; exact List.mem_cons_self ..)
      rw [inFlight_completed s ec bytesCount hop, if_pos hec] at hconserved
      have hnot : ¬u.stopped = true := by rw [hrunning]; exact Bool.false_ne_true
      have hhandled : step F u (.readHandler 0)
          = some (readHandler F { u with reads := [] } .success bytesCount) := by
        simp only [step, if_neg hnot, hreads', hop, hec, List.getElem?_cons_zero,
          List.eraseIdx_cons_zero]
      rcases readHandler_success F { u with reads := [] } bytesCount rfl
        with ⟨hnext, hstill, htaken⟩
      generalize readHandler F { u with reads := [] } .success bytesCount = v at *
      rcases afterRead_received F v data hdata with ⟨hall, hstill'⟩
      refine ⟨.readHandler 0 :: receive data, afterRead F v data hdata, ?_,
        List.forall_mem_cons.mpr ⟨trivial, receive_isRead data⟩, ?_,
        hstill'.trans (hstill.trans hrunning)⟩
      · rw [run_cons _ _ _ u _ hhandled]
        exact run_receive F v hnext (hstill.trans hrunning) data hdata
      · rw [hall, htaken, hreceived, hbuf, hconserved]

/-- A session with one operation of each kind, neither of which failed, can
    receive what it was given and any data after it, and poll. -/
theorem alive (s : Session μ) (hsingle : Single s) (harmed : Armed s) (hrunning : s.stopped = false)
    (hreads : s.reads.length = 1) (hwaits : s.waits.length = 1) (data : List UInt8)
    (hdata : data.length ≤ inputBufSize) :
    ∃ more t, run (step F) more s = some t ∧ t.received = s.delivered ++ data ∧
      wire t = wire s ++ F.bytes .navPosllhPoll ∧ t.stopped = false := by
  -- First the poll, since the reads after it leave the wire alone.
  rcases poll_due F s harmed hrunning hwaits
    with ⟨polls, u, hpolls, hwire, hrunning', hreads', hreceived, hbuf⟩
  rcases receive_due F s hsingle harmed hreads u hrunning' ⟨hreads', hreceived, hbuf⟩ data hdata
    with ⟨more, t, hmore, hisRead, hreceived', hrunning''⟩
  refine ⟨polls ++ more, t, ?_, hreceived', ?_, hrunning''⟩
  · rw [run_append, hpolls, Option.bind_some]
    exact hmore
  · rw [wire, (run_read_frame F more u t hisRead hmore).1]
    exact hwire

/-- While nothing completed with an error, a session that was started can go on,
    whatever happened before: it can receive any data the buffer holds, after all
    that was delivered already, and write the next poll frame. -/
theorem always_alive (device : String) (inputBuf : InputBuf) (events : List Event) (t : Session μ)
    (hrun : run (step F) events (initial device inputBuf) = some t)
    (hquiet : ∀ e ∈ events, e.quiet) (hreturned : .returned true ∈ t.returned)
    (hrunning : t.stopped = false) (data : List UInt8) (hdata : data.length ≤ inputBufSize) :
    ∃ more u, run (step F) more t = some u ∧ u.received = t.delivered ++ data ∧
      wire u = wire t ++ F.bytes .navPosllhPoll ∧ u.stopped = false := by
  have harmed := run_armed F device inputBuf events t hquiet hrun
  rcases harmed.armed hreturned hrunning with ⟨hreads, hwaits⟩
  exact alive F t (run_single F device inputBuf events t hrun) harmed hrunning hreads hwaits data
    hdata

/-- A session in the middle of a read. -/
theorem always_alive_example :
    let events : List Event := [.start (openingWith [.accepted 28, .accepted 8]),
      .readCompletes 0 .success [0xB5, 0x62], .waitCompletes 0 .success]
    ∃ t, run (step ubxFrame) events freshSession = some t ∧
      ∃ more u, run (step ubxFrame) more t = some u ∧ u.received = t.delivered ++ [0x01] ∧
        wire u = wire t ++ ubxFrame.bytes .navPosllhPoll ∧ u.stopped = false := by
  intro events
  have hview : (run (step ubxFrame) events freshSession).map (fun t => (t.returned, t.stopped))
      = some ([.returned true], false) := by decide +kernel
  rcases Option.map_eq_some_iff.mp hview with ⟨t, hrun, heq⟩
  rw [Prod.mk.injEq] at heq
  have hquiet : ∀ e ∈ events, e.quiet := by
    simp only [events, List.forall_mem_cons, Event.quiet, List.not_mem_nil, false_imp_iff,
      implies_true, and_self]
  exact ⟨t, hrun, always_alive ubxFrame _ _ events t hrun hquiet
    (by rw [heq.1]; exact List.mem_cons_self ..) heq.2 [0x01] (by decide)⟩

end Session

end SimpleDgps
