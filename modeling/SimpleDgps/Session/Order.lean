import SimpleDgps.Session.Pending
import SimpleDgps.Session.Wire
import SimpleDgps.Toolkit.Interleave

/-!
# The Order of Reads and Polls

Reading and polling share one object, and nothing says whose handler runs first.

The two share very little of it. What a read brings goes to the input buffer and
the input data, and what is in there to the messages. The timer and the frames
that are written have the rest. `setInput` replaces the part that belongs to
reading, and both kinds of events are described by it: the events of reading
change nothing else and depend on nothing else, and the others commute with it.

There are two points of contact. `start` arms the first read, but only when the
port is closed, and then no read is there to be ahead of it. And an error on
either side stops the io object, after which neither handler runs. Until that
happens the order does not matter, `run_order`: the messages are those of the
reads alone and the bytes on the wire those of the polls alone, however the two
are interleaved.

## Main definitions

* `Input`: The part of a session that belongs to reading.
* `Event.isRead`: The events of reading.

## Theorems

* `read_setInput`, `read_changes`: What the events of reading need and touch.
* `writeLoop_setInput`, `other_setInput`: The others do not touch it.
* `session_independent`: The two kinds do not get in each other's way.
* `run_order`: The order does not matter.
-/

namespace SimpleDgps

open Toolkit Transition

/-- The part of a session that belongs to reading. -/
structure Input (μ : Type) where
  inputBuf : InputBuf
  inData : List UInt8
  reads : List ReadOp
  dispatched : List μ
  delivered : List UInt8
  received : List UInt8
  consumed : List UInt8

namespace Session

variable {μ : Type} (F : Frame μ)

def input (s : Session μ) : Input μ :=
  { inputBuf := s.inputBuf, inData := s.inData, reads := s.reads, dispatched := s.dispatched
    delivered := s.delivered, received := s.received, consumed := s.consumed }

def setInput (s : Session μ) (i : Input μ) : Session μ :=
  { s with
    inputBuf := i.inputBuf, inData := i.inData, reads := i.reads, dispatched := i.dispatched
    delivered := i.delivered, received := i.received, consumed := i.consumed }

/-- The events of reading. -/
def Event.isRead : Event → Prop
  | .readCompletes _ _ _ => True
  | .readHandler _ => True
  | _ => False

/-! ### The events of reading -/

/-- The read's handler works on the input, unless it reports an error. -/
theorem readHandler_setInput (s u : Session μ) (ec : ErrorCode) (bytesCount : Nat)
    (hinput : input u = input s) (hrunning : (readHandler F s ec bytesCount).stopped = false) :
    readHandler F u ec bytesCount = setInput u (input (readHandler F s ec bytesCount)) := by
  cases ec with
  | operationAborted =>
      simp only [readHandler]
      rw [← hinput]
      rfl
  | failure message => cases hrunning
  | success =>
      simp only [input, Input.mk.injEq] at hinput
      rcases hinput with ⟨hbuf, hdata, hreads, hdispatched, hdelivered, hreceived, hconsumed⟩
      unfold readHandler
      simp only [processInputData_eq, performRead, input, setInput, hbuf, hdata, hreads,
        hdispatched, hdelivered, hreceived, hconsumed]

/-- An event of reading depends on the input only and changes nothing else, as
    long as it does not stop the io object. -/
theorem read_setInput (s u a : Session μ) (e : Event) (hread : e.isRead)
    (hinput : input u = input s) (hrunning : a.stopped = false) (hrunning' : u.stopped = false)
    (h : step F s e = some a) : step F u e = some (setInput u (input a)) := by
  have hreads : u.reads = s.reads := congrArg Input.reads hinput
  cases move_of_step F s a e h with
  | refused => exact absurd hread id
  | threw => exact absurd hread id
  | started => exact absurd hread id
  | waitCompleted => exact absurd hread id
  | waitAborted => exact absurd hread id
  | polled => exact absurd hread id
  | readCompleted i ec data hdata hop =>
      simp only [input, Input.mk.injEq] at hinput
      rcases hinput with ⟨hbuf, hindata, _, hdispatched, hdelivered, hreceived, hconsumed⟩
      simp only [step, dif_pos hdata, hreads, hop, input, setInput, hbuf, hdelivered,
        ← hindata, ← hdispatched, ← hreceived, ← hconsumed]
  | readHandled i hrunning'' ec bytesCount hop =>
      have hnot : ¬u.stopped = true := by rw [hrunning']; exact Bool.false_ne_true
      -- The handler's read is removed from the same list.
      have hinput' : input { u with reads := s.reads.eraseIdx i }
          = input { s with reads := s.reads.eraseIdx i } := by
        simp only [input, Input.mk.injEq] at hinput ⊢
        exact ⟨hinput.1, hinput.2.1, trivial, hinput.2.2.2⟩
      simp only [step, if_neg hnot, hreads, hop]
      rw [readHandler_setInput F { s with reads := s.reads.eraseIdx i } _ ec bytesCount hinput'
        hrunning]
      rfl

theorem read_changes (s a : Session μ) (e : Event) (hread : e.isRead) (hrunning : a.stopped = false)
    (hrunning' : s.stopped = false) (h : step F s e = some a) : a = setInput s (input a) :=
  Option.some.inj (h.symm.trans (read_setInput F s s a e hread rfl hrunning hrunning' h))

/-! ### The other events -/

theorem writeLoop_setInput (i : Input μ) (outcomes : List WriteSome) : ∀ (s : Session μ)
    (buf : List UInt8), writeLoop (setInput s i) buf outcomes
      = (writeLoop s buf outcomes).map (fun r => (setInput r.1 i, r.2)) := by
  induction outcomes with
  | nil =>
      intro s buf
      unfold writeLoop
      split_ifs <;> rfl
  | cons outcome rest ih =>
      intro s buf
      unfold writeLoop
      by_cases hempty : buf.isEmpty = true
      · rw [if_pos hempty, if_pos hempty]
        rfl
      · rw [if_neg hempty, if_neg hempty]
        cases outcome with
        | error message => rfl
        | accepted count =>
            by_cases hcount : 1 ≤ count ∧ count ≤ buf.length
            · simp only [if_pos hcount]
              exact ih { s with portLog := s.portLog ++ [.accepted (buf.take count)] } _
            · simp only [if_neg hcount]
              rfl

theorem waitHandler_setInput (i : Input μ) (s : Session μ) (ec : ErrorCode)
    (outcomes : List WriteSome) : waitHandler F (setInput s i) ec outcomes
      = (waitHandler F s ec outcomes).map (fun r => (setInput r.1 i, r.2)) := by
  unfold waitHandler
  by_cases haborted : ec = .operationAborted
  · rw [if_pos haborted, if_pos haborted]
    rfl
  · rw [if_neg haborted, if_neg haborted]
    unfold sendPosPoll
    rw [sendMessage_eq, sendMessage_eq, writeLoop_setInput]
    cases writeLoop s (F.bytes .navPosllhPoll) outcomes with
    | none => rfl
    | some r => rfl

theorem finish_map (f : Session μ → Session μ) (x : Option (Session μ × List WriteSome)) :
    finish (x.map (fun r => (f r.1, r.2))) = (finish x).map f := by
  cases x with
  | none => rfl
  | some r =>
      rcases r with ⟨t, rest⟩
      cases rest <;> rfl

/-- With the port open the other events neither read nor change the input. -/
theorem other_setInput (i : Input μ) (s : Session μ) (e : Event) (hother : ¬e.isRead)
    (hopen : s.portOpen = true) :
    step F (setInput s i) e = (step F s e).map (fun t => setInput t i) := by
  cases e with
  | readCompletes => exact absurd trivial hother
  | readHandler => exact absurd trivial hother
  | start env =>
      simp only [step]
      rw [← finish_map]
      congr 1
      -- With the port open a start is refused and only reports that.
      have hopen' : (setInput s i).portOpen = true := hopen
      unfold start
      rw [if_pos (Or.inl hopen), if_pos (Or.inl hopen')]
      rfl
  | waitCompletes j ec =>
      simp only [step]
      have hwaits : (setInput s i).waits = s.waits := rfl
      rw [hwaits]
      cases s.waits[j]? with
      | none => rfl
      | some op => cases op <;> rfl
  | waitHandler j outcomes =>
      simp only [step]
      have hwaits : (setInput s i).waits = s.waits := rfl
      have hstopped : (setInput s i).stopped = s.stopped := rfl
      rw [hwaits, hstopped]
      by_cases hs : s.stopped = true
      · rw [if_pos hs, if_pos hs]
        rfl
      · rw [if_neg hs, if_neg hs]
        cases s.waits[j]? with
        | none => rfl
        | some op =>
            cases op with
            | waiting seconds => rfl
            | completed ec =>
                simp only
                rw [← finish_map, ← waitHandler_setInput]
                rfl

/-- The other events leave the input as it is. -/
theorem other_keeps (s b : Session μ) (e : Event) (hother : ¬e.isRead) (hopen : s.portOpen = true)
    (h : step F s e = some b) : input b = input s := by
  have hset := other_setInput F (input s) s e hother hopen
  have hsame : setInput s (input s) = s := rfl
  rw [hsame, h, Option.map_some, Option.some.injEq] at hset
  rw [hset]
  rfl

/-! ### Both kinds together -/

/-- The io object stays stopped. -/
theorem stopped_step (s t : Session μ) (e : Event) (hstopped : s.stopped = true)
    (h : step F s e = some t) : t.stopped = true := by
  cases move_of_step F s t e h with
  | refused => exact hstopped
  | threw => exact hstopped
  | started env hclosed options outcomes u v hconfig hpoll =>
      rcases sends_wire _ u _ _ _ hconfig with ⟨_, _, _, hu, _⟩
      rcases sends_wire u v _ _ _ hpoll with ⟨_, _, _, hv, _⟩
      exact hv (hu hstopped)
  | readCompleted => exact hstopped
  | readHandled i hrunning => rw [hrunning] at hstopped; cases hstopped
  | waitCompleted => exact hstopped
  | waitAborted i outcomes hrunning => rw [hrunning] at hstopped; cases hstopped
  | polled i outcomes hrunning => rw [hrunning] at hstopped; cases hstopped

theorem running_before (s t : Session μ) (e : Event) (h : step F s e = some t)
    (hrunning : t.stopped = false) : s.stopped = false := by
  by_contra hstopped
  rw [stopped_step F s t e (Bool.not_eq_false _ ▸ hstopped) h] at hrunning
  cases hrunning

/-- An event of reading needs an open port. -/
theorem read_open (s a : Session μ) (e : Event) (hsingle : Single s) (hread : e.isRead)
    (h : step F s e = some a) : s.portOpen = true := by
  cases move_of_step F s a e h with
  | readCompleted i ec data hdata hop => exact hsingle.open_of_read s i _ hop
  | readHandled i hrunning ec bytesCount hop => exact hsingle.open_of_read s i _ hop
  | refused => exact absurd hread id
  | threw => exact absurd hread id
  | started => exact absurd hread id
  | waitCompleted => exact absurd hread id
  | waitAborted => exact absurd hread id
  | polled => exact absurd hread id

/-- Reading and the other events do not get in each other's way. -/
theorem session_independent : Independent (step F) Event.isRead (fun e => ¬e.isRead) Single
    (fun s => s.stopped = false) where
  inv := fun s e t hs h => single_step F s e t hs h
  back := fun s e t h hrunning => running_before F s t e h hrunning
  square := fun s p q a b hs hp hq ha hb hrunning hrunning' => by
    have hopen := read_open F s a p hs hp ha
    have hbefore := running_before F s a p ha hrunning
    refine ⟨setInput b (input a), ?_, ?_, hrunning'⟩
    · rw [read_changes F s a p hp hrunning hbefore ha, other_setInput F _ s q hq hopen, hb]
      rfl
    · exact read_setInput F s b a p hp (other_keeps F s b q hq hopen hb) hrunning hrunning' ha

/-! ### Whole runs -/

/-- The events of reading leave the port, the timer and the record of both
    alone. -/
theorem read_frame (s t : Session μ) (e : Event) (hread : e.isRead) (h : step F s e = some t) :
    t.portLog = s.portLog ∧ t.waits = s.waits ∧ t.returned = s.returned := by
  cases move_of_step F s t e h with
  | readCompleted => exact ⟨rfl, rfl, rfl⟩
  | readHandled i hrunning ec bytesCount hop =>
      rcases readHandler_frame F { s with reads := s.reads.eraseIdx i } ec bytesCount
        with ⟨hlog, _, hwaits, hreturned⟩
      exact ⟨hlog, hwaits, hreturned⟩
  | refused => exact absurd hread id
  | threw => exact absurd hread id
  | started => exact absurd hread id
  | waitCompleted => exact absurd hread id
  | waitAborted => exact absurd hread id
  | polled => exact absurd hread id

/-- The others leave what was received and dispatched alone. -/
theorem other_frame (s t : Session μ) (e : Event) (hother : ¬e.isRead) (h : step F s e = some t) :
    t.dispatched = s.dispatched ∧ t.inData = s.inData ∧ t.received = s.received := by
  cases move_of_step F s t e h with
  | readCompleted => exact absurd trivial hother
  | readHandled => exact absurd trivial hother
  | refused => exact ⟨rfl, rfl, rfl⟩
  | threw => exact ⟨rfl, rfl, rfl⟩
  | started env hclosed options outcomes u v hconfig hpoll =>
      rw [hpoll.frame, hconfig.frame]
      exact ⟨rfl, rfl, rfl⟩
  | waitCompleted => exact ⟨rfl, rfl, rfl⟩
  | waitAborted => exact ⟨rfl, rfl, rfl⟩
  | polled i outcomes hrunning ec hop u hpoll =>
      rw [hpoll.frame]
      exact ⟨rfl, rfl, rfl⟩

theorem run_read_frame (events : List Event) (s t : Session μ) (hreads : ∀ e ∈ events, e.isRead)
    (h : run (step F) events s = some t) : t.portLog = s.portLog ∧ t.waits = s.waits ∧
      t.returned = s.returned := by
  refine run_invariant (step F) Event.isRead (fun u => u.portLog = s.portLog ∧ u.waits = s.waits ∧
    u.returned = s.returned) (fun u e v hu he hstep => ?_) events s t ⟨rfl, rfl, rfl⟩ hreads h
  rcases read_frame F u v e he hstep with ⟨hlog, hwaits, hreturned⟩
  exact ⟨hlog.trans hu.1, hwaits.trans hu.2.1, hreturned.trans hu.2.2⟩

theorem run_other_frame (events : List Event) (s t : Session μ)
    (hothers : ∀ e ∈ events, ¬e.isRead) (h : run (step F) events s = some t) :
    t.dispatched = s.dispatched ∧ t.inData = s.inData ∧ t.received = s.received := by
  refine run_invariant (step F) (fun e => ¬e.isRead) (fun u => u.dispatched = s.dispatched ∧
    u.inData = s.inData ∧ u.received = s.received) (fun u e v hu he hstep => ?_) events s t
    ⟨rfl, rfl, rfl⟩ hothers h
  rcases other_frame F u v e he hstep with ⟨hdispatched, hinData, hreceived⟩
  exact ⟨hdispatched.trans hu.1, hinData.trans hu.2.1, hreceived.trans hu.2.2⟩

/-- However reads and polls are interleaved, the session ends in the same state,
    with the messages of the reads alone and the wire of the polls alone. -/
theorem run_order (device : String) (inputBuf : InputBuf) (events reads others : List Event)
    (s a b : Session μ) (hrun : run (step F) events (initial device inputBuf) = some s)
    (hreads : ∀ e ∈ reads, e.isRead) (hothers : ∀ e ∈ others, ¬e.isRead)
    (ha : run (step F) reads s = some a) (hb : run (step F) others s = some b)
    (hrunning : a.stopped = false) (hrunning' : b.stopped = false) :
    ∃ t, (∀ order, Merge reads others order → run (step F) order s = some t) ∧
      t.stopped = false ∧ t.dispatched = a.dispatched ∧ t.inData = a.inData ∧ wire t = wire b ∧
      t.waits = b.waits ∧ t.returned = b.returned := by
  rcases run_merge (session_independent F) reads others s a b
    (run_single F device inputBuf events s hrun) hreads hothers ha hb hrunning hrunning'
    with ⟨t, ht, hafter, hbefore, hall⟩
  rcases run_other_frame F others a t hothers hafter with ⟨hdispatched, hinData, _⟩
  rcases run_read_frame F reads b t hreads hbefore with ⟨hlog, hwaits, hreturned⟩
  exact ⟨t, hall, ht, hdispatched, hinData, by rw [wire, wire, hlog], hwaits, hreturned⟩

/-- A frame that arrives in two reads while a poll goes out. -/
theorem run_order_example :
    let reads := receive [0xB5, 0x62] ++ receive [0x01]
    let others : List Event := [.waitCompletes 0 .success, .waitHandler 0 [.accepted 8]]
    ∃ s a b t, run (step ubxFrame) [.start (openingWith [.accepted 28, .accepted 8])] freshSession
        = some s ∧
      run (step ubxFrame) reads s = some a ∧ run (step ubxFrame) others s = some b ∧
      (∀ order, Merge reads others order → run (step ubxFrame) order s = some t) ∧
      t.inData = a.inData ∧ wire t = wire b := by
  intro reads others
  have hview : ((run (step ubxFrame) [.start (openingWith [.accepted 28, .accepted 8])]
      freshSession).bind (fun s => (run (step ubxFrame) reads s).bind (fun a =>
        (run (step ubxFrame) others s).map (fun b => (a.stopped, b.stopped)))))
      = some (false, false) := by decide +kernel
  rcases Option.bind_eq_some_iff.mp hview with ⟨s, hs, hview'⟩
  rcases Option.bind_eq_some_iff.mp hview' with ⟨a, ha, hview''⟩
  rcases Option.map_eq_some_iff.mp hview'' with ⟨b, hb, hstopped⟩
  rw [Prod.mk.injEq] at hstopped
  have hreads : ∀ e ∈ reads, e.isRead := by
    simp only [reads, receive, List.cons_append, List.nil_append, List.forall_mem_cons,
      Event.isRead, List.not_mem_nil, false_imp_iff, implies_true, and_self]
  have hothers : ∀ e ∈ others, ¬e.isRead := by
    simp only [others, List.forall_mem_cons, Event.isRead, not_false_eq_true, List.not_mem_nil,
      false_imp_iff, implies_true, and_self]
  rcases run_order ubxFrame _ _ _ reads others s a b hs hreads hothers ha hb hstopped.1 hstopped.2
    with ⟨t, hall, _, _, hinData, hwire, _⟩
  exact ⟨s, a, b, t, hs, ha, hb, hall, hinData, hwire⟩

end Session

end SimpleDgps
