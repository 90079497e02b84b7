import SimpleDgps.Session.Stream

/-!
# Outstanding Operations

How many reads and timer waits a session has outstanding.

Both handlers arm the next operation of their kind, and `start` arms the first
one of each, so what has to be excluded is a second `start` that gets as far as
arming. It does not, because the port is still open. `Single` is the invariant:
a closed port has nothing outstanding, and an open one at most one operation of
each kind. It also says where the bytes of the reads are. All but those of a
read whose handler is still to be called have been appended to the input data,
so the input buffer is never overwritten while it holds something. With the stream's
own invariant every byte the port delivered is in one of three places, in order: in
a frame that was taken, in the input data, or in the input buffer.

That nothing is lost the other way, the session falling silent, needs the
completions to be free of errors, and is `Armed`.

## Main definitions

* `inFlight`: The bytes that are still in the input buffer only.
* `Single`: At most one operation of each kind, and no byte overwritten.
* `Event.quiet`: A completion that carries no error.
* `Armed`: One operation of each kind while the io object runs.

## Theorems

* `single_step`, `armed_step`: Every event preserves the two invariants.
* `run_places`: Where the delivered bytes are.
* `session_outstanding`: What holds in every reachable state.
-/

namespace SimpleDgps

open Toolkit Transition

/-- If a list has no second element, an element at any index is all of it. -/
theorem eq_singleton_of_getElem? {α : Type} (l : List α) (i : Nat) (x : α) (hl : l.length ≤ 1)
    (h : l[i]? = some x) : i = 0 ∧ l = [x] := by
  rcases List.getElem?_eq_some_iff.mp h with ⟨hi, hx⟩
  have hzero : i = 0 := by omega
  subst hzero
  rcases List.length_eq_one_iff.mp (by omega : l.length = 1) with ⟨y, rfl⟩
  rw [← hx]
  exact ⟨rfl, rfl⟩

namespace Session

variable {μ : Type} (F : Frame μ)

/-- The bytes of a successful read whose handler has not been called. -/
def inFlight (s : Session μ) : List UInt8 :=
  match s.reads with
  | [.completed .success bytesCount] => s.inputBuf.bytes.take bytesCount
  | _ => []

/-- At most one operation of each kind is outstanding, none while the port is
    closed, and every byte that was read is appended or still in the buffer. -/
structure Single (s : Session μ) : Prop where
  reads : s.reads.length ≤ 1
  waits : s.waits.length ≤ 1
  closed : s.portOpen = false → s.reads = [] ∧ s.waits = [] ∧ .returned true ∉ s.returned
  delivered : s.delivered = s.received ++ inFlight s

theorem single_initial (device : String) (inputBuf : InputBuf) :
    Single (initial device inputBuf : Session μ) :=
  ⟨Nat.zero_le 1, Nat.zero_le 1, fun _ => ⟨rfl, rfl, List.not_mem_nil⟩, rfl⟩

theorem inFlight_nil (s : Session μ) (h : s.reads = []) : inFlight s = [] := by
  unfold inFlight
  rw [h]

theorem inFlight_waiting (s : Session μ) (h : s.reads = [.waiting]) : inFlight s = [] := by
  unfold inFlight
  rw [h]

theorem inFlight_completed (s : Session μ) (ec : ErrorCode) (bytesCount : Nat)
    (h : s.reads = [.completed ec bytesCount]) :
    inFlight s = if ec = .success then s.inputBuf.bytes.take bytesCount else [] := by
  unfold inFlight
  rw [h]
  cases ec <;> rfl

/-- An open port has nothing to say about a closed one. -/
theorem single_of_open (s : Session μ) (hopen : s.portOpen = true) (hreads : s.reads.length ≤ 1)
    (hwaits : s.waits.length ≤ 1) (hdelivered : s.delivered = s.received ++ inFlight s) :
    Single s :=
  ⟨hreads, hwaits, fun hclosed => (by rw [hopen] at hclosed; cases hclosed), hdelivered⟩

/-- The read's handler, called with no other read outstanding. -/
theorem single_readHandler (s : Session μ) (ec : ErrorCode) (bytesCount : Nat)
    (hopen : s.portOpen = true) (hreads : s.reads = []) (hwaits : s.waits.length ≤ 1)
    (hdelivered : s.delivered
      = s.received ++ if ec = .success then s.inputBuf.bytes.take bytesCount else []) :
    Single (readHandler F s ec bytesCount) := by
  have hempty : s.reads.length ≤ 1 := by rw [hreads]; exact Nat.zero_le 1
  cases ec with
  | operationAborted =>
      have hin : inFlight (readHandler F s .operationAborted bytesCount) = [] :=
        inFlight_nil _ hreads
      exact single_of_open _ hopen hempty hwaits (by rw [hin]; exact hdelivered)
  | failure message =>
      have hin : inFlight (readHandler F s (.failure message) bytesCount) = [] :=
        inFlight_nil _ hreads
      exact single_of_open _ hopen hempty hwaits (by rw [hin]; exact hdelivered)
  | success =>
      -- The handler appends the bytes before it arms the next read.
      unfold readHandler
      simp only
      rw [processInputData_eq]
      have harmed : s.reads ++ [.waiting] = [.waiting] := by rw [hreads, List.nil_append]
      refine single_of_open _ hopen (Nat.le_of_eq (congrArg List.length harmed)) hwaits ?_
      rw [inFlight_waiting _ harmed, List.append_nil]
      exact hdelivered

theorem Single.open_of_read (s : Session μ) (h : Single s) (i : Nat) (op : ReadOp)
    (hop : s.reads[i]? = some op) : s.portOpen = true := by
  by_contra hclosed
  have hempty := (h.closed (Bool.not_eq_true _ ▸ hclosed)).1
  rw [hempty, List.getElem?_nil] at hop
  cases hop

theorem Single.open_of_wait (s : Session μ) (h : Single s) (i : Nat) (op : WaitOp)
    (hop : s.waits[i]? = some op) : s.portOpen = true := by
  by_contra hclosed
  have hempty := (h.closed (Bool.not_eq_true _ ▸ hclosed)).2.1
  rw [hempty, List.getElem?_nil] at hop
  cases hop

theorem single_step (s : Session μ) (e : Event) (t : Session μ) (h : Single s)
    (hstep : step F s e = some t) : Single t := by
  cases move_of_step F s t e hstep with
  | refused env hrefused =>
      refine ⟨h.reads, h.waits, fun hclosed => ?_, h.delivered⟩
      rcases h.closed hclosed with ⟨hreads, hwaits, hreturned⟩
      refine ⟨hreads, hwaits, fun hmem => ?_⟩
      rcases List.mem_append.mp hmem with hmem' | hmem'
      · exact hreturned hmem'
      · cases List.mem_singleton.mp hmem'
  | threw env hclosed options message =>
      -- The port stays open without anything outstanding.
      exact single_of_open _ rfl h.reads h.waits h.delivered
  | started env hclosed options outcomes u v hconfig hpoll =>
      -- The port was closed, so the first operation of each kind is the only one.
      rcases h.closed hclosed with ⟨hreads, hwaits, _⟩
      rw [hpoll.frame, hconfig.frame]
      have harmed : s.reads ++ [.waiting] = [.waiting] := by rw [hreads, List.nil_append]
      have hdelivered := h.delivered
      rw [inFlight_nil s hreads] at hdelivered
      refine single_of_open _ rfl (Nat.le_of_eq (congrArg List.length harmed)) ?_ ?_
      · simp only [armTimer, performRead, hwaits, List.map_nil, List.nil_append,
          List.length_singleton, Nat.le_refl]
      · rw [inFlight_waiting _ harmed]
        exact hdelivered
  | readCompleted i ec data hdata hop =>
      rcases eq_singleton_of_getElem? s.reads i _ h.reads hop with ⟨rfl, hreads⟩
      have hset : s.reads.set 0 (.completed ec data.length) = [.completed ec data.length] := by
        rw [hreads, List.set_cons_zero]
      have hdelivered := h.delivered
      rw [inFlight_waiting s hreads, List.append_nil] at hdelivered
      refine single_of_open _ (h.open_of_read s 0 _ hop)
        (Nat.le_of_eq (congrArg List.length hset)) h.waits ?_
      rw [inFlight_completed _ ec data.length hset]
      simp only [InputBuf.fill_take]
      by_cases hsuccess : ec = .success
      · rw [if_pos hsuccess, if_pos hsuccess, hdelivered]
      · rw [if_neg hsuccess, if_neg hsuccess, hdelivered, List.append_nil]
  | readHandled i hrunning ec bytesCount hop =>
      rcases eq_singleton_of_getElem? s.reads i _ h.reads hop with ⟨rfl, hreads⟩
      -- The handler's read is no longer outstanding when the handler runs.
      have herase : s.reads.eraseIdx 0 = [] := by rw [hreads, List.eraseIdx_cons_zero]
      have hdelivered := h.delivered
      rw [inFlight_completed s ec bytesCount hreads] at hdelivered
      exact single_readHandler F _ ec bytesCount (h.open_of_read s 0 _ hop) herase h.waits
        hdelivered
  | waitCompleted i ec seconds hop =>
      refine single_of_open _ (h.open_of_wait s i _ hop) h.reads ?_ h.delivered
      rw [List.length_set]
      exact h.waits
  | waitAborted i outcomes hrunning hop =>
      rcases eq_singleton_of_getElem? s.waits i _ h.waits hop with ⟨rfl, hwaits⟩
      refine single_of_open _ (h.open_of_wait s 0 _ hop) h.reads ?_ h.delivered
      simp only [hwaits, List.eraseIdx_cons_zero, List.length_nil, Nat.zero_le]
  | polled i outcomes hrunning ec hop u hpoll =>
      rcases eq_singleton_of_getElem? s.waits i _ h.waits hop with ⟨rfl, hwaits⟩
      rw [hpoll.frame]
      refine single_of_open _ (h.open_of_wait s 0 _ hop) h.reads ?_ h.delivered
      simp only [armTimer, hwaits, List.eraseIdx_cons_zero, List.map_nil, List.nil_append,
        List.length_singleton, Nat.le_refl]

/-! ### Runs without errors -/

/-- A completion carries no error. -/
def Event.quiet : Event → Prop
  | .readCompletes _ ec _ => ec = .success
  | .waitCompletes _ ec => ec = .success
  | _ => True

/-- Nothing completed with an error, and once `start` has returned true one
    operation of each kind is outstanding while the io object runs. -/
structure Armed (s : Session μ) : Prop where
  reads : ∀ ec bytesCount, .completed ec bytesCount ∈ s.reads → ec = .success
  waits : ∀ ec, .completed ec ∈ s.waits → ec = .success
  armed : .returned true ∈ s.returned → s.stopped = false →
    s.reads.length = 1 ∧ s.waits.length = 1

theorem armed_initial (device : String) (inputBuf : InputBuf) :
    Armed (initial device inputBuf : Session μ) :=
  ⟨fun _ _ hmem => absurd hmem List.not_mem_nil, fun _ hmem => absurd hmem List.not_mem_nil,
    fun hmem => absurd hmem List.not_mem_nil⟩

/-- One waiting operation of each kind. -/
theorem armed_of_waiting (s : Session μ) (hreads : s.reads = [.waiting])
    (hwaits : s.waits = [.waiting 1]) : Armed s := by
  refine ⟨fun ec bytesCount hmem => ?_, fun ec hmem => ?_, fun _ _ => ?_⟩
  · rw [hreads] at hmem
    cases List.mem_singleton.mp hmem
  · rw [hwaits] at hmem
    cases List.mem_singleton.mp hmem
  · rw [hreads, hwaits]
    exact ⟨rfl, rfl⟩

theorem armed_step (s : Session μ) (e : Event) (t : Session μ) (hsingle : Single s) (h : Armed s)
    (hquiet : e.quiet) (hstep : step F s e = some t) : Armed t := by
  cases move_of_step F s t e hstep with
  | refused env hrefused =>
      refine ⟨h.reads, h.waits, fun hmem => h.armed ?_⟩
      rcases List.mem_append.mp hmem with hmem' | hmem'
      · exact hmem'
      · cases List.mem_singleton.mp hmem'
  | threw env hclosed options message =>
      -- A closed port means that no start has returned true.
      refine ⟨h.reads, h.waits, fun hmem => ?_⟩
      rcases List.mem_append.mp hmem with hmem' | hmem'
      · exact absurd hmem' (hsingle.closed hclosed).2.2
      · cases List.mem_singleton.mp hmem'
  | started env hclosed options outcomes u v hconfig hpoll =>
      rcases hsingle.closed hclosed with ⟨hreads, hwaits, _⟩
      rw [hpoll.frame, hconfig.frame]
      refine armed_of_waiting _ ?_ ?_
      · simp only [armTimer, performRead, hreads, List.nil_append]
      · simp only [armTimer, performRead, hwaits, List.map_nil, List.nil_append]
  | readCompleted i ec data hdata hop =>
      refine ⟨fun ec' bytesCount hmem => ?_, h.waits, fun hmem hrunning => ?_⟩
      · rcases List.mem_or_eq_of_mem_set hmem with hmem' | heq
        · exact h.reads ec' bytesCount hmem'
        · rw [ReadOp.completed.injEq] at heq
          exact heq.1.trans hquiet
      · rw [List.length_set]
        exact h.armed hmem hrunning
  | readHandled i hrunning ec bytesCount hop =>
      have hsuccess := h.reads ec bytesCount (List.mem_of_getElem? hop)
      rcases eq_singleton_of_getElem? s.reads i _ hsingle.reads hop with ⟨rfl, hreads⟩
      have harmed : s.reads.eraseIdx 0 ++ [.waiting] = [.waiting] := by
        rw [hreads, List.eraseIdx_cons_zero, List.nil_append]
      rw [hsuccess]
      unfold readHandler
      simp only
      rw [processInputData_eq]
      refine ⟨fun ec' bytesCount' hmem => ?_, h.waits, fun hmem _ => ⟨?_, ?_⟩⟩
      · simp only [performRead, harmed] at hmem
        cases List.mem_singleton.mp hmem
      · exact congrArg List.length harmed
      · exact (h.armed hmem hrunning).2
  | waitCompleted i ec seconds hop =>
      refine ⟨h.reads, fun ec' hmem => ?_, fun hmem hrunning => ?_⟩
      · rcases List.mem_or_eq_of_mem_set hmem with hmem' | heq
        · exact h.waits ec' hmem'
        · rw [WaitOp.completed.injEq] at heq
          exact heq.trans hquiet
      · rw [List.length_set]
        exact h.armed hmem hrunning
  | waitAborted i outcomes hrunning hop =>
      -- An aborted wait is an error, and there was none.
      have haborted := h.waits _ (List.mem_of_getElem? hop)
      cases haborted
  | polled i outcomes hrunning ec hop u hpoll =>
      rcases eq_singleton_of_getElem? s.waits i _ hsingle.waits hop with ⟨rfl, hwaits⟩
      rw [hpoll.frame]
      have harmed : (s.waits.eraseIdx 0).map WaitOp.cancel ++ [.waiting 1] = [.waiting 1] := by
        rw [hwaits, List.eraseIdx_cons_zero, List.map_nil, List.nil_append]
      refine ⟨h.reads, fun ec' hmem => ?_, fun hmem _ => ⟨?_, ?_⟩⟩
      · simp only [armTimer, harmed] at hmem
        cases List.mem_singleton.mp hmem
      · exact (h.armed hmem hrunning).1
      · exact congrArg List.length harmed

/-! ### Every reachable state -/

theorem run_single (device : String) (inputBuf : InputBuf) (events : List Event) (t : Session μ)
    (hrun : run (step F) events (initial device inputBuf) = some t) : Single t :=
  run_invariant (step F) (fun _ => True) Single
    (fun s e t hs _ hstep => single_step F s e t hs hstep) events _ t
    (single_initial device inputBuf) (fun _ _ => trivial) hrun

theorem run_armed (device : String) (inputBuf : InputBuf) (events : List Event) (t : Session μ)
    (hquiet : ∀ e ∈ events, e.quiet)
    (hrun : run (step F) events (initial device inputBuf) = some t) : Armed t := by
  have hboth := run_invariant (step F) Event.quiet (fun s => Single s ∧ Armed s)
    (fun s e t hs he hstep =>
      ⟨single_step F s e t hs.1 hstep, armed_step F s e t hs.1 hs.2 he hstep⟩) events _ t
    ⟨single_initial device inputBuf, armed_initial device inputBuf⟩ hquiet hrun
  exact hboth.2

/-- Every delivered byte was taken with a frame, is in the input data, or is still
    in the input buffer. -/
theorem run_places (device : String) (inputBuf : InputBuf) (events : List Event) (t : Session μ)
    (hrun : run (step F) events (initial device inputBuf) = some t) :
    t.consumed ++ t.inData ++ inFlight t = t.delivered := by
  rw [(run_streaming F device inputBuf events t hrun).conserved,
    (run_single F device inputBuf events t hrun).delivered]

/-- In every reachable state at most one read and at most one timer wait is
    outstanding and no byte in the input buffer was overwritten before it was
    appended to the input data. After a `start` that returned true exactly one of
    each is, for as long as no completion carried an error and the io object was not
    stopped. -/
theorem session_outstanding (device : String) (inputBuf : InputBuf) (events : List Event)
    (t : Session μ) (hrun : run (step F) events (initial device inputBuf) = some t) :
    (t.reads.length ≤ 1 ∧ t.waits.length ≤ 1 ∧ t.delivered = t.received ++ inFlight t ∧
        t.consumed ++ t.inData ++ inFlight t = t.delivered) ∧
      ((∀ e ∈ events, e.quiet) → .returned true ∈ t.returned → t.stopped = false →
        t.reads.length = 1 ∧ t.waits.length = 1) := by
  have hsingle := run_single F device inputBuf events t hrun
  refine ⟨⟨hsingle.reads, hsingle.waits, hsingle.delivered,
    run_places F device inputBuf events t hrun⟩, fun hquiet => ?_⟩
  exact (run_armed F device inputBuf events t hquiet hrun).armed

/-- A start, a second start that is refused, a read and a poll. -/
theorem session_outstanding_example :
    let events : List Event := [.start (openingWith [.accepted 20, .accepted 8, .accepted 8]),
      .start (openingWith []), .readCompletes 0 .success [0xB5, 0x62], .waitCompletes 0 .success,
      .readHandler 0, .waitHandler 0 [.accepted 8]]
    ∃ t, run (step ubxFrame) events freshSession = some t ∧
      t.reads.length = 1 ∧ t.waits.length = 1 := by
  intro events
  have hview : (run (step ubxFrame) events freshSession).map (fun t => (t.returned, t.stopped))
      = some ([.returned true, .returned false], false) := by decide +kernel
  rcases Option.map_eq_some_iff.mp hview with ⟨t, hrun, heq⟩
  rw [Prod.mk.injEq] at heq
  have hquiet : ∀ e ∈ events, e.quiet := by
    simp only [events, List.forall_mem_cons, Event.quiet, List.not_mem_nil, false_imp_iff,
      implies_true, and_self]
  have hreturned : StartResult.returned true ∈ t.returned := by
    rw [heq.1]
    exact List.mem_cons_self ..
  exact ⟨t, hrun, (session_outstanding ubxFrame _ _ events t hrun).2 hquiet hreturned heq.2⟩

end Session

end SimpleDgps
