import FrameGraph.OffFrame.State
import Mathlib.Data.List.Basic

/-! # Histories of the handshake

The events of one off-frame group in the order in which they arrive. Events may come in any order,
also where the state does not expect them. State and actions of a history are replayed from its events
alone.
-/

namespace FrameGraph.OffFrame

/-- What happens to the state of an off-frame group. -/
inductive Event (P : Type) where
  | run (params : P)
  | finished (succeeded : Bool)
  | observed
  | ready
deriving DecidableEq, Repr

/-- The parameters that a run brings. -/
def Event.params? {P : Type} : Event P → Option P
  | .run params => some params
  | _ => Option.none

/-- The parameters that an action hands to the worker. -/
def Action.dispatched? {P : Type} : Action P → Option P
  | .dispatch params => some params
  | _ => Option.none

/-- The parameters of all runs of a history, in order. -/
def runs {P : Type} (events : List (Event P)) : List P := events.filterMap Event.params?

theorem runs_concat {P : Type} (events : List (Event P)) (event : Event P) :
    runs (events ++ [event]) = runs events ++ event.params?.toList := by
  cases event <;> simp [runs, Event.params?]

namespace State

variable {P : Type} [Parameters P]

/-- One event; observing a frame asks for no action. -/
def step (state : State P) : Event P → State P × Action P
  | .run params => state.run params
  | .finished succeeded => state.finish succeeded
  | .observed => (state.observe.1, .none)
  | .ready => state.ready

/-- The state after a history. -/
def after (state : State P) (events : List (Event P)) : State P :=
  events.foldl (fun state event => (state.step event).1) state

/-- The actions of a history, one for each event. -/
def actions (state : State P) : List (Event P) → List (Action P)
  | [] => []
  | event :: rest => (state.step event).2 :: (state.step event).1.actions rest

/-- The parameters of all dispatches of a history, in order. -/
def dispatches (state : State P) (events : List (Event P)) : List P :=
  (state.actions events).filterMap Action.dispatched?

theorem after_concat (state : State P) (events : List (Event P)) (event : Event P) :
    state.after (events ++ [event]) = ((state.after events).step event).1 := by
  simp only [after, List.foldl_append, List.foldl_cons, List.foldl_nil]

theorem actions_concat (state : State P) (events : List (Event P)) (event : Event P) :
    state.actions (events ++ [event]) =
      state.actions events ++ [((state.after events).step event).2] := by
  induction events generalizing state with
  | nil => rfl
  | cons first rest ih => simp only [List.cons_append, actions, ih, after, List.foldl_cons]

theorem dispatches_concat (state : State P) (events : List (Event P)) (event : Event P) :
    state.dispatches (events ++ [event]) =
      state.dispatches events ++ ((state.after events).step event).2.dispatched?.toList := by
  rw [dispatches, actions_concat, List.filterMap_append, dispatches]
  cases action : ((state.after events).step event).2 <;> rfl

/-- What one event does to the parameters that wait: nothing, one more run is merged, a run is
dispatched at once, or what waits is dispatched. -/
theorem step_cases (state : State P) (event : Event P) :
    (event.params? = none ∧ (state.step event).2.dispatched? = none ∧
      (state.step event).1.pending? = state.pending?) ∨
    (∃ params, event.params? = some params ∧ (state.step event).2.dispatched? = none ∧
      (state.step event).1.pending? = addPending state.pending? params) ∨
    (∃ params, event.params? = some params ∧ state.pending? = none ∧
      (state.step event).2.dispatched? = some params ∧ (state.step event).1.pending? = none) ∨
    (∃ params, event.params? = none ∧ state.pending? = some params ∧
      (state.step event).2.dispatched? = some params ∧ (state.step event).1.pending? = none) := by
  cases event with
  | run params =>
    cases state with
    | idle => exact .inr (.inr (.inl ⟨params, rfl, rfl, rfl, rfl⟩))
    | _ => exact .inr (.inl ⟨params, rfl, rfl, rfl⟩)
  | finished succeeded =>
    rcases state with _ | ⟨running, _ | next⟩ | _ | _
    · exact .inl ⟨rfl, rfl, rfl⟩
    · cases succeeded <;> exact .inl ⟨rfl, rfl, rfl⟩
    · exact .inr (.inr (.inr ⟨next, rfl, rfl, rfl, rfl⟩))
    · exact .inl ⟨rfl, rfl, rfl⟩
    · exact .inl ⟨rfl, rfl, rfl⟩
  | observed => cases state <;> exact .inl ⟨rfl, rfl, rfl⟩
  | ready =>
    rcases state with _ | _ | ⟨finished, _ | next⟩ | ⟨finished, _ | next⟩
    · exact .inl ⟨rfl, rfl, rfl⟩
    · exact .inl ⟨rfl, rfl, rfl⟩
    · exact .inl ⟨rfl, rfl, rfl⟩
    · exact .inr (.inr (.inr ⟨next, rfl, rfl, rfl, rfl⟩))
    · exact .inl ⟨rfl, rfl, rfl⟩
    · exact .inr (.inr (.inr ⟨next, rfl, rfl, rfl, rfl⟩))

end State

end FrameGraph.OffFrame
