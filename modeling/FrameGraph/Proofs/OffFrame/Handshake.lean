import FrameGraph.Proofs.OffFrame.History
import Mathlib.Data.List.Induction
import Mathlib.Data.Nat.Init

/-! # Backpressure

The handshake keeps one dispatch in flight. Events may come in any order and may be unexpected: what counts as an
answer, as a result and as a hold is read off the events and the actions of a history alone, and holds of every
history from idle.
-/

namespace FrameGraph.OffFrame

variable {P : Type}

/-- The event says that a dispatch has finished. -/
def Event.isFinished : Event P → Bool
  | .finished _ => true
  | _ => false

namespace State

/-- The parameters of the dispatch in flight. -/
def running? : State P → Option P
  | dispatching running _ => some running
  | _ => none

theorem isSome_running? (state : State P) : state.running?.isSome = state.isDispatching := by cases state <;> rfl

variable [Parameters P]

/-- A state is dispatching after an event that asks for a dispatch, or because it was and nothing has finished. -/
theorem step_isDispatching (state : State P) (event : Event P) :
    (state.step event).1.isDispatching =
      ((state.step event).2.dispatched?.isSome || (state.isDispatching && !event.isFinished)) := by
  cases event with
  | run params => cases state <;> rfl
  | finished succeeded =>
    rcases state with _ | ⟨running, _ | next⟩ | _ | _
    · rfl
    · cases succeeded <;> rfl
    · rfl
    · rfl
    · rfl
  | observed => cases state <;> rfl
  | ready =>
    rcases state with _ | _ | ⟨finished, _ | next⟩ | ⟨finished, _ | next⟩ <;> rfl

/-- The dispatch in flight is the one that was asked for last. -/
theorem step_running? (state : State P) (event : Event P) {running : P}
    (flying : (state.step event).1.running? = some running) :
    (state.step event).2.dispatched? = some running ∨
      ((state.step event).2.dispatched? = none ∧ state.running? = some running) := by
  cases event with
  | run params => cases state <;> first | exact .inl flying | exact .inr ⟨rfl, flying⟩
  | finished succeeded =>
    rcases state with _ | ⟨other, _ | next⟩ | _ | _
    · cases flying
    · cases succeeded <;> cases flying
    · exact .inl flying
    · cases flying
    · cases flying
  | observed => cases state <;> exact .inr ⟨rfl, flying⟩
  | ready =>
    rcases state with _ | _ | ⟨finished, _ | next⟩ | ⟨finished, _ | next⟩
    · cases flying
    · exact .inr ⟨rfl, flying⟩
    · cases flying
    · exact .inl flying
    · cases flying
    · exact .inl flying

/-- While a dispatch is in flight, only its end brings another. -/
theorem step_dispatched?_of_isDispatching {state : State P} {event : Event P} (dispatching : state.isDispatching)
    (going : event.isFinished = false) : (state.step event).2.dispatched? = none := by
  cases state with
  | dispatching running pending => cases event <;> first | rfl | cases going
  | _ => cases dispatching

/-- A result is reported when a dispatch succeeds while nothing waits. -/
theorem step_completes (state : State P) (event : Event P) (params : P) :
    (state.step event).2 = .complete params ↔
      event = .finished true ∧ state.running? = some params ∧ state.pending? = none := by
  constructor
  · intro completes
    cases event with
    | run _ => cases state <;> cases completes
    | observed => cases state <;> cases completes
    | ready => rcases state with _ | _ | ⟨_, _ | _⟩ | ⟨_, _ | _⟩ <;> cases completes
    | finished succeeded =>
      rcases state with _ | ⟨running, _ | next⟩ | _ | _
      · cases completes
      · cases succeeded <;> cases completes
        exact ⟨rfl, rfl, rfl⟩
      · cases completes
      · cases completes
      · cases completes
  · rintro ⟨rfl, flying, idle⟩
    cases state with
    | dispatching running pending =>
      cases flying
      cases idle
      rfl
    | _ => cases flying

/-- A reported result holds everything back until somebody is ready for the next. -/
theorem step_of_isComplete {state : State P} {event : Event P} (complete : state.isComplete) (held : event ≠ .ready) :
    (state.step event).1.isComplete ∧ (state.step event).2.dispatched? = none := by
  cases event with
  | ready => exact absurd rfl held
  | _ => cases state <;> first | exact ⟨rfl, rfl⟩ | cases complete

theorem step_isComplete_of_complete {state : State P} {event : Event P} {params : P}
    (completes : (state.step event).2 = .complete params) : (state.step event).1.isComplete := by
  obtain ⟨rfl, flying, idle⟩ := (step_completes state event params).mp completes
  cases state with
  | dispatching running pending =>
    cases idle
    rfl
  | _ => cases flying

/-! ## Places in a history -/

theorem length_actions (state : State P) (events : List (Event P)) :
    (state.actions events).length = events.length := by
  induction events generalizing state with
  | nil => rfl
  | cons event rest ih => rw [actions, List.length_cons, List.length_cons, ih]

/-- An action is that of its event in the state that the events before it have left. -/
theorem getElem?_actions (state : State P) (events : List (Event P)) (place : Nat) :
    (state.actions events)[place]? =
      events[place]?.map fun event => ((state.after (events.take place)).step event).2 := by
  induction events generalizing state place with
  | nil => simp [actions]
  | cons event rest ih =>
    cases place with
    | zero => rfl
    | succ place => simp [actions, ih, after]

theorem getElem?_actions_eq_some {state : State P} {events : List (Event P)} {place : Nat} {action : Action P} :
    (state.actions events)[place]? = some action ↔
      ∃ event, events[place]? = some event ∧ ((state.after (events.take place)).step event).2 = action := by
  rw [getElem?_actions, Option.map_eq_some_iff]

theorem after_take_succ (state : State P) {events : List (Event P)} {place : Nat} {event : Event P}
    (found : events[place]? = some event) :
    state.after (events.take (place + 1)) = ((state.after (events.take place)).step event).1 := by
  rw [List.take_add_one, found, Option.toList_some, after_concat]

/-- What every event between two places keeps holds at the second if it holds at the first. -/
theorem after_take_keeps {state : State P} {events : List (Event P)} (holds : State P → Prop) {first last : Nat}
    (inside : last ≤ events.length) (ordered : first ≤ last) (start : holds (state.after (events.take first)))
    (kept : ∀ place event, first ≤ place → place < last → events[place]? = some event →
      holds (state.after (events.take place)) → holds ((state.after (events.take place)).step event).1) :
    holds (state.after (events.take last)) := by
  induction last, ordered using Nat.le_induction with
  | base => exact start
  | succ place since ih =>
    have found : events[place]? = some events[place] := List.getElem?_eq_getElem _
    rw [after_take_succ state found]
    refine kept place _ since (Nat.lt_succ_self place) found (ih (Nat.le_of_succ_le inside) ?_)
    exact fun other event later sooner => kept other event later (Nat.lt_succ_of_lt sooner)

/-! ## Outstanding dispatches -/

/-- Dispatches that nobody has answered, after one more event: an end answers one, and a dispatch adds one. -/
def unanswered (count : Nat) (event : Event P) (action : Action P) : Nat :=
  (if event.isFinished then count - 1 else count) + action.dispatched?.toList.length

/-- Dispatches of a history that nobody has answered. -/
def outstanding (state : State P) (events : List (Event P)) : Nat :=
  (events.zip (state.actions events)).foldl (fun count (event, action) => unanswered count event action) 0

theorem outstanding_concat (state : State P) (events : List (Event P)) (event : Event P) :
    state.outstanding (events ++ [event]) =
      unanswered (state.outstanding events) event ((state.after events).step event).2 := by
  rw [outstanding, actions_concat, List.zip_append (length_actions state events).symm, List.foldl_append]
  rfl

/-- One dispatch is outstanding exactly while the state is dispatching, and never more than one. -/
theorem outstanding_eq (events : List (Event P)) :
    idle.outstanding events = (idle.after events).isDispatching.toNat := by
  induction events using List.reverseRecOn with
  | nil => rfl
  | append_singleton events event ih =>
    have going (dispatching : (idle.after events).isDispatching) (going : event.isFinished = false) :
        ((idle.after events).step event).2.dispatched? = none := step_dispatched?_of_isDispatching dispatching going
    rw [outstanding_concat, after_concat, step_isDispatching, unanswered, ih]
    cases flying : (idle.after events).isDispatching <;> cases finished : event.isFinished <;>
      cases sent : ((idle.after events).step event).2.dispatched? <;> simp_all

theorem getLast?_dispatches {events : List (Event P)} {running : P}
    (flying : (idle.after events).running? = some running) : (idle.dispatches events).getLast? = some running := by
  induction events using List.reverseRecOn with
  | nil => cases flying
  | append_singleton events event ih =>
    rw [after_concat] at flying
    rw [dispatches_concat]
    obtain sent | ⟨sent, still⟩ := step_running? _ _ flying
    · rw [sent, Option.toList_some, List.getLast?_concat]
    · rw [sent, Option.toList_none, List.append_nil, ih still]

end State

variable [Parameters P]

/-- A history of the handshake is paced by its answers. -/
structure Paced (events : List (Event P)) : Prop where
  /-- Between two dispatches the first has finished; the end of the first may bring the second. -/
  answered : ∀ (first last : Nat) (older newer : P), first < last →
    (State.idle.actions events)[first]? = some (.dispatch older) →
    (State.idle.actions events)[last]? = some (.dispatch newer) →
      ∃ place succeeded, first < place ∧ place ≤ last ∧ events[place]? = some (.finished succeeded)
  /-- One dispatch is outstanding while the state is dispatching, and otherwise none. -/
  outstanding : State.idle.outstanding events = (State.idle.after events).isDispatching.toNat
  /-- A result is reported just when an outstanding dispatch succeeds while no parameters wait, and it is that of
  the latest dispatch. -/
  completes : ∀ (place : Nat) (params : P), (State.idle.actions events)[place]? = some (.complete params) ↔
    events[place]? = some (.finished true) ∧ State.idle.outstanding (events.take place) = 1 ∧
      (State.idle.after (events.take place)).pending? = none ∧
        (State.idle.dispatches (events.take place)).getLast? = some params
  /-- From a result until somebody is ready for the next, nothing is dispatched. -/
  held : ∀ (first last : Nat) (finished : P), first < last →
    (State.idle.actions events)[first]? = some (.complete finished) →
    (∀ place, first < place → place ≤ last → events[place]? ≠ some .ready) →
      ∀ params, (State.idle.actions events)[last]? ≠ some (.dispatch params)
  /-- A dispatch that failed is never reported: a result after a failure is that of a later dispatch. -/
  failed : ∀ (first last : Nat) (params : P), first < last → events[first]? = some (.finished false) →
    (State.idle.actions events)[last]? = some (.complete params) →
      ∃ place newer, first ≤ place ∧ place < last ∧ (State.idle.actions events)[place]? = some (.dispatch newer)

/-- After a dispatch, the state is dispatching until an end arrives. -/
theorem answered_of_dispatches (events : List (Event P)) {first last : Nat} {older newer : P} (ordered : first < last)
    (one : (State.idle.actions events)[first]? = some (.dispatch older))
    (two : (State.idle.actions events)[last]? = some (.dispatch newer)) :
    ∃ place succeeded, first < place ∧ place ≤ last ∧ events[place]? = some (.finished succeeded) := by
  by_contra never
  have going (place : Nat) (event : Event P) (later : first < place) (sooner : place ≤ last)
      (found : events[place]? = some event) : event.isFinished = false := by
    cases event with
    | finished succeeded => exact absurd ⟨place, succeeded, later, sooner, found⟩ never
    | _ => rfl
  obtain ⟨begun, found, sent⟩ := State.getElem?_actions_eq_some.mp one
  obtain ⟨event, arrived, again⟩ := State.getElem?_actions_eq_some.mp two
  have inside : last < events.length := (List.getElem?_eq_some_iff.mp arrived).1
  have started : (State.idle.after (events.take (first + 1))).isDispatching := by
    rw [State.after_take_succ _ found, State.step_isDispatching, sent]
    rfl
  have flying : (State.idle.after (events.take last)).isDispatching := by
    refine State.after_take_keeps (fun state => state.isDispatching) (Nat.le_of_lt inside) ordered started ?_
    intro place event since before found held
    rw [State.step_isDispatching, held, going place event since (Nat.le_of_lt before) found]
    exact Bool.or_true _
  have silent := State.step_dispatched?_of_isDispatching flying (going last event ordered (Nat.le_refl _) arrived)
  rw [again] at silent
  cases silent

theorem completes_iff (events : List (Event P)) (place : Nat) (params : P) :
    (State.idle.actions events)[place]? = some (.complete params) ↔
      events[place]? = some (.finished true) ∧ State.idle.outstanding (events.take place) = 1 ∧
        (State.idle.after (events.take place)).pending? = none ∧
          (State.idle.dispatches (events.take place)).getLast? = some params := by
  rw [State.getElem?_actions_eq_some, State.outstanding_eq, ← State.isSome_running?]
  constructor
  · rintro ⟨event, found, completes⟩
    obtain ⟨rfl, flying, idle⟩ := (State.step_completes _ _ _).mp completes
    exact ⟨found, by rw [flying]; rfl, idle, State.getLast?_dispatches flying⟩
  · rintro ⟨found, one, idle, latest⟩
    refine ⟨_, found, (State.step_completes _ _ _).mpr ⟨rfl, ?_, idle⟩⟩
    cases flying : (State.idle.after (events.take place)).running? with
    | none => rw [flying] at one; cases one
    | some running => rw [← latest, State.getLast?_dispatches flying]

/-- A result that nobody was ready for is still there. -/
theorem held_of_complete (events : List (Event P)) {first last : Nat} {finished : P} (ordered : first < last)
    (completes : (State.idle.actions events)[first]? = some (.complete finished))
    (busy : ∀ place, first < place → place ≤ last → events[place]? ≠ some .ready) (params : P) :
    (State.idle.actions events)[last]? ≠ some (.dispatch params) := by
  intro sent
  obtain ⟨ended, found, reported⟩ := State.getElem?_actions_eq_some.mp completes
  obtain ⟨event, arrived, dispatches⟩ := State.getElem?_actions_eq_some.mp sent
  have inside : last < events.length := (List.getElem?_eq_some_iff.mp arrived).1
  have started : (State.idle.after (events.take (first + 1))).isComplete := by
    rw [State.after_take_succ _ found]
    exact State.step_isComplete_of_complete reported
  have complete : (State.idle.after (events.take last)).isComplete := by
    refine State.after_take_keeps (fun state => state.isComplete) (Nat.le_of_lt inside) ordered started ?_
    intro place event since before found held
    exact (State.step_of_isComplete held fun ready => busy place since (Nat.le_of_lt before) (ready ▸ found)).1
  have silent := (State.step_of_isComplete complete fun ready => busy last ordered (Nat.le_refl _) (ready ▸ arrived)).2
  rw [dispatches] at silent
  cases silent

/-- After a failure, only another dispatch can be reported. -/
theorem exists_dispatch_of_failed (events : List (Event P)) {first last : Nat} {params : P} (ordered : first < last)
    (failed : events[first]? = some (.finished false))
    (completes : (State.idle.actions events)[last]? = some (.complete params)) :
    ∃ place newer, first ≤ place ∧ place < last ∧
      (State.idle.actions events)[place]? = some (.dispatch newer) := by
  by_contra never
  have silent (place : Nat) (event : Event P) (later : first ≤ place) (sooner : place < last)
      (found : events[place]? = some event) :
      ((State.idle.after (events.take place)).step event).2.dispatched? = none := by
    cases sent : ((State.idle.after (events.take place)).step event).2 with
    | dispatch newer =>
      exact absurd ⟨place, newer, later, sooner, State.getElem?_actions_eq_some.mpr ⟨event, found, sent⟩⟩ never
    | _ => rfl
  obtain ⟨event, arrived, reported⟩ := State.getElem?_actions_eq_some.mp completes
  have inside : last < events.length := (List.getElem?_eq_some_iff.mp arrived).1
  have stopped : (State.idle.after (events.take (first + 1))).isDispatching = false := by
    rw [State.after_take_succ _ failed, State.step_isDispatching, silent first _ (Nat.le_refl _) ordered failed]
    exact Bool.and_false _
  have still : (State.idle.after (events.take last)).isDispatching = false := by
    refine State.after_take_keeps (fun state => state.isDispatching = false) (Nat.le_of_lt inside) ordered stopped ?_
    intro place event since before found held
    rw [State.step_isDispatching, held, silent place event (Nat.le_of_succ_le since) before found]
    rfl
  obtain ⟨-, flying, -⟩ := (State.step_completes _ _ _).mp reported
  rw [← State.isSome_running?, flying] at still
  cases still

/-- Every history from idle is paced, whatever arrives in whatever order. -/
theorem history_paced (events : List (Event P)) : Paced events where
  answered _ _ _ _ := answered_of_dispatches events
  outstanding := State.outstanding_eq events
  completes := completes_iff events
  held _ _ _ := held_of_complete events
  failed _ _ _ := exists_dispatch_of_failed events

/-- A failed dispatch with parameters waiting, a result that comes twice, a run and a ready. -/
example : (State.idle (P := Unit)).actions
    [.run (), .run (), .finished false, .finished true, .finished true, .run (), .ready] =
      [.dispatch (), .none, .dispatch (), .complete (), .none, .none, .dispatch ()] := rfl

end FrameGraph.OffFrame
