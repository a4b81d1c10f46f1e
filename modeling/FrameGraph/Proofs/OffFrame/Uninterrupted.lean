import FrameGraph.Proofs.OffFrame.Threads
import FrameGraph.Proofs.Pass.Setting

/-! # Calls without interruption

A session carries a call out in one go. That is what the threads of the group come to when one of them takes all steps of
its call and no other thread takes a step in between.
-/

namespace FrameGraph.OffFrame

namespace Hub

/-- The hub of a group as a session has it. -/
structure Of {σ : Type} (hub : Hub NamedParameters) (session : Session σ) (name : String) : Prop where
  coordinator : ∃ coordinator, session.coordinator? name = some coordinator ∧ coordinator.state = hub.state ∧
    coordinator.queue = hub.queue
  busy : session.shared.flag (.busy name) = hub.busy
  complete : session.shared.flag (.complete name) = hub.complete

variable {P : Type} [Parameters P]

/-- The hub after a change of its state whose action is carried out at once. -/
def carriedOut (hub : Hub P) : Action P → Hub P
  | .dispatch params => hub.send params
  | .none | .complete _ => hub

/-- The hub after all steps of an event. -/
def after (hub : Hub P) (event : Event P) : Hub P :=
  (if event.sets hub.state then (hub.enter event).mirror else hub.enter event).unlock.carriedOut (hub.state.step event).2

end Hub

section

variable {σ : Type} {session : Session σ} {hub : Hub NamedParameters} {name : String}

theorem Hub.Of.coordinate (of : hub.Of session name) {change : Coordinator → Coordinator} {after : Hub NamedParameters}
    (changed : ∀ coordinator, coordinator.state = hub.state → coordinator.queue = hub.queue →
      (change coordinator).state = after.state ∧ (change coordinator).queue = after.queue)
    (busy : after.busy = hub.busy) (complete : after.complete = hub.complete) :
    after.Of (session.modifyCoordinator name change) name := by
  obtain ⟨⟨coordinator, found, state, queue⟩, busy', complete'⟩ := of
  have shared : (session.modifyCoordinator name change).shared = session.shared := by
    unfold Session.modifyCoordinator
    split <;> rfl
  refine ⟨⟨change coordinator, ?_, changed coordinator state queue⟩, ?_, ?_⟩
  · rw [Session.coordinator?_modifyCoordinator, if_pos rfl, found]
    rfl
  · rw [shared, busy, busy']
  · rw [shared, complete, complete']

theorem Hub.Of.mirror (of : hub.Of session name) : hub.mirror.Of (session.updateFlags name) name := by
  obtain ⟨⟨coordinator, found, state, queue⟩, -, -⟩ := of
  unfold Session.updateFlags
  rw [found]
  refine ⟨⟨coordinator, found, state, queue⟩, ?_, ?_⟩
  · simp [Session.modifyShared, Shared.flag, Shared.setFlag, Shared.lookup_assign, Hub.mirror, state]
  · simp [Session.modifyShared, Shared.flag, Shared.setFlag, Shared.lookup_assign, Hub.mirror, state]

theorem Hub.Of.carryOut (of : hub.Of session name) (action : Action NamedParameters) :
    (hub.carriedOut action).Of (session.carryOut name action) name := by
  cases action with
  | none => exact of
  | dispatch params => exact of.coordinate (fun _ state queue => ⟨state, by rw [Coordinator.send, queue]; rfl⟩) rfl rfl
  | complete params =>
    have noted : hub.Of ((session.modifyShared (·.setFlag (.completedOnce name) true)).addLog .debug .offFrame
        s!"async group '{name}' complete") name := by
      refine ⟨of.coordinator, ?_, ?_⟩
      · rw [← of.busy]
        simp [Session.addLog, Session.modifyShared, Shared.flag, Shared.setFlag, Shared.lookup_assign]
      · rw [← of.complete]
        simp [Session.addLog, Session.modifyShared, Shared.flag, Shared.setFlag, Shared.lookup_assign]
    apply noted.coordinate _ rfl rfl
    intro coordinator state queue
    rw [← state, ← queue, Coordinator.callCompletion]
    split <;> exact ⟨rfl, rfl⟩

/-- A session makes a transition. -/
theorem Hub.Of.transition (of : hub.Of session name) (event : Event NamedParameters) (sets : event.sets hub.state) :
    (hub.after event).Of (session.transition name (·.step event)) name := by
  obtain ⟨coordinator, found, state, queue⟩ := of.coordinator
  have entered : (hub.enter event).Of
      (session.modifyCoordinator name fun coordinator => { coordinator with state := (hub.state.step event).1 }) name :=
    of.coordinate (fun _ _ queue => ⟨rfl, queue⟩) rfl rfl
  have mirrored := entered.mirror
  have left : (hub.enter event).mirror.unlock.Of _ name := ⟨mirrored.coordinator, mirrored.busy, mirrored.complete⟩
  unfold Session.transition Hub.after
  rw [found, if_pos sets]
  dsimp only
  rw [state]
  exact left.carryOut _

/-- A session shows the group a frame. -/
theorem Hub.Of.observe (of : hub.Of session name) : (hub.after .observed).Of (session.observeFrame name) name := by
  obtain ⟨coordinator, found, state, queue⟩ := of.coordinator
  have entered : (hub.enter .observed).Of
      (session.modifyCoordinator name fun coordinator => { coordinator with state := (hub.state.step .observed).1 }) name :=
    of.coordinate (fun _ _ queue => ⟨rfl, queue⟩) rfl rfl
  have mirrored := entered.mirror
  unfold Session.observeFrame
  rw [found]
  dsimp only
  rw [state]
  cases seen : hub.state.observe with
  | mk next changed =>
    have next_eq : (hub.state.step .observed).1 = next := congrArg Prod.fst seen
    have sets : Event.observed.sets hub.state = changed := congrArg Prod.snd seen
    unfold Hub.after
    rw [sets]
    cases changed with
    | true =>
      rw [next_eq] at mirrored
      exact ⟨mirrored.coordinator, mirrored.busy, mirrored.complete⟩
    | false =>
      have same : (hub.state.step .observed).1 = hub.state := State.observe_unchanged sets
      refine ⟨⟨coordinator, found, state.trans same.symm, queue⟩, of.busy, of.complete⟩

/-- A request arrives. -/
theorem Hub.Of.receive (of : hub.Of session name) (request : Request) :
    ∃ event : Event NamedParameters,
      event.isFinished = false ∧ (hub.after event).Of (session.receive name request) name := by
  cases request with
  | ready => exact ⟨.ready, rfl, of.transition .ready rfl⟩
  | run params =>
    refine ⟨.run params, rfl, ?_⟩
    have logged : hub.Of (if (session.coordinator? name).any (·.state.isBusy) then
        session.addLog .trace .offFrame s!"async group '{name}' busy, parameters coalesced" else session) name := by
      split
      · exact ⟨of.coordinator, of.busy, of.complete⟩
      · exact of
    exact logged.transition (.run params) rfl

end

namespace Threads

variable {P : Type} [Parameters P] {hub : Hub P} {callers : Multiset (Phase P)} {worker : Worker P}

/-- The steps of a call, with no other in between. -/
theorem steps_call (free : hub.locked = false) {event : Event P} (asked : event.isFinished = false) :
    Relation.ReflTransGen Step ⟨hub, .idle ::ₘ callers, worker⟩
      ⟨hub.after event, .idle ::ₘ callers, worker⟩ := by
  have entered : Step ⟨hub, .idle ::ₘ callers, worker⟩
      ⟨hub.enter event, hub.entered event ::ₘ callers, worker⟩ :=
    .call (.enter event free asked)
  refine .head entered (.head (.call .leave) (.single (.call ?_)))
  unfold Hub.after
  cases action : (hub.state.step event).2 with
  | none => exact .rest
  | dispatch params => exact .send
  | complete params =>
    obtain ⟨rfl, -⟩ := (State.step_completes _ _ _).mp action
    cases asked

/-- The steps of the worker at the end of a job without a completion hook, with no other in between. -/
theorem steps_finish (free : hub.locked = false) {params : P} (succeeded : Bool) :
    Relation.ReflTransGen Step ⟨hub, callers, .dispatching params .idle⟩
      ⟨hub.after (.finished succeeded), callers, .finishing .idle⟩ := by
  have entered : Step ⟨hub, callers, .dispatching params .idle⟩
      ⟨hub.enter (.finished succeeded), callers, .finishing (hub.entered (.finished succeeded))⟩ :=
    .work (.finish succeeded free)
  refine .head entered (.head (.work (.act nofun .leave)) (.single (.work ?_)))
  unfold Hub.after
  cases (hub.state.step (.finished succeeded)).2 with
  | none => exact .act nofun .rest
  | dispatch next => exact .act nofun .send
  | complete finished => exact .skip

variable {σ : Type} {session : Session σ} {hub : Hub NamedParameters} {name : String}

/-- What a session does with a request is a way for a caller to make it. -/
theorem receive_steps (of : hub.Of session name) (free : hub.locked = false) (request : Request) :
    ∃ after : Hub NamedParameters, after.Of (session.receive name request) name ∧ ∀ callers worker,
      Relation.ReflTransGen Step ⟨hub, .idle ::ₘ callers, worker⟩ ⟨after, .idle ::ₘ callers, worker⟩ := by
  obtain ⟨event, asked, received⟩ := of.receive request
  exact ⟨_, received, fun _ _ => steps_call free asked⟩

/-- What it does with a frame is a way for a caller to show it. -/
theorem observe_steps (of : hub.Of session name) (free : hub.locked = false) :
    ∃ after : Hub NamedParameters, after.Of (session.observeFrame name) name ∧ ∀ callers worker,
      Relation.ReflTransGen Step ⟨hub, .idle ::ₘ callers, worker⟩ ⟨after, .idle ::ₘ callers, worker⟩ :=
  ⟨_, of.observe, fun _ _ => steps_call free rfl⟩

/-- How it takes a job is a way for the worker to begin one. -/
theorem take_steps (of : hub.Of session name) (free : hub.locked = false) {params : NamedParameters}
    {rest : List NamedParameters} (queued : hub.queue = params :: rest) :
    ∃ after : Hub NamedParameters,
      after.Of (session.modifyCoordinator name fun coordinator =>
        { coordinator with queue := rest, stage := .busy, dispatches := coordinator.dispatches + 1 }) name ∧
      ∀ callers ≠ 0,
        Relation.ReflTransGen Step ⟨hub, callers, .receiving⟩ ⟨after, callers, .dispatching params .idle⟩ := by
  refine ⟨{ hub with queue := rest, executing := true }, of.coordinate (fun _ state _ => ⟨state, rfl⟩) rfl rfl,
    fun callers alive => ?_⟩
  have received : Step ⟨hub, callers, .receiving⟩ ⟨{ hub with queue := rest }, callers, .received params⟩ :=
    .work (.receive queued)
  exact .head received (.head (.work (.hold alive)) (.single (.work (.start free))))

/-- How it ends a job is a way for the worker to end one. -/
theorem finish_steps (of : hub.Of session name) (free : hub.locked = false) (succeeded : Bool) :
    ∃ after : Hub NamedParameters, after.Of (session.transition name (State.finish succeeded)) name ∧
      ∀ callers params,
      Relation.ReflTransGen Step ⟨hub, callers, .dispatching params .idle⟩ ⟨after, callers, .finishing .idle⟩ :=
  ⟨_, of.transition (.finished succeeded) rfl, fun _ _ => steps_finish free succeeded⟩

end Threads

end FrameGraph.OffFrame
