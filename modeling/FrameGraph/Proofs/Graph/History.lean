import FrameGraph.Proofs.Graph.Calls
import Mathlib.Data.List.Induction

/-! # Histories of calls

A built graph goes through any sequence of calls. Between them its device may change by itself, the caller
may change the shared values, and requests may reach coordinators. What the calls uphold holds of the graph
after every history, and every call moves the pool in one of a few ways.
-/

namespace FrameGraph.Graph

variable {σ : Type}

/-- What may happen to a graph. -/
inductive Call (σ : Type) where
  | setup (surface : Surface)
  | resize (surface : Surface)
  | encode (target : Option Texture) (surface : Surface)
  | request (name : String) (request : OffFrame.Request)
  | release (name : String) (answer : Except String Unit)
  | observe (name : String)
  | share (change : Shared → Shared)
  | host (change : Host σ → Host σ)

namespace Call

/-- The surface that a call is made with. -/
def surface? : Call σ → Option Surface
  | setup surface | resize surface | encode _ surface => some surface
  | _ => none

/-- Change the session. -/
def change (f : Session σ → Session σ) : GraphM σ Unit :=
  modify fun graph => { graph with session := f graph.session }

variable [Device σ]

def run : Call σ → GraphM σ Unit
  | setup surface => Graph.setup surface
  | resize surface => Graph.resize surface
  | encode target surface => do
    let _ ← Graph.encode target surface
  | request name asked => change (Session.ask name asked)
  | release name answer => change (Session.release name answer)
  | observe name => change (·.observeFrame name)
  | share f => change (·.modifyShared f)
  | host f => change fun session => { session with host := f session.host }

/-- The call fails on a graph. -/
def Fails (call : Call σ) (graph : Graph σ) : Prop := ∃ error, (call.run.apply graph).1 = .error error

/-- The graph that a call leaves, whether it fails or not. -/
def next (graph : Graph σ) (call : Call σ) : Graph σ := (call.run.apply graph).2

omit [Device σ] in
/-- What the caller changes between calls keeps what is kept. -/
def Spares (kept : Session σ → Prop) : Call σ → Prop
  | share f => ∀ session, kept session → kept (session.modifyShared f)
  | host f => ∀ session, kept session → kept { session with host := f session.host }
  | _ => True

omit [Device σ] in
theorem spares_any (call : Call σ) : call.Spares fun _ => True := by
  cases call <;> first | trivial | exact fun _ => id

end Call

/-- How a call that succeeds moves the pool. -/
def Moves (before after : Graph σ) : Option Surface → Prop
  | some surface => Rests before after ∨ Adapts surface before after ∨ Begins surface before after
  | none => Rests before after

/-- How a call that fails moves the pool. -/
def Falters (before after : Graph σ) : Option Surface → Prop
  | some surface => Strays surface before after ∨ Adapts surface before after
  | none => False

variable [Device σ] {kept : Session σ → Prop} {raw good : Pass → Prop} {admitted : Command → Prop}
  {broken allowed : Setting → PassError → Prop} {program : CompiledProgram} {table : ResourceTable}
  {graph : Graph σ}

open Effect (Ensures)

omit [Device σ] in
/-- A change of the session that leaves the setting alone moves nothing. -/
theorem change_ensures (sound : graph.Sound kept raw good program table) (f : Session σ → Session σ)
    (stands : (f graph.session).Stands graph.session.setting kept)
    {failed : GraphError → Graph σ → Prop} :
    Ensures (· = graph) (Call.change f)
      (fun _ after => after.Sound kept raw good program table ∧ Rests graph after) failed := by
  refine .ofModify ?_
  rintro g rfl
  exact ⟨sound.act stands.kept stands.compiled_eq stands.pool_eq stands.surface_eq sound.raw sound.good,
    rfl, stands.pool_eq⟩

/-- Every call leaves a sound graph sound. -/
theorem run_ensures (rules : Upholds kept raw good admitted broken allowed) [LawfulDevice σ]
    (sound : graph.Sound kept raw good program table) (call : Call σ) (spares : call.Spares kept) :
    Ensures (· = graph) call.run
      (fun _ after => after.Sound kept raw good program table ∧ Moves graph after call.surface?)
      fun _ after => after.Sound kept raw good program table ∧ Falters graph after call.surface? := by
  have here : graph.session.Stands graph.session.setting kept := ⟨rfl, sound.kept⟩
  cases call with
  | setup surface =>
    refine (setup_ensures rules sound surface).mono ?_ ?_
    · exact fun _ _ done => ⟨done.1, done.2.2⟩
    · exact fun _ _ failed => ⟨failed.1, .inl failed.2⟩
  | resize surface =>
    refine (resize_ensures rules sound surface).mono ?_ ?_
    · exact fun _ _ done => ⟨done.1, done.2.2.imp_right .inl⟩
    · exact fun _ _ failed => ⟨failed.1, .inl failed.2.1⟩
  | encode target surface =>
    refine .bind (.mono (encode_ensures rules sound target surface) (fun _ _ => id) ?_) fun _ => .ofPure ?_
    · exact fun _ _ failed => ⟨failed.1, failed.2.1⟩
    · exact fun _ done => ⟨done.2.1, done.2.2.moved.imp_right .inl⟩
  | request name request => exact change_ensures sound _ (rules.asked _ _ name request here)
  | release name answer => exact change_ensures sound _ (rules.released _ _ name answer here)
  | observe name => exact change_ensures sound (·.observeFrame name) ((rules.upheld _).observeFrame name here)
  | share f => exact change_ensures sound (·.modifyShared f) ⟨rfl, spares _ sound.kept⟩
  | host f =>
    exact change_ensures sound (fun session => { session with host := f session.host }) ⟨rfl, spares _ sound.kept⟩

theorem Call.next_encode (graph : Graph σ) (target : Option Texture) (surface : Surface) :
    (Call.encode target surface).next graph = ((Graph.encode target surface).apply graph).2 := by
  rw [next, run, Effect.apply_bind]
  split
  · rename_i applied
    rw [applied]
    rfl
  · rename_i applied
    rw [applied]

/-- The graph after a sequence of calls, oldest first; each starts from what the one before left. -/
def after (graph : Graph σ) (calls : List (Call σ)) : Graph σ := calls.foldl Call.next graph

omit [Device σ] in
theorem after_append [Device σ] (graph : Graph σ) (earlier later : List (Call σ)) :
    graph.after (earlier ++ later) = (graph.after earlier).after later := List.foldl_append

/-- The next graph is sound, and the call has moved it according to how it ended. -/
theorem next_ensures (rules : Upholds kept raw good admitted broken allowed) [LawfulDevice σ]
    (sound : graph.Sound kept raw good program table) (call : Call σ) (spares : call.Spares kept) :
    (call.next graph).Sound kept raw good program table ∧
      (graph.Moves (call.next graph) call.surface? ∨
        call.Fails graph ∧ graph.Falters (call.next graph) call.surface?) := by
  have run := run_ensures rules sound call spares graph rfl
  unfold Call.next Call.Fails
  split at run
  · rename_i applied
    rw [applied]
    exact ⟨run.1, .inl run.2⟩
  · rename_i error _ applied
    rw [applied]
    exact ⟨run.1, .inr ⟨⟨error, rfl⟩, run.2⟩⟩

/-- What calls uphold holds after every history. -/
theorem after_sound (rules : Upholds kept raw good admitted broken allowed) [LawfulDevice σ]
    (sound : graph.Sound kept raw good program table) (calls : List (Call σ))
    (spares : ∀ call ∈ calls, call.Spares kept) : (graph.after calls).Sound kept raw good program table := by
  induction calls using List.reverseRecOn with
  | nil => exact sound
  | append_singleton calls call ih =>
    rw [after_append]
    rw [List.forall_mem_append, List.forall_mem_singleton] at spares
    exact (next_ensures rules (ih spares.1) call spares.2).1

/-- What depends only on what leaves were built as is upheld, whatever a device does. -/
theorem Upholds.ofLasting {raw good : Pass → Prop} (lasting : Pass.Lasting raw good) :
    Upholds (σ := σ) (fun _ => True) raw good (fun _ => True) (PassError.Raised · raw)
      (PassError.Raised · good) where
  weaken := lasting.weaken
  relocate _ _ _ _ _ := trivial
  createModule _ _ := (Ensures.any _).mono (fun _ _ => id) fun _ _ => id
  spares _ := ⟨fun _ _ _ => trivial, fun _ => Ensures.any _, fun _ => Ensures.any _⟩
  setsUp _ _ seen := lasting.setsUp seen
  upheld _ := lasting.upheld
  asked setting session name request := (Session.at_upheldInJobs setting).asked name request session
  released setting session name answer := (Session.at_upheldInJobs setting).release name answer session

end FrameGraph.Graph
