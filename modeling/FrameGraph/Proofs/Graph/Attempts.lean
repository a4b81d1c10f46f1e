import FrameGraph.Proofs.Graph.Frames
import FrameGraph.Proofs.Pass.Handover

/-! # Attempts to set a graph up

A setup may fail and be tried again, but what it has done to off-frame groups stays done: children that it has handed
over stay with their coordinator, and children of which one failed are lost for good.
-/

namespace FrameGraph.Graph

open Effect (Ensures Keeps)

variable {σ : Type} {graph : Graph σ}

/-- A call that tries to set a graph up, or that changes what the next attempt finds. -/
def Call.Attempts : Call σ → Prop
  | setup _ | resize _ | share _ | host _ => True
  | _ => False

/-- The passes, the coordinators and the readiness are as before. -/
structure Unmoved (before after : Graph σ) : Prop where
  passes_eq : after.passes = before.passes
  coordinators_eq : after.session.coordinators = before.session.coordinators
  ready_eq : after.ready = before.ready

theorem Unmoved.act {g : Graph σ} (unmoved : Unmoved graph g) {session : Session σ}
    (same : session.coordinators = g.session.coordinators) : Unmoved graph { g with session } :=
  ⟨unmoved.passes_eq, same.trans unmoved.coordinators_eq, unmoved.ready_eq⟩

theorem note_unmoved (level : LogLevel) (text : String) : Keeps (Unmoved graph) (note level text) := by
  refine .inside fun g unmoved => .ofModify fun session here => ?_
  subst here
  exact unmoved.act rfl

theorem setSurface_unmoved (surface : Surface) : Keeps (Unmoved graph) (setSurface surface) :=
  .ofModify fun _ unmoved => unmoved.act rfl

theorem deviceAction_unmoved {α : Type} (wrap : DeviceError → GraphError) (action : HostM σ α) :
    Keeps (Unmoved graph) (deviceAction wrap action) := by
  have any : Keeps (fun _ : Host σ => True) action := .any _
  refine .ofEach fun g unmoved => (deviceAction_ensures wrap trivial any).mono ?_ ?_
  · rintro _ _ ⟨host, -, rfl⟩
    exact unmoved.act rfl
  · rintro _ _ ⟨-, host, -, rfl⟩
    exact unmoved.act rfl

theorem poolAction_unmoved {α : Type} (action : PoolM σ α) : Keeps (Unmoved graph) (poolAction action) := by
  have any : PartEffect.Keeps (fun (_ : Pool) (_ : Host σ) => True) action := .any _
  refine .ofEach fun g unmoved => (poolAction_ensures trivial any (any.pre fun _ _ _ => trivial)).mono ?_ ?_
  · rintro _ _ ⟨host, pool, -, -, rfl⟩
    exact unmoved.act rfl
  · rintro _ _ ⟨-, host, pool, -, -, rfl⟩
    exact unmoved.act rfl

theorem keepModules_unmoved (modules : List ShaderModule) : Keeps (Unmoved graph) (keepModules modules) := by
  refine .ofGet fun g unmoved => .ofIf (fun _ => ?_) fun _ => .ofSet fun _ _ => unmoved.act rfl
  exact .pre (fun _ here => here ▸ unmoved) (note_unmoved _ _)

variable [Device σ]

theorem resize_unmoved (surface : Surface) : Keeps (Unmoved graph) (resize surface) := by
  refine .ofGet fun g unmoved => .pre (fun _ here => here ▸ unmoved) (.ofIf (fun _ => ?_) fun _ => setSurface_unmoved surface)
  exact (poolAction_unmoved _).bind fun _ => setSurface_unmoved surface

/-- What a setup does before it comes to the passes. -/
def arrange (surface : Surface) : GraphM σ Unit := do
  keepModules (← (← get).session.compiled.units.mapM createModule)
  let _ ← poolAction (Pool.materialize surface)
  setSurface surface

/-- What a setup does with the passes and after them. -/
def setUpPasses (surface : Surface) : GraphM σ Unit := do
  passAction (Pass.setupAll ⟨(← get).session.pool, surface⟩)
  modify fun graph => { graph with ready := true }
  note .info s!"pass graph set up at {surface.sizeText}"

theorem setup_apply (surface : Surface) (unready : ¬graph.ready) :
    (setup surface).apply graph = (do arrange surface; setUpPasses surface : GraphM σ Unit).apply graph := by
  unfold setup arrange setUpPasses
  rw [Effect.apply_bind, Effect.apply_get]
  dsimp only
  rw [if_neg unready]
  simp only [bind_assoc]
  rfl

theorem arrange_unmoved (surface : Surface) : Keeps (Unmoved graph) (arrange surface) := by
  refine .ofGet fun g unmoved => .pre (fun _ here => here ▸ unmoved) (.bind (.mapM (fun _ _ => Unmoved graph)
    fun _ _ unit _ => deviceAction_unmoved _ _) fun modules => ?_)
  exact (keepModules_unmoved modules).bind fun _ => (poolAction_unmoved _).bind fun _ => setSurface_unmoved surface

/-- What a call does with the children of the off-frame groups, in order. -/
def Call.handovers (graph : Graph σ) : Call σ → List Pass.Handover
  | setup surface =>
    if graph.ready then []
    else match (arrange surface).apply graph with
      | (.ok (), arranged) => Pass.handoversAll ⟨arranged.session.pool, surface⟩ arranged.passes arranged.session
      | (.error _, _) => []
  | _ => []

/-- What a sequence of calls does with them. -/
def handovers (graph : Graph σ) : List (Call σ) → List Pass.Handover
  | [] => []
  | call :: calls => call.handovers graph ++ (call.next graph).handovers calls

/-- Calls have settled the off-frame groups of a graph; none is pending once it is ready. -/
structure Settled (table : ResourceTable) (leaves : List (FlatLeaf × CompiledLeaf)) (root : List Component)
    (start : Graph σ) (handed : List Pass.Handover) (graph : Graph σ) : Prop where
  shaped : graph.Shaped table leaves root
  settles : Pass.Settles table leaves (Component.pendingAll root start.passes) handed
    (Component.pendingAll root graph.passes) start.session graph.session
  ready : graph.ready → Component.pendingAll root graph.passes = []

variable {table : ResourceTable} {leaves : List (FlatLeaf × CompiledLeaf)} {root : List Component}

omit [Device σ] in
/-- Where nothing was moved, nothing was handed over. -/
theorem Unmoved.settled {after : Graph σ} (unmoved : Unmoved graph after) (shaped : graph.Shaped table leaves root)
    (settled : graph.ready → Component.pendingAll root graph.passes = []) :
    Settled table leaves root graph [] after where
  shaped := by
    rw [Shaped, unmoved.passes_eq]
    exact shaped
  settles := by
    rw [unmoved.passes_eq]
    exact .refl _ unmoved.coordinators_eq
  ready now := by
    rw [unmoved.passes_eq]
    exact settled (unmoved.ready_eq ▸ now)

/-- The passes are set up as they have been left, and the graph is ready when all of them are. -/
theorem setUpPasses_settled (shaped : graph.Shaped table leaves root) (unready : ¬graph.ready) (surface : Surface) :
    Ensures (· = graph) (setUpPasses surface)
      (fun _ => Settled table leaves root graph
        (Pass.handoversAll ⟨graph.session.pool, surface⟩ graph.passes graph.session))
      fun _ => Settled table leaves root graph
        (Pass.handoversAll ⟨graph.session.pool, surface⟩ graph.passes graph.session) := by
  refine .ofGet fun g here => ?_
  subst here
  let handed := Pass.handoversAll ⟨g.session.pool, surface⟩ g.passes g.session
  have set : Ensures (· = g) (passAction (Pass.setupAll ⟨g.session.pool, surface⟩))
      (fun _ after => Settled table leaves root g handed after ∧ Component.pendingAll root after.passes = [])
      fun _ => Settled table leaves root g handed := by
    have steps : Component.AllSettled table leaves root g.passes ⟨g.session.pool, surface⟩ g.session :=
      Component.setupAll_settled root g.passes g.session shaped
    refine (@passAction_step σ g (· = g.session) _ _ _ rfl steps).mono ?_ ?_
    · rintro _ _ ⟨session, passes, ⟨become, none, settles⟩, rfl⟩
      exact ⟨⟨become, none ▸ settles, fun _ => none⟩, none⟩
    · rintro _ _ ⟨-, session, passes, ⟨become, settles⟩, -, rfl⟩
      exact ⟨become, settles, fun ready => absurd ready unready⟩
  have finished : Keeps (Settled table leaves root g handed) (note .info s!"pass graph set up at {surface.sizeText}") := by
    refine .inside fun now settled => .ofModify fun session there => ?_
    subst there
    exact ⟨settled.shaped, ⟨settled.settles.deals, settled.settles.hands⟩, settled.ready⟩
  refine set.bind fun _ => .bind (.ofModify fun now done => ?_) fun _ => finished
  exact ⟨done.1.shaped, ⟨done.1.settles.deals, done.1.settles.hands⟩, fun _ => done.2⟩

/-- What an attempt does with the off-frame groups is what it hands over. -/
theorem next_settled (shaped : graph.Shaped table leaves root)
    (settled : graph.ready → Component.pendingAll root graph.passes = []) (call : Call σ) (attempts : call.Attempts) :
    Settled table leaves root graph (call.handovers graph) (call.next graph) := by
  have here : Unmoved graph graph := ⟨rfl, rfl, rfl⟩
  cases call with
  | setup surface =>
    rw [Call.handovers]
    split
    · rename_i ready
      have resized : (setup surface).apply graph = (resize surface).apply graph := by
        rw [setup, Effect.apply_bind, Effect.apply_get]
        dsimp only
        rw [if_pos ready]
      rw [Call.next, Call.run, resized]
      exact ((resize_unmoved surface).after here).settled shaped settled
    · rename_i unready
      rw [Call.next, Call.run, setup_apply surface unready, Effect.apply_bind]
      have unmoved := (arrange_unmoved surface).after here
      generalize (arrange surface).apply graph = outcome at unmoved ⊢
      obtain ⟨result, arranged⟩ := outcome
      cases result with
      | error _ => exact unmoved.settled shaped settled
      | ok _ =>
        have first := unmoved.settled shaped settled
        have done := (setUpPasses_settled first.shaped (unmoved.ready_eq ▸ unready) surface).after rfl
        exact ⟨done.shaped, first.settles.trans done.settles, done.ready⟩
  | resize surface => exact ((resize_unmoved surface).after here).settled shaped settled
  | share f => exact Unmoved.settled ⟨rfl, rfl, rfl⟩ shaped settled
  | host f => exact Unmoved.settled ⟨rfl, rfl, rfl⟩ shaped settled
  | _ => exact attempts.elim

/-- So does a whole sequence of attempts. -/
theorem after_settled (calls : List (Call σ)) : ∀ {graph : Graph σ}, graph.Shaped table leaves root →
    (graph.ready → Component.pendingAll root graph.passes = []) → (∀ call ∈ calls, call.Attempts) →
      Settled table leaves root graph (graph.handovers calls) (graph.after calls) := by
  induction calls with
  | nil => exact fun shaped settled _ => Unmoved.settled ⟨rfl, rfl, rfl⟩ shaped settled
  | cons call calls ih =>
    intro graph shaped settled attempts
    have first := next_settled shaped settled call (attempts _ (.head _))
    have rest := ih first.shaped first.ready fun call found => attempts call (.tail _ found)
    exact ⟨rest.shaped, first.settles.trans rest.settles, rest.ready⟩

/-- A graph is ready once a setup succeeds. -/
theorem setup_ready (surface : Surface) :
    Ensures (fun _ : Graph σ => True) (setup surface) (fun _ after => after.ready) fun _ _ => True := by
  have resizes : Ensures (fun g : Graph σ => True ∧ g.ready) (resize surface) (fun _ after => after.ready) fun _ _ => True := by
    refine .ofEach fun g held => ?_
    have unmoved : Keeps (Unmoved g) (resize surface) := resize_unmoved surface
    refine .pre (fun _ here => here ▸ ⟨rfl, rfl, rfl⟩) (unmoved.mono (fun _ _ after => ?_) fun _ _ _ => trivial)
    exact after.ready_eq.trans held.2
  exact setup_rule resizes (fun _ _ _ => trivial) (fun _ => .any _) (fun _ => .any _) (.any _) (.any _)
    (fun _ _ => .pre (fun _ _ => trivial) (.any _)) fun _ _ _ => rfl

/-- Attempts to set a graph up may fail as often as they like: when the last one succeeds, every off-frame group of the
tree has had all of its children handed to its coordinator, each of them set up, exactly if no attempt failed inside an
off-frame group. A coordinator works on what it was given last, so a run finds no work exactly if nothing was handed to
it. -/
theorem retry_attaches_iff {host : Host σ} {shared : Shared} {coordinators : List (String × OffFrame.Coordinator)}
    {source : Program} (built : build host shared coordinators source table = .ok graph)
    {calls earlier : List (Call σ)} {surface : Surface} (attempts : ∀ call ∈ calls, call.Attempts)
    (last : calls = earlier ++ [.setup surface]) (succeeds : ¬(Call.setup surface).Fails (graph.after earlier)) :
    (List.Forall₂ (Pass.Attached table (source.compiledLeaves graph.session.compiled))
        (Component.offFramesAll source.root) (Pass.attachments (graph.handovers calls)) ↔
      ∀ handover ∈ graph.handovers calls, handover.passes.isSome) ∧
    ∀ name coordinator, graph.session.coordinator? name = some coordinator →
      (graph.after calls).session.coordinator? name =
        some (coordinator.given ((Pass.attachments (graph.handovers calls)).reverse.lookup name)) ∧
      ∀ ask, ((Session.runWork ask name).run (graph.after calls).session).1 = .error (.notAttached name) ↔
        coordinator.work = none ∧ name ∉ (Pass.attachments (graph.handovers calls)).map Prod.fst := by
  obtain ⟨-, ⟨_, made⟩, -, unready⟩ := build_eq_ok built
  have settled := after_settled calls (build_shaped built) (fun ready => absurd ready unready) attempts
  have ready : (graph.after calls).ready := by
    rw [last, after_append]
    have ensured := setup_ready surface (graph.after earlier) trivial
    split at ensured
    · rename_i applied
      rw [after, List.foldl_cons, List.foldl_nil, Call.next, Call.run, applied]
      exact ensured
    · rename_i error _ applied
      exact absurd ⟨error, by rw [Call.run, applied]⟩ succeeds
  have settles := settled.settles
  rw [settled.ready ready, Pass.ofComponents_pending source.root made] at settles
  refine ⟨settles.deals.attached_iff, fun name coordinator found => ?_⟩
  have given := settles.hands name
  rw [found, Option.map_some] at given
  refine ⟨given, fun ask => ?_⟩
  rw [Session.runWork_notAttached, given, Option.bind_some, coordinator.given_work]

/-- Whether a call fails can be seen from its result. -/
theorem Call.fails_iff (call : Call σ) (graph : Graph σ) :
    call.Fails graph ↔ (call.run.apply graph).1.isOk = false := by
  unfold Fails
  cases (call.run.apply graph).1 with
  | error error => exact ⟨fun _ => rfl, fun _ => ⟨error, rfl⟩⟩
  | ok _ => exact ⟨nofun, nofun⟩

/-- A draw in a group of its own that runs off-frame. -/
def offFrameDraw (name source : String) : Component :=
  .offFrame name [.leaf (.draw {
    label := name
    source
    vertex := "v"
    fragment := "f"
    targets := [⟨.surface, .load, .replace⟩] })]

/-- Two groups; a device that looks for an entry point right before its parameters does not find one of the second. -/
def pairOfGroups : Program where
  library := ""
  root := [offFrameDraw "kept" "@vertex fn v() {}@fragment fn f() {}",
    offFrameDraw "lost" "@vertex fn v () {}@fragment fn f() {}"]

/-- The first attempt fails, and the second succeeds without the group that the first one lost. -/
theorem retry_attaches_iff_lost :
    ∃ graph : Graph Recorder, build ⟨{}, []⟩ {} [("kept", {}), ("lost", {})] pairOfGroups {} = .ok graph ∧
      (Call.setup ⟨.flat 1 1, .rgba8Unorm⟩).Fails graph ∧
      ¬(Call.setup ⟨.flat 1 1, .rgba8Unorm⟩).Fails (graph.after [.setup ⟨.flat 1 1, .rgba8Unorm⟩]) ∧
      ¬List.Forall₂ (Pass.Attached {} (pairOfGroups.compiledLeaves graph.session.compiled))
        (Component.offFramesAll pairOfGroups.root)
        (Pass.attachments (graph.handovers [.setup ⟨.flat 1 1, .rgba8Unorm⟩, .setup ⟨.flat 1 1, .rgba8Unorm⟩])) ∧
      ((Session.runWork Session.ask "lost").run
        (graph.after [.setup ⟨.flat 1 1, .rgba8Unorm⟩, .setup ⟨.flat 1 1, .rgba8Unorm⟩]).session).1 =
          .error (.notAttached "lost") := by
  let attempt : Call Recorder := .setup ⟨.flat 1 1, .rgba8Unorm⟩
  have run : (build (σ := Recorder) ⟨{}, []⟩ {} [("kept", {}), ("lost", {})] pairOfGroups {}).toOption.map
      (fun graph => ((attempt.run.apply graph).1.isOk, (attempt.run.apply (graph.after [attempt])).1.isOk,
        (graph.handovers [attempt, attempt]).map fun handover => (handover.name, handover.passes.isSome),
        (graph.session.coordinator? "lost").map (·.work.isSome))) =
          some (false, true, [("kept", true), ("lost", false)], some false) := by decide +kernel
  cases built : build (σ := Recorder) ⟨{}, []⟩ {} [("kept", {}), ("lost", {})] pairOfGroups {} with
  | error _ =>
    rw [built] at run
    cases run
  | ok graph =>
    rw [built] at run
    have outcome := Option.some.inj run
    simp only [Prod.mk.injEq] at outcome
    obtain ⟨fails, succeeds, handed, idle⟩ := outcome
    obtain ⟨coordinator, found, workless⟩ := Option.map_eq_some_iff.mp idle
    have second : ¬attempt.Fails (graph.after [attempt]) := by
      rw [Call.fails_iff, succeeds]
      exact nofun
    have attempts : ∀ call ∈ [attempt, attempt], call.Attempts := by
      rintro _ (_ | ⟨_, _ | ⟨_, ⟨⟩⟩⟩) <;> trivial
    have last : [attempt, attempt] = [attempt] ++ [attempt] := rfl
    obtain ⟨attached_iff, given⟩ := retry_attaches_iff built attempts last second
    refine ⟨graph, rfl, (Call.fails_iff _ _).mpr fails, second, fun attached => ?_, ?_⟩
    · have lost : ("lost", false) ∈ [("kept", true), ("lost", false)] := .tail _ (.head _)
      rw [← handed] at lost
      obtain ⟨handover, found, same⟩ := List.mem_map.mp lost
      have kept := attached_iff.mp attached handover found
      rw [(Prod.mk.inj same).2] at kept
      cases kept
    · refine ((given "lost" coordinator found).2 Session.ask).mpr ⟨?_, ?_⟩
      · exact Option.isNone_iff_eq_none.mp (Option.isSome_eq_false_iff.mp workless)
      · rw [Pass.mem_attachments, handed]
        decide

end FrameGraph.Graph
