import FrameGraph.Proofs.Graph.Commands
import FrameGraph.Proofs.Pass.Tracking

/-! # Bind groups are never stale

The pool changes before the passes of a frame are prepared and not again until the frame has been encoded, jobs
included. So every command that is given to the device binds what the pool holds, and one group for an argument block,
whatever happened before.
-/

namespace FrameGraph

variable {σ : Type} {leaves : List (FlatLeaf × CompiledLeaf)}

namespace Pass

/-- A pass that was just built has created nothing. -/
theorem tracked_ofLeaf? {table : ResourceTable} {leaf : FlatLeaf × CompiledLeaf} {pass : Pass} {pool : Pool}
    (made : ofLeaf? table leaf.1.node leaf.2 = some pass) (listed : leaf ∈ leaves) : pass.Tracked leaves pool := by
  unfold ofLeaf? at made
  split at made <;> cases made
  · rename_i named is
    refine ⟨leaf.1, _, is ▸ listed, ?_, rfl, nofun, Bindings.tracked_ofGroups _ _ _ _⟩
    exact (congrArg Leaf.label named).symm
  · rename_i named is
    refine ⟨leaf.1, _, is ▸ listed, ?_, rfl, rfl, nofun, Bindings.tracked_ofGroups _ _ _ _⟩
    exact (congrArg Leaf.label named).symm
  case h_5 node is => exact List.mem_map.mpr ⟨_, listed, is⟩
  all_goals trivial

variable [Device σ] [LawfulDevice σ] {setting : Setting} {start : Session σ} {view : PassView}

open Session (Onward)

/-- Setup has passes track the pool. -/
theorem tracked_setsUp (seen : view.pool = setting.pool) :
    SetsUp view (Onward leaves setting start) (Pass.Tracked leaves setting.pool) (Pass.Tracked leaves setting.pool)
      fun _ => True where
  weaken _ := id
  dispatch _ := fun ⟨leaf, compiled, listed, tracked⟩ => .ofKeeps (DispatchPass.setup_tracked seen) tracked
    fun _ tracked => ⟨leaf, compiled, listed, tracked⟩
  draw _ := fun ⟨leaf, compiled, listed, tracked⟩ => .ofKeeps (DrawPass.setup_tracked seen) tracked
    fun _ tracked => ⟨leaf, compiled, listed, tracked⟩
  filter _ _ := .pre (fun _ _ held => held.2)
    ((FilterPass.setup_keeps (Onward.accepting leaves setting start) view).mono
      (fun _ _ _ held => ⟨trivial, held⟩) fun _ _ _ held => ⟨trivial, trivial, held⟩)
  blit _ := id
  callback _ := id
  attach session name passes onward all := by
    have logged := (Onward.tended leaves setting start).addLog .info .offFrame s!"async group '{name}' attached" onward
    exact logged.hand name all

/-- Preparation has them up to date, and that lasts as long as the setting does. -/
theorem tracked_readies (seen : view.pool = setting.pool) :
    Readies view (Onward (σ := σ) leaves setting) (Pass.Tracked leaves setting.pool)
      (fun session leaf => leaf.Ready leaves session) fun _ => True where
  refl _ _ onward := onward.again
  trans _ _ _ := .trans
  lasts _ _ _ onward := onward.toRetains.ready
  dispatch start pass := by
    rintro ⟨leaf, compiled, listed, tracked⟩
    have prepared : PartEffect.Ensures
        (fun p session => p.Tracked leaf.node.label compiled setting.pool ∧ Onward leaves setting start session)
        (DispatchPass.prepare view) _ _ := DispatchPass.prepare_upToDate seen
    refine .pre (fun _ _ held => ⟨held.1 ▸ tracked, held.2⟩)
      (prepared.mono (fun _ _ _ done => ?_) fun _ _ _ failed => ?_)
    · have tracked := done.2.seen ▸ done.1.1
      exact ⟨⟨⟨leaf, compiled, listed, done.1.1⟩, leaf, compiled, listed, tracked, done.1.2⟩, done.2⟩
    · exact ⟨trivial, ⟨leaf, compiled, listed, failed.1⟩, failed.2⟩
  draw start pass := by
    rintro ⟨leaf, compiled, listed, tracked⟩
    have prepared : PartEffect.Ensures
        (fun p session => p.Tracked leaf.node.label compiled setting.pool ∧ Onward leaves setting start session)
        (DrawPass.prepare view) _ _ := DrawPass.prepare_upToDate seen
    refine .pre (fun _ _ held => ⟨held.1 ▸ tracked, held.2⟩)
      (prepared.mono (fun _ _ _ done => ?_) fun _ _ _ failed => ?_)
    · have tracked := done.2.seen ▸ done.1.1
      exact ⟨⟨⟨leaf, compiled, listed, done.1.1⟩, leaf, compiled, listed, tracked, done.1.2⟩, done.2⟩
    · exact ⟨trivial, ⟨leaf, compiled, listed, failed.1⟩, failed.2⟩
  blit _ _ _ := trivial
  filter _ _ _ := trivial
  callback _ _ := id

omit [Device σ] [LawfulDevice σ] in
/-- A kernel pass that is up to date launches with what the session binds. -/
theorem dispatch_current {pass : DispatchPass} (ready : Pass.Ready leaves start (.dispatch pass)) :
    Comes (Command.Given leaves start) (fun _ => True) (pass.command.map .dispatch) := by
  obtain ⟨leaf, compiled, listed, tracked, upToDate⟩ := ready
  exact .map ((tracked.command_comes upToDate).mono (fun _ bound => .inr ⟨leaf, compiled, listed, bound⟩) fun _ => id)

omit [Device σ] [LawfulDevice σ] in
theorem draw_current {pass : DrawPass} (ready : Pass.Ready leaves start (.draw pass)) (view : EncodeView) :
    Comes (Command.Given leaves start) (fun _ => True) ((pass.command view).map .draw) := by
  obtain ⟨leaf, compiled, listed, tracked, upToDate⟩ := ready
  exact .map ((tracked.command_comes upToDate view).mono (fun _ bound => .inr ⟨leaf, compiled, listed, bound⟩) fun _ => id)

end Pass

theorem Command.Groupless.given {session : Session σ} {command : Command} (groupless : command.Groupless) :
    command.Given leaves session := by
  refine .inr ?_
  cases command <;> trivial

namespace Session

variable [Device σ] [LawfulDevice σ]

/-- Frames and jobs give the device current commands only. -/
theorem onward_runsJobs (leaves : List (FlatLeaf × CompiledLeaf)) (setting : Setting) :
    RunsJobs (Onward (σ := σ) leaves setting) (Pass.Tracked leaves setting.pool)
      (fun session leaf => leaf.Ready leaves session) (fun session => Command.Given leaves session) fun _ => True where
  encoding start := {
    Onward.tended leaves setting start with
    encode session _ fits := (Onward.accepting leaves setting start session).perform (.encode _ fits)
    submit session _ _ fits := (Onward.accepting leaves setting start session).perform (.submit _ _ fits)
    wait session _ := (Onward.accepting leaves setting start session).perform (.wait _)
    dispatch _ := Pass.dispatch_current
    draw _ view _ _ _ ready := Pass.draw_current ready view
    blit _ view node _ _ _ := (node.command_groupless view).mono (fun _ => Command.Groupless.given) fun _ => id
    filter _ view pass _ _ _ := (pass.command_groupless view).mono (fun _ => Command.Groupless.given) fun _ => id
    callback _ view node _ onward seen ready records :=
      .inl ⟨node, ready, view, seen.trans onward.pool_eq, records⟩
    device _ _ := trivial
    fail _ _ _ _ _ _ _ _ := trivial }
  readies _ _ _ onward seen _ := Pass.tracked_readies (seen.trans onward.seen)
  known _ _ prepared onward later := ⟨prepared, later.again, onward.seen.trans later.seen.symm⟩
  hand _ _ name _ all onward := onward.hand name all
  works _ _ name coordinator work onward found has :=
    onward.seen ▸ onward.tracked.works name coordinator work found has

end Session

namespace Graph

open Session (Onward)

variable [Device σ] {graph : Graph σ} [LawfulDevice σ]

/-- Calls go on to track the pool, which may evolve between frames. -/
theorem tracked_governs (leaves : List (FlatLeaf × CompiledLeaf)) :
    Governs (σ := σ) (Session.Tracked leaves) (fun pool leaf => leaf.Tracked leaves pool)
      (fun session leaf => leaf.Ready leaves session) (fun session => Command.Given leaves session) Pool.Evolves
      (Onward leaves) where
  relocate _ _ _ _ tracked := { tracked with }
  move session pool evolves tracked := by
    refine ⟨tracked.sized, fun place block bound found stored => ?_, fun name coordinator work found has leaf listed => ?_⟩
    · exact (tracked.blocks place block bound found stored).evolve evolves
    · exact (tracked.works name coordinator work found has leaf listed).evolve evolves
  evolve _ _ _ evolves tracked := tracked.evolve evolves
  materializes session surface sized _ :=
    (Pool.materialize_follows session.pool sized surface).mono (fun _ _ _ done => done.1.evolves)
      fun _ _ _ follows => follows.evolves
  resizes session surface sized _ := by
    refine (Pool.resize_follows session.pool sized surface).mono ?_ fun _ _ _ failed => failed.2.evolves
    rintro _ _ _ (⟨-, rfl⟩ | ⟨-, refits, -⟩)
    · exact .refl _
    · exact refits.evolves
  refl _ := .refl rfl
  stands _ _ _ onward := ⟨onward.setting_eq.trans onward.begun, onward.tracked⟩
  gives _ _ _ onward := onward.host
  lasts _ _ _ _ onward := onward.given
  setsUp _ _ _ _ := Pass.tracked_setsUp
  jobs := Session.onward_runsJobs leaves

omit [LawfulDevice σ] in
/-- A built graph has created nothing yet. -/
theorem build_tracked {host : Host σ} {shared : Shared}
    {coordinators : List (String × OffFrame.Coordinator)} {source : Program} {table : ResourceTable}
    (built : build host shared coordinators source table = .ok graph)
    (idle : ∀ entry ∈ coordinators, entry.2.work = none) :
    graph.Governed (Session.Tracked (source.compiledLeaves graph.session.compiled))
      fun pool leaf => leaf.Tracked (source.compiledLeaves graph.session.compiled) pool := by
  obtain ⟨⟨_, compiled⟩, ⟨_, made⟩, ⟨log, session_eq⟩, -⟩ := build_eq_ok built
  have pool_eq : graph.session.pool = .empty table graph.session.compiled.usage := congrArg Session.pool session_eq
  have groups_eq : graph.session.blockGroups = graph.session.compiled.blocks.map fun _ => none :=
    congrArg Session.blockGroups session_eq
  have coordinators_eq : graph.session.coordinators = coordinators := congrArg Session.coordinators session_eq
  refine ⟨pool_eq ▸ Pool.sized_empty table _, ⟨?_, fun place block bound _ stored => ?_, ?_⟩, ?_⟩
  · rw [groups_eq, List.length_map]
  · rw [groups_eq, List.getElem?_map, Option.map_eq_some_iff] at stored
    obtain ⟨_, _, ⟨⟩⟩ := stored
  · exact Session.works_of_idle (coordinators_eq ▸ idle)
  · exact Pass.each_ofComponents (Program.compile_ok compiled) made fun _ listed _ made =>
      Pass.tracked_ofLeaf? made listed

/-- Whatever is called on a graph of a program, whatever fails and whatever its device does in between, the device is
given only commands whose bind groups refer to what the pool holds when the call is done, and the group of an argument
block is the one that the session has for it; so is every command that a frame leaves in its stream, and every command
that the device is given until the stream is submitted. What callbacks record is theirs. -/
theorem groups_current {host : Host σ} {shared : Shared} {coordinators : List (String × OffFrame.Coordinator)}
    {source : Program} {table : ResourceTable} (built : build host shared coordinators source table = .ok graph)
    (idle : ∀ entry ∈ coordinators, entry.2.work = none) (calls : List (Call σ)) :
    (∀ call : Call σ, (∀ change, call ≠ .host change) →
      let session := (call.next (graph.after calls)).session
      Host.Reaches
        (fun command => command.ByCaller (Component.nodesAll source.root) session.pool ∨
          command.Current (source.compiledLeaves graph.session.compiled) session)
        (graph.after calls).session.host (call.next (graph.after calls)).session.host) ∧
    ∀ target surface,
      (∀ stream after, (encode target surface).apply (graph.after calls) = (.ok stream, after) →
        stream.Only fun command => command.ByCaller (Component.nodesAll source.root) after.session.pool ∨
          command.Current (source.compiledLeaves graph.session.compiled) after.session) ∧
      let session := ((runFrame target surface).apply (graph.after calls)).2.session
      Host.Reaches
        (fun command => command.ByCaller (Component.nodesAll source.root) session.pool ∨
          command.Current (source.compiledLeaves graph.session.compiled) session)
        (graph.after calls).session.host ((runFrame target surface).apply (graph.after calls)).2.session.host := by
  have plain : graph.Plain graph.session.compiled table := build_sound built trivial fun _ _ => trivial
  rw [← (build_of built).nodes_eq]
  obtain ⟨gives, frames⟩ := (tracked_governs _).commands (build_tracked built idle) plain calls
  refine ⟨gives, fun target surface => ⟨fun stream after ran => ?_, ?_⟩⟩
  · exact ((frames target surface).1 stream after ran).2
  · exact (frames target surface).2.mono fun _ => And.right

/-- A kernel that writes the elements of a buffer through an argument block, repeated. -/
def repeatedKernel : Program where
  library := ""
  root := [.group { label := "repeated", repeatCount := some "times" } [.leaf (.dispatch {
    label := "k"
    source := "@compute fn k() { p[gid.x] = 1u; }"
    function := "k"
    arguments := [⟨"scene", none, none, .block "scene" [⟨"p", none, none, .buffer ⟨0⟩ (.storage false)⟩]⟩]
    fits := [.surface] })]]

/-- The buffer, with an element for every pixel. -/
def pixels : ResourceTable := { buffers := [⟨"p", .scalar .u32, 4, .perPixel 1⟩] }

/-- After a frame on a narrower surface the buffer is allocated anew, and both launches of a frame bind what the pool
holds now. -/
theorem groups_current_widened :
    ∃ (graph : Graph Recorder) (stream : CommandStream) (after : Graph Recorder) (commands : List Command),
      build ⟨{}, []⟩ { counters := [("times", 2)] } [] repeatedKernel pixels = .ok graph ∧
      (encode none ⟨.flat 8 1, .rgba8Unorm⟩).apply (graph.after [.setup ⟨.flat 1 1, .rgba8Unorm⟩,
        .encode none ⟨.flat 1 1, .rgba8Unorm⟩]) = (.ok stream, after) ∧
      after.session.host.device.buffers.length = 3 ∧ stream.encoder = some commands ∧ commands.length = 2 ∧
      ∀ command ∈ commands,
        command.Current (repeatedKernel.compiledLeaves graph.session.compiled) after.session := by
  have run : (match build (σ := Recorder) ⟨{}, []⟩ { counters := [("times", 2)] } [] repeatedKernel pixels with
    | .ok graph =>
      match (encode none ⟨.flat 8 1, .rgba8Unorm⟩).apply (graph.after [.setup ⟨.flat 1 1, .rgba8Unorm⟩,
        .encode none ⟨.flat 1 1, .rgba8Unorm⟩]) with
      | (.ok stream, after) => (after.session.host.device.buffers.length, stream.encoder.map List.length)
      | (.error _, _) => (0, none)
    | .error _ => (0, none)) = (3, some 2) := by decide +kernel
  cases built : build (σ := Recorder) ⟨{}, []⟩ { counters := [("times", 2)] } [] repeatedKernel pixels with
  | error _ =>
    rw [built] at run
    cases run
  | ok graph =>
    rw [built] at run
    dsimp only at run
    split at run
    · rename_i stream after ran
      obtain ⟨buffers, length⟩ := Prod.mk.inj run
      obtain ⟨commands, held, two⟩ := Option.map_eq_some_iff.mp length
      have current := ((groups_current built (List.forall_mem_nil _) [.setup ⟨.flat 1 1, .rgba8Unorm⟩,
        .encode none ⟨.flat 1 1, .rgba8Unorm⟩]).2 none ⟨.flat 8 1, .rgba8Unorm⟩).1 stream after ran
      have passive (node : Callback) : Leaf.callback node ∉ Component.nodesAll repeatedKernel.root := by
        simp [repeatedKernel, Component.nodesAll, Component.nodes]
      exact ⟨graph, stream, after, commands, rfl, ran, buffers, held, two, fun command found =>
        (current commands held command found).resolve_left (Command.not_byCaller passive _ command)⟩
    · cases run

end Graph

end FrameGraph
