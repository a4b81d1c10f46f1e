import FrameGraph.Proofs.Compile.Records
import FrameGraph.Proofs.Graph.Build
import FrameGraph.Proofs.Graph.History
import FrameGraph.Proofs.Pass.Layouts

/-! # Shader text, pipelines and bind groups

The text of a compiled leaf declares the variables that the bind groups of the leaf describe, its pipeline is
created for the layouts of these groups, and every command that is recorded for it, in a frame or in a job,
binds groups that were created from just these layouts.
-/

namespace FrameGraph

variable {σ : Type} {program : CompiledProgram} {leaves : List (FlatLeaf × CompiledLeaf)}

/-- A launch or a draw belongs to a compiled leaf; its pipeline has the entry points of the leaf and the layouts
of the leaf's groups, and the bind groups were created from the layouts of the pipeline. -/
def Command.Agrees (program : CompiledProgram) (leaves : List (FlatLeaf × CompiledLeaf)) : Command → Prop
  | .dispatch command => ∃ leaf compiled, (leaf, .dispatch compiled) ∈ leaves ∧
      command.label = leaf.node.label ∧ command.pipeline.entry = compiled.entry ∧
      command.pipeline.groups = program.groupLayouts compiled.groups ∧
      command.groups.map (·.layout) = command.pipeline.groups
  | .draw command => ∃ leaf compiled, (leaf, .draw compiled) ∈ leaves ∧
      command.label = leaf.node.label ∧ command.pipeline.vertexEntry = compiled.vertexEntry ∧
      command.pipeline.fragmentEntry = compiled.fragmentEntry ∧
      command.pipeline.groups = program.groupLayouts compiled.groups ∧
      command.groups.map (·.layout) = command.pipeline.groups
  | _ => True

/-- The command agrees with its leaf, or a callback among the leaves may record it. -/
def Command.Explained (program : CompiledProgram) (leaves : List (FlatLeaf × CompiledLeaf)) (command : Command) : Prop :=
  (∃ pool, command.ByCaller (leaves.map (·.1.node)) pool) ∨ command.Agrees program leaves

/-- What a pass has created is for the layouts of its compiled leaf; a callback is one of the leaves. -/
def Pass.Aligned (program : CompiledProgram) (leaves : List (FlatLeaf × CompiledLeaf)) : Pass → Prop
  | .dispatch pass => ∃ leaf compiled, (leaf, .dispatch compiled) ∈ leaves ∧
      pass.Aligned program leaf.node.label compiled
  | .draw pass => ∃ leaf compiled, (leaf, .draw compiled) ∈ leaves ∧ pass.Aligned program leaf.node.label compiled
  | .callback node => .callback node ∈ leaves.map (·.1.node)
  | _ => True

namespace Pass

/-- A pass that was just built has created nothing. -/
theorem aligned_ofLeaf? {table : ResourceTable} {leaf : FlatLeaf × CompiledLeaf} {pass : Pass}
    (made : ofLeaf? table leaf.1.node leaf.2 = some pass) (listed : leaf ∈ leaves) : pass.Aligned program leaves := by
  unfold ofLeaf? at made
  split at made <;> cases made
  · rename_i named is
    refine ⟨leaf.1, _, is ▸ listed, ?_, rfl, Bindings.aligned_ofGroups _ _ _ _, nofun⟩
    exact (congrArg Leaf.label named).symm
  · rename_i named is
    refine ⟨leaf.1, _, is ▸ listed, ?_, rfl, rfl, Bindings.aligned_ofGroups _ _ _ _, nofun⟩
    exact (congrArg Leaf.label named).symm
  case h_5 node is => exact List.mem_map.mpr ⟨_, listed, is⟩
  all_goals trivial

variable [Device σ] [LawfulDevice σ] {inv : Session σ → Prop} {admitted : Command → Prop} {view : PassView}

open Session (Mindful)

theorem aligned_setsUp (mindful : Mindful program admitted inv)
    (attach : ∀ session name passes, inv session → Each (Pass.Aligned program leaves) passes →
      inv (session.attach name passes)) :
    SetsUp view inv (Pass.Aligned program leaves) (Pass.Aligned program leaves) fun _ => True where
  weaken _ := id
  dispatch _ := fun ⟨leaf, compiled, listed, aligned⟩ => .ofKeeps (DispatchPass.setup_aligned mindful view)
    aligned fun _ aligned => ⟨leaf, compiled, listed, aligned⟩
  draw _ := fun ⟨leaf, compiled, listed, aligned⟩ => .ofKeeps (DrawPass.setup_aligned mindful view)
    aligned fun _ aligned => ⟨leaf, compiled, listed, aligned⟩
  filter _ _ := .pre (fun _ _ held => held.2) ((FilterPass.setup_keeps mindful.accepts view).mono
    (fun _ _ _ held => ⟨trivial, held⟩) fun _ _ _ held => ⟨trivial, trivial, held⟩)
  blit _ := id
  callback _ := id
  attach := attach

theorem aligned_prepares (mindful : Mindful program admitted inv) :
    Prepares view inv (Pass.Aligned program leaves) fun _ => True where
  dispatch _ := fun ⟨leaf, compiled, listed, aligned⟩ => .ofKeeps (DispatchPass.prepare_aligned mindful view)
    aligned fun _ aligned => ⟨leaf, compiled, listed, aligned⟩
  draw _ := fun ⟨leaf, compiled, listed, aligned⟩ => .ofKeeps (DrawPass.prepare_aligned mindful view)
    aligned fun _ aligned => ⟨leaf, compiled, listed, aligned⟩

omit [Device σ] [LawfulDevice σ] in
/-- The command of an aligned kernel pass agrees with its leaf. -/
theorem dispatch_explained {pass : DispatchPass} (aligned : Pass.Aligned program leaves (.dispatch pass)) :
    Comes (Command.Explained program leaves) (fun _ => True) (pass.command.map .dispatch) := by
  obtain ⟨leaf, compiled, listed, aligned⟩ := aligned
  exact .map (aligned.command_comes.mono (fun _ same => .inr ⟨leaf, compiled, listed, same⟩) fun _ => id)

omit [Device σ] [LawfulDevice σ] in
theorem draw_explained {pass : DrawPass} (aligned : Pass.Aligned program leaves (.draw pass)) (view : EncodeView) :
    Comes (Command.Explained program leaves) (fun _ => True) ((pass.command view).map .draw) := by
  obtain ⟨leaf, compiled, listed, aligned⟩ := aligned
  exact .map ((aligned.command_comes view).mono (fun _ same => .inr ⟨leaf, compiled, listed, same⟩) fun _ => id)

end Pass

theorem Command.Groupless.explained {command : Command} (groupless : command.Groupless) :
    command.Explained program leaves := by
  refine .inr ?_
  cases command <;> trivial

namespace Session

/-- What a session keeps for its passes: the bind groups of blocks have the layouts of their blocks, the passes
that coordinators hold are aligned, and the host is as asserted. -/
structure Aligned (program : CompiledProgram) (leaves : List (FlatLeaf × CompiledLeaf)) (accepted : Host σ → Prop)
    (session : Session σ) : Prop where
  compiled_eq : session.compiled = program
  blocks : ∀ (place : Nat) (block : ArgumentBlock) (bound : BoundGroup), program.blocks[place]? = some block →
    session.blockGroups[place]? = some (some bound) → bound.group.layout = block.group.layout
  works : session.Works (Pass.Aligned program leaves)
  host : accepted session.host

variable {accepted : Host σ → Prop} {setting : Setting}

theorem compiled_modifyCoordinator (session : Session σ) (name : String)
    (change : OffFrame.Coordinator → OffFrame.Coordinator) :
    (session.modifyCoordinator name change).compiled = session.compiled :=
  congrArg Setting.compiled (setting_modifyCoordinator session name change)

theorem Aligned.modify {session : Session σ} (aligned : session.Aligned program leaves accepted) {name : String}
    {change : OffFrame.Coordinator → OffFrame.Coordinator}
    (works : (session.modifyCoordinator name change).Works (Pass.Aligned program leaves)) :
    (session.modifyCoordinator name change).Aligned program leaves accepted where
  compiled_eq := (compiled_modifyCoordinator session name change).trans aligned.compiled_eq
  blocks := by
    unfold modifyCoordinator
    split <;> exact aligned.blocks
  works := works
  host := by
    unfold modifyCoordinator
    split <;> exact aligned.host

variable [Device σ] (accepts : Host.Accepts (Command.Explained program leaves) accepted)

include accepts

/-- A session with another host is as good as the host. -/
theorem aligned_accepts (session : Session σ) :
    Host.Accepts (Command.Explained program leaves) fun host =>
      Aligned program leaves accepted { session with host } := by
  have split (host : Host σ) : Aligned program leaves accepted { session with host } ↔
      session.Aligned program leaves (fun _ => True) ∧ accepted host :=
    ⟨fun held => ⟨{ held with host := trivial }, held.host⟩, fun held => { held.1 with host := held.2 }⟩
  rw [funext fun host => propext (split host)]
  exact accepts.beside _

theorem stands_accepts (setting : Setting) (session : Session σ) :
    Host.Accepts (Command.Explained program leaves) fun host =>
      Stands setting (Aligned program leaves accepted) { session with host } := by
  have split (host : Host σ) : Stands setting (Aligned program leaves accepted) { session with host } ↔
      session.setting = setting ∧ Aligned program leaves accepted { session with host } :=
    ⟨fun held => ⟨held.setting_eq, held.kept⟩, fun held => ⟨held.1, held.2⟩⟩
  rw [funext fun host => propext (split host)]
  exact (aligned_accepts accepts session).beside _

theorem aligned_mindful (setting : Setting) :
    Mindful program (Command.Explained program leaves)
      (Stands setting (Aligned (σ := σ) program leaves accepted)) where
  compiled _ held := held.kept.compiled_eq
  accepts := stands_accepts accepts setting
  cached _ place block bound held := held.kept.blocks place block bound
  store session place block bound held found layout := by
    refine ⟨held.setting_eq, held.kept.compiled_eq, fun other block' bound' found' stored => ?_, held.kept.works,
      held.kept.host⟩
    rw [List.getElem?_set] at stored
    split at stored
    · rename_i same
      subst same
      rw [found] at found'
      split at stored <;> cases stored
      cases found'
      exact layout
    · exact held.kept.blocks other block' bound' found' stored

variable [LawfulDevice σ]

/-- Frames and jobs record explained commands only. -/
theorem aligned_upheld (setting : Setting) :
    UpheldInJobs (Stands setting (Aligned (σ := σ) program leaves accepted)) (Pass.Aligned program leaves)
      (Command.Explained program leaves) fun _ => True where
  log session log held := (stands_accepts accepts setting session).log session.host log held
  share _ _ held := ⟨held.setting_eq, { held.kept with }⟩
  writeDown _ _ held := ⟨held.setting_eq, { held.kept with }⟩
  coordinate _ name _ same held := ⟨(setting_modifyCoordinator _ _ _).trans held.setting_eq,
    held.kept.modify (held.kept.works.coordinate name same)⟩
  encode session _ fits := (stands_accepts accepts setting session).perform (.encode _ fits)
  submit session _ _ fits := (stands_accepts accepts setting session).perform (.submit _ _ fits)
  wait session _ := (stands_accepts accepts setting session).perform (.wait _)
  prepare _ _ _ _ := Pass.aligned_prepares (aligned_mindful accepts setting)
  dispatch _ := Pass.dispatch_explained
  draw _ view _ _ _ aligned := Pass.draw_explained aligned view
  blit _ view node _ _ _ := (node.command_groupless view).mono (fun _ => Command.Groupless.explained) fun _ => id
  filter _ view pass _ _ _ := (pass.command_groupless view).mono (fun _ => Command.Groupless.explained) fun _ => id
  callback _ view node _ _ _ listed records := .inl ⟨view.pool, node, listed, view, rfl, records⟩
  device _ _ := trivial
  fail _ _ _ _ _ _ _ _ := trivial
  hand _ name _ all held := ⟨(setting_modifyCoordinator _ _ _).trans held.setting_eq,
    held.kept.modify (held.kept.works.hand name all)⟩
  works _ name coordinator work held := held.kept.works name coordinator work

end Session

namespace Graph

variable [Device σ] [LawfulDevice σ] {accepted : Host σ → Prop}

/-- Everything that calls do keeps sessions and passes aligned, and all commands are explained. -/
theorem aligned_upholds (accepts : Host.Accepts (Command.Explained program leaves) accepted) :
    Upholds (Session.Aligned program leaves accepted) (Pass.Aligned program leaves) (Pass.Aligned program leaves)
      (Command.Explained program leaves) (fun _ _ => True) fun _ _ => True where
  weaken _ := id
  relocate _ _ _ _ held := { held with }
  createModule session spec := (Session.aligned_accepts accepts session).perform (.createModule spec)
  spares session :=
    have kept := Session.aligned_accepts accepts session
    ⟨kept.log, fun spec => kept.perform (.createTexture spec), fun spec => kept.perform (.createBuffer spec)⟩
  setsUp setting view _ := by
    refine Pass.aligned_setsUp (Session.aligned_mindful accepts setting) fun session name passes held all => ?_
    have upheld := Session.aligned_upheld accepts setting
    exact upheld.hand _ _ _ all (upheld.log session _ held)
  upheld setting := (Session.aligned_upheld accepts setting).toUpheld
  asked setting session name request := (Session.aligned_upheld accepts setting).asked name request session
  released setting session name answer := (Session.aligned_upheld accepts setting).release name answer session

omit [LawfulDevice σ] in
/-- A built session is aligned when no coordinator has work yet. -/
theorem build_aligned {graph : Graph σ} {host : Host σ} {shared : Shared}
    {coordinators : List (String × OffFrame.Coordinator)} {source : Program} {table : ResourceTable}
    (built : build host shared coordinators source table = .ok graph)
    (idle : ∀ entry ∈ coordinators, entry.2.work = none)
    (accepts : Host.Accepts (Command.Explained program leaves) accepted) (held : accepted host) :
    graph.session.Aligned graph.session.compiled leaves accepted := by
  obtain ⟨-, -, ⟨log, session_eq⟩, -⟩ := build_eq_ok built
  rw [session_eq]
  refine ⟨rfl, fun place block bound _ stored => ?_, Session.works_of_idle idle, accepts.log host log held⟩
  rw [List.getElem?_map, Option.map_eq_some_iff] at stored
  obtain ⟨_, _, ⟨⟩⟩ := stored

omit [Device σ] [LawfulDevice σ] in
/-- What is asked of the changes that a caller makes concerns the host only. -/
theorem Call.Spares.aligned {call : Call σ} (spares : call.Spares fun session => accepted session.host) :
    call.Spares (Session.Aligned program leaves accepted) := by
  cases call with
  | share f => exact fun _ held => { held with }
  | host f => exact fun session held => { held with host := spares session held.host }
  | _ => trivial

/-- A program that compiles has units that read as their records, their libraries and the texts of their leaves, and each
of these texts declares exactly the lines that the bind groups of its leaf ask for, with the variables of its entry points
and their types. Whatever is called on a graph of the program, whatever fails and whatever its
device does in between, the device is given only commands whose bind groups were created from the layouts that
the groups of their leaf gave to their pipeline, apart from what callbacks record; so what is asserted of the device and
lasts through such commands lasts, and so every stream of a frame holds such commands only. -/
theorem layouts_agree {source : Program} {table : ResourceTable} {caps : DeviceCaps} {log : List LogLine}
    (compiled : source.compile table caps = .ok (program, log)) :
    (∀ leaf ∈ source.compiledLeaves program,
      leaf.1.node.BecomesIn leaf.1.unit leaf.2 ∧ leaf.1.unit < program.units.length) ∧
    (∀ (place : Nat) unit, program.units[place]? = some unit →
      (∃ decl, (Flattened.ofProgram source).units[place]? = some decl ∧ unit.source = unit.written decl.library) ∧
      List.Forall₂ (fun leaf text =>
          text.Tells program.blocks leaf.1.node leaf.2 ∧ text.Spells table leaf.1.node leaf.2)
        ((source.compiledLeaves program).filter (·.2.unit? = some place)) unit.leaves) ∧
    ∀ (host : Host σ) shared coordinators graph, Device.caps host.device = caps →
      build host shared coordinators source table = .ok graph →
      (∀ entry ∈ coordinators, entry.2.work = none) →
      ∀ accepted,
        Host.Accepts (fun command => (∃ pool, command.ByCaller (Component.nodesAll source.root) pool) ∨
          command.Agrees program (source.compiledLeaves program)) accepted →
        accepted host → ∀ calls : List (Call σ),
        (∀ call ∈ calls, call.Spares fun session => accepted session.host) →
          accepted (graph.after calls).session.host ∧
          ∀ target surface stream, ((encode target surface).apply (graph.after calls)).1 = .ok stream →
            stream.Only fun command => (∃ pool, command.ByCaller (Component.nodesAll source.root) pool) ∨
              command.Agrees program (source.compiledLeaves program) := by
  have of := Program.compile_ok compiled
  rw [← of.nodes_eq]
  refine ⟨of.becomes, fun place unit found => ⟨?_, ?_⟩,
    fun host shared coordinators graph caps_eq built idle accepted accepts held calls spares => ?_⟩
  · obtain ⟨_, -, -, -, -, -, decl, declared, written⟩ := source.compile_symbols compiled found
    exact ⟨decl, declared, written⟩
  · exact (of.texts place unit found).and (source.compile_spells compiled found)
  obtain ⟨⟨_, again⟩, ⟨_, made⟩, -, -⟩ := build_eq_ok built
  rw [caps_eq, compiled] at again
  obtain ⟨⟨⟩, -⟩ := Prod.mk.inj (Except.ok.inj again)
  have rules := aligned_upholds accepts
  have start : graph.Sound (Session.Aligned graph.session.compiled (source.compiledLeaves graph.session.compiled) accepted)
      (Pass.Aligned graph.session.compiled (source.compiledLeaves graph.session.compiled))
      (Pass.Aligned graph.session.compiled (source.compiledLeaves graph.session.compiled))
      graph.session.compiled table :=
    build_sound built (build_aligned built idle accepts held) (Pass.each_ofComponents of made fun _ listed _ made => Pass.aligned_ofLeaf? made listed)
  have sound := after_sound rules start calls fun call found => (spares call found).aligned
  refine ⟨sound.kept.host, fun target surface stream done => ?_⟩
  have encoded := encode_ensures rules sound target surface _ rfl
  split at encoded
  · rename_i applied
    rw [applied] at done
    cases done
    exact encoded.1
  · rename_i applied
    rw [applied] at done
    cases done

/-- A block of one buffer. -/
def sharedCell : Argument := ⟨"p", none, none, .block "p" [⟨"x", none, none, .buffer ⟨0⟩ .uniform⟩]⟩

/-- A kernel whose frame waits for it, and a draw in a unit of its own; all three entry points use the block. -/
def sharedLeaves : Program where
  library := ""
  root := [
    .leaf (.dispatch {
      label := "k"
      source := "@compute fn k()\x7by;x;\x7d"
      function := "k"
      arguments := [sharedCell, ⟨"y", none, none, .buffer ⟨1⟩ (.storage false)⟩]
      fits := [.buffer "y"]
      waitUntilCompleted := true }),
    .group { label := "g", isolated := some "" } [.leaf (.draw {
      label := "d"
      source := "@vertex fn v()\x7bx;\x7d@fragment fn f()\x7bx;y;\x7d"
      vertex := "v"
      fragment := "f"
      vertexArguments := [sharedCell]
      fragmentArguments := [⟨"y", none, none, .bytes (.constant (.scalar .u32) [1, 0, 0, 0])⟩, sharedCell]
      targets := [⟨.resource ⟨0⟩, .load, .replace⟩] })]]

/-- What they read, write and draw to. -/
def sharedTable : ResourceTable :=
  ⟨[⟨"t", .viewport, .fixed .rgba8Unorm, .d2, 1⟩],
    [⟨"x", .scalar .u32, 4, .fixed 4⟩, ⟨"y", .scalar .f32, 4, .fixed 4⟩]⟩

/-- A host whose device needs no range checks. -/
def exactHost : Host Recorder := ⟨{ caps := { exactDispatch := true } }, []⟩

/-- Their texts declare these lines; the frame submits one launch and leaves one draw in its stream, and both agree with
their leaves. -/
theorem layouts_agree_shared :
    ∃ (graph after : Graph Recorder) (program : CompiledProgram) (log : List LogLine) (stream : CommandStream),
      sharedLeaves.compile sharedTable { exactDispatch := true } = .ok (program, log) ∧
      (∀ unit ∈ program.units, unit.source = unit.written "") ∧
      program.units.map (·.leaves.map fun text => text.entries.map (·.declarations.map (·.written))) = [
        [[["@group(0) @binding(0) var<storage, read_write> k__y: array<f32>;\n",
          "@group(1) @binding(0) var<uniform> k__x: u32;\n"]]],
        [[["@group(1) @binding(0) var<uniform> v__x: u32;\n"],
          ["@group(0) @binding(0) var<uniform> f__y: u32;\n", "@group(1) @binding(0) var<uniform> f__x: u32;\n"]]]] ∧
      build exactHost {} [] sharedLeaves sharedTable = .ok graph ∧
      (encode none ⟨.flat 1 1, .rgba8Unorm⟩).apply (graph.after [.setup ⟨.flat 1 1, .rgba8Unorm⟩]) = (.ok stream, after) ∧
      after.session.host.device.commands.length = 1 ∧
      (∀ command ∈ after.session.host.device.commands,
        command.Agrees program (sharedLeaves.compiledLeaves program)) ∧
      stream.encoder.map (·.length) = some 1 ∧
      stream.Only (Command.Agrees program (sharedLeaves.compiledLeaves program)) := by
  let prepared : List (Call Recorder) := [.setup ⟨.flat 1 1, .rgba8Unorm⟩]
  have texts : (sharedLeaves.compile sharedTable { exactDispatch := true }).toOption.map (fun result =>
      result.1.units.map (·.leaves.map fun text => text.entries.map (·.declarations.map (·.written)))) = some [
        [[["@group(0) @binding(0) var<storage, read_write> k__y: array<f32>;\n",
          "@group(1) @binding(0) var<uniform> k__x: u32;\n"]]],
        [[["@group(1) @binding(0) var<uniform> v__x: u32;\n"],
          ["@group(0) @binding(0) var<uniform> f__y: u32;\n", "@group(1) @binding(0) var<uniform> f__x: u32;\n"]]]] := by
    decide +kernel
  have frame : (build exactHost {} [] sharedLeaves sharedTable).toOption.bind (fun graph =>
      let result := (encode none ⟨.flat 1 1, .rgba8Unorm⟩).apply (graph.after prepared)
      result.1.toOption.map fun stream =>
        (result.2.session.host.device.commands.length, stream.encoder.map (·.length))) = some (1, some 1) := by
    decide +kernel
  obtain ⟨⟨program, log⟩, read, texts⟩ := Option.map_eq_some_iff.mp texts
  have compiled := ok_of_toOption read
  obtain ⟨graph, read, frame⟩ := Option.bind_eq_some_iff.mp frame
  have built := ok_of_toOption read
  obtain ⟨stream, encoded, counts⟩ := Option.map_eq_some_iff.mp frame
  obtain ⟨submitted, recorded⟩ := Prod.mk.inj counts
  have encoded := ok_of_toOption encoded
  obtain ⟨-, text, runs⟩ := layouts_agree (σ := Recorder) compiled
  have runs := runs exactHost {} [] graph rfl built (List.forall_mem_nil _) _ (Recorder.accepts _) (List.forall_mem_nil _)
  have passive (node : Callback) : Leaf.callback node ∉ Component.nodesAll sharedLeaves.root := by
    simp [sharedLeaves, Component.nodesAll, Component.nodes]
  have agrees (command : Command) (explained : (∃ pool, command.ByCaller (Component.nodesAll sharedLeaves.root) pool) ∨
      command.Agrees program (sharedLeaves.compiledLeaves program)) :
      command.Agrees program (sharedLeaves.compiledLeaves program) := by
    obtain ⟨pool, caller⟩ | agrees := explained
    · exact (Command.not_byCaller passive pool command caller).elim
    · exact agrees
  have submits := (runs (prepared ++ [.encode none ⟨.flat 1 1, .rgba8Unorm⟩]) (by simp [prepared, Call.Spares])).1
  have last : graph.after (prepared ++ [.encode none ⟨.flat 1 1, .rgba8Unorm⟩]) =
      ((encode none ⟨.flat 1 1, .rgba8Unorm⟩).apply (graph.after prepared)).2 :=
    (after_append graph prepared _).trans (Call.next_encode _ _ _)
  rw [last] at submits
  have streams := (runs prepared (by simp [prepared, Call.Spares])).2 none ⟨.flat 1 1, .rgba8Unorm⟩ stream encoded
  refine ⟨graph, _, program, log, stream, compiled, ?_, texts, built, Prod.ext encoded rfl, submitted,
    fun command has => agrees command (submits command has), recorded,
    fun commands is command has => agrees command (streams commands is command has)⟩
  have libraries : (Flattened.ofProgram sharedLeaves).units.map (·.library) = ["", ""] := by
    decide
  intro unit listed
  obtain ⟨place, found⟩ := List.getElem?_of_mem listed
  obtain ⟨⟨decl, declared, written⟩, -⟩ := text place unit found
  have empty : decl.library ∈ ["", ""] := libraries ▸ List.mem_map_of_mem (List.mem_of_getElem? declared)
  have empty : decl.library = "" := by simpa using empty
  rwa [empty] at written

end Graph

end FrameGraph
