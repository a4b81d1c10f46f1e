import FrameGraph.Proofs.Addresses
import FrameGraph.Proofs.Compile.Emitted
import FrameGraph.Proofs.Compile.Isolation
import FrameGraph.Proofs.Graph.Build

/-! # The walks over a component tree agree

Laying a tree out and building its passes are two walks. Building meets the leaves with the numbers that they have in the
flat tree, and what it makes at an address is made of the leaf there and of what this leaf was compiled to, in the unit
that the nearest isolated group around it opens.
-/

namespace FrameGraph

variable {source : Program} {program : CompiledProgram} {table : ResourceTable} {caps : DeviceCaps}
  {leaves : List CompiledLeaf}

namespace Pass

def children : Pass → List Pass
  | .dispatch _ | .draw _ | .blit _ | .filter _ | .callback _ => []
  | .group _ _ children => children
  | .offFrame _ _ children => children

/-- The siblings that a builder meets, each with the number that the next leaf has then. -/
def met (table : ResourceTable) (leaves : List CompiledLeaf) (start : Nat) : List Component → List (Component × Nat)
  | [] => []
  | component :: rest => (component, start) ::
    match (ofComponent table leaves component).run start with
    | .ok (_, next) => met table leaves next rest
    | .error _ => []

/-- The children that it meets. -/
def metBelow (table : ResourceTable) (leaves : List CompiledLeaf) (here : Component × Nat) : List (Component × Nat) :=
  met table leaves here.2 here.1.children

/-- A builder meets the components that are there. -/
theorem met_prefix (start : Nat) (components : List Component) :
    (met table leaves start components).map Prod.fst <+: components := by
  induction components generalizing start with
  | nil => exact List.prefix_rfl
  | cons component rest ih =>
    rw [met]
    split
    · exact List.cons_prefix_cons.mpr ⟨rfl, ih _⟩
    · exact List.cons_prefix_cons.mpr ⟨rfl, List.nil_prefix⟩

/-- A builder meets the leaf of this number at an address, and the pass at the same address is made of the leaf and of
the compiled leaf of its number. -/
structure MadeAlong (table : ResourceTable) (leaves : List CompiledLeaf) (met? : Option (Component × Nat))
    (pass? : Option Pass) (node : Leaf × Nat) : Prop where
  met_eq : met? = some (.leaf node.1, node.2)
  made : ∃ pass, pass? = some pass ∧ MadeAt table leaves node pass

/-- The same below a component: these addresses lead to its children. -/
theorem along_below {component : Component} {start : Nat} {pass : Pass} {addresses : List (List Nat)}
    {nodes : List (Leaf × Nat)}
    (inner : List.Forall₂ (fun address => MadeAlong table leaves
      (nodeAt? (metBelow table leaves) (metBelow table leaves (component, start)) address)
      (nodeAt? children (children pass) address)) addresses nodes) :
    List.Forall₂ (fun address => MadeAlong table leaves (descend? (metBelow table leaves) (component, start) address)
      (descend? children pass address)) addresses nodes := by
  refine inner.imp fun address node along => ?_
  obtain ⟨pass, there, made⟩ := along.made
  exact ⟨descend?_of_nodeAt? along.met_eq, pass, descend?_of_nodeAt? there, made⟩

mutual

theorem ofComponent_along : ∀ (component : Component) {start after : Nat} {pass : Pass},
    (ofComponent table leaves component).run start = .ok (pass, after) →
      List.Forall₂ (fun address => MadeAlong table leaves (descend? (metBelow table leaves) (component, start) address)
        (descend? children pass address)) (component.addresses Component.isLeaf) (component.nodes.zipIdx start)
  | .leaf node, start, after, pass, run => by
    rw [ofComponent] at run
    exact .cons ⟨rfl, pass, rfl, (takeLeaf_ok run).2⟩ .nil
  | .group options components, start, after, pass, run => by
    rw [ofComponent] at run
    obtain ⟨passes, middle, done, run⟩ := Compile.bind_ok run
    cases run
    exact along_below (ofComponents_along components [] [] rfl done)
  | .offFrame coordinator components, start, after, pass, run => by
    rw [ofComponent] at run
    obtain ⟨passes, middle, done, run⟩ := Compile.bind_ok run
    cases run
    exact along_below (ofComponents_along components [] [] rfl done)

/-- Building meets the leaves in pre-order, and makes the pass of each at its address. -/
theorem ofComponents_along : ∀ (components : List Component) (seen : List (Component × Nat)) (front : List Pass)
    {start after : Nat} {passes : List Pass}, seen.length = front.length →
    (ofComponents table leaves components).run start = .ok (passes, after) →
      List.Forall₂ (fun address => MadeAlong table leaves
        (nodeAt? (metBelow table leaves) (seen ++ met table leaves start components) address)
        (nodeAt? children (front ++ passes) address)) (Component.addressesFrom Component.isLeaf front.length components)
        ((Component.nodesAll components).zipIdx start)
  | [], seen, front, start, after, passes, same, run => .nil
  | component :: rest, seen, front, start, after, passes, same, run => by
    rw [ofComponents] at run
    obtain ⟨pass, middle, first, run⟩ := Compile.bind_ok run
    obtain ⟨others, last, more, run⟩ := Compile.bind_ok run
    cases run
    obtain ⟨rfl, -⟩ := ofComponent_leaves component first
    rw [Component.addressesFrom, Component.nodesAll, List.zipIdx_append, met, first]
    apply List.rel_append
    · rw [List.forall₂_map_left_iff]
      simp only [nodeAt?_here]
      rw [← same]
      simp only [nodeAt?_here]
      exact ofComponent_along component first
    · have all := ofComponents_along rest (seen ++ [(component, start)]) (front ++ [pass]) (by simp [same]) more
      rwa [← List.append_cons, ← List.append_cons, List.length_append, List.length_singleton] at all

end

end Pass

namespace Flattened

/-- The flat leaves stand at the addresses of the leaves, each in the unit that the nearest isolated group around it
opens; the main unit is the one without a group. -/
theorem ofProgram_addresses (source : Program) :
    List.Forall₂ (fun address flat => UnitOf source.isolatedAddresses 0 1 address flat.unit) source.leafAddresses
      (ofProgram source).leaves := by
  have placed := Component.placedAll_addresses 0 1 0 source.root
  rwa [← ofProgram_leaves, List.forall₂_map_right_iff] at placed

/-- Every isolated group opens the unit behind those of the groups before it. -/
theorem ofProgram_opened {place : Nat} {address : List Nat} (found : source.isolatedAddresses[place]? = some address) :
    ∃ options children decl, source.at? address = some (.group options children) ∧
      options.isolated = some decl.library ∧ (ofProgram source).units[place + 1]? = some decl := by
  have all := Component.isolatedAll_addresses "" source.root []
  obtain ⟨inside, rfl⟩ := List.getElem?_eq_some_iff.mp found
  have there : place < source.isolated.length := all.length_eq ▸ inside
  obtain ⟨_, at_eq, options, rfl, isolated⟩ := all.get inside there
  refine ⟨options, _, source.isolated[place].unit, at_eq, isolated, ?_⟩
  rw [ofProgram_units, List.getElem?_cons_succ, List.getElem?_map, List.getElem?_eq_getElem there]
  rfl

end Flattened

/-- A unit that is put together from a library and the leaves that were compiled into it. -/
def UnitDecl.Finishes (decl : UnitDecl) (finished : CompiledUnit) : Prop :=
  ∃ unit : UnitState, unit.label = decl.label ∧ unit.library = decl.library ∧ unit.finish = .ok finished

/-- The compiled units are those of the flat tree. -/
theorem Program.compile_units {log : List LogLine} (compiled : source.compile table caps = .ok (program, log)) :
    List.Forall₂ UnitDecl.Finishes (Flattened.ofProgram source).units program.units := by
  obtain ⟨leaves, state, units, run, finished, rfl⟩ := Program.compile_eq_ok compiled
  have run : Compile.runLeaves table caps source = .ok (leaves, state) := run
  have evolves := (Compile.leaves_apart (Compile.startState_sane source) (Compile.startState_inUnits source) run).1
  have kept : state.units.length = (Flattened.ofProgram source).units.length :=
    evolves.units.trans (List.length_map _)
  refine List.forall₂_iff_get.mpr ⟨kept.symm.trans (Compile.finishUnits_ok finished).length_eq, fun place here there => ?_⟩
  obtain ⟨unit, found, label, library⟩ := Compile.runLeaves_unit run (List.getElem?_eq_getElem here)
  obtain ⟨done, done_there, finish⟩ := Compile.finishUnits_at finished found
  rw [List.getElem?_eq_getElem there] at done_there
  cases done_there
  exact ⟨unit, label, library, finish⟩

/-- One leaf of the tree in both walks: the flat leaf and the compiled leaf of its number are those that the pass at its
address is made of, and it is compiled into the unit that the nearest isolated group around it opens. -/
structure Program.LeafAgrees (source : Program) (table : ResourceTable) (program : CompiledProgram) (passes : List Pass)
    (place : Nat) (address : List Nat) (flat : FlatLeaf) (compiled : CompiledLeaf) (pass : Pass) : Prop where
  flat_eq : (Flattened.ofProgram source).leaves[place]? = some flat
  compiled_eq : program.leaves[place]? = some compiled
  at_eq : source.at? address = some (.leaf flat.node)
  met_eq : nodeAt? (Pass.metBelow table program.leaves) (Pass.met table program.leaves 0 source.root) address =
    some (.leaf flat.node, place)
  pass_eq : nodeAt? Pass.children passes address = some pass
  made : Pass.ofLeaf? table flat.node compiled = some pass
  unit : UnitOf source.isolatedAddresses 0 1 address flat.unit
  becomes : flat.node.BecomesIn flat.unit compiled
  told : ∀ number, compiled.unit? = some number → ∃ unit text, program.units[flat.unit]? = some unit ∧
    text ∈ unit.leaves ∧ text.Tells program.blocks flat.node compiled

/-- Building takes all compiled leaves, each for the leaf that it was compiled from; the main unit and those of the
isolated groups, in pre-order, are the units. -/
structure Program.WalksAgree (source : Program) (table : ResourceTable) (program : CompiledProgram) (passes : List Pass) :
    Prop where
  taken : (Pass.ofComponents table program.leaves source.root).run 0 =
    .ok (passes, (Flattened.ofProgram source).leaves.length)
  compiled_length : program.leaves.length = (Flattened.ofProgram source).leaves.length
  addresses_length : source.leafAddresses.length = (Flattened.ofProgram source).leaves.length
  leaf : ∀ (place : Nat) address, source.leafAddresses[place]? = some address →
    ∃ flat compiled pass, source.LeafAgrees table program passes place address flat compiled pass
  units_length : program.units.length = source.isolatedAddresses.length + 1
  opened : ∀ (place : Nat) address, source.isolatedAddresses[place]? = some address →
    ∃ options children, ∃ decl : UnitDecl, ∃ unit, source.at? address = some (.group options children) ∧
      options.isolated = some decl.library ∧ program.units[place + 1]? = some unit ∧ decl.Finishes unit

variable {passes : List Pass}

/-- The text of a compiled leaf is in the unit of its flat leaf. -/
theorem CompiledProgram.Of.told (of : program.Of source) {flat : FlatLeaf} {compiled : CompiledLeaf}
    (listed : (flat, compiled) ∈ source.compiledLeaves program) {number : Nat} (texted : compiled.unit? = some number) :
    ∃ unit text, program.units[flat.unit]? = some unit ∧ text ∈ unit.leaves ∧
      text.Tells program.blocks flat.node compiled := by
  obtain ⟨becomes, inside⟩ := of.becomes _ listed
  have there := List.getElem?_eq_getElem inside
  have here : (flat, compiled) ∈ (source.compiledLeaves program).filter (·.2.unit? = some flat.unit) := by
    rw [List.mem_filter, decide_eq_true_eq, becomes.unit_eq texted]
    exact ⟨listed, texted⟩
  obtain ⟨text, found, tells⟩ := (of.texts _ _ there).exists_right here
  exact ⟨_, text, there, found, tells⟩

theorem Program.walks_agree_of {log : List LogLine} (compiled : source.compile table caps = .ok (program, log)) {place : Nat}
    (built : (Pass.ofComponents table program.leaves source.root).run 0 = .ok (passes, place)) :
    source.WalksAgree table program passes := by
  have of := Program.compile_ok compiled
  have units := Program.compile_units compiled
  have placed := Flattened.ofProgram_addresses source
  have along := Pass.ofComponents_along source.root [] [] rfl built
  rw [← Flattened.ofProgram_nodes, List.zipIdx_map, List.forall₂_map_right_iff] at along
  obtain ⟨taken, -⟩ := Pass.ofComponents_leaves source.root built
  have nodes := congrArg List.length (Flattened.ofProgram_nodes source)
  rw [List.length_map] at nodes
  constructor
  · rw [built, taken, nodes, Nat.zero_add]
  · exact of.length_eq
  · exact placed.length_eq
  · intro place address found
    obtain ⟨inside, rfl⟩ := List.getElem?_eq_some_iff.mp found
    have here : place < (Flattened.ofProgram source).leaves.length := placed.length_eq ▸ inside
    obtain ⟨met_eq, pass, pass_eq, compiled, compiled_eq, made⟩ := along.get inside (by simpa using here)
    simp only [List.get_eq_getElem, List.getElem_zipIdx, Nat.zero_add, Prod.map, id] at met_eq pass_eq compiled_eq made
    have flat_eq := List.getElem?_eq_getElem here
    have listed : ((Flattened.ofProgram source).leaves[place], compiled) ∈ source.compiledLeaves program :=
      List.mem_of_getElem? (List.getElem?_zip_eq_some.mpr ⟨flat_eq, compiled_eq⟩)
    exact ⟨_, compiled, pass, {
      flat_eq, compiled_eq, met_eq, pass_eq, made
      at_eq := nodeAt?_map (fun here => Pass.met_prefix here.2 here.1.children) (Pass.met_prefix 0 source.root) met_eq
      unit := placed.get inside here
      becomes := (of.becomes _ listed).1
      told := fun _ => of.told listed }⟩
  · rw [← units.length_eq, Flattened.ofProgram_units, List.length_cons, List.length_map]
    exact congrArg (· + 1) (Component.isolatedAll_addresses "" source.root []).length_eq.symm
  · intro place address found
    obtain ⟨options, children, decl, at_eq, isolated, declared⟩ := Flattened.ofProgram_opened found
    obtain ⟨inside, rfl⟩ := List.getElem?_eq_some_iff.mp declared
    have there : place + 1 < program.units.length := units.length_eq ▸ inside
    exact ⟨options, children, _, _, at_eq, isolated, List.getElem?_eq_getElem there, units.get inside there⟩

namespace Program.WalksAgree

variable {address : List Nat}

/-- Whatever leaf the tree has is compiled and built, and its unit is the only one that it can belong to. -/
theorem leaf_at (agree : source.WalksAgree table program passes) {node : Leaf}
    (there : source.at? address = some (.leaf node)) :
    ∃ place flat compiled pass, source.LeafAgrees table program passes place address flat compiled pass ∧
      flat.node = node ∧ ∀ number, UnitOf source.isolatedAddresses 0 1 address number ↔ number = flat.unit := by
  obtain ⟨place, inside, listed⟩ := List.getElem_of_mem (mem_leafAddresses.mpr ⟨node, there⟩)
  obtain ⟨flat, compiled, pass, agrees⟩ := agree.leaf place address (listed ▸ List.getElem?_eq_getElem inside)
  refine ⟨place, flat, compiled, pass, agrees, ?_, fun number => ⟨?_, ?_⟩⟩
  · cases agrees.at_eq.symm.trans there
    rfl
  · intro belongs
    exact unitOf_unique belongs agrees.unit
  · rintro rfl
    exact agrees.unit

/-- Whatever isolated group the tree has opens a unit. -/
theorem unit_at (agree : source.WalksAgree table program passes) {options : GroupOptions} {children : List Component}
    (there : source.at? address = some (.group options children)) (isolated : options.isolated.isSome) :
    ∃ (place : Nat) (decl : UnitDecl) (unit : CompiledUnit), source.isolatedAddresses[place]? = some address ∧
      options.isolated = some decl.library ∧ program.units[place + 1]? = some unit ∧ decl.Finishes unit := by
  obtain ⟨place, inside, listed⟩ := List.getElem_of_mem (mem_isolatedAddresses.mpr ⟨options, children, there, isolated⟩)
  have found : source.isolatedAddresses[place]? = some address := listed ▸ List.getElem?_eq_getElem inside
  obtain ⟨_, _, decl, unit, same, library, opened, finishes⟩ := agree.opened place address found
  cases same.symm.trans there
  exact ⟨place, decl, unit, found, library, opened, finishes⟩

end Program.WalksAgree

namespace Graph

variable {σ : Type} [Device σ] {host : Host σ}

/-- A program that compiles is built, and the walk that builds it agrees with the one that laid it out. -/
theorem build_walks (shared : Shared) (coordinators : List (String × OffFrame.Coordinator)) {log : List LogLine}
    (compiled : source.compile table (Device.caps host.device) = .ok (program, log)) :
    ∃ graph, build host shared coordinators source table = .ok graph ∧ graph.session.compiled = program ∧
      source.WalksAgree table program graph.passes := by
  obtain ⟨graph, built, rfl⟩ :
      ∃ graph, build host shared coordinators source table = .ok graph ∧ graph.session.compiled = program :=
    build_ok compiled
  obtain ⟨-, ⟨_, made⟩, -, -⟩ := build_eq_ok built
  exact ⟨graph, built, rfl, Program.walks_agree_of compiled made⟩

/-- Kernels in an isolated group below an off-frame group, in an isolated group within it, and behind both. -/
def nestedKernels : Program where
  library := ""
  root := [
    .offFrame "job" [.group { label := "fx", isolated := some "const n = 1;" } [
      blockKernel, .group { label := "deep", isolated := some "const m = 2;" } [blockKernel]]],
    .group { label := "rest" } [.leaf (.callback ⟨"look", .witness .done "look"⟩), blockKernel]]

/-- Its walks agree; the leaves belong to the units of both groups and to the main unit. -/
theorem build_walks_nested :
    ∃ graph : Graph Recorder,
      build ⟨{}, []⟩ {} [] nestedKernels { buffers := [⟨"x", .scalar .u32, 4, .fixed 4⟩] } = .ok graph ∧
      nestedKernels.WalksAgree { buffers := [⟨"x", .scalar .u32, 4, .fixed 4⟩] } graph.session.compiled graph.passes ∧
      nestedKernels.leafAddresses = [[0, 0, 0], [0, 0, 1, 0], [1, 0], [1, 1]] ∧
      nestedKernels.isolatedAddresses = [[0, 0], [0, 0, 1]] ∧
      (Flattened.ofProgram nestedKernels).leaves.map (·.unit) = [1, 2, 0, 0] := by
  have run : (match nestedKernels.compile { buffers := [⟨"x", .scalar .u32, 4, .fixed 4⟩] }
      (Device.caps (Host.device ⟨({} : Recorder), []⟩)) with
    | .ok _ => true
    | .error _ => false) = true := by decide +kernel
  cases compiled : nestedKernels.compile { buffers := [⟨"x", .scalar .u32, 4, .fixed 4⟩] }
      (Device.caps (Host.device ⟨({} : Recorder), []⟩)) with
  | error _ =>
    rw [compiled] at run
    cases run
  | ok result =>
    obtain ⟨program, log⟩ := result
    obtain ⟨graph, built, rfl, agree⟩ := build_walks {} [] compiled
    exact ⟨graph, built, agree, by decide, by decide, by decide⟩

end Graph

end FrameGraph
