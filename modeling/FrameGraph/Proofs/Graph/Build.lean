import FrameGraph.Proofs.Compile.Program
import FrameGraph.Proofs.Graph.Calls

/-! # Built graphs

A program that compiles can be built: each of its leaves becomes a pass, together with what it was compiled to.
A graph that was just built is sound.
-/

namespace FrameGraph

variable {source : Program} {program : CompiledProgram} {table : ResourceTable}

/-- The compiled leaves of a program are those of its components. -/
theorem CompiledProgram.Of.nodes_eq (of : program.Of source) :
    (source.compiledLeaves program).map (·.1.node) = Component.nodesAll source.root := by
  have firsts := List.map_fst_zip (Nat.le_of_eq of.length_eq.symm)
  rw [← Flattened.ofProgram_nodes, ← firsts, List.map_map]
  rfl

namespace Pass

/-- The leaves of a built tree are made of the compiled leaves, one of each. -/
theorem ofComponents_compiledLeaves (of : program.Of source) {passes : List Pass} {place : Nat}
    (built : (ofComponents table program.leaves source.root).run 0 = .ok (passes, place)) :
    List.Forall₂ (fun leaf pass => ofLeaf? table leaf.1.node leaf.2 = some pass) (source.compiledLeaves program)
      (leavesAll passes) := by
  have all := (ofComponents_leaves source.root built).2
  have nodes := congrArg List.length (Flattened.ofProgram_nodes source)
  have length := all.length_eq
  rw [List.length_map] at nodes
  rw [List.length_zipIdx] at length
  refine List.forall₂_iff_get.mpr ⟨?_, fun i here inside => ?_⟩
  · rw [Program.compiledLeaves, List.length_zip, of.length_eq, Nat.min_self, nodes, length]
  · obtain ⟨compiled, there, made⟩ := (List.forall₂_iff_get.mp all).2 i (by simpa [length] using inside) inside
    simp only [List.get_eq_getElem, List.getElem_zipIdx, Nat.zero_add, ← Flattened.ofProgram_nodes,
      List.getElem_map] at there made
    obtain ⟨_, rfl⟩ := List.getElem?_eq_some_iff.mp there
    simpa only [Program.compiledLeaves, List.get_eq_getElem, List.getElem_zip] using made

/-- What holds of every pass that a compiled leaf becomes holds of all passes of a tree that was just built. -/
theorem each_ofComponents (of : program.Of source) {passes : List Pass} {place : Nat} {good : Pass → Prop}
    (built : (ofComponents table program.leaves source.root).run 0 = .ok (passes, place))
    (made : ∀ leaf ∈ source.compiledLeaves program, ∀ pass, ofLeaf? table leaf.1.node leaf.2 = some pass → good pass) :
    Each good passes := by
  have all := List.forall₂_iff_get.mp (ofComponents_compiledLeaves of built)
  intro pass found
  obtain ⟨i, inside, rfl⟩ := List.mem_iff_getElem.mp found
  exact made _ (List.get_mem (source.compiledLeaves program) ⟨i, all.1 ▸ inside⟩) _ (all.2 i (all.1 ▸ inside) inside)

/-- The callbacks of a built tree are those of the components. -/
theorem callback_ofComponents (of : program.Of source) {passes : List Pass} {place : Nat}
    (built : (ofComponents table program.leaves source.root).run 0 = .ok (passes, place)) {node : Callback}
    (found : .callback node ∈ leavesAll passes) : .callback node ∈ Component.nodesAll source.root := by
  have each : Each (fun pass => ∀ node, pass = .callback node → .callback node ∈ Component.nodesAll source.root) passes := by
    refine each_ofComponents of built fun leaf listed pass made node is => ?_
    subst is
    unfold ofLeaf? at made
    split at made <;> cases made
    rename_i same
    rw [← of.nodes_eq]
    exact List.mem_map.mpr ⟨leaf, listed, same⟩
  exact each _ found node rfl

/-- A leaf fits what it was compiled to. -/
theorem ofLeaf?_isSome {node : Leaf} {unit : Nat} {compiled : CompiledLeaf} (becomes : node.BecomesIn unit compiled) :
    ∃ pass, ofLeaf? table node compiled = some pass := by
  unfold Leaf.BecomesIn at becomes
  split at becomes
  all_goals first | exact ⟨_, rfl⟩ | exact becomes.elim

/-- The passes of a compiled program can be made. -/
theorem ofComponents_compiled (of : program.Of source) :
    ∃ passes place, (ofComponents table program.leaves source.root).run 0 = .ok (passes, place) := by
  have fits : ∀ node ∈ (Component.nodesAll source.root).zipIdx 0, ∃ pass, MadeAt table program.leaves node pass := by
    rintro ⟨node, place⟩ found
    rw [List.mem_zipIdx_iff_getElem?, ← Flattened.ofProgram_nodes, List.getElem?_map, Option.map_eq_some_iff] at found
    obtain ⟨leaf, there, rfl⟩ := found
    have inside : place < program.leaves.length := of.length_eq ▸ (List.getElem?_eq_some_iff.mp there).1
    have has := List.getElem?_eq_getElem inside
    have listed : (leaf, program.leaves[place]) ∈ source.compiledLeaves program :=
      List.mem_of_getElem? (List.getElem?_zip_eq_some.mpr ⟨there, has⟩)
    obtain ⟨pass, made⟩ : ∃ pass, ofLeaf? table leaf.node program.leaves[place] = some pass :=
      ofLeaf?_isSome (of.becomes _ listed).1
    exact ⟨pass, _, has, made⟩
  obtain ⟨passes, made⟩ := ofComponents_ok source.root 0 fits
  exact ⟨passes, _, made⟩

end Pass

namespace Graph

variable {σ : Type} [Device σ] {graph : Graph σ} {host : Host σ} {shared : Shared}
  {coordinators : List (String × OffFrame.Coordinator)}

/-- What a built graph consists of. -/
theorem build_eq_ok {host : Host σ} {shared : Shared} {coordinators : List (String × OffFrame.Coordinator)}
    {source : Program} (built : build host shared coordinators source table = .ok graph) :
    (∃ log, source.compile table (Device.caps host.device) = .ok (graph.session.compiled, log)) ∧
      (∃ place, (Pass.ofComponents table graph.session.compiled.leaves source.root).run 0 =
        .ok (graph.passes, place)) ∧
      (∃ log, graph.session = {
        host := { host with log }
        compiled := graph.session.compiled
        pool := .empty table graph.session.compiled.usage
        blockGroups := graph.session.compiled.blocks.map fun _ => none
        shared
        coordinators }) ∧ ¬graph.ready := by
  unfold build at built
  cases compiled : source.compile table (Device.caps host.device) with
  | error error =>
    rw [compiled] at built
    cases built
  | ok result =>
    rw [compiled] at built
    dsimp only [Except.mapError, Bind.bind, Except.bind] at built
    cases passes : (Pass.ofComponents table result.1.leaves source.root).run 0 with
    | error place =>
      rw [passes] at built
      cases built
    | ok made =>
      rw [passes] at built
      cases built
      exact ⟨⟨result.2, rfl⟩, ⟨made.2, passes⟩, ⟨_, rfl⟩, Bool.false_ne_true⟩

/-- A built graph has compiled its program. -/
theorem build_of {host : Host σ} {shared : Shared} {coordinators : List (String × OffFrame.Coordinator)}
    {source : Program} (built : build host shared coordinators source table = .ok graph) :
    graph.session.compiled.Of source := by
  obtain ⟨⟨log, compiled⟩, -⟩ := build_eq_ok built
  exact Program.compile_ok compiled

/-- A built graph is sound when its session and its leaves are as asked. -/
theorem build_sound {host : Host σ} {shared : Shared} {coordinators : List (String × OffFrame.Coordinator)}
    {source : Program} (built : build host shared coordinators source table = .ok graph)
    (held : kept graph.session) (all : Pass.Each raw graph.passes) :
    graph.Sound kept raw good graph.session.compiled table := by
  obtain ⟨-, -, ⟨_, session_eq⟩, unready⟩ := build_eq_ok built
  have pool_eq : graph.session.pool = .empty table graph.session.compiled.usage := congrArg Session.pool session_eq
  exact {
    kept := held
    compiled := rfl
    table := congrArg Pool.table pool_eq
    usage := congrArg Pool.usage pool_eq
    sized := pool_eq ▸ Pool.sized_empty table _
    tight := pool_eq ▸ Pool.tight_empty table _
    raw := all
    good := fun ready => absurd ready unready
    filled := fun ready => absurd ready unready
    recorded := fun ready => absurd ready unready }

/-- What compiles can be built. -/
theorem build_ok {log : List LogLine} (compiled : source.compile table (Device.caps host.device) = .ok (program, log)) :
    ∃ graph, build host shared coordinators source table = .ok graph ∧ graph.session.compiled = program := by
  obtain ⟨passes, place, made⟩ : ∃ passes place,
      (Pass.ofComponents table program.leaves source.root).run 0 = .ok (passes, place) :=
    Pass.ofComponents_compiled (Program.compile_ok compiled)
  unfold build
  rw [compiled]
  dsimp only [Except.mapError, Bind.bind, Except.bind]
  rw [made]
  exact ⟨_, rfl, rfl⟩

end Graph

end FrameGraph
