import FrameGraph.Proofs.Graph.Commands
import FrameGraph.Proofs.Pass.Formats

/-! # Draws follow their targets

The surface may change in size and format, textures may be allocated anew in other formats, and pipelines may fail to be
created. Every draw that is recorded has a pipeline for the formats of its frame.
-/

namespace FrameGraph

variable {σ : Type} [Device σ] [LawfulDevice σ] {leaves : List (FlatLeaf × CompiledLeaf)}

/-- A pass that was just built has no pipeline yet. -/
theorem Pass.piped_ofLeaf? {table : ResourceTable} {leaf : FlatLeaf × CompiledLeaf} {pass : Pass}
    (made : ofLeaf? table leaf.1.node leaf.2 = some pass) (listed : leaf ∈ leaves) : pass.Piped leaves := by
  obtain ⟨flat, compiled⟩ := leaf
  unfold ofLeaf? at made
  split at made <;> cases made
  case h_2 node compiled is same =>
    subst same
    exact ⟨flat, compiled, node, listed, is, rfl, rfl, rfl, rfl, nofun⟩
  case h_5 node is => exact List.mem_map.mpr ⟨_, listed, is⟩
  all_goals trivial

namespace Graph

/-- What becomes of a pool does not matter to draws that look at it anew in every frame. -/
theorem formats_governs (leaves : List (FlatLeaf × CompiledLeaf)) :
    Governs (σ := σ) (Session.Fits (.formats leaves)) (fun _ => Pass.Piped leaves)
      (fun session => Pass.Fitted leaves session.pool)
      (fun session command => command.ByCaller (leaves.map (·.1.node)) session.pool ∨ command.Follows leaves session.pool)
      (Demands.formats leaves).Restocks (Session.Holds (.formats leaves)) := by
  have any {action : PoolM σ Nat} (pool : Pool) : PartEffect.Ensures (fun p _ => p = pool) action
      (fun _ p _ => (Demands.formats leaves).Restocks pool p) fun _ p _ => (Demands.formats leaves).Restocks pool p :=
    fun _ _ _ => by split <;> exact fun _ _ => trivial
  exact .ofDemands (Demands.formats_met leaves) (fun pool _ => any pool) fun pool _ => any pool

/-- Whatever is called on a graph of a program, whatever fails and whatever its device does in between, the device is
given only draws whose pipeline was created with the formats that their targets have when they are recorded: those of
the surface that the frame was encoded for and of the textures that the pool holds in that frame. Callbacks may record
draws of their own. -/
theorem formats_follow {graph : Graph σ} {host : Host σ} {shared : Shared}
    {coordinators : List (String × OffFrame.Coordinator)} {source : Program} {table : ResourceTable}
    (built : build host shared coordinators source table = .ok graph)
    (idle : ∀ entry ∈ coordinators, entry.2.work = none) (calls : List (Call σ)) :
    (∀ call : Call σ, (∀ change, call ≠ .host change) →
      let pool := (call.next (graph.after calls)).session.pool
      Host.Reaches
        (fun command => command.ByCaller (Component.nodesAll source.root) pool ∨
          command.Follows (source.compiledLeaves graph.session.compiled) pool)
        (graph.after calls).session.host (call.next (graph.after calls)).session.host) ∧
    ∀ target surface,
      (∀ stream after, (encode target surface).apply (graph.after calls) = (.ok stream, after) →
        after.session.pool.surface = some surface ∧
          stream.Only fun command => command.ByCaller (Component.nodesAll source.root) after.session.pool ∨
            command.Follows (source.compiledLeaves graph.session.compiled) after.session.pool) ∧
      let pool := ((runFrame target surface).apply (graph.after calls)).2.session.pool
      Host.Reaches
        (fun command => pool.surface = some surface ∧
          (command.ByCaller (Component.nodesAll source.root) pool ∨
            command.Follows (source.compiledLeaves graph.session.compiled) pool))
        (graph.after calls).session.host ((runFrame target surface).apply (graph.after calls)).2.session.host := by
  have plain : graph.Plain graph.session.compiled table := build_sound built trivial fun _ _ => trivial
  have governed : graph.Governed (Session.Fits (.formats (source.compiledLeaves graph.session.compiled)))
      fun _ => Pass.Piped (source.compiledLeaves graph.session.compiled) :=
    build_governed built idle trivial fun _ listed _ made => Pass.piped_ofLeaf? made listed
  rw [← (build_of built).nodes_eq]
  exact (formats_governs _).commands governed plain calls

/-- A triangle in the display surface and in a texture that has the surface's format. -/
def mirroredTriangle : Program where
  library := ""
  root := [.leaf (.draw {
    label := "triangle"
    source := "@vertex fn v() { } @fragment fn f() { }"
    vertex := "v"
    fragment := "f"
    targets := [⟨.surface, .load, .alpha⟩, ⟨.resource ⟨0⟩, .load, .replace⟩]
    depth := some ⟨⟨1⟩, none⟩ })]

/-- The texture, and one for the depth. -/
def mirror : ResourceTable where
  textures := [⟨"mirror", .viewport, .surface, .d2, 1⟩, ⟨"depth", .viewport, .fixed .depth32Float, .d2, 1⟩]
  buffers := []

/-- The target specifications of the only draw that a frame left in its stream. -/
def onlyTargets? : Except GraphError CommandStream → Option (List ColorTargetSpec)
  | .ok ⟨_, some [.draw command], _⟩ => some command.pipeline.targets
  | _ => none

theorem onlyTargets?_eq_some {outcome : Except GraphError CommandStream} {specs : List ColorTargetSpec}
    (only : onlyTargets? outcome = some specs) :
    ∃ stream command, outcome = .ok stream ∧ stream.encoder = some [.draw command] ∧
      command.pipeline.targets = specs := by
  unfold onlyTargets? at only
  split at only <;> cases only
  exact ⟨_, _, rfl, rfl, rfl⟩

/-- When the surface has another format in the next frame, the pipeline is created anew for it. -/
theorem formats_follow_reformatted :
    ∃ (graph : Graph Recorder) (stream : CommandStream) (after : Graph Recorder) (command : DrawCommand),
      build ⟨{}, []⟩ {} [] mirroredTriangle mirror = .ok graph ∧
      (encode (some default) ⟨.flat 8 1, .bgra8Unorm⟩).apply (graph.after [.setup ⟨.flat 1 1, .rgba8Unorm⟩,
        .encode (some default) ⟨.flat 1 1, .rgba8Unorm⟩]) = (.ok stream, after) ∧
      stream.encoder = some [.draw command] ∧
      command.pipeline.targets = [⟨.bgra8Unorm, .alpha⟩, ⟨.bgra8Unorm, .replace⟩] ∧
      (Command.draw command).Follows (mirroredTriangle.compiledLeaves graph.session.compiled) after.session.pool := by
  have run : (match build (σ := Recorder) ⟨{}, []⟩ {} [] mirroredTriangle mirror with
    | .ok graph => onlyTargets? ((encode (some default) ⟨.flat 8 1, .bgra8Unorm⟩).apply
        (graph.after [.setup ⟨.flat 1 1, .rgba8Unorm⟩, .encode (some default) ⟨.flat 1 1, .rgba8Unorm⟩])).1
    | .error _ => none) = some [⟨.bgra8Unorm, .alpha⟩, ⟨.bgra8Unorm, .replace⟩] := by decide +kernel
  cases built : build (σ := Recorder) ⟨{}, []⟩ {} [] mirroredTriangle mirror with
  | error _ =>
    rw [built] at run
    cases run
  | ok graph =>
    rw [built] at run
    obtain ⟨stream, command, done, held, specs⟩ := onlyTargets?_eq_some run
    have follow := ((formats_follow built (List.forall_mem_nil _) [.setup ⟨.flat 1 1, .rgba8Unorm⟩,
      .encode (some default) ⟨.flat 1 1, .rgba8Unorm⟩]).2 (some default) ⟨.flat 8 1, .bgra8Unorm⟩).1 stream _
      (Prod.ext done rfl)
    have passive (node : Callback) : Leaf.callback node ∉ Component.nodesAll mirroredTriangle.root := by
      simp [mirroredTriangle, Component.nodesAll, Component.nodes]
    exact ⟨graph, stream, _, command, rfl, Prod.ext done rfl, held, specs,
      (follow.2 _ held _ (List.mem_singleton_self _)).resolve_left (Command.not_byCaller passive _ _)⟩

end Graph

end FrameGraph
