import FrameGraph.Proofs.Graph.Commands
import FrameGraph.Proofs.Pass.Usages

/-! # Commands have the flags that they need

The usage of a compiled program is merged of what its leaves use, in whatever order, and of nothing else. Its pool
creates what it holds for just this usage, so everything that a command refers to has the flag that the command needs.
-/

namespace FrameGraph

variable {σ : Type}

/-- A pass that was just built binds what its leaf does, and has created nothing. -/
theorem Pass.permitted_ofLeaf? {source : Program} {program : CompiledProgram} (uses : program.UsesOf source)
    {table : ResourceTable} {leaf : FlatLeaf × CompiledLeaf} (listed : leaf ∈ source.compiledLeaves program)
    {pass : Pass} (made : ofLeaf? table leaf.1.node leaf.2 = some pass) : pass.Permitted (Component.nodesAll source.root) := by
  have node : leaf.1.node ∈ Component.nodesAll source.root := by
    rw [← Flattened.ofProgram_nodes]
    exact List.mem_map_of_mem (List.of_mem_zip listed).1
  have own : ∀ group, .own group ∈ leaf.2.groups → ∀ binding ∈ group, binding.UsedIn source.uses :=
    fun group => uses.bound leaf listed (.own group)
  unfold ofLeaf? at made
  split at made <;> cases made
  · rename_i is
    rw [is] at own
    exact .ofGroups own _ _
  · rename_i draw compiled named is
    rw [is] at own
    rw [named] at node
    refine ⟨⟨draw, node, rfl, rfl, rfl, ?_⟩, .ofGroups own _ _⟩
    have same (buffer : BufferHandle) : (indexBinding table buffer).1 = buffer := by
      unfold indexBinding
      split <;> rfl
    rw [Option.map_map, Function.comp_def, funext same, Option.map_id']
  · rename_i named
    rwa [named] at node
  · rename_i named
    rwa [named] at node
  · rename_i named
    rwa [named] at node

namespace Graph

variable [Device σ] [LawfulDevice σ] {table : ResourceTable}

/-- What a call makes of a pool is created for the usage that the pool knows. -/
theorem usages_governs (nodes : List Leaf) :
    Governs (σ := σ) (Session.Fits (.usages nodes)) (fun _ => Pass.Permitted nodes)
      (fun _ => Pass.Permitted nodes)
      (fun session command => command.ByCaller nodes session.pool ∨ command.Permitted nodes session.pool)
      (Demands.usages nodes).Restocks (Session.Holds (.usages nodes)) := by
  have restocks {pool now : Pool} {old : ResourceHandle → Allocation → Prop}
      (renews : Pool.Renews old pool.usage.Gives pool now) : (Demands.usages nodes).Restocks pool now :=
    fun _ equips => { equips with made := equips.made.renew renews }
  refine .ofDemands (Demands.usages_met nodes) (fun pool surface => ?_) fun pool surface => ?_
  · refine .pre ?_ ((Pool.lasts_gives pool surface).materialize.mono (fun _ _ _ => restocks) fun _ _ _ => restocks)
    rintro _ _ rfl
    exact .refl _
  · refine .pre ?_ ((Pool.lasts_gives pool surface).resize.mono (fun _ _ _ => restocks) fun _ _ _ => restocks)
    rintro _ _ rfl
    exact .refl _

/-- The usage of a program that compiles has one entry for each resource that its leaves use, with the flags of all
uses, in whatever order the leaves are taken, and no others. Whatever is called on a graph of the program, whatever fails
and whatever its device does in between, all textures that the pool holds were created with just the flags of their
entries, all buffers so that they may be uploaded to besides, and the device is given only commands that refer to what
was created with the flags that they need, apart from what callbacks record. -/
theorem usages_cover {source : Program} {caps : DeviceCaps} {program : CompiledProgram} {log : List LogLine}
    (compiled : source.compile table caps = .ok (program, log)) :
    (∀ nodes : List Leaf, nodes.Perm (Component.nodesAll source.root) → program.usage.Unites (nodes.flatMap Leaf.uses)) ∧
    ∀ (host : Host σ) shared coordinators graph, Device.caps host.device = caps →
      build host shared coordinators source table = .ok graph →
      (∀ entry ∈ coordinators, entry.2.work = none) → ∀ calls : List (Call σ),
        (graph.after calls).session.pool.MadeFor program.usage ∧
        (∀ call : Call σ, (∀ change, call ≠ .host change) →
          let pool := (call.next (graph.after calls)).session.pool
          Host.Reaches
            (fun command => command.ByCaller (Component.nodesAll source.root) pool ∨
              command.Permitted (Component.nodesAll source.root) pool)
            (graph.after calls).session.host (call.next (graph.after calls)).session.host) ∧
        ∀ target surface,
          (∀ stream after, (encode target surface).apply (graph.after calls) = (.ok stream, after) →
            stream.Only fun command => command.ByCaller (Component.nodesAll source.root) after.session.pool ∨
              command.Permitted (Component.nodesAll source.root) after.session.pool) ∧
          let pool := ((runFrame target surface).apply (graph.after calls)).2.session.pool
          Host.Reaches
            (fun command => command.ByCaller (Component.nodesAll source.root) pool ∨
              command.Permitted (Component.nodesAll source.root) pool)
            (graph.after calls).session.host ((runFrame target surface).apply (graph.after calls)).2.session.host := by
  have uses := Program.compile_uses compiled
  constructor
  · intro nodes same
    exact uses.unites.perm (same.symm.flatMap_right _)
  · intro host shared coordinators graph caps_eq built idle calls
    obtain ⟨⟨_, again⟩, -, -, -⟩ := build_eq_ok built
    rw [caps_eq, compiled] at again
    obtain ⟨⟨⟩, -⟩ := Prod.mk.inj (Except.ok.inj again)
    have plain : graph.Plain graph.session.compiled table := build_sound built trivial fun _ _ => trivial
    have governed : graph.Governed (Session.Fits (.usages (Component.nodesAll source.root)))
        fun _ => Pass.Permitted (Component.nodesAll source.root) :=
      build_governed built idle ⟨uses.unites, uses.blocks, .ofEmpty table _⟩
        fun _ listed _ => Pass.permitted_ofLeaf? uses listed
    have rules := usages_governs (σ := σ) (Component.nodesAll source.root)
    obtain ⟨later, sound⟩ := rules.after_governed governed plain calls
    obtain ⟨each, frames⟩ := rules.commands governed plain calls
    refine ⟨?_, each, fun target surface => ⟨fun stream after ran => ?_, ?_⟩⟩
    · rw [← sound.compiled]
      exact later.session.stocked.made
    · exact ((frames target surface).1 stream after ran).2
    · exact (frames target surface).2.mono fun _ => And.right

/-- A kernel that samples an image, which is then copied to the display surface. -/
def shownImage : Program where
  library := ""
  root := [
    .leaf (.dispatch {
      label := "shade"
      source := "@compute fn shade() { }"
      function := "shade"
      arguments := [⟨"cells", none, none, .buffer ⟨0⟩ (.storage false)⟩, ⟨"image", none, none, .texture ⟨0⟩ .sample⟩]
      fits := [.buffer "cells"] }),
    .leaf (.blit ⟨"show", .copyTexture ⟨0⟩ .surface⟩)]

/-- The image, and a buffer. -/
def image : ResourceTable where
  textures := [⟨"image", .viewport, .surface, .d2, 1⟩]
  buffers := [⟨"cells", .scalar .u32, 4, .fixed 8⟩]

/-- The image is created to be sampled and to be copied, so a frame may do both. -/
theorem usages_cover_shown :
    ∃ (program : CompiledProgram) (log : List LogLine) (graph : Graph Recorder),
      shownImage.compile image {} = .ok (program, log) ∧ build ⟨{}, []⟩ {} [] shownImage image = .ok graph ∧
      program.usage.textures = [(⟨0⟩, { sampled := true, copySource := true })] ∧
      (let after := ((runFrame (some default) ⟨.flat 1 1, .rgba8Unorm⟩).apply
        (graph.after [.setup ⟨.flat 1 1, .rgba8Unorm⟩])).2
      after.session.host.device.commands.length = 2 ∧ ∀ command ∈ after.session.host.device.commands,
        command.Permitted (Component.nodesAll shownImage.root) after.session.pool) := by
  have run : (match build (σ := Recorder) ⟨{}, []⟩ {} [] shownImage image with
    | .ok graph => (graph.session.compiled.usage.textures,
        (graph.after [.setup ⟨.flat 1 1, .rgba8Unorm⟩]).session.host.device.commands.length,
        ((runFrame (some default) ⟨.flat 1 1, .rgba8Unorm⟩).apply
          (graph.after [.setup ⟨.flat 1 1, .rgba8Unorm⟩])).2.session.host.device.commands.length)
    | .error _ => ([], 0, 0)) = ([(⟨0⟩, { sampled := true, copySource := true })], 0, 2) := by decide +kernel
  cases built : build (σ := Recorder) ⟨{}, []⟩ {} [] shownImage image with
  | error _ =>
    rw [built] at run
    cases run
  | ok graph =>
    rw [built] at run
    obtain ⟨textures, counts⟩ := Prod.mk.inj run
    obtain ⟨none, two⟩ := Prod.mk.inj counts
    obtain ⟨⟨log, compiled⟩, -, -, -⟩ := build_eq_ok built
    have frame := (((usages_cover compiled).2 _ _ _ graph rfl built (List.forall_mem_nil _)
      [.setup ⟨.flat 1 1, .rgba8Unorm⟩]).2.2 (some default) ⟨.flat 1 1, .rgba8Unorm⟩).2
    have given := frame _ (Recorder.accepts _) (by
      rw [Recorder.Holds, List.length_eq_zero_iff.mp none]
      exact List.forall_mem_nil _)
    have passive (node : Callback) : Leaf.callback node ∉ Component.nodesAll shownImage.root := by
      simp [shownImage, Component.nodesAll, Component.nodes]
    exact ⟨_, log, graph, compiled, rfl, textures, two, fun command found =>
      (given command found).resolve_left (Command.not_byCaller passive _ command)⟩

end Graph

end FrameGraph
