import FrameGraph.Proofs.Graph.Build
import FrameGraph.Proofs.Graph.History

/-! # Missing resources

A built graph that is set up has an allocation for everything that its program uses, and its program uses
everything that its passes read, with one exception: the buffer that the vertices of a draw are counted from
is looked up when the draw is compiled, and that does not make it used.
-/

namespace FrameGraph

theorem BindingSource.RecordedIn.texture {usage : ResourceUsage} {source : BindingSource} {handle : TextureHandle}
    (recorded : source.RecordedIn usage) (read : source.texture? = some handle) : usage.Uses (.texture handle) := by
  cases source <;> cases read
  exact recorded

theorem BindingSource.RecordedIn.buffer {usage : ResourceUsage} {source : BindingSource} {handle : BufferHandle}
    (recorded : source.RecordedIn usage) (read : source.buffer? = some handle) : usage.Uses (.buffer handle) := by
  cases source <;> cases read
  exact recorded

namespace Pass

variable {source : Program} {program : CompiledProgram} {table : ResourceTable}

/-- The program uses what a leaf reads, loose buffers apart. -/
structure Recorded (program : CompiledProgram) (leaf : Pass) : Prop where
  textures : ∀ handle ∈ leaf.textures program, program.usage.Uses (.texture handle)
  buffers : ∀ handle ∈ leaf.buffers program, program.usage.Uses (.buffer handle)

/-- What a built leaf reads was recorded when its node was compiled. -/
theorem recorded_ofLeaf? {node : Leaf} {compiled : CompiledLeaf} {leaf : Pass}
    (bound : ∀ group ∈ compiled.groups, ∀ binding ∈ program.groupSpec group, binding.source.RecordedIn program.usage)
    (handles : ∀ handle ∈ node.handles compiled, program.usage.Uses handle)
    (made : ofLeaf? table node compiled = some leaf) : leaf.Recorded program := by
  have groupTextures : ∀ handle ∈ program.groupTextures compiled.groups, program.usage.Uses (.texture handle) := by
    intro handle found
    obtain ⟨group, listed, inside⟩ := List.mem_flatMap.mp found
    obtain ⟨binding, has, read⟩ := List.mem_filterMap.mp inside
    exact (bound group listed binding has).texture read
  have groupBuffers : ∀ handle ∈ program.groupBuffers compiled.groups, program.usage.Uses (.buffer handle) := by
    intro handle found
    obtain ⟨group, listed, inside⟩ := List.mem_flatMap.mp found
    obtain ⟨binding, has, read⟩ := List.mem_filterMap.mp inside
    exact (bound group listed binding has).buffer read
  unfold ofLeaf? at made
  split at made <;> cases made
  · rename_i node compiled
    simp only [Leaf.handles, PlannedSource.handles, List.forall_mem_append, List.forall_mem_map] at handles
    constructor
    · exact List.forall_mem_append.mpr ⟨groupTextures, handles.1⟩
    · exact List.forall_mem_append.mpr ⟨groupBuffers, handles.2⟩
  · rename_i node compiled
    simp only [Leaf.handles, List.forall_mem_append, List.forall_mem_map] at handles
    have index : ∀ handle ∈ (node.index.map (indexBinding table)).toList.map (·.1), program.usage.Uses (.buffer handle) := by
      have same (handle : BufferHandle) : (indexBinding table handle).1 = handle := by
        unfold indexBinding
        split <;> rfl
      cases is : node.index with
      | none => exact List.forall_mem_nil _
      | some handle =>
        rw [is] at handles
        simpa [same] using handles.2 handle
    constructor
    · refine List.forall_mem_append.mpr ⟨List.forall_mem_append.mpr ⟨groupTextures, handles.1.1⟩, ?_⟩
      exact List.forall_mem_map.mpr handles.1.2
    · exact List.forall_mem_append.mpr ⟨groupBuffers, index⟩
  · rename_i node
    simp only [Leaf.handles, List.forall_mem_append, List.forall_mem_map] at handles
    exact ⟨handles.1, handles.2⟩
  · rename_i node
    simp only [Leaf.handles, List.forall_mem_cons] at handles
    exact ⟨List.forall_mem_cons.mpr ⟨handles.1, List.forall_mem_singleton.mpr handles.2.1⟩, List.forall_mem_nil _⟩
  · exact ⟨List.forall_mem_nil _, List.forall_mem_nil _⟩

/-- The program uses what the leaves of a built tree read. -/
theorem recorded_ofComponents (of : program.Of source) {passes : List Pass} {place : Nat}
    (built : (ofComponents table program.leaves source.root).run 0 = .ok (passes, place)) :
    ∀ leaf ∈ leavesAll passes, leaf.Recorded program := by
  have all := List.forall₂_iff_get.mp (ofComponents_compiledLeaves of built)
  intro leaf found
  obtain ⟨i, inside, rfl⟩ := List.mem_iff_getElem.mp found
  have listed := List.get_mem (source.compiledLeaves program) ⟨i, all.1 ▸ inside⟩
  exact recorded_ofLeaf? (of.bound _ listed) (of.handles _ listed) (all.2 i (all.1 ▸ inside) inside)

end Pass

/-- The error is no missing texture, and a missing buffer only when the program does not use it and a leaf
of the label in the error reads it loosely. -/
def PassError.OnlyLoose (program : CompiledProgram) (leaves : List Pass) : PassError → Prop
  | .missingTexture .. => False
  | .missingBuffer label handle => ¬program.usage.Uses (.buffer handle) ∧
      ∃ leaf ∈ leaves, leaf.label = label ∧ handle ∈ leaf.looseBuffers
  | _ => True

namespace DrawPass

variable {program : CompiledProgram} {pass : DrawPass} {view : EncodeView} {handle : BufferHandle}

/-- A draw that has everything else misses the buffer that its vertices are counted from. -/
theorem command_misses (pipeline : pass.pipeline.isSome) (target : view.target.isSome)
    (textures : ∀ handle ∈ Pass.textures program (.draw pass), view.pool.texture? handle ≠ none)
    (buffers : ∀ handle ∈ Pass.buffers program (.draw pass), view.pool.buffer? handle ≠ none)
    (counted : pass.vertices = .buffer handle) (absent : view.pool.buffer? handle = none) :
    pass.command view = .error (.missingBuffer pass.label handle) := by
  have color : ∀ target ∈ pass.targets, Comes (fun _ => True)
      (· = .missingBuffer pass.label handle) (pass.attachment view target) := by
    intro colored found
    unfold attachment
    cases ref : colored.texture with
    | surface => exact .ofNeed (fun _ _ => trivial) fun none => by simp [none] at target
    | resource texture =>
      refine .ofNeed (fun _ _ => trivial) fun none => absurd none (textures texture ?_)
      refine List.mem_append_left _ (List.mem_append_right _ (List.mem_filterMap.mpr ⟨colored, found, ?_⟩))
      rw [ref]
      rfl
  have depth : ∀ depth ∈ pass.depth, Comes (fun _ => True)
      (· = .missingBuffer pass.label handle) (pass.depthAttachment view depth) := by
    refine fun depth found => .ofNeed (fun _ _ => trivial) fun none => absurd none (textures depth.texture ?_)
    exact List.mem_append_right _ (List.mem_map.mpr ⟨depth, Option.mem_toList.mpr found, rfl⟩)
  have index : ∀ index ∈ pass.index, Comes (fun _ => True)
      (· = .missingBuffer pass.label handle) (pass.indexBinding view index) := by
    refine fun index found => .ofNeed (fun _ _ => trivial) fun none => absurd ?_ (buffers index.1 ?_)
    · rw [Pool.buffer?, none, Option.map_none]
    · exact List.mem_append_right _ (List.mem_map.mpr ⟨index, Option.mem_toList.mpr found, rfl⟩)
  have vertices : pass.vertexCount view = .error (.missingBuffer pass.label handle) := by
    have none : view.pool.bufferLength? handle = none := by
      rw [Pool.bufferLength?, Option.map_eq_none_iff]
      exact Option.map_eq_none_iff.mp absent
    simp only [vertexCount, counted, none]
    rfl
  have misses : Comes (fun _ => False) (· = .missingBuffer pass.label handle) (pass.command view) := by
    refine .ofNeed (fun _ _ => ?_) fun none => by simp [none] at pipeline
    refine (Comes.mapM color).bind fun _ _ => (Comes.optionMapM depth).bind fun _ _ => ?_
    refine (Comes.optionMapM index).bind fun _ _ => ?_
    rw [vertices]
    rfl
  cases outcome : pass.command view with
  | ok command => exact (misses.result outcome).elim
  | error error => exact congrArg _ (misses.error outcome)

end DrawPass

namespace Graph

variable {σ : Type} [Device σ] {graph : Graph σ}

/-- The leaf is, but for what it has created and decided, one that was built. -/
def Contains (graph : Graph σ) (leaf : Pass) : Prop :=
  ∃ built ∈ Pass.leavesAll graph.passes, leaf.asBuilt = built.asBuilt

omit [Device σ] in
theorem contains_lasting (graph : Graph σ) :
    Pass.Lasting graph.Contains fun leaf => graph.Contains leaf ∧ leaf.HasPipeline where
  weaken _ := And.left
  raw_same _ _ same := Exists.imp fun _ found => ⟨found.1, same.trans found.2⟩
  good_same _ _ same still held := ⟨held.1.imp fun _ found => ⟨found.1, same.trans found.2⟩, still held.2⟩
  finished _ raw pipeline := ⟨raw, pipeline⟩

omit [Device σ] in
theorem Contains.recorded {program : CompiledProgram} {leaf : Pass} (contains : graph.Contains leaf)
    (all : ∀ leaf ∈ Pass.leavesAll graph.passes, leaf.Recorded program) : leaf.Recorded program := by
  obtain ⟨built, found, same⟩ := contains
  constructor
  · rw [← leaf.textures_asBuilt, same, built.textures_asBuilt]
    exact (all built found).textures
  · rw [← leaf.buffers_asBuilt, same, built.buffers_asBuilt]
    exact (all built found).buffers

omit [Device σ] in
/-- In a graph that is ready exactly what the program uses is allocated. -/
theorem Sound.absent_iff {kept : Session σ → Prop} {raw good : Pass → Prop} {program : CompiledProgram}
    {table : ResourceTable} (sound : graph.Sound kept raw good program table) (ready : graph.ready)
    (handle : ResourceHandle) : graph.session.pool.allocation? handle = none ↔ ¬program.usage.Uses handle := by
  rw [← sound.usage]
  exact (sound.filled ready).absent_iff sound.tight

omit [Device σ] in
/-- Passes of a graph that is ready miss no more than loose buffers. -/
theorem Sound.onlyLoose {start : Graph σ} {kept : Session σ → Prop} {raw : Pass → Prop}
    {program : CompiledProgram} {table : ResourceTable} {error : PassError}
    (sound : graph.Sound kept raw (fun leaf => start.Contains leaf ∧ leaf.HasPipeline) program table)
    (ready : graph.ready) (all : ∀ leaf ∈ Pass.leavesAll start.passes, leaf.Recorded program)
    (read : error.ReadBy graph.session.setting fun leaf => start.Contains leaf ∧ leaf.HasPipeline) :
    error.OnlyLoose program (Pass.leavesAll start.passes) := by
  have compiled : graph.session.setting.compiled = program := sound.compiled
  have unused := sound.absent_iff ready
  cases error with
  | missingTexture label handle =>
    obtain ⟨absent, leaf, ⟨contains, -⟩, reads⟩ := read
    rw [compiled] at reads
    exact (unused _).mp (Pool.texture?_eq_none.mp absent) ((contains.recorded all).textures handle reads)
  | missingBuffer label handle =>
    obtain ⟨absent, read⟩ := read
    have absent := (unused _).mp (Pool.buffer?_eq_none.mp absent)
    obtain ⟨leaf, ⟨contains, -⟩, reads⟩ | ⟨leaf, ⟨⟨built, found, same⟩, -⟩, named, reads⟩ := read
    · rw [compiled] at reads
      exact absurd ((contains.recorded all).buffers handle reads) absent
    · refine ⟨absent, built, found, ?_, ?_⟩
      · rw [← built.label_asBuilt, ← same, leaf.label_asBuilt, named]
      · rw [← built.looseBuffers_asBuilt, ← same, leaf.looseBuffers_asBuilt]
        exact reads
  | _ => trivial

omit [Device σ] in
/-- A draw of a graph that is ready misses the buffer that it counts its vertices in when the program does not use it. -/
theorem Sound.draw_misses_iff {start : Graph σ} {kept : Session σ → Prop} {raw : Pass → Prop}
    {program : CompiledProgram} {table : ResourceTable}
    (sound : graph.Sound kept raw (fun leaf => start.Contains leaf ∧ leaf.HasPipeline) program table)
    (ready : graph.ready) (all : ∀ leaf ∈ Pass.leavesAll start.passes, leaf.Recorded program) {pass : DrawPass}
    (found : .draw pass ∈ Pass.leavesAll graph.passes) {view : EncodeView} (pool : view.pool = graph.session.pool)
    (target : view.target.isSome) {handle : BufferHandle} (counted : pass.vertices = .buffer handle) :
    pass.command view = .error (.missingBuffer pass.label handle) ↔ ¬program.usage.Uses (.buffer handle) := by
  obtain ⟨contains, pipeline⟩ := sound.good ready _ found
  have reads := contains.recorded all
  have unused := sound.absent_iff ready
  rw [← pool] at unused
  have textures : ∀ handle ∈ Pass.textures program (.draw pass), view.pool.texture? handle ≠ none := by
    intro handle read absent
    exact (unused _).mp (Pool.texture?_eq_none.mp absent) (reads.textures handle read)
  have buffers : ∀ handle ∈ Pass.buffers program (.draw pass), view.pool.buffer? handle ≠ none := by
    intro handle read absent
    exact (unused _).mp (Pool.buffer?_eq_none.mp absent) (reads.buffers handle read)
  constructor
  · intro misses
    obtain ⟨read, absent⟩ | ⟨other, again, absent, -⟩ := (pass.command_comes program view).error misses
    · exact absurd absent (buffers handle read)
    · cases counted.symm.trans again
      exact (unused _).mp (Pool.buffer?_eq_none.mp absent)
  · intro free
    exact DrawPass.command_misses pipeline target textures buffers counted
      (Pool.buffer?_eq_none.mpr ((unused _).mpr free))

/-- The leaves of a built graph read what its program uses, loose buffers apart; so no frame misses a texture,
and it misses a buffer only if the program does not use it and a leaf reads it loosely, unless a callback says so. A draw
that gets as far as counting its vertices in an unused buffer does miss it, in every frame. -/
theorem encode_missing [LawfulDevice σ] {host : Host σ} {shared : Shared}
    {coordinators : List (String × OffFrame.Coordinator)} {source : Program} {table : ResourceTable}
    (built : build host shared coordinators source table = .ok graph) (calls : List (Call σ)) :
    (∀ leaf ∈ Pass.leavesAll graph.passes, leaf.Recorded graph.session.compiled) ∧
    (∀ target surface error,
      ((encode target surface).apply (graph.after calls)).1 = .error (.pass error) →
        error.ByCaller (Component.nodesAll source.root)
          ((encode target surface).apply (graph.after calls)).2.session.pool ∨
        error.OnlyLoose graph.session.compiled (Pass.leavesAll graph.passes)) ∧
    ((graph.after calls).ready → ∀ pass, .draw pass ∈ Pass.leavesAll (graph.after calls).passes →
      ∀ view : EncodeView, view.pool = (graph.after calls).session.pool → view.target.isSome →
        ∀ handle, pass.vertices = .buffer handle →
          (pass.command view = .error (.missingBuffer pass.label handle) ↔
            ¬graph.session.compiled.usage.Uses (.buffer handle))) := by
  obtain ⟨-, ⟨place, made⟩, -, -⟩ := build_eq_ok built
  have recorded := Pass.recorded_ofComponents (build_of built) made
  have rules := Upholds.ofLasting (σ := σ) graph.contains_lasting
  have start : graph.Sound (fun _ => True) graph.Contains (fun leaf => graph.Contains leaf ∧ leaf.HasPipeline)
      graph.session.compiled table :=
    build_sound built trivial fun leaf found => ⟨leaf, found, rfl⟩
  have sound := after_sound rules start calls fun call _ => call.spares_any
  refine ⟨recorded, fun target surface error failed => ?_, fun ready pass found view pool target handle counted => ?_⟩
  · have fails := encode_ensures rules sound target surface _ rfl
    split at fails
    · rename_i applied
      rw [applied] at failed
      cases failed
    · rename_i applied
      rw [applied] at failed
      cases failed
      obtain ⟨now, -, passes⟩ := fails
      rw [applied]
      obtain ⟨ready, ⟨node, ⟨⟨built', found, same⟩, -⟩, fails⟩ | read⟩ := passes error rfl
      · cases built' <;> cases same
        exact .inl ⟨node, Pass.callback_ofComponents (build_of built) made found, fails⟩
      · exact .inr (now.onlyLoose ready recorded read)
  · exact sound.draw_misses_iff ready recorded found pool target counted

/-- The error of the passes that a call has ended with. -/
def passError? {α : Type} : Except GraphError α → Option PassError
  | .error (.pass error) => some error
  | _ => none

theorem passError?_eq_some {α : Type} {outcome : Except GraphError α} {error : PassError}
    (failed : passError? outcome = some error) : outcome = .error (.pass error) := by
  unfold passError? at failed
  split at failed <;> cases failed
  rfl

/-- A draw of one point for every element of a buffer that nothing else uses. -/
def countedDraw : Program where
  library := ""
  root := [.leaf (.draw {
    label := "points"
    source := "@vertex fn vs() { } @fragment fn fs() { }"
    vertex := "vs"
    fragment := "fs"
    targets := [⟨.surface, .load, .replace⟩]
    vertices := .buffer ⟨0⟩ })]

/-- It is compiled and set up, and its first frame misses the buffer. -/
theorem encode_missing_points :
    ∃ graph : Graph Recorder,
      build ⟨{}, []⟩ {} [] countedDraw { buffers := [⟨"points", .scalar .u32, 4, .fixed 8⟩] } = .ok graph ∧
      ((encode (some default) ⟨.flat 1 1, .rgba8Unorm⟩).apply
        (graph.after [.setup ⟨.flat 1 1, .rgba8Unorm⟩])).1 = .error (.pass (.missingBuffer "points" ⟨0⟩)) ∧
      ¬graph.session.compiled.usage.Uses (.buffer ⟨0⟩) := by
  have run : (match build (σ := Recorder) ⟨{}, []⟩ {} [] countedDraw
      { buffers := [⟨"points", .scalar .u32, 4, .fixed 8⟩] } with
    | .ok graph => passError? ((encode (some default) ⟨.flat 1 1, .rgba8Unorm⟩).apply
        (graph.after [.setup ⟨.flat 1 1, .rgba8Unorm⟩])).1
    | .error _ => none) = some (.missingBuffer "points" ⟨0⟩) := by decide +kernel
  cases built : build (σ := Recorder) ⟨{}, []⟩ {} [] countedDraw
      { buffers := [⟨"points", .scalar .u32, 4, .fixed 8⟩] } with
  | error _ =>
    rw [built] at run
    cases run
  | ok graph =>
    rw [built] at run
    have failed := passError?_eq_some run
    have passive (node : Callback) : Leaf.callback node ∉ Component.nodesAll countedDraw.root := by
      simp [countedDraw, Component.nodesAll, Component.nodes]
    have loose := (encode_missing built [.setup ⟨.flat 1 1, .rgba8Unorm⟩]).2.1 _ _ _ failed
    exact ⟨graph, rfl, failed, (loose.resolve_left (PassError.not_byCaller passive _ _)).1⟩

end Graph

end FrameGraph
