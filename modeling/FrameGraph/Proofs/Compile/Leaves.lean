import FrameGraph.Proofs.Compile.Inversion
import FrameGraph.Proofs.Compile.Lines
import FrameGraph.Proofs.Pass.Reads

/-! # Compiled leaves

A leaf that compiles has recorded every resource that its pass reads and has added its text to its unit; the
text declares what the bind groups of the leaf ask for.
-/

namespace FrameGraph

/-- The entry points of a leaf under the names that they were given. -/
def Leaf.functions : Leaf → CompiledLeaf → List LeafFunction
  | .dispatch node, .dispatch compiled => [⟨compiled.entry, node.arguments⟩]
  | .draw node, .draw compiled =>
    [⟨compiled.vertexEntry, node.vertexArguments⟩, ⟨compiled.fragmentEntry, node.fragmentArguments⟩]
  | _, _ => []

/-- The resource whose extent a grid takes. -/
def PlannedSource.handles (source : PlannedSource) : List ResourceHandle :=
  source.texture?.toList.map .texture ++ source.buffer?.toList.map .buffer

/-- The resources that the pass of a leaf reads besides those of its bind groups. -/
def Leaf.handles : Leaf → CompiledLeaf → List ResourceHandle
  | .dispatch _, .dispatch compiled => compiled.grid.source.handles
  | .draw node, _ =>
    (node.targets.filterMap (·.texture.handle?)).map .texture ++
      node.depth.toList.map (fun depth => .texture depth.texture) ++ node.index.toList.map .buffer
  | .blit node, _ => node.op.textures.map .texture ++ node.op.buffers.map .buffer
  | .filter node, _ => [.texture node.source, .texture node.destination]
  | _, _ => []

/-- The unit of a leaf that has text. -/
def CompiledLeaf.unit? : CompiledLeaf → Option Nat
  | .dispatch leaf => some leaf.unit
  | .draw leaf => some leaf.unit
  | .host => none

def CompiledLeaf.groups : CompiledLeaf → List GroupBinding
  | .dispatch leaf => leaf.groups
  | .draw leaf => leaf.groups
  | .host => []

/-- A kernel is compiled to a kernel and a draw to a draw, each in the unit that it belongs to. -/
def Leaf.BecomesIn (unit : Nat) : Leaf → CompiledLeaf → Prop
  | .dispatch _, .dispatch compiled => compiled.unit = unit
  | .draw _, .draw compiled => compiled.unit = unit
  | .blit _, .host | .filter _, .host | .callback _, .host => True
  | _, _ => False

theorem Leaf.BecomesIn.unit_eq {unit place : Nat} {node : Leaf} {compiled : CompiledLeaf}
    (becomes : node.BecomesIn unit compiled) (has : compiled.unit? = some place) : unit = place := by
  cases node <;> cases compiled <;> simp_all [Leaf.BecomesIn, CompiledLeaf.unit?]

/-- The text of a leaf has its entry points, and their declarations are, in some order, the lines that its
bind groups ask for. -/
structure LeafText.Tells (blocks : List ArgumentBlock) (node : Leaf) (compiled : CompiledLeaf)
    (text : LeafText) : Prop where
  label_eq : text.label = node.label
  entries_eq : text.entries.map (·.entry) = (node.functions compiled).map (·.entry)
  lines_perm : ((text.entries.flatMap (·.declarations)).map (·.line)).Perm
    (groupLines blocks (node.functions compiled) compiled.groups)

namespace CompileState

/-- A leaf as the state knows it once it is compiled. -/
structure Has (state : CompileState) (unit : Nat) (node : Leaf) (compiled : CompiledLeaf) : Prop where
  becomes : node.BecomesIn unit compiled
  groups : ∀ group ∈ compiled.groups, state.Knows group
  handles : ∀ handle ∈ node.handles compiled, state.usage.Uses handle

theorem Has.mono {before after : CompileState} {unit : Nat} {node : Leaf} {compiled : CompiledLeaf}
    (has : before.Has unit node compiled) (evolves : Evolves before after) : after.Has unit node compiled :=
  ⟨has.becomes, fun group found => evolves.knows (has.groups group found),
    fun handle found => evolves.usage handle (has.handles handle found)⟩

/-- One more leaf is compiled, and its text is added to its unit. -/
structure Adds (before after : CompileState) (unit : Nat) (node : Leaf) (compiled : CompiledLeaf) : Prop
    extends Evolves before after where
  has : after.Has unit node compiled
  texts : ∀ other, ∃ added, after.texts other = before.texts other ++ added ∧
    List.Forall₂ (LeafText.Tells after.argumentBlocks node) ([compiled].filter (·.unit? = some other)) added

/-- A leaf without text. -/
theorem Grows.adds {before after : CompileState} {unit : Nat} {node : Leaf} (grown : Grows before after)
    (becomes : node.BecomesIn unit .host) (handles : ∀ handle ∈ node.handles .host, after.usage.Uses handle) :
    Adds before after unit node .host where
  toEvolves := grown.toEvolves
  has := ⟨becomes, List.forall_mem_nil _, handles⟩
  texts _ := ⟨[], by rw [grown.texts_eq, List.append_nil], .nil⟩

end CompileState

namespace Compile

open CompileState (Grows Evolves Adds)

variable {state after : CompileState} {table : ResourceTable} {caps : DeviceCaps} {unit : Nat}

theorem firstDuplicate?_none {seen names : List String} (none : EntryJob.firstDuplicate? seen names = .none) :
    names.Nodup ∧ ∀ name ∈ names, name ∉ seen := by
  induction names generalizing seen with
  | nil => exact ⟨.nil, List.forall_mem_nil _⟩
  | cons name rest ih =>
    rw [EntryJob.firstDuplicate?] at none
    split at none
    · cases none
    · rename_i fresh
      obtain ⟨nodup, apart⟩ := ih none
      refine ⟨List.nodup_cons.mpr ⟨fun again => apart name again (.head _), nodup⟩, ?_⟩
      rw [List.forall_mem_cons]
      exact ⟨fresh, fun other found old => apart other found (.tail _ old)⟩

/-- A job has its arguments as given, and their names are different. -/
theorem locate_ok {source : String} {stage : Stage} {name : String} {arguments : List Argument} {job : EntryJob}
    (located : EntryJob.locate source stage name arguments = .ok job) :
    job.arguments = arguments ∧ (arguments.flatMap EntryJob.argumentNames).Nodup := by
  unfold EntryJob.locate at located
  split at located
  · cases located
  · split at located
    · cases located
    · rename_i none
      cases located
      exact ⟨rfl, (firstDuplicate?_none none).1⟩

theorem locate_stage {source : String} {stage : Stage} {name : String} {arguments : List Argument} {job : EntryJob}
    (located : EntryJob.locate source stage name arguments = .ok job) : job.stage = stage := by
  unfold EntryJob.locate at located
  split at located
  · cases located
  · split at located <;> cases located
    rfl

/-- The text of a leaf whose bindings cover its functions. -/
theorem leafText_tells {bindings : LeafBindings} {entries : List (String × String)} {node : Leaf}
    {compiled : CompiledLeaf} (sane : state.Sane) (covers : bindings.Covers state (node.functions compiled))
    (distinct : ((node.functions compiled).map (·.entry)).Nodup)
    (names : ∀ f ∈ node.functions compiled, (f.arguments.flatMap EntryJob.argumentNames).Nodup)
    (groups_eq : compiled.groups = bindings.groups)
    (entries_eq : entries.map (·.1) = (node.functions compiled).map (·.entry)) :
    (leafText node.label bindings entries).Tells state.argumentBlocks node compiled where
  label_eq := rfl
  entries_eq := by
    rw [← entries_eq, leafText, List.map_map]
    rfl
  lines_perm := by
    rw [groups_eq]
    refine .trans (.of_eq ?_) (covers.declared_lines sane distinct names)
    have functions : (node.functions compiled).flatMap (fun f => bindings.declarations f.entry) =
        ((node.functions compiled).map (·.entry)).flatMap bindings.declarations := by
      rw [List.flatMap_map]
    rw [functions, ← entries_eq, leafText, List.flatMap_map, List.flatMap_map]

theorem evolves_withText (state : CompileState) (unit : Nat) (text : LeafText) :
    Evolves state (state.withText unit text) where
  usage _ := id
  block _ block found := ⟨block, found, rfl, rfl⟩
  entries other early found := by
    simp only [CompileState.withText, List.getElem?_modify, found]
    split
    · exact ⟨_, rfl, List.Subset.refl _, rfl, rfl⟩
    · exact ⟨_, rfl, List.Subset.refl _, rfl, rfl⟩
  units := List.length_modify _ _ _
  sane held := ⟨held.names, held.group_eq, held.members, held.unfed⟩

/-- The text of a leaf is added to its unit. -/
theorem withText_adds {before : CompileState} {text : LeafText} {node : Leaf} {compiled : CompiledLeaf}
    (grown : Grows before state) (inside : unit < before.units.length) (has : state.Has unit node compiled)
    (here : compiled.unit? = some unit) (tells : text.Tells state.argumentBlocks node compiled) :
    Adds before (state.withText unit text) unit node compiled := by
  have evolves := evolves_withText state unit text
  refine { grown.toEvolves.trans evolves with has := has.mono evolves, texts := fun other => ?_ }
  refine ⟨_, by rw [CompileState.texts_withText (grown.units ▸ inside), grown.texts_eq], ?_⟩
  by_cases same : other = unit
  · subst same
    rw [List.filter_singleton, here, decide_eq_true rfl, if_pos rfl]
    exact .cons tells .nil
  · simp [here, same, Ne.symm same]

/-- A plan takes its extent from a resource that some argument binds. -/
theorem resolve_recorded {function : String} {fits : List GridSource} {scale : Scale} {arguments : List Argument}
    {plan : GridPlan} {usage : ResourceUsage} (recorded : ∀ argument ∈ arguments, argument.kind.RecordedIn usage)
    (resolved : GridPlan.resolve function fits scale arguments table caps = .ok plan) :
    ∀ handle ∈ plan.source.handles, usage.Uses handle := by
  have argued {α : Type} {name : String} {pick : ArgumentKind → Option α} {a : α}
      (found : GridPlan.findArgument arguments name pick = some a) :
      ∃ argument ∈ arguments, pick argument.kind = some a := by
    obtain ⟨argument, there, picked⟩ := Option.bind_eq_some_iff.mp found
    exact ⟨argument, List.mem_of_find?_eq_some there, picked⟩
  have sourced {dims : GridDims} {source : PlannedSource} {fit : GridSource}
      (found : GridPlan.resolveSource function fit scale arguments table = .ok (dims, source)) :
      ∀ handle ∈ source.handles, usage.Uses handle := by
    cases fit with
    | fixed _ =>
      cases found
      exact List.forall_mem_nil _
    | dynamic _ _ =>
      simp only [GridPlan.resolveSource] at found
      split at found <;> cases found
      exact List.forall_mem_nil _
    | texture _ =>
      simp only [GridPlan.resolveSource] at found
      split at found <;> cases found
      rename_i bound
      obtain ⟨argument, listed, picked⟩ := argued bound
      exact List.forall_mem_singleton.mpr ((recorded argument listed).texture picked)
    | buffer _ =>
      simp only [GridPlan.resolveSource] at found
      split at found <;> cases found
      rename_i bound
      obtain ⟨argument, listed, picked⟩ := argued bound
      exact List.forall_mem_singleton.mpr ((recorded argument listed).buffer picked)
    | surface =>
      cases found
      exact List.forall_mem_nil _
  unfold GridPlan.resolve at resolved
  split at resolved
  · cases resolved
  · split at resolved
    · cases found : GridPlan.resolveSource function _ scale arguments table with
      | error _ =>
        rw [found] at resolved
        cases resolved
      | ok planned =>
        rw [found] at resolved
        cases resolved
        exact sourced found
    · cases resolved
  · cases resolved

theorem fixWorkgroup_source {job : EntryJob} {plan fixed : GridPlan} {attr : Option String}
    (done : fixWorkgroup job plan = .ok (fixed, attr)) : fixed.source = plan.source := by
  unfold fixWorkgroup at done
  split at done <;> cases done <;> rfl

theorem bindGrid_source (job : EntryJob) (entry : String) (plan : GridPlan) (scan : ArgumentScan) :
    (bindGrid job entry plan scan).1.source = plan.source := by
  unfold bindGrid
  dsimp only
  split
  · rfl
  · split <;> rfl

theorem dispatch_ok {node : Dispatch} {compiled : CompiledDispatch} (sane : state.Sane)
    (inside : unit < state.units.length)
    (run : (dispatch table caps unit node).run state = .ok (compiled, after)) :
    Adds state after unit (.dispatch node) (.dispatch compiled) := by
  obtain ⟨made, rfl, rfl⟩ := dispatch_run run
  obtain ⟨arguments_eq, names⟩ := locate_ok made.located
  have started := (giveEntry_ok made.names).1.trans made.notes
  obtain ⟨grows, covers⟩ := bindArguments_ok (started.sane sane) (.start made.noted) made.binds
  have covers : made.granted.2.bindings.Covers _ _ := bindGrid_covers covers (by simp)
  have known := started.trans grows
  rw [List.nil_append, arguments_eq] at covers
  refine withText_adds known inside ⟨rfl, covers.knows, ?_⟩ rfl ?_
  · have source_eq : made.granted.1.source = made.resolved.source :=
      (bindGrid_source ..).trans (fixWorkgroup_source made.fixes)
    rw [Leaf.handles, KernelRun.compiled, source_eq]
    exact resolve_recorded (covers.recorded _ (.head _)) made.resolves
  · exact leafText_tells (known.sane sane) covers (List.nodup_singleton _) (List.forall_mem_singleton.mpr names)
      rfl rfl

/-- Each entry point of a draw gets a name that its unit did not have. -/
theorem EntryRun.ok {job : EntryJob} {pool : IndexPool} {bindings : LeafBindings} {functions : List LeafFunction}
    (made : EntryRun table unit job pool bindings state) (sane : state.Sane)
    (covers : bindings.Covers state functions) :
    Grows state made.after ∧ made.scan.bindings.Covers made.after (functions ++ [⟨made.entry, job.arguments⟩]) ∧
      ∀ early, state.units[unit]? = some early → made.entry ∉ early.entries ∧
        ∃ later, made.after.units[unit]? = some later ∧ made.entry ∈ later.entries := by
  obtain ⟨grown, fresh⟩ := giveEntry_ok made.names
  obtain ⟨grows, covers⟩ := bindArguments_ok (grown.sane sane) (covers.mono grown.toEvolves sane) made.binds
  refine ⟨grown.trans grows, covers, fun early found => ?_⟩
  obtain ⟨new, later, there, has⟩ := fresh early found
  obtain ⟨last, here, kept, -⟩ := grows.entries unit later there
  exact ⟨new, last, here, kept has⟩

/-- A texture that is declared is used. -/
theorem declaredTexture_ok {label : String} {handle : TextureHandle} {use : TextureUsage} {u : Unit}
    (run : (do
      let _ ← textureDecl table label handle
      useTexture handle use).run state = .ok (u, after)) :
    Grows state after ∧ after.usage.Uses (.texture handle) := by
  obtain ⟨_, _, declared, run⟩ := bind_ok run
  cases textureDecl_ok declared
  exact useTexture_ok run

/-- Colour targets are recorded one by one. -/
theorem targets_ok {label : String} {targets : List ColorTarget} {u : Unit}
    (run : (targets.forM fun target => do
      if let .resource handle := target.texture then
        let _ ← textureDecl table label handle
        useTexture handle { renderTarget := true }).run state = .ok (u, after)) :
    Grows state after ∧
      ∀ handle ∈ targets.filterMap (·.texture.handle?), after.usage.Uses (.texture handle) := by
  induction targets generalizing state with
  | nil =>
    obtain ⟨-, rfl⟩ := pure_ok run
    exact ⟨.refl _, List.forall_mem_nil _⟩
  | cons target rest ih =>
    obtain ⟨_, middle, first, run⟩ := bind_ok run
    obtain ⟨grows, others⟩ := ih run
    dsimp only at first
    split at first
    · rename_i handle is
      obtain ⟨grown, uses⟩ := declaredTexture_ok first
      refine ⟨grown.trans grows, ?_⟩
      rw [List.filterMap_cons_some (by rw [is]; rfl), List.forall_mem_cons]
      exact ⟨grows.usage _ uses, others⟩
    · rename_i surface
      obtain ⟨-, rfl⟩ := pure_ok first
      have none : target.texture.handle? = none := by
        cases is : target.texture with
        | surface => rfl
        | resource handle => exact absurd is (surface handle)
      exact ⟨grows, by simpa only [List.filterMap_cons, none] using others⟩

/-- A depth target is recorded. -/
theorem depth_ok {label : String} {depth : Option DepthTarget} {u : Unit}
    (run : (do
      if let some depth := depth then
        let _ ← textureDecl table label depth.texture
        useTexture depth.texture { renderTarget := true }).run state = .ok (u, after)) :
    Grows state after ∧ ∀ target ∈ depth.toList, after.usage.Uses (.texture target.texture) := by
  split at run
  · obtain ⟨grown, uses⟩ := declaredTexture_ok run
    exact ⟨grown, List.forall_mem_singleton.mpr uses⟩
  · rename_i absent
    obtain ⟨-, rfl⟩ := pure_ok run
    exact ⟨.refl _, fun target found => absurd (Option.mem_toList.mp found) (absent target)⟩

/-- An index buffer is recorded. -/
theorem index_ok {β : Type} {label : String} {index : Option BufferHandle} {next : Unit → Compile β} {b : β}
    (run : (match index with
      | some index => do
        let decl ← bufferDecl table label index
        if decl.element.isScalar .u16 || decl.element.isScalar .u32 then do
          let r ← useBuffer index { index := true }
          next r
        else do
          let r ← fail (.badIndexType label)
          next r
      | _ => next ()).run state = .ok (b, after)) :
    ∃ middle, Grows state middle ∧ (∀ handle ∈ index.toList, middle.usage.Uses (.buffer handle)) ∧
      (next ()).run middle = .ok (b, after) := by
  split at run
  · obtain ⟨decl, _, declared, run⟩ := bind_ok run
    cases bufferDecl_ok declared
    split at run
    · obtain ⟨_, middle, used, run⟩ := bind_ok run
      obtain ⟨grown, uses⟩ := useBuffer_ok used
      exact ⟨middle, grown, List.forall_mem_singleton.mpr uses, run⟩
    · obtain ⟨_, _, failed, -⟩ := bind_ok run
      exact (fail_ok failed).elim
  · rename_i absent
    exact ⟨state, .refl state, fun handle found => absurd (Option.mem_toList.mp found) (absent handle), run⟩

/-- The buffer that vertices are counted from only has to be declared. -/
theorem vertices_ok {β : Type} {label : String} {vertices : VertexCount} {next : Compile β} {b : β}
    (run : (match vertices with
      | .buffer handle => do
        let _ ← bufferDecl table label handle
        next
      | _ => next).run state = .ok (b, after)) : next.run state = .ok (b, after) := by
  split at run
  · obtain ⟨_, _, declared, run⟩ := bind_ok run
    cases bufferDecl_ok declared
    exact run
  · exact run

theorem drawResources_ok {node : Draw} {u : Unit} (compiled : CompiledLeaf)
    (run : (drawResources table node).run state = .ok (u, after)) :
    Grows state after ∧ ∀ handle ∈ (Leaf.draw node).handles compiled, after.usage.Uses handle := by
  unfold drawResources at run
  obtain ⟨indexed, grown, index, run⟩ := index_ok run
  dsimp only at run
  have run := vertices_ok run
  obtain ⟨_, targeted, first, run⟩ := bind_ok run
  obtain ⟨more, targets⟩ := targets_ok first
  obtain ⟨last, depth⟩ := depth_ok run
  refine ⟨(grown.trans more).trans last, ?_⟩
  simp only [Leaf.handles, List.forall_mem_append, List.forall_mem_map]
  exact ⟨⟨fun handle found => last.usage _ (targets handle found), depth⟩,
    fun handle found => (more.trans last).usage _ (index handle found)⟩

theorem draw_ok {node : Draw} {compiled : CompiledDraw} (sane : state.Sane) (inside : unit < state.units.length)
    (run : (draw table unit node).run state = .ok (compiled, after)) :
    Adds state after unit (.draw node) (.draw compiled) := by
  obtain ⟨made, rfl, rfl⟩ := draw_run run
  obtain ⟨grown, covers, fresh⟩ := made.first.ok sane (.start state)
  obtain ⟨more, covers, fresh'⟩ := made.second.ok (grown.sane sane) covers
  obtain ⟨last, handles⟩ := drawResources_ok (.draw made.compiled) made.uses
  have known := (grown.trans more).trans last
  obtain ⟨vertex_eq, vertexNames⟩ := locate_ok made.vertexLocated
  obtain ⟨fragment_eq, fragmentNames⟩ := locate_ok made.fragmentLocated
  have covers := covers.mono last.toEvolves ((grown.trans more).sane sane)
  rw [vertex_eq, fragment_eq] at covers
  obtain ⟨-, later, there, has⟩ := fresh _ (List.getElem?_eq_getElem inside)
  have distinct : made.first.entry ≠ made.second.entry := fun same => (fresh' later there).1 (same ▸ has)
  refine withText_adds known inside ⟨rfl, covers.knows, handles⟩ rfl ?_
  refine leafText_tells (known.sane sane) covers ?_ ?_ rfl rfl
  · simpa [Leaf.functions, DrawRun.compiled] using distinct
  · exact List.forall_mem_cons.mpr ⟨vertexNames, List.forall_mem_singleton.mpr fragmentNames⟩

theorem blit_ok {node : Blit} {u : Unit} (run : (blit table node).run state = .ok (u, after)) :
    Grows state after ∧ ∀ handle ∈ (Leaf.blit node).handles .host, after.usage.Uses handle := by
  unfold blit at run
  rw [Leaf.handles]
  split at run
  · rename_i source destination op
    obtain ⟨_, _, declared, run⟩ := bind_ok run
    cases textureDecl_ok declared
    obtain ⟨_, middle, used, run⟩ := bind_ok run
    obtain ⟨grown, uses⟩ := useTexture_ok used
    rw [op]
    split at run
    · obtain ⟨more, uses'⟩ := declaredTexture_ok run
      refine ⟨grown.trans more, ?_⟩
      simp only [BlitOp.textures, BlitOp.buffers, TextureRef.handle?, Option.toList_some, List.map_cons, List.map_nil,
        List.append_nil, List.forall_mem_cons]
      exact ⟨more.usage _ uses, uses', List.forall_mem_nil _⟩
    · rename_i surface
      obtain ⟨-, rfl⟩ := pure_ok run
      refine ⟨grown, ?_⟩
      cases destination with
      | surface => exact List.forall_mem_singleton.mpr uses
      | resource handle => exact absurd rfl (surface handle)
  · rename_i source destination op
    obtain ⟨_, _, declared, run⟩ := bind_ok run
    cases bufferDecl_ok declared
    obtain ⟨_, _, declared', run⟩ := bind_ok run
    cases bufferDecl_ok declared'
    obtain ⟨_, middle, used, run⟩ := bind_ok run
    obtain ⟨grown, uses⟩ := useBuffer_ok used
    obtain ⟨more, uses'⟩ := useBuffer_ok run
    rw [op]
    refine ⟨grown.trans more, ?_⟩
    exact List.forall_mem_cons.mpr ⟨more.usage _ uses, List.forall_mem_singleton.mpr uses'⟩
  · rename_i buffer op
    obtain ⟨_, _, declared, run⟩ := bind_ok run
    cases bufferDecl_ok declared
    obtain ⟨grown, uses⟩ := useBuffer_ok run
    rw [op]
    exact ⟨grown, List.forall_mem_singleton.mpr uses⟩

theorem filter_ok {node : FilterNode} {u : Unit} (run : (filter table node).run state = .ok (u, after)) :
    Grows state after ∧ ∀ handle ∈ (Leaf.filter node).handles .host, after.usage.Uses handle := by
  unfold filter at run
  obtain ⟨_, _, declared, run⟩ := bind_ok run
  cases textureDecl_ok declared
  obtain ⟨destination, _, declared', run⟩ := bind_ok run
  cases textureDecl_ok declared'
  dsimp only at run
  split at run
  case isTrue => exact (fail_ok (bind_ok run).choose_spec.choose_spec.1).elim
  obtain ⟨_, middle, used, run⟩ := bind_ok run
  obtain ⟨grown, uses⟩ := useTexture_ok used
  obtain ⟨more, uses'⟩ := useTexture_ok run
  exact ⟨grown.trans more, List.forall_mem_cons.mpr ⟨more.usage _ uses, List.forall_mem_singleton.mpr uses'⟩⟩

/-- A leaf that compiles is recorded and adds its text. -/
theorem leaf_ok {node : Leaf} {compiled : CompiledLeaf} (sane : state.Sane) (inside : unit < state.units.length)
    (run : (leaf table caps unit node).run state = .ok (compiled, after)) : Adds state after unit node compiled := by
  cases node with
  | dispatch node =>
    obtain ⟨made, _, done, run⟩ := bind_ok run
    obtain ⟨rfl, rfl⟩ := pure_ok run
    exact dispatch_ok sane inside done
  | draw node =>
    obtain ⟨made, _, done, run⟩ := bind_ok run
    obtain ⟨rfl, rfl⟩ := pure_ok run
    exact draw_ok sane inside done
  | blit node =>
    obtain ⟨_, _, done, run⟩ := bind_ok run
    obtain ⟨rfl, rfl⟩ := pure_ok run
    obtain ⟨grown, handles⟩ := blit_ok done
    exact grown.adds trivial handles
  | filter node =>
    obtain ⟨_, _, done, run⟩ := bind_ok run
    obtain ⟨rfl, rfl⟩ := pure_ok run
    obtain ⟨grown, handles⟩ := filter_ok done
    exact grown.adds trivial handles
  | callback node =>
    obtain ⟨rfl, rfl⟩ := pure_ok run
    exact (Grows.refl _).adds trivial (List.forall_mem_nil _)

end Compile

end FrameGraph
