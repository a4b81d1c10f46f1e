import FrameGraph.Proofs.Compile.Records
import FrameGraph.Proofs.Compile.Usage

/-! # Uses of a program

Each leaf uses the resources that its arguments bind, those inside of argument blocks included, and those that it draws
into, copies, clears or filters. Compiling a leaf records its uses and nothing else, and every binding that it comes to
is for one of them.
-/

namespace FrameGraph

/-- What a buffer that is bound is used for. -/
def BufferSpace.flags : BufferSpace → BufferUsage
  | .uniform => { uniform := true }
  | .storage _ => { storage := true }

/-- What a texture that is bound is used for. -/
def TextureAccess.flags : TextureAccess → TextureUsage
  | .sample => { sampled := true }
  | .write | .readWrite => { storage := true }

/-- The use of what an argument binds itself; a uniform block for bytes is a matter of the pass. -/
def ArgumentKind.ownUses : ArgumentKind → List ResourceUse
  | .buffer handle space => [.buffer handle space.flags]
  | .texture handle access => [.texture handle access.flags]
  | .bytes _ | .block .. => []

/-- The uses of an argument; a block uses what its members bind. -/
def Argument.uses (argument : Argument) : List ResourceUse := argument.parts.flatMap (·.kind.ownUses)

/-- A colour target is rendered to unless it is the display surface. -/
def ColorTarget.uses (target : ColorTarget) : List ResourceUse :=
  target.texture.handle?.toList.map fun handle => .texture handle { renderTarget := true }

/-- What a draw uses besides its arguments. -/
def Draw.resourceUses (node : Draw) : List ResourceUse :=
  node.index.toList.map (fun handle => .buffer handle { index := true }) ++ (node.targets.flatMap ColorTarget.uses ++
    node.depth.toList.map fun depth => .texture depth.texture { renderTarget := true })

namespace Draw

variable {node : Draw}

theorem index_used {handle : BufferHandle} (is : node.index = some handle) :
    .buffer handle { index := true } ∈ node.resourceUses := by
  simp [resourceUses, is]

theorem target_used {target : ColorTarget} (listed : target ∈ node.targets) {handle : TextureHandle}
    (is : target.texture = .resource handle) : .texture handle { renderTarget := true } ∈ node.resourceUses := by
  have used : .texture handle { renderTarget := true } ∈ target.uses := by
    simp [ColorTarget.uses, is, TextureRef.handle?]
  rw [resourceUses, List.mem_append, List.mem_append]
  exact .inr (.inl (List.mem_flatMap.mpr ⟨target, listed, used⟩))

theorem depth_used {depth : DepthTarget} (is : node.depth = some depth) :
    .texture depth.texture { renderTarget := true } ∈ node.resourceUses := by
  simp [resourceUses, is]

end Draw

def BlitOp.uses : BlitOp → List ResourceUse
  | .copyTexture source destination => .texture source { copySource := true } ::
    destination.handle?.toList.map fun handle => .texture handle { copyDestination := true }
  | .copyBuffer source destination =>
    [.buffer source { copySource := true }, .buffer destination { copyDestination := true }]
  | .clearBuffer buffer => [.buffer buffer { copyDestination := true }]

/-- What a leaf uses. -/
def Leaf.uses (node : Leaf) : List ResourceUse :=
  node.arguments.flatMap Argument.uses ++ match node with
    | .draw node => node.resourceUses
    | .blit node => node.op.uses
    | .filter node => [.texture node.source { sampled := true }, .texture node.destination { storage := true }]
    | .dispatch _ | .callback _ => []

/-- What all leaves of a program use. -/
def Program.uses (program : Program) : List ResourceUse := (Component.nodesAll program.root).flatMap Leaf.uses

theorem Program.uses_eq (program : Program) :
    program.uses = (Flattened.ofProgram program).leaves.flatMap (·.node.uses) := by
  rw [uses, ← Flattened.ofProgram_nodes, List.flatMap_map]

/-- The binding is for one of these uses, or it is a uniform block of the pass. -/
def BindingSpec.UsedIn (uses : List ResourceUse) (binding : BindingSpec) : Prop :=
  match binding.source, binding.entry.kind with
  | .buffer handle, .uniform => .buffer handle { uniform := true } ∈ uses
  | .buffer handle, .storage _ => .buffer handle { storage := true } ∈ uses
  | .texture handle, .texture .. => .texture handle { sampled := true } ∈ uses
  | .texture handle, .storageTexture .. => .texture handle { storage := true } ∈ uses
  | .bytes _, .uniform | .gridExtent, .uniform => True
  | _, _ => False

theorem BindingSpec.UsedIn.mono {few all : List ResourceUse} {binding : BindingSpec} (used : binding.UsedIn few)
    (subset : few ⊆ all) : binding.UsedIn all := by
  unfold UsedIn at used ⊢
  split at used
  · exact subset used
  · exact subset used
  · exact subset used
  · exact subset used
  · trivial
  · trivial
  · exact used.elim

/-- The variables of a leaf's own are for these uses. -/
def LeafBindings.UsedIn (uses : List ResourceUse) (bindings : LeafBindings) : Prop :=
  ∀ v ∈ bindings.buffers ++ bindings.textures, v.bound.spec.UsedIn uses

/-- Its own bind groups are the variables. -/
theorem LeafBindings.UsedIn.groups {uses : List ResourceUse} {bindings : LeafBindings} (used : bindings.UsedIn uses)
    {group : GroupSpec} (listed : .own group ∈ bindings.groups) : ∀ binding ∈ group, binding.UsedIn uses := by
  rw [LeafBindings.groups, List.mem_append] at listed
  obtain own | shared := listed
  · obtain ⟨space, found, ⟨⟩⟩ := List.mem_map.mp own
    intro binding inside
    rw [specs, (GroupSpec.sorted_perm _).mem_iff] at inside
    obtain ⟨v, here, rfl⟩ := List.mem_map.mp inside
    obtain rfl | rfl : space = bindings.buffers ∨ space = bindings.textures := by
      simpa using (List.mem_filter.mp found).1
    · exact used v (List.mem_append_left _ here)
    · exact used v (List.mem_append_right _ here)
  · obtain ⟨_, _, ⟨⟩⟩ := List.mem_map.mp shared

namespace CompileState

/-- The members of all blocks so far are for these uses. -/
def BlocksUsedIn (state : CompileState) (uses : List ResourceUse) : Prop :=
  ∀ block ∈ state.blocks, ∀ member ∈ block.members, member.spec.UsedIn uses

/-- The uses that are recorded, and the blocks. -/
def used (state : CompileState) : ResourceUsage × List RegisteredBlock := (state.usage, state.blocks)

/-- Exactly these uses are recorded, and blocks that are registered are for some of them. -/
structure Records (before : CompileState) (uses : List ResourceUse) (after : CompileState) : Prop where
  usage_eq : after.usage = before.usage.addAll uses
  blocks : ∀ all, uses ⊆ all → before.BlocksUsedIn all → after.BlocksUsedIn all

namespace Records

variable {first middle last : CompileState} {uses more : List ResourceUse}

theorem ofSame (same : last.used = first.used) : Records first [] last where
  usage_eq := congrArg Prod.fst same
  blocks _ _ held := by
    rwa [BlocksUsedIn, show last.blocks = first.blocks from congrArg Prod.snd same]

theorem trans (one : Records first uses middle) (two : Records middle more last) :
    Records first (uses ++ more) last where
  usage_eq := by rw [two.usage_eq, one.usage_eq, ResourceUsage.addAll, ResourceUsage.addAll, ← List.foldl_append]; rfl
  blocks all subset held := by
    obtain ⟨early, late⟩ := List.append_subset.mp subset
    exact two.blocks all late (one.blocks all early held)

/-- What follows records nothing. -/
theorem still (one : Records first uses middle) (same : last.used = middle.used) : Records first uses last := by
  simpa using one.trans (.ofSame same)

/-- What comes before records nothing. -/
theorem after (same : middle.used = first.used) (two : Records middle uses last) : Records first uses last :=
  (ofSame same).trans two

end Records

end CompileState

namespace Compile

variable {α β γ : Type} {state after : CompileState} {table : ResourceTable} {caps : DeviceCaps} {unit : Nat}
  {uses more : List ResourceUse} {post : α → Prop}

theorem used_unitless : Unitless CompileState.used := ⟨fun _ _ => rfl, fun _ _ => rfl⟩

/-- A step that records exactly these uses, with what is known of its result. -/
def Recording (uses : List ResourceUse) (step : Compile α) (post : α → Prop) : Prop :=
  ∀ ⦃state a after⦄, step.run state = .ok (a, after) → state.Records uses after ∧ post a

namespace Recording

theorem ofSpares {step : Compile α} (spares : Spares CompileState.used step) : Recording [] step fun _ => True :=
  fun _ _ _ run => ⟨.ofSame (spares run), trivial⟩

theorem ofPure {a : α} (known : post a) : Recording [] (pure a) post := by
  intro _ _ _ run
  obtain ⟨rfl, rfl⟩ := pure_ok run
  exact ⟨.ofSame rfl, known⟩

theorem ofFail (error : CompileError) : Recording uses (fail error : Compile α) post := fun _ _ _ run => (fail_ok run).elim

theorem failing {next : α → Compile β} {post : β → Prop} (error : CompileError) :
    Recording uses (fail error >>= next) post := fun _ _ _ run => (fail_ok (bind_ok run).choose_spec.choose_spec.1).elim

theorem mono {step : Compile α} {weaker : α → Prop} (records : Recording uses step post)
    (weaken : ∀ a, post a → weaker a) : Recording uses step weaker := fun _ _ _ run =>
  (records run).imp_right (weaken _)

theorem bind {step : Compile α} {next : α → Compile β} {known : α → Prop} {post : β → Prop}
    (first : Recording uses step known) (rest : ∀ a, known a → Recording more (next a) post) :
    Recording (uses ++ more) (step >>= next) post := by
  intro _ _ _ run
  obtain ⟨a, _, one, run⟩ := bind_ok run
  obtain ⟨records, holds⟩ := first one
  obtain ⟨others, done⟩ := rest a holds run
  exact ⟨records.trans others, done⟩

/-- Nothing is recorded before. -/
theorem skip {step : Compile α} {next : α → Compile β} {post : β → Prop} (first : Spares CompileState.used step)
    (rest : ∀ a, Recording uses (next a) post) : Recording uses (step >>= next) post :=
  (ofSpares first).bind fun a _ => rest a

/-- Nothing is recorded behind. -/
theorem ending {step : Compile α} {next : α → Compile β} {known : α → Prop} {post : β → Prop}
    (first : Recording uses step known) (rest : ∀ a, known a → Recording [] (next a) post) :
    Recording uses (step >>= next) post := by
  have both := first.bind rest
  rwa [List.append_nil] at both

theorem forM {step : γ → Compile PUnit} {used : γ → List ResourceUse}
    (each : ∀ x, Recording (used x) (step x) fun _ => True) (xs : List γ) :
    Recording (xs.flatMap used) (xs.forM step) fun _ => True := by
  induction xs with
  | nil => exact ofPure trivial
  | cons x rest ih => exact (each x).bind fun _ _ => ih

theorem useTexture (handle : TextureHandle) (flags : TextureUsage) :
    Recording [.texture handle flags] (useTexture handle flags) fun _ => True := by
  intro _ _ _ run
  rw [modify_ok run]
  exact ⟨⟨rfl, fun _ _ => id⟩, trivial⟩

theorem useBuffer (handle : BufferHandle) (flags : BufferUsage) :
    Recording [.buffer handle flags] (useBuffer handle flags) fun _ => True := by
  intro _ _ _ run
  rw [modify_ok run]
  exact ⟨⟨rfl, fun _ _ => id⟩, trivial⟩

/-! ### Arguments -/

/-- The element type is spelled only for arguments whose own type is not given. -/
theorem spelled {given : Option String} {type : ShaderType} {next : String → Compile α}
    (rest : ∀ element, Recording uses (next element) post) :
    Recording uses (match given with
      | some _ => do
        let element ← pure ""
        next element
      | none => do
        let element ← typeName unit type
        next element) post := by
  cases given with
  | some _ => exact rest ""
  | none => exact skip (.typeName used_unitless unit type) rest

/-- A texture is bound for the use that is recorded. -/
theorem textureBinding (function : String) (handle : TextureHandle) (access : TextureAccess) :
    Recording [] (textureBinding table function handle access) fun binding => binding.use = access.flags ∧
      ∀ name number stages, BindingSpec.UsedIn [.texture handle access.flags]
        ⟨name, ⟨number, binding.kind, stages⟩, .texture handle⟩ := by
  refine skip (.textureDecl function handle) fun decl => ?_
  split
  · exact ofPure ⟨rfl, fun _ _ _ => List.mem_singleton_self _⟩
  · rename_i storage
    have flags : access.flags = { storage := true } := by
      cases access with
      | sample => exact absurd rfl storage
      | write => rfl
      | readWrite => rfl
    split
    · exact ofFail _
    · split
      · exact ofFail _
      · rw [flags]
        exact ofPure ⟨rfl, fun _ _ _ => List.mem_singleton_self _⟩

theorem bindPlain (function : String) (argument : Argument) (binding : Nat) (stage : Stage) (bytes : List BytesSlot) :
    Recording argument.kind.ownUses (bindPlain table unit function argument binding stage bytes) fun result =>
      result.1.spec.UsedIn argument.kind.ownUses := by
  unfold Compile.bindPlain
  cases argument.kind with
  | buffer handle space =>
    refine skip (.bufferDecl function handle) fun decl => spelled fun element => ?_
    cases space with
    | uniform => exact (useBuffer _ _).ending fun _ _ => ofPure (List.mem_singleton_self _)
    | storage readOnly => exact (useBuffer _ _).ending fun _ _ => ofPure (List.mem_singleton_self _)
  | bytes source => exact spelled fun element => ofPure trivial
  | texture handle access =>
    refine (textureBinding function handle access).bind fun texture known => ?_
    rw [known.1]
    exact (useTexture _ _).ending fun _ _ => ofPure (known.2 _ _ _)
  | block name members => exact ofFail _

theorem bindMembers (block : String) (stage : Stage) (pool : IndexPool) (members : List Argument) :
    Recording (members.flatMap (·.kind.ownUses)) (bindMembers table unit block stage pool members) fun bound =>
      ∀ b ∈ bound, b.spec.UsedIn (members.flatMap (·.kind.ownUses)) := by
  induction members generalizing pool with
  | nil =>
    rw [Compile.bindMembers]
    exact ofPure (List.forall_mem_nil _)
  | cons member rest ih =>
    rw [Compile.bindMembers]
    split
    · exact ofFail _
    · exact ofFail _
    all_goals
      refine (bindPlain block member _ stage []).bind fun first used => (ih _).ending fun others all => ofPure ?_
      rw [List.forall_mem_cons]
      exact ⟨used.mono (List.subset_append_left _ _), fun b found => (all b found).mono (List.subset_append_right _ _)⟩

/-- A block that is registered has the members of its first use; each later use records its own. -/
theorem bindBlock (function block : String) (members : List Argument) (stage : Stage) :
    Recording (members.flatMap (·.kind.ownUses)) (bindBlock table unit function block members stage) fun _ => True := by
  intro state result after run
  obtain ⟨_, _, _, ⟨_, bound, middle, made, usage, -, first⟩, step⟩ := bindBlock_run ⟨stage, block, members⟩ run
  obtain ⟨records, used⟩ := bindMembers block stage _ members made
  refine ⟨⟨usage.trans records.usage_eq, fun all subset held => ?_⟩, trivial⟩
  obtain ⟨old, found, -, -, blocks⟩ | ⟨fresh, -, -, blocks⟩ := step
  · rw [CompileState.BlocksUsedIn, blocks]
    intro later listed
    obtain kept | rfl := List.mem_or_eq_of_mem_set listed
    · exact held later kept
    · rw [blockSeenBy, List.forall_mem_map]
      exact held old (List.mem_of_getElem? found)
  · rw [CompileState.BlocksUsedIn, blocks, List.forall_mem_append, List.forall_mem_singleton, first fresh]
    exact ⟨held, fun member found => (used member found).mono subset⟩

theorem bindArgument (job : EntryJob) (entry : String) (scan : ArgumentScan) (argument : Argument) :
    Recording argument.uses (bindArgument table unit job entry scan argument) fun result =>
      ∀ all, argument.uses ⊆ all → scan.bindings.UsedIn all → result.bindings.UsedIn all := by
  unfold Compile.bindArgument
  dsimp only
  split
  · rename_i name members kind
    rw [Argument.uses, Argument.parts, kind]
    refine (bindBlock job.name name members job.stage).ending fun result _ => ofPure fun all _ held => ?_
    rw [shareMember_foldl]
    exact held
  · rename_i plain
    rw [Argument.uses, Argument.parts_plain plain, List.flatMap_singleton]
    refine (bindPlain job.name argument _ job.stage _).ending fun result used => ofPure fun all subset held => ?_
    intro v found
    dsimp only at found
    have known : v ∈ scan.bindings.buffers ++ scan.bindings.textures ∨ v.bound.spec.UsedIn argument.kind.ownUses := by
      split at found
      · simp only [List.mem_append, List.mem_singleton] at found ⊢
        obtain (old | rfl) | old := found
        · exact .inl (.inl old)
        · exact .inr used
        · exact .inl (.inr old)
      · simp only [List.mem_append, List.mem_singleton] at found ⊢
        obtain old | old | rfl := found
        · exact .inl (.inl old)
        · exact .inl (.inr old)
        · exact .inr used
    exact known.elim (held v) fun used => used.mono subset

theorem bindArguments (job : EntryJob) (entry : String) (scan : ArgumentScan) :
    Recording (job.arguments.flatMap Argument.uses) (bindArguments table unit job entry scan) fun result =>
      ∀ all, job.arguments.flatMap Argument.uses ⊆ all → scan.bindings.UsedIn all → result.bindings.UsedIn all := by
  unfold Compile.bindArguments
  generalize job.arguments = rest
  induction rest generalizing scan with
  | nil => exact ofPure fun _ _ => id
  | cons argument rest ih =>
    rw [List.foldlM_cons]
    refine (bindArgument job entry scan argument).bind fun next known => (ih next).mono fun result done all subset held => ?_
    obtain ⟨early, late⟩ := List.append_subset.mp subset
    exact done all late (known all early held)

/-! ### Leaves -/

theorem declaredTexture (label : String) (handle : TextureHandle) (flags : TextureUsage) :
    Recording [.texture handle flags] (do
      let _ ← textureDecl table label handle
      Compile.useTexture handle flags) fun _ => True :=
  skip (.textureDecl label handle) fun _ => useTexture handle flags

theorem target (label : String) (target : ColorTarget) :
    Recording target.uses (do
      if let .resource handle := target.texture then
        let _ ← textureDecl table label handle
        Compile.useTexture handle { renderTarget := true } : Compile Unit) fun _ => True := by
  rw [ColorTarget.uses]
  cases target.texture with
  | surface => exact ofPure trivial
  | resource handle => exact declaredTexture label handle _

theorem attachments (node : Draw) :
    Recording (node.targets.flatMap ColorTarget.uses ++
      node.depth.toList.map fun depth => .texture depth.texture { renderTarget := true }) (do
        node.targets.forM fun target => do
          if let .resource handle := target.texture then
            let _ ← textureDecl table node.label handle
            Compile.useTexture handle { renderTarget := true }
        if let some depth := node.depth then
          let _ ← textureDecl table node.label depth.texture
          Compile.useTexture depth.texture { renderTarget := true } : Compile Unit) fun _ => True := by
  refine (forM (target node.label) node.targets).bind fun _ _ => ?_
  cases node.depth with
  | none => exact ofPure trivial
  | some depth => exact declaredTexture node.label depth.texture _

/-- What vertices are counted from is only read by the host. -/
theorem vertices (node : Draw) :
    Recording (node.targets.flatMap ColorTarget.uses ++
      node.depth.toList.map fun depth => .texture depth.texture { renderTarget := true }) (do
        if let .buffer handle := node.vertices then
          let _ ← bufferDecl table node.label handle
        node.targets.forM fun target => do
          if let .resource handle := target.texture then
            let _ ← textureDecl table node.label handle
            Compile.useTexture handle { renderTarget := true }
        if let some depth := node.depth then
          let _ ← textureDecl table node.label depth.texture
          Compile.useTexture depth.texture { renderTarget := true } : Compile Unit) fun _ => True := by
  dsimp only
  split
  · exact skip (.bufferDecl node.label _) fun _ => attachments node
  · exact attachments node

theorem drawResources (node : Draw) :
    Recording node.resourceUses (drawResources table node) fun _ => True := by
  unfold Compile.drawResources
  rw [Draw.resourceUses]
  dsimp only
  cases node.index with
  | none => exact vertices node
  | some index =>
    refine skip (.bufferDecl node.label index) fun decl => ?_
    split
    · exact (useBuffer index _).bind fun _ _ => vertices node
    · exact failing _

theorem blit (node : Blit) : Recording node.op.uses (blit table node) fun _ => True := by
  unfold Compile.blit
  cases node.op with
  | copyTexture source destination =>
    refine skip (.textureDecl node.label source) fun _ => (useTexture source _).bind fun _ _ => ?_
    cases destination with
    | surface => exact ofPure trivial
    | resource handle => exact declaredTexture node.label handle _
  | copyBuffer source destination =>
    refine skip (.bufferDecl node.label source) fun _ => skip (.bufferDecl node.label destination) fun _ => ?_
    exact (useBuffer source _).bind fun _ _ => useBuffer destination _
  | clearBuffer buffer => exact skip (.bufferDecl node.label buffer) fun _ => useBuffer buffer _

theorem filter (node : FilterNode) :
    Recording [.texture node.source { sampled := true }, .texture node.destination { storage := true }]
      (filter table node) fun _ => True := by
  unfold Compile.filter
  refine skip (.textureDecl node.label node.source) fun _ => skip (.textureDecl node.label node.destination) fun destination => ?_
  have used := (useTexture node.source { sampled := true }).bind fun _ _ => useTexture node.destination { storage := true }
  dsimp only
  split
  · exact failing _
  · exact used

end Recording

/-- The grid's extent is in a uniform block of the pass. -/
theorem bindGrid_usedIn {job : EntryJob} {entry : String} {plan : GridPlan} {scan : ArgumentScan}
    (used : scan.bindings.UsedIn uses) : (bindGrid job entry plan scan).2.bindings.UsedIn uses := by
  unfold bindGrid
  dsimp only
  split
  · exact used
  · split
    · intro v found
      simp only [List.mem_append, List.mem_singleton] at found
      obtain (old | rfl) | old := found
      · exact used v (List.mem_append_left _ old)
      · trivial
      · exact used v (List.mem_append_right _ old)
    · exact used

theorem EntryRun.records {job : EntryJob} {pool : IndexPool} {bindings : LeafBindings}
    (made : EntryRun table unit job pool bindings state) :
    state.Records (job.arguments.flatMap Argument.uses) made.after ∧
      ∀ all, job.arguments.flatMap Argument.uses ⊆ all → bindings.UsedIn all → made.scan.bindings.UsedIn all := by
  obtain ⟨records, used⟩ := Recording.bindArguments job made.entry _ made.binds
  exact ⟨.after (Spares.giveEntry used_unitless _ _ made.names) records, used⟩

/-- A leaf has its uses recorded, and its own bind groups are for these. -/
theorem leaf_records {node : Leaf} {compiled : CompiledLeaf}
    (run : (leaf table caps unit node).run state = .ok (compiled, after)) :
    state.Records node.uses after ∧
      ∀ group, .own group ∈ compiled.groups → ∀ binding ∈ group, binding.UsedIn node.uses := by
  have none : LeafBindings.UsedIn node.uses {} := List.forall_mem_nil _
  cases node with
  | dispatch node =>
    obtain ⟨_, _, ran, run⟩ := bind_ok run
    obtain ⟨rfl, rfl⟩ := pure_ok run
    obtain ⟨made, rfl, rfl⟩ := dispatch_run ran
    obtain ⟨records, used⟩ := Recording.bindArguments made.job made.entry _ made.binds
    have named : made.noted.used = state.used := by
      rw [CompileState.used, made.unused, made.unblocked]
      exact Spares.giveEntry used_unitless _ _ made.names
    rw [(locate_ok made.located).1] at records used
    rw [Leaf.uses, List.append_nil, Leaf.arguments] at none ⊢
    exact ⟨(CompileState.Records.after named records).still rfl,
      fun group listed => (bindGrid_usedIn (used _ (List.Subset.refl _) none)).groups listed⟩
  | draw node =>
    obtain ⟨_, _, ran, run⟩ := bind_ok run
    obtain ⟨rfl, rfl⟩ := pure_ok run
    obtain ⟨made, rfl, rfl⟩ := draw_run ran
    obtain ⟨vertex, early⟩ := made.first.records
    obtain ⟨fragment, late⟩ := made.second.records
    obtain ⟨resources, -⟩ := Recording.drawResources node made.uses
    rw [(locate_ok made.vertexLocated).1] at vertex early
    rw [(locate_ok made.fragmentLocated).1] at fragment late
    rw [Leaf.uses, Leaf.arguments, List.flatMap_append] at none ⊢
    refine ⟨((vertex.trans fragment).trans resources).still rfl, fun group listed => ?_⟩
    refine (late _ ?_ (early _ ?_ none)).groups listed
    · exact List.subset_append_of_subset_left _ (List.subset_append_right _ _)
    · exact List.subset_append_of_subset_left _ (List.subset_append_left _ _)
  | blit node =>
    obtain ⟨_, _, ran, run⟩ := bind_ok run
    obtain ⟨rfl, rfl⟩ := pure_ok run
    exact ⟨(Recording.blit node ran).1, nofun⟩
  | filter node =>
    obtain ⟨_, _, ran, run⟩ := bind_ok run
    obtain ⟨rfl, rfl⟩ := pure_ok run
    exact ⟨(Recording.filter node ran).1, nofun⟩
  | callback node =>
    obtain ⟨rfl, rfl⟩ := pure_ok run
    exact ⟨.ofSame rfl, nofun⟩

/-- The leaves have their uses recorded one after the other. -/
theorem mapM_records {leaves : List FlatLeaf} {compiled : List CompiledLeaf}
    (run : (leaves.mapM (flatLeaf table caps)).run state = .ok (compiled, after)) :
    state.Records (leaves.flatMap (·.node.uses)) after ∧ ∀ leaf ∈ leaves.zip compiled,
      ∀ group, .own group ∈ leaf.2.groups → ∀ binding ∈ group, binding.UsedIn leaf.1.node.uses := by
  induction leaves generalizing state compiled with
  | nil =>
    rw [List.mapM_nil] at run
    obtain ⟨rfl, rfl⟩ := pure_ok run
    exact ⟨.ofSame rfl, List.forall_mem_nil _⟩
  | cons flat rest ih =>
    rw [List.mapM_cons] at run
    obtain ⟨first, next, one, run⟩ := bind_ok run
    obtain ⟨others, last, more, run⟩ := bind_ok run
    obtain ⟨rfl, rfl⟩ := pure_ok run
    obtain ⟨made, middle, leafed, one⟩ := bind_ok one
    obtain ⟨_, noted, traced, one⟩ := bind_ok one
    obtain ⟨rfl, rfl⟩ := pure_ok one
    obtain ⟨records, used⟩ := leaf_records leafed
    obtain ⟨all, each⟩ := ih more
    have logged : noted.used = middle.used := by rw [modify_ok traced, CompileState.used, CompileState.used]
    rw [List.zip_cons_cons, List.forall_mem_cons]
    exact ⟨(records.still logged).trans all, used, each⟩

end Compile

/-- How a compiled program uses resources: it has the merged uses of its leaves, and its bind groups are for these. -/
structure CompiledProgram.UsesOf (source : Program) (program : CompiledProgram) : Prop where
  unites : program.usage.Unites source.uses
  bound : ∀ leaf ∈ source.compiledLeaves program, ∀ group ∈ leaf.2.groups,
    ∀ binding ∈ program.groupSpec group, binding.UsedIn source.uses
  blocks : ∀ block ∈ program.blocks, ∀ binding ∈ block.group, binding.UsedIn source.uses

theorem Program.compile_uses {source : Program} {table : ResourceTable} {caps : DeviceCaps} {program : CompiledProgram}
    {log : List LogLine} (compiled : source.compile table caps = .ok (program, log)) : program.UsesOf source := by
  obtain ⟨leaves, state, units, run, finished, rfl⟩ := Program.compile_eq_ok compiled
  have started := Compile.startState_sane source
  have sane := (Compile.leaves_apart started (Compile.startState_inUnits source) run).1.sane started
  obtain ⟨records, own⟩ := Compile.mapM_records run
  rw [← source.uses_eq] at records
  have members := records.blocks source.uses (List.Subset.refl _) (List.forall_mem_nil _)
  have blocks : ∀ block ∈ state.blocks, ∀ binding ∈ block.group, binding.UsedIn source.uses := by
    intro block found binding inside
    rw [sane.group_eq block found, (GroupSpec.sorted_perm _).mem_iff] at inside
    obtain ⟨member, has, rfl⟩ := List.mem_map.mp inside
    exact members block found member has
  refine ⟨?_, fun leaf found group listed => ?_, List.forall_mem_map.mpr blocks⟩
  · rw [records.usage_eq]
    exact ResourceUsage.Unites.nil.addAll _
  · cases group with
    | own spec =>
      have listed' : leaf.1 ∈ (Flattened.ofProgram source).leaves := (List.of_mem_zip found).1
      intro binding inside
      refine (own leaf found spec listed binding inside).mono fun use used => ?_
      rw [source.uses_eq]
      exact List.mem_flatMap.mpr ⟨_, listed', used⟩
    | shared place =>
      intro binding inside
      simp only [CompiledProgram.groupSpec, List.getElem?_map] at inside
      cases there : state.blocks[place]? with
      | none => simp [there] at inside
      | some block =>
        rw [there] at inside
        exact blocks block (List.mem_of_getElem? there) binding inside

end FrameGraph
