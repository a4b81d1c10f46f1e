import FrameGraph.Proofs.Compile.Uses
import FrameGraph.Proofs.Pass.Demands
import FrameGraph.Proofs.Renewal

/-! # Flags of what commands refer to

A pool that creates what it holds for the merged uses of a program lends to each use an object with the flags of that
use. So what a bind group refers to permits what the group binds it as, and stays so as long as the group is kept; and
what a draw, a copy or a filter takes from the pool has the flags of that use.
-/

namespace FrameGraph

/-- The resource was created with the flag that a binding of this kind needs. -/
def BoundResource.Permits (kind : BindingKind) (resource : BoundResource) : Prop :=
  match kind, resource with
  | .uniform, .buffer bound => BufferUsage.subset { uniform := true } bound.usage
  | .storage _, .buffer bound => BufferUsage.subset { storage := true } bound.usage
  | .texture .., .texture bound => TextureUsage.subset { sampled := true } bound.usage
  | .storageTexture .., .texture bound => TextureUsage.subset { storage := true } bound.usage
  | _, _ => False

/-- The buffer was created to be bound as a uniform block. -/
def Buffer.IsUniform (buffer : Buffer) : Prop := BufferUsage.subset { uniform := true } buffer.usage

/-- Every resource of the group permits what the group binds it as. -/
def BindGroup.Permitted (group : BindGroup) : Prop :=
  List.Forall₂ (fun entry resource => resource.Permits entry.kind) group.layout group.resources

namespace Pool

/-- The texture is what the pool holds for the handle, and was created with these flags. -/
structure LendsTexture (pool : Pool) (handle : TextureHandle) (flags : TextureUsage) (texture : Texture) : Prop where
  held : pool.texture? handle = some texture
  flags : flags.subset texture.usage

/-- The buffer is what the pool holds for the handle, and was created with these flags. -/
structure LendsBuffer (pool : Pool) (handle : BufferHandle) (flags : BufferUsage) (buffer : Buffer) : Prop where
  held : pool.buffer? handle = some buffer
  flags : flags.subset buffer.usage

namespace MadeFor

variable {pool : Pool} {usage : ResourceUsage} {uses : List ResourceUse}

theorem lendsTexture (made : pool.MadeFor usage) (unites : usage.Unites uses) {handle : TextureHandle}
    {flags : TextureUsage} (used : .texture handle flags ∈ uses) {texture : Texture}
    (held : pool.texture? handle = some texture) : pool.LendsTexture handle flags texture := by
  obtain ⟨slot, filled, rfl⟩ := Option.map_eq_some_iff.mp held
  have entry := made.allocation (.texture handle) (.inl slot) (Option.map_eq_some_iff.mpr ⟨slot, filled, rfl⟩)
  exact ⟨held, unites.texture_subset used entry⟩

/-- A buffer may be uploaded to besides the uses of its entry. -/
theorem buffer_usage (made : pool.MadeFor usage) {handle : BufferHandle} {buffer : Buffer}
    (held : pool.buffer? handle = some buffer) :
    ∃ total, (handle, total) ∈ usage.buffers ∧ buffer.usage = total.union { copyDestination := true } := by
  obtain ⟨slot, filled, rfl⟩ := Option.map_eq_some_iff.mp held
  exact made.allocation (.buffer handle) (.inr slot) (Option.map_eq_some_iff.mpr ⟨slot, filled, rfl⟩)

theorem lendsBuffer (made : pool.MadeFor usage) (unites : usage.Unites uses) {handle : BufferHandle}
    {flags : BufferUsage} (used : .buffer handle flags ∈ uses) {buffer : Buffer}
    (held : pool.buffer? handle = some buffer) : pool.LendsBuffer handle flags buffer := by
  obtain ⟨total, entry, same⟩ := made.buffer_usage held
  refine ⟨held, ?_⟩
  rw [same]
  exact BufferUsage.subset_union (unites.buffer_subset used entry) _

theorem lendsUpload (made : pool.MadeFor usage) {handle : BufferHandle} {buffer : Buffer}
    (held : pool.buffer? handle = some buffer) : pool.LendsBuffer handle { copyDestination := true } buffer := by
  obtain ⟨total, -, same⟩ := made.buffer_usage held
  refine ⟨held, ?_⟩
  rw [same]
  exact BufferUsage.subset_union_right _ _

end MadeFor

end Pool

/-- A draw takes what the pool holds for its targets, its depth and its indices, created for these; a target may also be
the display surface. -/
structure DrawCommand.Attaches (pool : Pool) (node : Draw) (command : DrawCommand) : Prop where
  label_eq : command.label = node.label
  colors : List.Forall₂ (fun target color => ∀ handle, target.texture = .resource handle →
    pool.LendsTexture handle { renderTarget := true } color.texture) node.targets command.colors
  depth : Option.Rel (fun target depth => pool.LendsTexture target.texture { renderTarget := true } depth.texture)
    node.depth command.depth
  index : Option.Rel (fun handle index => pool.LendsBuffer handle { index := true } index.buffer)
    node.index command.index

/-- Everything that a command refers to was created with the flag that the command needs of it. -/
def Command.Permitted (nodes : List Leaf) (pool : Pool) : Command → Prop
  | .dispatch command => ∀ group ∈ command.groups, group.Permitted
  | .draw command => (∀ group ∈ command.groups, group.Permitted) ∧
      ∃ node, .draw node ∈ nodes ∧ command.Attaches pool node
  | .copyTexture source destination _ => ∃ node first second,
      .blit node ∈ nodes ∧ node.op = .copyTexture first second ∧
      pool.LendsTexture first { copySource := true } source ∧
      ∀ handle, second = .resource handle → pool.LendsTexture handle { copyDestination := true } destination
  | .copyBuffer source destination _ => ∃ node first second,
      .blit node ∈ nodes ∧ node.op = .copyBuffer first second ∧
      pool.LendsBuffer first { copySource := true } source ∧
      pool.LendsBuffer second { copyDestination := true } destination
  | .clearBuffer buffer => ∃ handle, pool.LendsBuffer handle { copyDestination := true } buffer
  | .filter _ source destination _ => ∃ node, .filter node ∈ nodes ∧
      pool.LendsTexture node.source { sampled := true } source ∧
      pool.LendsTexture node.destination { storage := true } destination

/-- A program whose usage is merged of these uses, with a pool that was created for it. -/
structure CompiledProgram.Equips (uses : List ResourceUse) (program : CompiledProgram) (pool : Pool) : Prop where
  unites : program.usage.Unites uses
  blocks : ∀ block ∈ program.blocks, ∀ binding ∈ block.group, binding.UsedIn uses
  made : pool.MadeFor program.usage

namespace CompiledProgram.Equips

variable {program : CompiledProgram} {pool : Pool} {uses : List ResourceUse}

theorem texture (equips : program.Equips uses pool) {handle : TextureHandle} {flags : TextureUsage}
    (used : .texture handle flags ∈ uses) {texture : Texture} (held : pool.texture? handle = some texture) :
    pool.LendsTexture handle flags texture := equips.made.lendsTexture equips.unites used held

theorem buffer (equips : program.Equips uses pool) {handle : BufferHandle} {flags : BufferUsage}
    (used : .buffer handle flags ∈ uses) {buffer : Buffer} (held : pool.buffer? handle = some buffer) :
    pool.LendsBuffer handle flags buffer := equips.made.lendsBuffer equips.unites used held

end CompiledProgram.Equips

/-- What is found for a binding permits it: a resource of the caller because it is used so, a uniform block by
itself. -/
theorem BindingSpec.resolve_permits {program : CompiledProgram} {pool : Pool} {uses : List ResourceUse}
    (equips : program.Equips uses pool) {binding : BindingSpec} (used : binding.UsedIn uses) {bytes : List Buffer}
    {grid : Option Buffer} (blocks : ∀ buffer ∈ bytes, buffer.IsUniform)
    (extent : ∀ buffer, grid = some buffer → buffer.IsUniform) (label : String) :
    Comes (·.Permits binding.entry.kind) (fun _ => True) (binding.resolve label pool bytes grid) := by
  obtain ⟨name, ⟨number, kind, visibility⟩, source⟩ := binding
  cases source with
  | buffer handle =>
    refine .ofNeed (fun buffer held => ?_) fun _ => trivial
    cases kind with
    | uniform => exact (equips.buffer used held).flags
    | storage => exact (equips.buffer used held).flags
    | texture | storageTexture => exact used.elim
  | texture handle =>
    refine .ofNeed (fun texture held => ?_) fun _ => trivial
    cases kind with
    | texture => exact (equips.texture used held).flags
    | storageTexture => exact (equips.texture used held).flags
    | uniform | storage => exact used.elim
  | bytes slot =>
    refine .ofNeed (fun buffer held => ?_) fun _ => trivial
    cases kind with
    | uniform => exact blocks buffer (List.mem_of_getElem? held)
    | _ => exact used.elim
  | gridExtent =>
    refine .ofNeed (fun buffer held => ?_) fun _ => trivial
    cases kind with
    | uniform => exact extent buffer held
    | _ => exact used.elim

/-- Bindings that are for these uses: their uniform blocks and all bind groups that they have permit what they are
for. -/
structure Bindings.Permitted (uses : List ResourceUse) (bindings : Bindings) : Prop where
  used : ∀ group, .own group ∈ bindings.groups → ∀ binding ∈ group, binding.UsedIn uses
  bytes : ∀ buffer ∈ bindings.bytesBuffers, buffer.IsUniform
  grid : ∀ buffer, bindings.gridBuffer = some buffer → buffer.IsUniform
  own : ∀ bound, some bound ∈ bindings.own → bound.group.Permitted
  resolved : ∀ group ∈ bindings.resolved, group.Permitted

namespace Bindings.Permitted

variable {uses : List ResourceUse} {bindings : Bindings}

theorem ofGroups {groups : List GroupBinding}
    (used : ∀ group, .own group ∈ groups → ∀ binding ∈ group, binding.UsedIn uses) (label : String)
    (bytes : List BytesSlot) : (Bindings.ofGroups label groups bytes).Permitted uses where
  used := used
  bytes := List.forall_mem_nil _
  grid := nofun
  own bound found := by
    obtain ⟨_, _, ⟨⟩⟩ := List.mem_map.mp found
  resolved := List.forall_mem_nil _

theorem store (permitted : bindings.Permitted uses) {bound : BoundGroup} (fits : bound.group.Permitted) (place : Nat) :
    Permitted uses { bindings with own := bindings.own.set place (some bound) } where
  used := permitted.used
  bytes := permitted.bytes
  grid := permitted.grid
  own other found := by
    obtain old | same := List.mem_or_eq_of_mem_set found
    · exact permitted.own other old
    · cases same
      exact fits
  resolved := permitted.resolved

theorem bound_comes (permitted : bindings.Permitted uses) :
    Comes (fun groups => ∀ group ∈ groups, group.Permitted) (fun _ => True) bindings.bound := by
  unfold bound
  split
  · exact permitted.resolved
  · trivial

end Bindings.Permitted

/-- A draw pass is of a draw. -/
structure DrawPass.Of (node : Draw) (pass : DrawPass) : Prop where
  label_eq : pass.label = node.label
  targets_eq : pass.targets = node.targets
  depth_eq : pass.depth = node.depth
  index_eq : pass.index.map (·.1) = node.index

/-- A draw pass is of one of these leaves, and what it binds permits that. -/
structure DrawPass.Permitted (nodes : List Leaf) (pass : DrawPass) : Prop where
  node : ∃ node, .draw node ∈ nodes ∧ pass.Of node
  bindings : pass.bindings.Permitted (nodes.flatMap Leaf.uses)

/-- A pass is of one of these leaves, and what it binds permits that. -/
def Pass.Permitted (nodes : List Leaf) : Pass → Prop
  | .dispatch pass => pass.bindings.Permitted (nodes.flatMap Leaf.uses)
  | .draw pass => pass.Permitted nodes
  | .blit node => .blit node ∈ nodes
  | .filter pass => .filter pass.node ∈ nodes
  | .callback node => .callback node ∈ nodes
  | _ => True

/-- What is demanded for commands to refer only to what permits them, callbacks apart. -/
def Demands.usages (nodes : List Leaf) : Demands where
  stocked program pool := program.Equips (nodes.flatMap Leaf.uses) pool
  grouped := BindGroup.Permitted
  good := Pass.Permitted nodes
  ready _ := Pass.Permitted nodes
  admitted pool command := command.ByCaller nodes pool ∨ command.Permitted nodes pool

variable {σ : Type} [Device σ] [LawfulDevice σ] {nodes : List Leaf} {setting : Setting} {start : Session σ}

open Session (Holds)

section

variable {admitted : Command → Prop} {inv : Session σ → Prop} {program : CompiledProgram} {pool : Pool}
  {uses : List ResourceUse}

theorem GroupSpec.create_permitted (accepting : Session.Accepting admitted inv) (equips : program.Equips uses pool)
    {group : GroupSpec} (used : ∀ binding ∈ group, binding.UsedIn uses) {bytes : List Buffer} {grid : Option Buffer}
    (blocks : ∀ buffer ∈ bytes, buffer.IsUniform)
    (extent : ∀ buffer, grid = some buffer → buffer.IsUniform) (label : String) :
    Effect.Ensures inv (group.create (σ := σ) label pool bytes grid)
      (fun bound session => bound.group.Permitted ∧ inv session) fun _ => inv := by
  refine (group.create_ensures accepting label pool bytes grid fun binding found =>
    BindingSpec.resolve_permits equips (used binding found) blocks extent label).mono ?_ fun _ _ => id
  rintro bound session ⟨⟨layout, -, refers⟩, held⟩
  refine ⟨?_, held⟩
  rw [BindGroup.Permitted, layout, GroupSpec.layout, List.forall₂_map_left_iff]
  exact refers

end

theorem Session.blockGroup_permitted (equips : setting.compiled.Equips (nodes.flatMap Leaf.uses) setting.pool)
    (place : Nat) :
    Effect.Ensures (Holds (.usages nodes) setting start) (Session.blockGroup (σ := σ) place setting.pool)
      (fun group session => group.Permitted ∧ Holds (.usages nodes) setting start session)
      fun _ => Holds (.usages nodes) setting start := by
  have accepting := Holds.accepting (.usages nodes) setting start
  refine Session.blockGroup_ensures accepting place setting.pool ?_ ?_
  · intro session block bound holds _ stored
    exact ⟨holds.kept.blocks bound (List.mem_of_getElem? stored), holds⟩
  · intro session block holds found
    rw [holds.compiled_eq] at found
    have used := equips.blocks block (List.mem_of_getElem? found)
    have created : Effect.Ensures _ (block.group.create block.name setting.pool [] none) _ _ :=
      GroupSpec.create_permitted accepting equips used (List.forall_mem_nil _) (fun _ absent => by cases absent)
        block.name
    exact created.mono (fun _ _ done => ⟨done.1, done.2.store done.1⟩) fun _ _ => id

namespace Bindings

open PartEffect (Ensures Keeps)

/-- What holds of bindings and the session that they are used in. -/
abbrev Stay (nodes : List Leaf) (setting : Setting) (start : Session σ) (bindings : Bindings)
    (session : Session σ) : Prop :=
  bindings.Permitted (nodes.flatMap Leaf.uses) ∧ Holds (.usages nodes) setting start session

variable (equips : setting.compiled.Equips (nodes.flatMap Leaf.uses) setting.pool) {view : PassView}
  (seen : view.pool = setting.pool)

include equips seen

theorem ownGroup_permitted {spec : GroupSpec} (used : ∀ binding ∈ spec, binding.UsedIn (nodes.flatMap Leaf.uses))
    (place : Nat) :
    Ensures (Stay nodes setting start) (ownGroup (σ := σ) place spec view)
      (fun group bindings session => group.Permitted ∧ bindings.Stay nodes setting start session)
      fun _ => Stay nodes setting start := by
  have accepting := Holds.accepting (.usages nodes) setting start
  refine ownGroup_ensures accepting (fun _ bound => bound.group.Permitted) place spec view ?_ ?_ ?_
  · exact fun bindings bound permitted stored _ => permitted.own bound (List.mem_of_getElem? stored)
  · rw [seen]
    exact fun bindings permitted =>
      GroupSpec.create_permitted accepting equips used permitted.bytes permitted.grid bindings.label
  · exact fun bindings bound permitted fits => ⟨permitted.store fits place, fits⟩

/-- A refresh that fails leaves the bind groups that were resolved before. -/
theorem refresh_permitted :
    Keeps (Stay nodes setting start) (refresh (σ := σ) view) := by
  refine .ofGet fun bindings session held => ?_
  let inv' (_ : List (GroupBinding × Nat)) (out : List BindGroup) (b : Bindings) (s : Session σ) : Prop :=
    (∀ group ∈ out, group.Permitted) ∧ b.Stay nodes setting start s
  refine .pre ?_ (.bind (.mapM inv' fun seen' out group found => .given fun others => ?_) fun resolved => .ofModify ?_)
  · rintro _ _ ⟨rfl, rfl⟩
    exact ⟨List.forall_mem_nil _, held⟩
  · have one : Ensures (Stay nodes setting start) (resolveGroup (σ := σ) view group)
        (fun created b s => created.Permitted ∧ b.Stay nodes setting start s) fun _ => Stay nodes setting start := by
      obtain ⟨spec | block, place⟩ := group
      · have listed : .own spec ∈ bindings.groups := (List.mem_zipIdx' found).2 ▸ List.getElem_mem _
        exact ownGroup_permitted equips seen (held.1.used spec listed) place
      · rw [resolveGroup, seen]
        exact .yields (Session.blockGroup_permitted equips block)
    refine one.mono (fun created _ _ done => ⟨?_, done.2⟩) fun _ _ _ => id
    exact List.forall_mem_append.mpr ⟨others, List.forall_mem_singleton.mpr done.1⟩
  · rintro b s ⟨all, permitted, holds⟩
    exact ⟨{ permitted with resolved := all }, holds⟩

/-- Uniform blocks are created with the flag of uniform blocks. -/
theorem setup_permitted :
    Keeps (Stay nodes setting start) (setup (σ := σ) view) := by
  have fits (buffer : Buffer) (made : buffer.usage = blockUsage) : buffer.IsUniform := by
    rw [Buffer.IsUniform, made]
    rfl
  refine setup_makes (Holds.accepting (.usages nodes) setting start) view (fun b permitted => ?_)
    (fun b buffer made permitted => ?_) (fun b buffer made permitted => ?_) (refresh_permitted equips seen)
  · exact { permitted with bytes := List.forall_mem_nil _ }
  · exact { permitted with
      bytes := List.forall_mem_append.mpr ⟨permitted.bytes, List.forall_mem_singleton.mpr (fits buffer made)⟩ }
  · refine { permitted with grid := ?_ }
    rintro _ ⟨⟩
    exact fits buffer made

end Bindings

namespace DispatchPass

open PartEffect (Keeps)

variable {view : PassView}

omit [LawfulDevice σ] in
theorem bindings_stay {action : PassM Bindings σ Unit} (keeps : Keeps (Bindings.Stay nodes setting start) action) :
    Keeps (fun pass session => pass.bindings.Stay nodes setting start session) (action.inPart bindingsLens) := by
  refine .inPart fun pass => ?_
  rintro _ session ⟨rfl, held⟩
  exact keeps pass.bindings session held

theorem setup_permitted (equips : setting.compiled.Equips (nodes.flatMap Leaf.uses) setting.pool)
    (seen : view.pool = setting.pool) :
    Keeps (fun pass session => pass.bindings.Stay nodes setting start session) (setup (σ := σ) view) :=
  setup_keeps view (fun _ => (Holds.accepting (.usages nodes) setting start).beside fun _ _ => id)
    (fun _ _ _ held _ _ => held) (bindings_stay (Bindings.setup_permitted equips seen))

theorem prepare_permitted (equips : setting.compiled.Equips (nodes.flatMap Leaf.uses) setting.pool)
    (seen : view.pool = setting.pool) :
    Keeps (fun pass session => pass.bindings.Stay nodes setting start session) (prepare (σ := σ) view) :=
  prepare_ensures view (fun _ => (Holds.accepting (.usages nodes) setting start).beside fun _ _ => id)
    (fun _ _ _ => id) (fun _ _ => id) (bindings_stay (Bindings.refresh_permitted equips seen))

omit [Device σ] [LawfulDevice σ] in
theorem command_permitted {pass : DispatchPass} (permitted : pass.bindings.Permitted (nodes.flatMap Leaf.uses))
    (pool : Pool) :
    Comes (fun command => Command.Permitted nodes pool (.dispatch command)) (fun _ => True) pass.command :=
  .ofNeed (fun _ _ => permitted.bound_comes.bind fun _ all => all) fun _ => trivial

end DispatchPass

namespace DrawPass

open PartEffect (Keeps)

variable {view : PassView}

omit [LawfulDevice σ] in
theorem bindings_stay {action : PassM Bindings σ Unit} (keeps : Keeps (Bindings.Stay nodes setting start) action) :
    Keeps (fun pass session => pass.Permitted nodes ∧ Holds (.usages nodes) setting start session)
      (action.inPart bindingsLens) := by
  refine .inPart fun pass => ?_
  rintro _ session ⟨rfl, ⟨⟨node, listed, is⟩, bindings⟩, holds⟩
  refine (keeps.mono ?_ ?_) pass.bindings session ⟨bindings, holds⟩
  · exact fun _ _ _ done => ⟨⟨⟨node, listed, { is with }⟩, done.1⟩, done.2⟩
  · exact fun _ _ _ done => ⟨⟨⟨node, listed, { is with }⟩, done.1⟩, done.2⟩

theorem buildPipeline_permitted (formats : List PixelFormat) :
    Keeps (fun pass session => pass.Permitted nodes ∧ Holds (.usages nodes) setting start session)
      (buildPipeline (σ := σ) formats) := by
  refine buildPipeline_makes formats (fun _ => (Holds.accepting (.usages nodes) setting start).beside fun _ _ => id) ?_
  rintro pass session pipeline module ⟨⟨⟨node, listed, is⟩, bindings⟩, holds⟩ -
  exact ⟨⟨⟨node, listed, { is with }⟩, bindings⟩, holds⟩

theorem setup_permitted (equips : setting.compiled.Equips (nodes.flatMap Leaf.uses) setting.pool)
    (seen : view.pool = setting.pool) :
    Keeps (fun pass session => pass.Permitted nodes ∧ Holds (.usages nodes) setting start session)
      (setup (σ := σ) view) :=
  setup_keeps view buildPipeline_permitted (bindings_stay (Bindings.setup_permitted equips seen))

theorem prepare_permitted (equips : setting.compiled.Equips (nodes.flatMap Leaf.uses) setting.pool)
    (seen : view.pool = setting.pool) :
    Keeps (fun pass session => pass.Permitted nodes ∧ Holds (.usages nodes) setting start session)
      (prepare (σ := σ) view) := by
  have accepting (pass : DrawPass) : Session.Accepting _ fun session : Session σ =>
      pass.Permitted nodes ∧ Holds (.usages nodes) setting start session :=
    (Holds.accepting (.usages nodes) setting start).beside fun _ _ => id
  exact prepare_ensures view accepting accepting (fun _ _ => id) (fun _ _ => id) buildPipeline_permitted
    (bindings_stay (Bindings.refresh_permitted equips seen))

omit [Device σ] [LawfulDevice σ] in
/-- What a draw takes from the pool, it takes for a use of its own. -/
theorem command_permitted {program : CompiledProgram} {pass : DrawPass} {view : EncodeView}
    (equips : program.Equips (nodes.flatMap Leaf.uses) view.pool) (permitted : pass.Permitted nodes) :
    Comes (fun command => Command.Permitted nodes view.pool (.draw command)) (fun _ => True) (pass.command view) := by
  obtain ⟨⟨node, listed, is⟩, bindings⟩ := permitted
  have used {use : ResourceUse} (own : use ∈ node.resourceUses) : use ∈ nodes.flatMap Leaf.uses :=
    List.mem_flatMap.mpr ⟨.draw node, listed, List.mem_append_right _ own⟩
  have attached (target : ColorTarget) (found : target ∈ pass.targets) :
      Comes (fun color => ∀ handle, target.texture = .resource handle →
        view.pool.LendsTexture handle { renderTarget := true } color.texture)
        (fun _ => True) (pass.attachment view target) := by
    rw [is.targets_eq] at found
    unfold attachment
    cases drawn : target.texture with
    | surface => exact .ofNeed (fun _ _ => nofun) fun _ => trivial
    | resource handle =>
      refine .ofNeed (fun texture held => ?_) fun _ => trivial
      rintro _ ⟨⟩
      exact equips.texture (used (node.target_used found drawn)) held
  have cleared (target : DepthTarget) (found : pass.depth = some target) :
      Comes (fun depth => view.pool.LendsTexture target.texture { renderTarget := true } depth.texture)
        (fun _ => True) (pass.depthAttachment view target) := by
    rw [is.depth_eq] at found
    refine .ofNeed (fun texture held => ?_) fun _ => trivial
    exact equips.texture (used (node.depth_used found)) held
  have indexed (index : BufferHandle × IndexFormat) (found : pass.index = some index) :
      Comes (fun bound => view.pool.LendsBuffer index.1 { index := true } bound.buffer) (fun _ => True)
        (pass.indexBinding view index) := by
    have drawn : node.index = some index.1 := by rw [← is.index_eq, found, Option.map_some]
    refine .ofNeed (fun slot held => ?_) fun _ => trivial
    exact equips.buffer (used (node.index_used drawn)) (Option.map_eq_some_iff.mpr ⟨slot, held, rfl⟩)
  refine .ofNeed (fun pipeline _ => ?_) fun _ => trivial
  refine (Comes.mapM attached).bind fun colors colored => ?_
  refine (Comes.optionMapM cleared).bind fun depth depthHeld => ?_
  refine (Comes.optionMapM indexed).bind fun index indexHeld => (Comes.any _).bind fun _ _ => ?_
  refine bindings.bound_comes.bind fun groups all => ⟨all, node, listed, is.label_eq, ?_, ?_, ?_⟩
  · exact is.targets_eq ▸ colored
  · exact is.depth_eq ▸ depthHeld
  · rw [← is.index_eq]
    generalize pass.index = index at indexHeld
    cases indexHeld with
    | none => exact .none
    | some lent => exact .some lent

end DrawPass

/-- Copies and clears take what they are for. -/
theorem Blit.command_permitted {program : CompiledProgram} {node : Blit} {view : EncodeView}
    (equips : program.Equips (nodes.flatMap Leaf.uses) view.pool) (listed : .blit node ∈ nodes) :
    Comes (Command.Permitted nodes view.pool) (fun _ => True) (node.command view) := by
  have used {use : ResourceUse} (own : use ∈ node.op.uses) : use ∈ nodes.flatMap Leaf.uses :=
    List.mem_flatMap.mpr ⟨.blit node, listed, List.mem_append_right _ own⟩
  unfold command
  cases is : node.op with
  | copyTexture first second =>
    rw [is, BlitOp.uses] at used
    refine .ofNeed (fun source held => ?_) fun _ => trivial
    have lent := equips.texture (used List.mem_cons_self) held
    cases second with
    | surface => exact .ofNeed (fun _ _ => ⟨node, first, .surface, listed, is, lent, nofun⟩) fun _ => trivial
    | resource handle =>
      refine .ofNeed (fun destination there => ⟨node, first, _, listed, is, lent, ?_⟩) fun _ => trivial
      rintro _ ⟨⟩
      exact equips.texture (used (List.mem_cons_of_mem _ List.mem_cons_self)) there
  | copyBuffer first second =>
    rw [is, BlitOp.uses] at used
    refine .ofNeed (fun source held => .ofNeed (fun destination there => ?_) fun _ => trivial) fun _ => trivial
    exact ⟨node, first, second, listed, is, equips.buffer (used List.mem_cons_self) held,
      equips.buffer (used (List.mem_cons_of_mem _ List.mem_cons_self)) there⟩
  | clearBuffer handle =>
    refine .ofNeed (fun buffer held => ⟨handle, ?_⟩) fun _ => trivial
    exact equips.made.lendsUpload held

theorem FilterPass.command_permitted {program : CompiledProgram} {pass : FilterPass} {view : EncodeView}
    (equips : program.Equips (nodes.flatMap Leaf.uses) view.pool) (listed : .filter pass.node ∈ nodes) :
    Comes (Command.Permitted nodes view.pool) (fun _ => True) (pass.command view) := by
  have used {use : ResourceUse} (own : use ∈ (Leaf.filter pass.node).uses) : use ∈ nodes.flatMap Leaf.uses :=
    List.mem_flatMap.mpr ⟨.filter pass.node, listed, own⟩
  refine .ofNeed (fun _ _ => .ofNeed (fun source held => .ofNeed (fun destination there => ?_) fun _ => trivial)
    fun _ => trivial) fun _ => trivial
  exact ⟨pass.node, listed, equips.texture (used List.mem_cons_self) held,
    equips.texture (used (List.mem_cons_of_mem _ List.mem_cons_self)) there⟩

/-- Setups and preparations create bind groups only that permit what they are for, and so every command does. -/
theorem Demands.usages_met (nodes : List Leaf) : (Demands.usages nodes).Met σ where
  setsUpDispatch _ _ _ _ equips seen fits := .ofKeeps (DispatchPass.setup_permitted equips seen) fits fun _ => id
  setsUpDraw _ _ _ _ equips seen fits := .ofKeeps (DrawPass.setup_permitted equips seen) fits fun _ => id
  prepared _ _ := id
  preparesDispatch _ _ _ _ equips seen _ fits := .pre (fun _ _ held => ⟨held.1 ▸ fits, held.2⟩)
    ((DispatchPass.prepare_permitted equips seen).mono (fun _ _ _ done => ⟨⟨done.1, done.1⟩, done.2⟩)
      fun _ _ _ => id)
  preparesDraw _ _ _ _ equips seen _ fits := .pre (fun _ _ held => ⟨held.1 ▸ fits, held.2⟩)
    ((DrawPass.prepare_permitted equips seen).mono (fun _ _ _ done => ⟨⟨done.1, done.1⟩, done.2⟩)
      fun _ _ _ => id)
  readyBlit _ _ := id
  readyFilter _ _ := id
  readyCallback _ _ := id
  dispatch pool _ permitted := .map ((DispatchPass.command_permitted permitted pool).mono (fun _ => .inr) fun _ => id)
  draw _ _ _ equips permitted := .map ((DrawPass.command_permitted equips permitted).mono (fun _ => .inr) fun _ => id)
  blit _ _ _ equips listed := (Blit.command_permitted equips listed).mono (fun _ => .inr) fun _ => id
  filter _ _ _ equips listed := (FilterPass.command_permitted equips listed).mono (fun _ => .inr) fun _ => id
  callback view node _ listed records := .inl ⟨node, listed, view, rfl, records⟩

end FrameGraph
