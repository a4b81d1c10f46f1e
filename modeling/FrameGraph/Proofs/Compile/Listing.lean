import FrameGraph.Proofs.Compile.Matching
import FrameGraph.Proofs.Compile.Numbers
import FrameGraph.Proofs.Compile.Spares

/-! # What a use of a block lists

A use of an argument block lists its members under the numbers that they get; the list depends on the use and the
resource table alone. Binding the members registers nothing.
-/

namespace FrameGraph

/-- The reference of an entry point to an argument block. -/
structure BlockUse where
  stage : Stage
  block : String
  members : List Argument

/-- An argument that is a block, in an entry point of a stage. -/
def ArgumentKind.blockUse? (stage : Stage) : ArgumentKind → Option BlockUse
  | .block name members => some ⟨stage, name, members⟩
  | _ => none

/-- The blocks that the arguments of an entry point refer to, in order. -/
def BlockUse.ofArguments (stage : Stage) (arguments : List Argument) : List BlockUse :=
  arguments.filterMap (·.kind.blockUse? stage)

/-- The blocks that a leaf refers to, in order. -/
def Leaf.blockUses : Leaf → List BlockUse
  | .dispatch node => BlockUse.ofArguments .compute node.arguments
  | .draw node =>
    BlockUse.ofArguments .vertex node.vertexArguments ++ BlockUse.ofArguments .fragment node.fragmentArguments
  | .blit _ | .filter _ | .callback _ => []

/-- The variable class of a buffer. -/
def BufferSpace.var : BufferSpace → VarClass
  | .uniform => .uniform
  | .storage true => .storageRead
  | .storage false => .storageReadWrite

/-- The spelling of a buffer of elements. -/
def BufferSpace.typeName (space : BufferSpace) (element : String) : String :=
  match space with
  | .uniform => element
  | .storage _ => s!"array<{element}>"

/-- The spelling of a storage texture. -/
def storageTypeName (dimension : Dimension) (texel mode : String) : String :=
  s!"texture_storage_{dimension.suffix}<{texel}, {mode}>"

/-- The spelling of a texel in a storage texture. -/
def TextureDecl.texelName (decl : TextureDecl) : String := (decl.format.storage?.bind (·.storageName?)).getD ""

/-- The spelling of a texture. -/
def TextureDecl.typeName (decl : TextureDecl) : TextureAccess → String
  | .sample =>
    let sample := match decl.format with
      | .fixed format => format.sampleKind
      | .surface => .float
    sampledTypeName sample decl.dimension
  | .write => storageTypeName decl.dimension decl.texelName "write"
  | .readWrite => storageTypeName decl.dimension decl.texelName "read_write"

/-- What a member that binds a buffer or a texture is listed as under a number. -/
def memberUse? (table : ResourceTable) (member : Argument) (binding : Nat) : Option MemberUse :=
  match member.kind with
  | .buffer handle space => (table.buffer? handle).bind fun decl =>
    (member.type <|> decl.element.name.toOption.map space.typeName).map fun type =>
      ⟨member.name, .buffer handle, binding, space.var, type⟩
  | .texture handle access => (table.texture? handle).map fun decl =>
    ⟨member.name, .texture handle, binding, .handle, member.type.getD (decl.typeName access)⟩
  | .bytes _ | .block .. => none

/-- What members are listed as under their numbers. -/
def memberUses? (table : ResourceTable) (members : List Argument) (numbers : List Nat) : Option (List MemberUse) :=
  (members.zip numbers).mapM fun (member, number) => memberUse? table member number

namespace BlockUse

/-- The numbers of the members, which are all drawn from one space. -/
def numbers (use : BlockUse) : List Nat :=
  match IndexPool.reserve use.block use.members with
  | .ok pool => pool.numbers .buffers (use.members.map (·.index))
  | .error _ => []

/-- What the use lists. -/
def listing? (table : ResourceTable) (use : BlockUse) : Option (List MemberUse) :=
  memberUses? table use.members use.numbers

end BlockUse

namespace Compile

variable {α β : Type} {state after : CompileState} {table : ResourceTable} {unit : Nat}

/-! ### Steps that leave the blocks alone -/

theorem blocks_aside : Aside (·.blocks) := ⟨fun _ _ => rfl, fun _ _ => rfl⟩

theorem blocks_unitless : Unitless (·.blocks) := ⟨fun _ _ => rfl, fun _ _ => rfl⟩

/-- The step registers no block and shows none to another stage. -/
abbrev SparesBlocks (step : Compile α) : Prop := Spares (·.blocks) step

namespace SparesBlocks

/-- The element type is spelled only for arguments whose own type is not given. -/
theorem spelled {given : Option String} {unit : Nat} {type : ShaderType} {next : String → Compile α}
    (rest : ∀ element, SparesBlocks (next element)) :
    SparesBlocks (match given with
      | some _ => do
        let element ← pure ""
        next element
      | none => do
        let element ← Compile.typeName unit type
        next element) := by
  cases given with
  | some _ => exact rest ""
  | none => exact (Spares.typeName blocks_unitless unit type).bind rest

theorem bindPlain (unit : Nat) (function : String) (argument : Argument) (binding : Nat) (stage : Stage)
    (bytes : List BytesSlot) : SparesBlocks (bindPlain table unit function argument binding stage bytes) := by
  unfold Compile.bindPlain
  cases argument.kind with
  | buffer handle space =>
    apply (Spares.bufferDecl function handle).bind
    intro decl
    apply spelled
    intro element
    cases space with
    | uniform => exact (Spares.useBuffer blocks_aside _ _).bind fun _ => .ofPure _
    | storage readOnly => exact (Spares.useBuffer blocks_aside _ _).bind fun _ => .ofPure _
  | bytes source => exact spelled fun element => .ofPure _
  | texture handle access =>
    apply (Spares.textureBinding function handle access).bind
    intro texture
    exact (Spares.useTexture blocks_aside _ _).bind fun _ => .ofPure _
  | block name members => exact .ofFail _

end SparesBlocks

/-! ### Members -/

theorem bufferDecl_found {function : String} {handle : BufferHandle} {decl : BufferDecl}
    (run : (bufferDecl table function handle).run state = .ok (decl, after)) : table.buffer? handle = some decl := by
  unfold bufferDecl at run
  split at run
  · rename_i found
    rw [found, (pure_ok run).1]
  · exact (fail_ok run).elim

theorem textureDecl_found {function : String} {handle : TextureHandle} {decl : TextureDecl}
    (run : (textureDecl table function handle).run state = .ok (decl, after)) : table.texture? handle = some decl := by
  unfold textureDecl at run
  split at run
  · rename_i found
    rw [found, (pure_ok run).1]
  · exact (fail_ok run).elim

/-- A type is spelled by its name. -/
theorem typeName_spells {type : ShaderType} {name : String}
    (run : (typeName unit type).run state = .ok (name, after)) : type.name = .ok name := by
  obtain ⟨_, _, _, run⟩ := bind_ok (get_bind_ok run)
  obtain ⟨_, _, _, run⟩ := bind_ok run
  split at run
  · exact (fail_ok run).elim
  · exact (fail_ok run).elim
  · rename_i spelled
    rw [spelled, (pure_ok run).1]

/-- A type that the caller gives is not spelled. -/
theorem spelled_lists {given : Option String} {type : ShaderType} {next : String → Compile β} {b : β}
    (run : (match given with
      | some _ => do
        let element ← pure ""
        next element
      | none => do
        let element ← typeName unit type
        next element).run state = .ok (b, after)) :
    ∃ element middle, (given = none → type.name = .ok element) ∧ (next element).run middle = .ok (b, after) := by
  cases given with
  | some _ => exact ⟨"", state, nofun, run⟩
  | none =>
    obtain ⟨element, middle, named, run⟩ := bind_ok run
    exact ⟨element, middle, fun _ => typeName_spells named, run⟩

/-- A texture is spelled as its declaration and its use say. -/
theorem textureBinding_type {function : String} {handle : TextureHandle} {access : TextureAccess}
    {binding : TextureBinding} (run : (textureBinding table function handle access).run state = .ok (binding, after)) :
    ∃ decl, table.texture? handle = some decl ∧ binding.type = decl.typeName access := by
  obtain ⟨decl, _, declared, run⟩ := bind_ok run
  refine ⟨decl, textureDecl_found declared, ?_⟩
  split at run
  · obtain ⟨rfl, -⟩ := pure_ok run
    rfl
  · rename_i storage
    split at run
    · exact (fail_ok run).elim
    · split at run
      · exact (fail_ok run).elim
      · rename_i format found
        rw [← (pure_ok run).1]
        have texel : decl.texelName = format.storageName?.getD "" := by
          rw [TextureDecl.texelName, found, Option.bind_some]
        cases access with
        | sample => exact absurd rfl storage
        | write =>
          rw [TextureDecl.typeName, texel]
          rfl
        | readWrite =>
          rw [TextureDecl.typeName, texel]
          rfl

/-- A bound variable for an argument that is neither bytes nor a block. -/
structure Lists (table : ResourceTable) (member : Argument) (binding : Nat) (stage : Stage) (bound : BoundVariable) :
    Prop where
  use_eq : memberUse? table member binding = some bound.use
  visibility : bound.spec.entry.visibility = .single stage

theorem bindPlain_lists {function : String} {argument : Argument} {binding : Nat} {stage : Stage}
    {bytes more : List BytesSlot} {bound : BoundVariable} (fixed : ∀ source, argument.kind ≠ .bytes source)
    (run : (bindPlain table unit function argument binding stage bytes).run state = .ok ((bound, more), after)) :
    Lists table argument binding stage bound := by
  unfold bindPlain at run
  dsimp only at run
  split at run
  · rename_i handle space kind
    obtain ⟨decl, middle, declared, run⟩ := bind_ok run
    have found := bufferDecl_found declared
    cases bufferDecl_ok declared
    obtain ⟨element, middle, spelled, run⟩ := spelled_lists run
    have type_eq : (argument.type <|> decl.element.name.toOption.map space.typeName) =
        some (argument.type.getD (space.typeName element)) := by
      cases given : argument.type with
      | some type => rfl
      | none => simp [spelled given, Except.toOption]
    cases space with
    | uniform =>
      obtain ⟨_, _, used, run⟩ := bind_ok run
      obtain ⟨⟨⟩, rfl⟩ := pure_ok run
      refine ⟨?_, rfl⟩
      rw [memberUse?, kind]
      simp only [found, Option.bind_some, type_eq, Option.map_some]
      rfl
    | storage readOnly =>
      obtain ⟨_, _, used, run⟩ := bind_ok run
      obtain ⟨⟨⟩, rfl⟩ := pure_ok run
      refine ⟨?_, rfl⟩
      rw [memberUse?, kind]
      simp only [found, Option.bind_some, type_eq, Option.map_some]
      cases readOnly <;> rfl
  · rename_i source kind
    exact absurd kind (fixed source)
  · rename_i handle access kind
    obtain ⟨texture, middle, chosen, run⟩ := bind_ok run
    obtain ⟨decl, found, type_eq⟩ := textureBinding_type chosen
    cases (textureBinding_ok chosen).1
    obtain ⟨_, _, used, run⟩ := bind_ok run
    obtain ⟨⟨⟩, rfl⟩ := pure_ok run
    refine ⟨?_, rfl⟩
    simp [memberUse?, kind, found, BoundVariable.use, type_eq]
  · exact (fail_ok run).elim

/-- Members are bound under the numbers that they get, and none of them is bytes or a block. -/
theorem bindMembers_lists {block : String} {stage : Stage} {pool : IndexPool} {members : List Argument}
    {bound : List BoundVariable}
    (run : (bindMembers table unit block stage pool members).run state = .ok (bound, after)) :
    after.blocks = state.blocks ∧ (∀ member ∈ members, member.kind.space?.isSome) ∧
      memberUses? table members (pool.numbers .buffers (members.map (·.index))) = some (bound.map (·.use)) ∧
      ∀ b ∈ bound, b.spec.entry.visibility = .single stage := by
  induction members generalizing pool state bound with
  | nil =>
    rw [bindMembers] at run
    obtain ⟨rfl, rfl⟩ := pure_ok run
    exact ⟨rfl, List.forall_mem_nil _, rfl, List.forall_mem_nil _⟩
  | cons member rest ih =>
    rw [bindMembers] at run
    split at run
    · exact (fail_ok run).elim
    · exact (fail_ok run).elim
    all_goals
      rename_i kind
      generalize assigned : pool.assign member.index .buffers = numbered at run
      obtain ⟨⟨first, _⟩, middle, one, run⟩ := bind_ok run
      obtain ⟨others, _, more, run⟩ := bind_ok run
      obtain ⟨rfl, rfl⟩ := pure_ok run
      have same := SparesBlocks.bindPlain _ _ _ _ _ _ one
      have lists := bindPlain_lists (by simp [kind]) one
      obtain ⟨same', spaced, uses, seen⟩ := ih more
      refine ⟨same'.trans same, List.forall_mem_cons.mpr ⟨by simp [kind, ArgumentKind.space?], spaced⟩, ?_,
        List.forall_mem_cons.mpr ⟨lists.visibility, seen⟩⟩
      simp only [memberUses?] at uses
      simp [memberUses?, IndexPool.numbers, assigned, lists.use_eq, uses]

/-- A block that one more stage sees is used the same way. -/
theorem uses_blockSeenBy (stage : Stage) (block : RegisteredBlock) :
    (blockSeenBy stage block).members.map (·.use) = block.members.map (·.use) := by
  simp [blockSeenBy, seenBy, addStage, BoundVariable.use, Function.comp_def]

/-- A use of a block has its members bound and then finds the same members registered, or registers them. -/
structure BlockRun (table : ResourceTable) (unit : Nat) (use : BlockUse) (before after : CompileState) (place : Nat)
    (seen : List BoundVariable) : Prop where
  reserves : ∃ pool, IndexPool.reserve use.block use.members = .ok pool
  spaced : ∀ member ∈ use.members, member.kind.space?.isSome
  listed : use.listing? table = some (seen.map (·.use))
  binds : ∃ pool bound middle, (bindMembers table unit use.block use.stage pool use.members).run before =
    .ok (bound, middle) ∧ after.usage = middle.usage ∧ after.units = middle.units ∧
      (use.block ∉ before.blocks.map (·.name) → seen = bound)
  step :
    (∃ block, before.blocks[place]? = some block ∧ block.name = use.block ∧ seen = (blockSeenBy use.stage block).members ∧
      after.blocks = before.blocks.set place (blockSeenBy use.stage block)) ∨
    (use.block ∉ before.blocks.map (·.name) ∧ place = before.blocks.length ∧
      (∀ b ∈ seen, b.spec.entry.visibility = .single use.stage) ∧
      after.blocks = before.blocks ++ [⟨use.block, GroupSpec.sorted (seen.map (·.spec)), seen⟩])

theorem bindBlock_run {function : String} (use : BlockUse) {place : Nat} {seen : List BoundVariable}
    (run : (bindBlock table unit function use.block use.members use.stage).run state = .ok ((place, seen), after)) :
    BlockRun table unit use state after place seen := by
  unfold bindBlock at run
  dsimp only at run
  split at run
  case h_2 => exact (fail_ok run).elim
  rename_i pool reserves
  obtain ⟨bound, middle, made, run⟩ := bind_ok (pure_bind_ok run)
  obtain ⟨same, spaced, uses, stages⟩ := bindMembers_lists made
  have listed : use.listing? table = some (bound.map (·.use)) := by
    rw [BlockUse.listing?, BlockUse.numbers, reserves]
    exact uses
  have run := get_bind_ok run
  split at run
  · rename_i found
    split at run
    · rename_i fits
      obtain ⟨_, _, changed, run⟩ := bind_ok run
      cases set_ok changed
      obtain ⟨⟨⟩, rfl⟩ := pure_ok run
      obtain ⟨inside, matched, -⟩ := List.findIdx?_eq_some_iff_getElem.mp found
      have there := List.getElem?_eq_getElem inside
      rw [there, Option.map_some, Option.getD_some, fits_iff] at fits
      simp only [there, Option.map_some, Option.getD_some, modify_eq_set there]
      have named : middle.blocks[place].name = use.block := by simpa using matched
      have known : use.block ∈ state.blocks.map (·.name) := List.mem_map.mpr ⟨_, same ▸ List.getElem_mem inside, named⟩
      refine ⟨⟨pool, reserves⟩, spaced, listed.trans ?_, ⟨pool, bound, middle, made, rfl, rfl, fun fresh => absurd known fresh⟩,
        .inl ⟨_, same ▸ there, named, rfl, ?_⟩⟩
      · rw [← fits]
        exact congrArg some (uses_blockSeenBy use.stage _).symm
      · exact congrArg (fun blocks : List RegisteredBlock => blocks.set place (blockSeenBy use.stage middle.blocks[place])) same
    · exact (fail_ok run).elim
  · rename_i absent
    obtain ⟨_, _, noted, run⟩ := bind_ok run
    cases modify_ok noted
    obtain ⟨_, _, changed, run⟩ := bind_ok run
    cases modify_ok changed
    obtain ⟨⟨⟩, rfl⟩ := pure_ok run
    rw [same] at absent
    refine ⟨⟨pool, reserves⟩, spaced, listed, ⟨pool, _, middle, made, rfl, rfl, fun _ => rfl⟩,
      .inr ⟨findIdx?_name_none absent, by rw [same], stages, ?_⟩⟩
    simp only [same]

end Compile

end FrameGraph
