import FrameGraph.Compile.Index
import FrameGraph.Compile.State

/-! # Binding arguments

Every argument becomes a binding and a module-scope variable named after its entry point; the entry
point's own references are renamed to match. A block is registered by its first use; every later use
must repeat it exactly and adds its stage.
-/

namespace FrameGraph

/-- A variable of one entry point. -/
structure EntryVariable where
  entry : String
  bound : BoundVariable
deriving DecidableEq, Repr

/-- A block member as one entry point sees it. -/
structure SharedVariable where
  entry : String
  block : Nat
  bound : BoundVariable
deriving DecidableEq, Repr

/-- Bindings of one leaf before its bind groups are numbered. -/
structure LeafBindings where
  buffers : List EntryVariable := []
  textures : List EntryVariable := []
  /-- Blocks in the order the leaf first refers to them. -/
  shared : List Nat := []
  members : List SharedVariable := []
  bytes : List BytesSlot := []

namespace LeafBindings

def specs (space : List EntryVariable) : GroupSpec :=
  GroupSpec.sorted (space.map fun v => v.bound.spec)

/-- The variable lists that get a bind group of their own, in group order. -/
def ownSpaces (bindings : LeafBindings) : List (List EntryVariable) :=
  [bindings.buffers, bindings.textures].filter fun space => !space.isEmpty

/-- Own groups first, then the shared ones. -/
def groups (bindings : LeafBindings) : List GroupBinding :=
  (bindings.ownSpaces.map fun space => .own (specs space)) ++ bindings.shared.map .shared

/-- Declarations of one entry point's variables of a space. -/
def declarationsOf (entry : String) (space : List EntryVariable) (group : Nat) : List Declaration :=
  (space.filter (·.entry == entry)).map fun v => v.bound.declaration group

/-- Declarations of one entry point: its own variables, then the members it shares. -/
def declarations (bindings : LeafBindings) (entry : String) : List Declaration :=
  let spaces := bindings.ownSpaces
  (spaces.zipIdx.flatMap fun (space, group) => declarationsOf entry space group) ++
    (bindings.members.filter (·.entry == entry)).map fun member =>
      member.bound.declaration (spaces.length + (bindings.shared.idxOf? member.block).getD 0)

end LeafBindings

/-- The spelling of a sampled texture. -/
def sampledTypeName (sample : SampleKind) (dimension : Dimension) : String :=
  match sample with
  | .float => s!"texture_{dimension.suffix}<f32>"
  | .uint => s!"texture_{dimension.suffix}<u32>"
  | .sint => s!"texture_{dimension.suffix}<i32>"
  | .depth => s!"texture_depth_{dimension.suffix}"

/-- How a texture is bound: kind, spelling and use. -/
structure TextureBinding where
  kind : BindingKind
  type : String
  use : TextureUsage

namespace Compile

variable (table : ResourceTable)

/-- Storage textures need a fixed format that programs can write, and are no cubes. -/
def textureBinding (function : String) (handle : TextureHandle) (access : TextureAccess) :
    Compile TextureBinding := do
  let decl ← textureDecl table function handle
  match access with
  | .sample =>
    let sample := match decl.format with
      | .fixed format => format.sampleKind
      | .surface => .float
    return ⟨.texture decl.dimension sample, sampledTypeName sample decl.dimension, { sampled := true }⟩
  | access =>
    if decl.dimension = .cube then fail (.cubeStorage function decl.name)
    else
      match decl.format.storage? with
      | none => fail (.notStorageFormat function decl.name decl.format)
      | some format =>
        let readWrite := access == .readWrite
        let mode := if readWrite then "read_write" else "write"
        let texel := format.storageName?.getD ""
        return ⟨.storageTexture decl.dimension format readWrite,
          s!"texture_storage_{decl.dimension.suffix}<{texel}, {mode}>", { storage := true }⟩

/-- Bytes of the uniform block for a host value: room for the host's bytes and for the device's layout,
at least sixteen and a multiple of sixteen. -/
def slotSize (source : BytesSource) : Nat :=
  let device := (source.type.layout?.map (·.size)).getD 0
  Layout.roundUp 16 (max (max source.size device) 16)

/-- The binding and variable of an argument that is no block. Bytes add a slot to `bytes`. -/
def bindPlain (unit : Nat) (function : String) (argument : Argument) (binding : Nat) (stage : Stage)
    (bytes : List BytesSlot) : Compile (BoundVariable × List BytesSlot) := do
  let make (kind : BindingKind) (source : BindingSource) (var : VarClass) (type : String) :
      BoundVariable :=
    ⟨⟨argument.name, ⟨binding, kind, .single stage⟩, source⟩, var, argument.type.getD type⟩
  match argument.kind with
  | .buffer handle space =>
    let decl ← bufferDecl table function handle
    let element ← match argument.type with
      | some _ => pure ""
      | none => typeName unit decl.element
    match space with
    | .uniform =>
      useBuffer handle { uniform := true }
      return (make .uniform (.buffer handle) .uniform element, bytes)
    | .storage readOnly =>
      useBuffer handle { storage := true }
      let var := if readOnly then VarClass.storageRead else .storageReadWrite
      return (make (.storage readOnly) (.buffer handle) var s!"array<{element}>", bytes)
  | .bytes source =>
    let type ← match argument.type with
      | some _ => pure ""
      | none => typeName unit source.type
    let slot := ⟨argument.name, slotSize source, source⟩
    return (make .uniform (.bytes bytes.length) .uniform type, bytes ++ [slot])
  | .texture handle access =>
    let texture ← textureBinding table function handle access
    useTexture handle texture.use
    return (make texture.kind (.texture handle) .handle texture.type, bytes)
  | .block name _ => fail (.badArgumentBufferMember function name)

/-- Bind the members of a block; all draw their numbers from one space. -/
def bindMembers (unit : Nat) (block : String) (stage : Stage) (pool : IndexPool) :
    List Argument → Compile (List BoundVariable)
  | [] => return []
  | member :: rest => do
    match member.kind with
    | .bytes _ | .block .. => fail (.badArgumentBufferMember block member.name)
    | .buffer .. | .texture .. =>
      let (binding, pool) := pool.assign member.index .buffers
      let (bound, _) ← bindPlain table unit block member binding stage []
      let others ← bindMembers unit block stage pool rest
      return bound :: others

/-- Two uses of a block list the same member. -/
def sameMember (a b : BoundVariable) : Bool :=
  a.spec.name == b.spec.name && a.spec.source == b.spec.source &&
    a.spec.entry.binding == b.spec.entry.binding && a.var == b.var && a.type == b.type

/-- Let one more stage see a binding. -/
def addStage (stage : Stage) (spec : BindingSpec) : BindingSpec :=
  { spec with entry := { spec.entry with visibility := spec.entry.visibility.union (.single stage) } }

/-- Register a block or check it against its first use: its place and its members. -/
def bindBlock (unit : Nat) (function block : String) (members : List Argument) (stage : Stage) :
    Compile (Nat × List BoundVariable) := do
  let pool ← match IndexPool.reserve block members with
    | .ok pool => pure pool
    | .error error => fail error
  let bound ← bindMembers table unit block stage pool members
  let state ← get
  match state.blocks.findIdx? (·.name == block) with
  | some place =>
    let registered := (state.blocks[place]?.map (·.members)).getD []
    if registered.length == bound.length &&
        (registered.zip bound).all fun (a, b) => sameMember a b then
      let seen := registered.map fun v => { v with spec := addStage stage v.spec }
      set { state with
        blocks := state.blocks.modify place fun b =>
          { b with members := seen, group := b.group.map (addStage stage) } }
      return (place, seen)
    else fail (.argumentBufferRedefined function block)
  | none =>
    log .debug .compiler s!"registered argument buffer '{block}' with {bound.length} members"
    modify fun state => { state with
      blocks := state.blocks ++ [⟨block, GroupSpec.sorted (bound.map (·.spec)), bound⟩] }
    return (state.blocks.length, bound)

end Compile

end FrameGraph
