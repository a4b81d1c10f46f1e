import FrameGraph.Proofs.Device
import FrameGraph.Proofs.Outcome
import FrameGraph.Proofs.Pass.Tree
import Mathlib.Logic.Relation

/-! # What passes read

The textures and buffers of the caller that a pass reads in its setup, its preparation and its encoding.
A pass that misses a resource misses one that it reads and that the pool does not have. Whatever a pass
does, it stays the pass that was built but for what it has created and decided.
-/

namespace FrameGraph

def BindingSource.texture? : BindingSource → Option TextureHandle
  | .texture handle => some handle
  | _ => none

def BindingSource.buffer? : BindingSource → Option BufferHandle
  | .buffer handle => some handle
  | _ => none

def GroupSpec.textures (group : GroupSpec) : List TextureHandle := group.filterMap (·.source.texture?)

def GroupSpec.buffers (group : GroupSpec) : List BufferHandle := group.filterMap (·.source.buffer?)

namespace CompiledProgram

/-- The contents of a bind group of a leaf. -/
def groupSpec (program : CompiledProgram) : GroupBinding → GroupSpec
  | .own spec => spec
  | .shared block => (program.blocks[block]?.map (·.group)).getD []

theorem groupLayouts_eq (program : CompiledProgram) (groups : List GroupBinding) :
    program.groupLayouts groups = groups.map fun group => (program.groupSpec group).layout := by
  refine List.map_congr_left fun group _ => ?_
  cases group with
  | own spec => rfl
  | shared block => cases found : program.blocks[block]? <;> simp [groupSpec, found, GroupSpec.layout]

def groupTextures (program : CompiledProgram) (groups : List GroupBinding) : List TextureHandle :=
  groups.flatMap fun group => (program.groupSpec group).textures

def groupBuffers (program : CompiledProgram) (groups : List GroupBinding) : List BufferHandle :=
  groups.flatMap fun group => (program.groupSpec group).buffers

end CompiledProgram

def PlannedSource.texture? : PlannedSource → Option TextureHandle
  | .texture handle => some handle
  | _ => none

def PlannedSource.buffer? : PlannedSource → Option BufferHandle
  | .buffer handle => some handle
  | _ => none

def TextureRef.handle? : TextureRef → Option TextureHandle
  | .resource handle => some handle
  | .surface => none

def VertexCount.buffer? : VertexCount → Option BufferHandle
  | .buffer handle => some handle
  | .fixed _ => none

namespace BlitOp

def textures : BlitOp → List TextureHandle
  | .copyTexture source destination => source :: destination.handle?.toList
  | _ => []

def buffers : BlitOp → List BufferHandle
  | .copyBuffer source destination => [source, destination]
  | .clearBuffer buffer => [buffer]
  | .copyTexture .. => []

end BlitOp

namespace CallbackCode

/-- What is done next, by what may come out of the first thing. -/
inductive Next : CallbackCode → CallbackCode → Prop
  | look (next : CallbackSight → CallbackCode) (sight : CallbackSight) : Next (.look next) (next sight)
  | openEncoder (next : CallbackCode) : Next (.openEncoder next) next
  | record (command : Command) (next : Except DeviceError Unit → CallbackCode) (result : Except DeviceError Unit) :
      Next (.record command next) (next result)
  | commit (next : Except DeviceError (Option Nat) → CallbackCode) (result : Except DeviceError (Option Nat)) :
      Next (.commit next) (next result)
  | commitAndWait (next : Except DeviceError Unit → CallbackCode) (result : Except DeviceError Unit) :
      Next (.commitAndWait next) (next result)
  | share (change : Shared → Shared) (next : CallbackCode) : Next (.share change next) next
  | ask (group : String) (request : OffFrame.Request) (next : CallbackCode) : Next (.ask group request next) next
  | writeDown (entry : CallbackRecord) (next : CallbackCode) : Next (.writeDown entry next) next

/-- The code may get there. -/
abbrev Reaches : CallbackCode → CallbackCode → Prop := Relation.ReflTransGen Next

end CallbackCode

namespace Callback

/-- The callback may record the command when it is run in this view. -/
def MayRecord (node : Callback) (view : EncodeView) (command : Command) : Prop :=
  ∃ next, (node.code view).Reaches (.record command next)

/-- The callback may fail with the error when it is run in this view. -/
def MayFail (node : Callback) (view : EncodeView) (error : PassError) : Prop :=
  (node.code view).Reaches (.finish (.error error))

end Callback

/-- A callback among these leaves may record the command while the pool is this one. -/
def Command.ByCaller (nodes : List Leaf) (pool : Pool) (command : Command) : Prop :=
  ∃ node, .callback node ∈ nodes ∧ ∃ view : EncodeView, view.pool = pool ∧ node.MayRecord view command

/-- A callback among these leaves may fail with the error while the pool is this one. -/
def PassError.ByCaller (nodes : List Leaf) (pool : Pool) (error : PassError) : Prop :=
  ∃ node, .callback node ∈ nodes ∧ ∃ view : EncodeView, view.pool = pool ∧ node.MayFail view error

/-- Without callbacks nothing is recorded by one, and none fails. -/
theorem Command.not_byCaller {nodes : List Leaf} (passive : ∀ node, Leaf.callback node ∉ nodes) (pool : Pool)
    (command : Command) : ¬command.ByCaller nodes pool := by
  rintro ⟨node, listed, -⟩
  exact passive node listed

theorem PassError.not_byCaller {nodes : List Leaf} (passive : ∀ node, Leaf.callback node ∉ nodes) (pool : Pool)
    (error : PassError) : ¬error.ByCaller nodes pool := by
  rintro ⟨node, listed, -⟩
  exact passive node listed

namespace Pass

variable (program : CompiledProgram)

/-- The textures of the caller that a leaf reads. -/
def textures : Pass → List TextureHandle
  | .dispatch pass =>
    program.groupTextures pass.bindings.groups ++ pass.compiled.grid.source.texture?.toList
  | .draw pass =>
    program.groupTextures pass.bindings.groups ++ pass.targets.filterMap (·.texture.handle?) ++
      pass.depth.toList.map (·.texture)
  | .blit node => node.op.textures
  | .filter pass => [pass.node.source, pass.node.destination]
  | _ => []

/-- The buffers of the caller that a leaf binds, copies, clears, or reads its grid or its indices from. -/
def buffers : Pass → List BufferHandle
  | .dispatch pass =>
    program.groupBuffers pass.bindings.groups ++ pass.compiled.grid.source.buffer?.toList
  | .draw pass => program.groupBuffers pass.bindings.groups ++ pass.index.toList.map (·.1)
  | .blit node => node.op.buffers
  | _ => []

/-- The other buffer that a draw reads when it is encoded: the one that its vertices are counted from. -/
def looseBuffers : Pass → List BufferHandle
  | .draw pass => pass.vertices.buffer?.toList
  | _ => []

end Pass

/-- The error is a missing resource only when it is one of these and the pool does not have it. -/
def PassError.Misses (pool : Pool) (textures : List TextureHandle) (buffers : List BufferHandle) :
    PassError → Prop
  | .missingTexture _ handle => handle ∈ textures ∧ pool.texture? handle = none
  | .missingBuffer _ handle => handle ∈ buffers ∧ pool.buffer? handle = none
  | _ => True

theorem PassError.Misses.mono {pool : Pool} {textures textures' : List TextureHandle}
    {buffers buffers' : List BufferHandle} {error : PassError} (misses : error.Misses pool textures buffers)
    (more : textures ⊆ textures') (more' : buffers ⊆ buffers') : error.Misses pool textures' buffers' := by
  cases error with
  | missingTexture _ handle => exact ⟨more misses.1, misses.2⟩
  | missingBuffer _ handle => exact ⟨more' misses.1, misses.2⟩
  | _ => trivial

/-- The bindings before anything was created. -/
def Bindings.asBuilt (bindings : Bindings) : Bindings := .ofGroups bindings.label bindings.groups bindings.bytes

/-- The pass as it was built: without what it has created and decided since. -/
def DispatchPass.asBuilt (pass : DispatchPass) : DispatchPass :=
  { pass with bindings := pass.bindings.asBuilt, pipeline := none, grid := ⟨0, 0, 0⟩ }

def DrawPass.asBuilt (pass : DrawPass) : DrawPass :=
  { pass with bindings := pass.bindings.asBuilt, pipeline := none, formats := [] }

def FilterPass.asBuilt (pass : FilterPass) : FilterPass := { pass with prepared := none }

/-- A leaf as it was built. -/
def Pass.asBuilt : Pass → Pass
  | .dispatch pass => .dispatch pass.asBuilt
  | .draw pass => .draw pass.asBuilt
  | .filter pass => .filter pass.asBuilt
  | other => other

/-- The command binds no groups. -/
def Command.Groupless : Command → Prop
  | .dispatch _ | .draw _ => False
  | _ => True

/-- Copies and clears bind nothing. -/
theorem Blit.command_groupless (node : Blit) (view : EncodeView) :
    Comes Command.Groupless (fun _ => True) (node.command view) := by
  unfold Blit.command
  cases node.op with
  | copyTexture source destination =>
    refine (Comes.any _).bind fun _ _ => ?_
    cases destination with
    | surface => exact (Comes.any _).bind fun _ _ => trivial
    | resource _ => exact (Comes.any _).bind fun _ _ => trivial
  | copyBuffer _ _ => exact (Comes.any _).bind fun _ _ => (Comes.any _).bind fun _ _ => trivial
  | clearBuffer _ => exact (Comes.any _).bind fun _ _ => trivial

theorem FilterPass.command_groupless (pass : FilterPass) (view : EncodeView) :
    Comes Command.Groupless (fun _ => True) (pass.command view) :=
  (Comes.any _).bind fun _ _ => (Comes.any _).bind fun _ _ => (Comes.any _).bind fun _ _ => trivial

theorem Pass.textures_asBuilt (program : CompiledProgram) (leaf : Pass) :
    leaf.asBuilt.textures program = leaf.textures program := by
  cases leaf <;> rfl

theorem Pass.buffers_asBuilt (program : CompiledProgram) (leaf : Pass) :
    leaf.asBuilt.buffers program = leaf.buffers program := by
  cases leaf <;> rfl

theorem Pass.looseBuffers_asBuilt (leaf : Pass) : leaf.asBuilt.looseBuffers = leaf.looseBuffers := by
  cases leaf <;> rfl

theorem Pass.label_asBuilt (leaf : Pass) : leaf.asBuilt.label = leaf.label := by
  cases leaf <;> rfl

end FrameGraph
