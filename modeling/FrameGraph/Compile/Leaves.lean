import FrameGraph.Compile.EntryJob

/-! # Compiling leaves

A kernel gets a workgroup size unless it has one, the extent of its grid as a uniform, and an early
return for threads outside the grid. A draw has two entry points that share one set of binding numbers.
Copies, filters and callbacks only use resources.
-/

namespace FrameGraph

open Text

/-- The identifier of the grid's extent inside a kernel. -/
def gridSizeName : String := "grid_size"

/-- The identifier of the workgroup size inside a kernel. -/
def threadsPerGroupName : String := "threads_per_group"

namespace Compile

/-- Lift a check that may fail. -/
def ofExcept {α : Type} (result : Except CompileError α) : Compile α :=
  match result with
  | .ok value => pure value
  | .error error => fail error

/-- The plan with the kernel's own workgroup size, or an attribute with the plan's. -/
def fixWorkgroup (job : EntryJob) (plan : GridPlan) : Except CompileError (GridPlan × Option String) :=
  match job.entry.workgroupSize with
  | .literal size => .ok ({ plan with workgroup := size }, none)
  | .notLiteral => .error (.workgroupSize job.name)
  | .absent =>
    let size := plan.workgroup
    .ok (plan, some s!"@workgroup_size({size.x}, {size.y}, {size.z})")

/-- The uniform that holds the grid's extent. -/
def gridVariable (entry : String) (dims : GridDims) (binding : Nat) : EntryVariable :=
  ⟨entry, ⟨⟨Naming.global entry gridSizeName, ⟨binding, .uniform, .single .compute⟩, .gridExtent⟩,
    .uniform, dims.typeName⟩⟩

/-- Give the kernel its grid extent when it needs one; a kernel that declares the identifier itself
does without the range check. -/
def bindGrid (job : EntryJob) (entry : String) (plan : GridPlan) (scan : ArgumentScan) :
    GridPlan × ArgumentScan :=
  let declared := references job.entry.params gridSizeName
  let wanted := plan.boundsCheck || references job.code gridSizeName
  if declared then ({ plan with boundsCheck := false }, scan)
  else if wanted then
    let (binding, pool) := scan.pool.trailing .buffers
    let buffers := scan.bindings.buffers ++ [gridVariable entry plan.dims binding]
    (plan, ⟨pool, { scan.bindings with buffers },
      scan.patch.rename gridSizeName (Naming.global entry gridSizeName)⟩)
  else (plan, scan)

/-- Lines at the top of a kernel: the workgroup size if it is referred to, then the range check. -/
def kernelPrologue (job : EntryJob) (entry : String) (plan : GridPlan) (patch : Patch) : Patch :=
  let size := plan.workgroup
  let patch :=
    if references job.code threadsPerGroupName then
      patch.addPrologue
        s!"\n    let {threadsPerGroupName} = vec3<u32>({size.x}u, {size.y}u, {size.z}u);"
    else patch
  if plan.boundsCheck then
    patch.addPrologue
      (boundsCheckText plan.dims (EntryJob.gidName patch) (Naming.global entry gridSizeName))
  else patch

/-- Add the text of a leaf to its unit. -/
def addText (unit : Nat) (label : String) (bindings : LeafBindings) (entries : List (String × String)) :
    Compile Unit :=
  modifyUnit unit fun u => { u with
    leaves := u.leaves ++
      [⟨label, entries.map fun (entry, code) => ⟨entry, bindings.declarations entry, code⟩⟩] }

/-- The text of an edited entry point. -/
def patched (job : EntryJob) (patch : Patch) : Compile String :=
  match job.entry.edit? patch with
  | some code => pure code
  | none => fail (.markMeetsName job.name)

variable (table : ResourceTable) (caps : DeviceCaps)

def dispatch (unit : Nat) (node : Dispatch) : Compile CompiledDispatch := do
  let job ← ofExcept (EntryJob.locate node.source .compute node.function node.arguments)
  let plan ← match GridPlan.resolve job.name node.fits node.scale node.arguments table caps with
    | .ok plan => pure plan
    | .error cause => fail (.grid cause)
  let (plan, attr) ← ofExcept (fixWorkgroup job plan)
  let entry ← giveEntry unit job.name
  let renamed := entry != job.name
  if renamed then log .debug .compiler s!"entry `{job.name}` renamed to `{entry}`"
  let patch := { Patch.empty with attr, newName := if renamed then some entry else none }
  let pool ← ofExcept (IndexPool.reserve job.name job.arguments)
  let scan ← bindArguments table unit job entry ⟨pool, {}, patch⟩
  let (plan, scan) := bindGrid job entry plan scan
  let patch := job.bindBuiltins (if plan.boundsCheck then ["gid"] else []) scan.patch
  let patch := kernelPrologue job entry plan patch
  let code ← patched job patch
  addText unit node.label scan.bindings [(entry, code)]
  return ⟨unit, entry, scan.bindings.groups, scan.bindings.bytes, plan⟩

/-- Bind and patch one of the two entry points of a draw. -/
def drawEntry (unit : Nat) (job : EntryJob) (pool : IndexPool) (bindings : LeafBindings) :
    Compile (String × String × IndexPool × LeafBindings) := do
  let entry ← giveEntry unit job.name
  let patch := { Patch.empty with newName := if entry != job.name then some entry else none }
  let scan ← bindArguments table unit job entry ⟨pool, bindings, patch⟩
  let patch := job.bindBuiltins [] scan.patch
  return (entry, ← patched job patch, scan.pool, scan.bindings)

/-- Use the resources that a draw reads and writes besides its arguments. -/
def drawResources (node : Draw) : Compile Unit := do
  if let some index := node.index then
    let decl ← bufferDecl table node.label index
    if decl.element.isScalar .u16 || decl.element.isScalar .u32 then useBuffer index { index := true }
    else fail (.badIndexType node.label)
  if let .buffer handle := node.vertices then
    let _ ← bufferDecl table node.label handle
  node.targets.forM fun target => do
    if let .resource handle := target.texture then
      let _ ← textureDecl table node.label handle
      useTexture handle { renderTarget := true }
  if let some depth := node.depth then
    let _ ← textureDecl table node.label depth.texture
    useTexture depth.texture { renderTarget := true }

def draw (unit : Nat) (node : Draw) : Compile CompiledDraw := do
  if node.targets.isEmpty then fail (.noTargets node.label)
  let vertex ← ofExcept (EntryJob.locate node.source .vertex node.vertex node.vertexArguments)
  let fragment ← ofExcept (EntryJob.locate node.source .fragment node.fragment node.fragmentArguments)
  let pool ← ofExcept (IndexPool.reserve node.label (node.vertexArguments ++ node.fragmentArguments))
  let (vertexEntry, vertexCode, pool, bindings) ← drawEntry table unit vertex pool {}
  let (fragmentEntry, fragmentCode, _, bindings) ← drawEntry table unit fragment pool bindings
  drawResources table node
  addText unit node.label bindings [(vertexEntry, vertexCode), (fragmentEntry, fragmentCode)]
  return ⟨unit, vertexEntry, fragmentEntry, bindings.groups, bindings.bytes⟩

def blit (node : Blit) : Compile Unit := do
  match node.op with
  | .copyTexture source destination =>
    let _ ← textureDecl table node.label source
    useTexture source { copySource := true }
    if let .resource destination := destination then
      let _ ← textureDecl table node.label destination
      useTexture destination { copyDestination := true }
  | .copyBuffer source destination =>
    let _ ← bufferDecl table node.label source
    let _ ← bufferDecl table node.label destination
    useBuffer source { copySource := true }
    useBuffer destination { copyDestination := true }
  | .clearBuffer buffer =>
    let _ ← bufferDecl table node.label buffer
    useBuffer buffer { copyDestination := true }

def filter (node : FilterNode) : Compile Unit := do
  let _ ← textureDecl table node.label node.source
  let destination ← textureDecl table node.label node.destination
  if destination.format.storage?.isNone then
    fail (.notStorageFormat node.label destination.name destination.format)
  useTexture node.source { sampled := true }
  useTexture node.destination { storage := true }

def leaf (unit : Nat) : Leaf → Compile CompiledLeaf
  | .dispatch node => do return .dispatch (← dispatch table caps unit node)
  | .draw node => do return .draw (← draw table unit node)
  | .blit node => do
    blit table node
    return .host
  | .filter node => do
    filter table node
    return .host
  | .callback _ => return .host

end Compile

end FrameGraph
