import FrameGraph.Compile.Usage
import FrameGraph.Device.Interface
import FrameGraph.Surface

/-! # The resource pool

The allocations behind the caller's handles. Only resources that the program uses are created. Every
slot has a generation, which goes up when its allocation is replaced; bind groups compare generations
to notice that they are stale. A resize records the new surface only when every replacement succeeded,
so a failed one is tried again in full.
-/

namespace FrameGraph

structure TextureSlot where
  texture : Texture
  generation : Nat
deriving DecidableEq, Repr

structure BufferSlot where
  buffer : Buffer
  /-- Elements at the surface that the buffer was created for. -/
  elements : Nat
  generation : Nat
deriving DecidableEq, Repr

structure Pool where
  table : ResourceTable
  usage : ResourceUsage
  textures : List (Option TextureSlot)
  buffers : List (Option BufferSlot)
  surface : Option Surface := none

/-- An action on a pool with a device around it. -/
abbrev PoolM (σ : Type) := PartEffect Pool (Host σ) DeviceError

namespace Pool

/-- A pool with an empty slot for every declaration. -/
def empty (table : ResourceTable) (usage : ResourceUsage) : Pool where
  table
  usage
  textures := table.textures.map fun _ => none
  buffers := table.buffers.map fun _ => none

def textureSlot? (pool : Pool) (handle : TextureHandle) : Option TextureSlot :=
  (pool.textures[handle.index]?).join

def bufferSlot? (pool : Pool) (handle : BufferHandle) : Option BufferSlot :=
  (pool.buffers[handle.index]?).join

def texture? (pool : Pool) (handle : TextureHandle) : Option Texture :=
  (pool.textureSlot? handle).map (·.texture)

def buffer? (pool : Pool) (handle : BufferHandle) : Option Buffer :=
  (pool.bufferSlot? handle).map (·.buffer)

/-- The element count of a buffer. -/
def bufferLength? (pool : Pool) (handle : BufferHandle) : Option Nat :=
  (pool.bufferSlot? handle).map (·.elements)

variable {σ : Type} [Device σ]

def note (text : String) : PoolM σ Unit := PartEffect.around (Host.note .debug .resources text)

/-- The error for a handle that the table does not declare. -/
def notDeclared (handle : String) : DeviceError := .creation handle "not declared"

/-- What to ask the device for. -/
def textureSpec (decl : TextureDecl) (usage : TextureUsage) (surface : Surface) : TextureSpec where
  label := decl.name
  extent := decl.extent surface.extent
  dimension := decl.dimension
  format := decl.format.resolve surface.format
  usage

/-- What to ask the device for; every buffer may be uploaded to. -/
def bufferSpec (decl : BufferDecl) (usage : BufferUsage) (surface : Surface) : BufferSpec where
  label := decl.name
  size := decl.byteSize surface.extent
  usage := usage.union { copyDestination := true }

def createTexture (handle : TextureHandle) (usage : TextureUsage) (surface : Surface)
    (generation : Nat) : PoolM σ Unit := do
  let pool ← get
  match pool.table.texture? handle with
  | none => throw (notDeclared handle.text)
  | some decl =>
    let spec := textureSpec decl usage surface
    let texture ← PartEffect.around (Host.perform (Device.createTexture spec))
    note s!"texture '{decl.name}' {spec.extent.width}x{spec.extent.height}x{spec.extent.depth} {spec.format.describe} (generation {generation})"
    let slot : TextureSlot := { texture, generation }
    modify fun pool => { pool with textures := pool.textures.set handle.index (some slot) }

def createBuffer (handle : BufferHandle) (usage : BufferUsage) (surface : Surface)
    (generation : Nat) : PoolM σ Unit := do
  let pool ← get
  match pool.table.buffer? handle with
  | none => throw (notDeclared handle.text)
  | some decl =>
    let spec := bufferSpec decl usage surface
    let buffer ← PartEffect.around (Host.perform (Device.createBuffer spec))
    note s!"buffer '{decl.name}' {spec.size} bytes (generation {generation})"
    let slot : BufferSlot := { buffer, elements := decl.elementCount surface.extent, generation }
    modify fun pool => { pool with buffers := pool.buffers.set handle.index (some slot) }

/-- Create a used texture that does not exist yet; the result counts creations. -/
def materializeTexture (surface : Surface) (entry : TextureHandle × TextureUsage) : PoolM σ Nat := do
  if ((← get).textureSlot? entry.1).isSome then return 0
  createTexture entry.1 entry.2 surface 0
  return 1

def materializeBuffer (surface : Surface) (entry : BufferHandle × BufferUsage) : PoolM σ Nat := do
  if ((← get).bufferSlot? entry.1).isSome then return 0
  createBuffer entry.1 entry.2 surface 0
  return 1

/-- Create every used resource that does not exist yet; the result counts them. -/
def materialize (surface : Surface) : PoolM σ Nat := do
  let usage := (← get).usage
  let textures ← usage.textures.mapM (materializeTexture surface)
  let buffers ← usage.buffers.mapM (materializeBuffer surface)
  let created := (textures ++ buffers).foldl (· + ·) 0
  modify fun pool => { pool with surface := some surface }
  note s!"materialized {created} resources"
  return created

/-- The generation of the replacement when a texture no longer fits the surface. -/
def staleTexture? (pool : Pool) (surface : Surface) (handle : TextureHandle) : Option Nat := do
  let decl ← pool.table.texture? handle
  if decl.followsSurface then
    match pool.textureSlot? handle with
    | none => some 0
    | some slot =>
      if slot.texture.extent = decl.extent surface.extent ∧
          slot.texture.format = decl.format.resolve surface.format then none
      else some (slot.generation + 1)
  else none

/-- The generation of the replacement when a buffer no longer fits the surface. -/
def staleBuffer? (pool : Pool) (surface : Surface) (handle : BufferHandle) : Option Nat := do
  let decl ← pool.table.buffer? handle
  if decl.followsSurface then
    match pool.bufferSlot? handle with
    | none => some 0
    | some slot =>
      if slot.buffer.size = decl.byteSize surface.extent then none else some (slot.generation + 1)
  else none

def resizeTexture (surface : Surface) (entry : TextureHandle × TextureUsage) : PoolM σ Nat := do
  match (← get).staleTexture? surface entry.1 with
  | none => return 0
  | some generation =>
    createTexture entry.1 entry.2 surface generation
    return 1

def resizeBuffer (surface : Surface) (entry : BufferHandle × BufferUsage) : PoolM σ Nat := do
  match (← get).staleBuffer? surface entry.1 with
  | none => return 0
  | some generation =>
    createBuffer entry.1 entry.2 surface generation
    return 1

/-- Replace what no longer fits the surface; the result counts replacements. -/
def resize (surface : Surface) : PoolM σ Nat := do
  let pool ← get
  if pool.surface = some surface then return 0
  let textures ← pool.usage.textures.mapM (resizeTexture surface)
  let buffers ← pool.usage.buffers.mapM (resizeBuffer surface)
  let replaced := (textures ++ buffers).foldl (· + ·) 0
  modify fun pool => { pool with surface := some surface }
  if 0 < replaced then note s!"resize to {surface.sizeText}: recreated {replaced} resources"
  return replaced

end Pool

end FrameGraph
