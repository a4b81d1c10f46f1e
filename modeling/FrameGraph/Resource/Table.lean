import FrameGraph.Layout.Host
import FrameGraph.Resource.Extent
import FrameGraph.Resource.Format

/-! # Resource declarations

The caller declares textures and buffers in a table and names them by their place in it. Declarations
that depend on the display surface say so, and give their extent or size at any surface.
-/

namespace FrameGraph

/-- The place of a texture declaration. -/
structure TextureHandle where
  index : Nat
deriving DecidableEq, Repr

/-- The place of a buffer declaration. -/
structure BufferHandle where
  index : Nat
deriving DecidableEq, Repr

def TextureHandle.text (handle : TextureHandle) : String := s!"texture#{handle.index}"

def BufferHandle.text (handle : BufferHandle) : String := s!"buffer#{handle.index}"

def TextureHandle.describe (handle : TextureHandle) : String := s!"TextureHandle({handle.index})"

def BufferHandle.describe (handle : BufferHandle) : String := s!"BufferHandle({handle.index})"

/-- A texture of the table or the display surface of the frame. -/
inductive TextureRef where
  | resource (handle : TextureHandle)
  | surface
deriving DecidableEq, Repr

inductive Dimension where
  | d1 | d2 | d2Array | d3 | cube
deriving DecidableEq, Repr, Inhabited

/-- The ending of a texture type's name. -/
def Dimension.suffix : Dimension → String
  | .d1 => "1d"
  | .d2 => "2d"
  | .d2Array => "2d_array"
  | .d3 => "3d"
  | .cube => "cube"

structure TextureDecl where
  name : String
  size : SizePolicy
  format : FormatPolicy
  dimension : Dimension := .d2
  /-- Depth of a volume, layers of an array, six for a cube. -/
  layers : Nat := 1
deriving DecidableEq, Repr

namespace TextureDecl

/-- A cube has six layers, anything else at least one. -/
def withDimension (decl : TextureDecl) (dimension : Dimension) (layers : Nat) : TextureDecl :=
  { decl with dimension, layers := if dimension = .cube then 6 else max layers 1 }

def followsSurface (decl : TextureDecl) : Bool :=
  decl.size.followsSurface || decl.format == .surface

def extent (decl : TextureDecl) (surface : Extent) : Extent :=
  let (width, height) := decl.size.resolve surface
  match decl.dimension with
  | .d1 => ⟨width, 1, 1⟩
  | _ => ⟨width, height, decl.layers⟩

end TextureDecl

inductive ElementCount where
  | fixed (count : Nat)
  /-- A number of elements for every pixel of the display surface. -/
  | perPixel (factor : Nat)
deriving DecidableEq, Repr

structure BufferDecl where
  name : String
  element : ShaderType
  /-- Bytes of one element in host memory. -/
  elementSize : Nat
  count : ElementCount
deriving DecidableEq

namespace BufferDecl

/-- A buffer of host values. -/
def ofHost (name : String) (element : HostType) (count : ElementCount) : BufferDecl :=
  ⟨name, element.shaderType, element.size, count⟩

def followsSurface (decl : BufferDecl) : Bool :=
  match decl.count with
  | .perPixel _ => true
  | .fixed _ => false

/-- Counts and sizes are 64-bit words. -/
def elementCount (decl : BufferDecl) (surface : Extent) : Nat :=
  match decl.count with
  | .fixed count => count
  | .perPixel factor => surface.width * surface.height * factor % UInt64.size

/-- Bytes to allocate: room for the elements and for one unit of sixteen, rounded up to sixteen. -/
def byteSize (decl : BufferDecl) (surface : Extent) : Nat :=
  let raw := decl.elementCount surface * decl.elementSize % UInt64.size
  Layout.roundUp 16 (max raw 16)

end BufferDecl

/-- All declarations of the caller. -/
structure ResourceTable where
  textures : List TextureDecl := []
  buffers : List BufferDecl := []

namespace ResourceTable

def texture? (table : ResourceTable) (handle : TextureHandle) : Option TextureDecl :=
  table.textures[handle.index]?

def buffer? (table : ResourceTable) (handle : BufferHandle) : Option BufferDecl :=
  table.buffers[handle.index]?

end ResourceTable

end FrameGraph
