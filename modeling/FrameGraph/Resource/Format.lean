/-! # Pixel formats

The formats a texture may have, how a program samples them and which of them a program may write.
-/

namespace FrameGraph

inductive PixelFormat where
  | r8Unorm | rg8Unorm | rgba8Unorm | rgba8UnormSrgb | bgra8Unorm | bgra8UnormSrgb
  | r16Float | rg16Float | rgba16Float | r32Float | rg32Float | rgba32Float
  | r32Uint | r32Sint | rgba32Uint | depth32Float
deriving DecidableEq, Repr, Inhabited

/-- How a program samples a texture. -/
inductive SampleKind where
  | float | uint | sint | depth
deriving DecidableEq, Repr, Inhabited

/-- A format name that means nothing. -/
structure UnknownFormat where
  name : String
deriving DecidableEq, Repr

def UnknownFormat.message (error : UnknownFormat) : String :=
  s!"unknown texture format '{error.name}'"

namespace PixelFormat

def all : List PixelFormat :=
  [.r8Unorm, .rg8Unorm, .rgba8Unorm, .rgba8UnormSrgb, .bgra8Unorm, .bgra8UnormSrgb, .r16Float,
    .rg16Float, .rgba16Float, .r32Float, .rg32Float, .rgba32Float, .r32Uint, .r32Sint, .rgba32Uint,
    .depth32Float]

/-- The name in configuration texts. -/
def name : PixelFormat → String
  | .r8Unorm => "r8unorm"
  | .rg8Unorm => "rg8unorm"
  | .rgba8Unorm => "rgba8unorm"
  | .rgba8UnormSrgb => "rgba8unorm-srgb"
  | .bgra8Unorm => "bgra8unorm"
  | .bgra8UnormSrgb => "bgra8unorm-srgb"
  | .r16Float => "r16float"
  | .rg16Float => "rg16float"
  | .rgba16Float => "rgba16float"
  | .r32Float => "r32float"
  | .rg32Float => "rg32float"
  | .rgba32Float => "rgba32float"
  | .r32Uint => "r32uint"
  | .r32Sint => "r32sint"
  | .rgba32Uint => "rgba32uint"
  | .depth32Float => "depth32float"

/-- Inspection text. -/
def describe : PixelFormat → String
  | .r8Unorm => "R8Unorm"
  | .rg8Unorm => "Rg8Unorm"
  | .rgba8Unorm => "Rgba8Unorm"
  | .rgba8UnormSrgb => "Rgba8UnormSrgb"
  | .bgra8Unorm => "Bgra8Unorm"
  | .bgra8UnormSrgb => "Bgra8UnormSrgb"
  | .r16Float => "R16Float"
  | .rg16Float => "Rg16Float"
  | .rgba16Float => "Rgba16Float"
  | .r32Float => "R32Float"
  | .rg32Float => "Rg32Float"
  | .rgba32Float => "Rgba32Float"
  | .r32Uint => "R32Uint"
  | .r32Sint => "R32Sint"
  | .rgba32Uint => "Rgba32Uint"
  | .depth32Float => "Depth32Float"

def ofName (name : String) : Except UnknownFormat PixelFormat :=
  match all.find? (·.name == name) with
  | some format => .ok format
  | none => .error ⟨name⟩

/-- The texel format of a texture that programs write; absent when they cannot. -/
def storageName? : PixelFormat → Option String
  | .rgba8Unorm => some "rgba8unorm"
  | .rgba16Float => some "rgba16float"
  | .r32Float => some "r32float"
  | .rg32Float => some "rg32float"
  | .rgba32Float => some "rgba32float"
  | .r32Uint => some "r32uint"
  | .r32Sint => some "r32sint"
  | .rgba32Uint => some "rgba32uint"
  | _ => none

def sampleKind : PixelFormat → SampleKind
  | .r32Uint | .rgba32Uint => .uint
  | .r32Sint => .sint
  | .depth32Float => .depth
  | _ => .float

/-- Samples may be interpolated. -/
def isFilterable : PixelFormat → Bool
  | .r32Float | .rg32Float | .rgba32Float | .r32Uint | .r32Sint | .rgba32Uint | .depth32Float => false
  | _ => true

def bytesPerPixel : PixelFormat → Nat
  | .r8Unorm => 1
  | .rg8Unorm | .r16Float => 2
  | .rgba16Float | .rg32Float => 8
  | .rgba32Float | .rgba32Uint => 16
  | _ => 4

end PixelFormat

/-- A fixed format or that of the display surface. -/
inductive FormatPolicy where
  | fixed (format : PixelFormat)
  | surface
deriving DecidableEq, Repr

namespace FormatPolicy

def resolve (policy : FormatPolicy) (surface : PixelFormat) : PixelFormat :=
  match policy with
  | .fixed format => format
  | .surface => surface

/-- The texel format when it is fixed and programs may write it. -/
def storage? : FormatPolicy → Option PixelFormat
  | .fixed format => if format.storageName?.isSome then some format else none
  | .surface => none

/-- Inspection text. -/
def describe : FormatPolicy → String
  | .fixed format => s!"Fixed({format.describe})"
  | .surface => "Surface"

end FormatPolicy

end FrameGraph
