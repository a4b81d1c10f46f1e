import FrameGraph.Argument
import FrameGraph.Grid.Scale

/-! # Thread grids

A kernel names one source for its grid. Planning fixes the number of axes, the workgroup and whether
the kernel must turn threads outside the grid away; the extent itself is computed from the source every
frame, since most sources may change size.
-/

namespace FrameGraph

/-- What the device can do. -/
structure DeviceCaps where
  /-- It launches grids that are no multiple of the workgroup. -/
  exactDispatch : Bool := false
deriving DecidableEq, Repr

/-- Why a grid cannot be planned. -/
inductive GridError where
  | missing (function : String)
  | duplicate (function : String)
  | unknownArgument (function argument expected : String)
  | badDimensions (function : String) (dims : Nat)
  | badScale (function : String)
deriving DecidableEq, Repr

def GridError.message : GridError → String
  | .missing function => s!"`{function}` has no grid fit"
  | .duplicate function => s!"`{function}` sets its grid fit more than once"
  | .unknownArgument function argument expected =>
    s!"grid fit of `{function}` names `{argument}`, which is not a {expected} argument"
  | .badDimensions function dims =>
    s!"dynamic grid of `{function}` must have 1 to 3 dimensions, got {dims}"
  | .badScale function => s!"grid scale of `{function}` must be positive and finite"

/-- A grid size that is evaluated every frame. -/
inductive GridSize where
  | constant (size : Axes)
  | shared (name : String)
deriving DecidableEq, Repr

def GridSize.sample (values : Shared) : GridSize → Axes
  | .constant size => size
  | .shared name => values.gridSize name

/-- Where a kernel's grid comes from, as the caller says it. -/
inductive GridSource where
  | fixed (extent : Extent)
  | dynamic (dims : Nat) (size : GridSize)
  /-- The extent of the texture that this argument binds. -/
  | texture (argument : String)
  /-- The element count of the buffer that this argument binds. -/
  | buffer (argument : String)
  | surface
deriving DecidableEq, Repr

def GridSource.describe : GridSource → String
  | .fixed extent => s!"Fixed({extent.describe})"
  | .dynamic dims _ => s!"Dynamic \x7b dims: {dims} \x7d"
  | .texture argument => "Texture(" ++ Text.quoted argument ++ ")"
  | .buffer argument => "Buffer(" ++ Text.quoted argument ++ ")"
  | .surface => "Surface"

/-- The number of axes of a grid. -/
inductive GridDims where
  | one | two | three
deriving DecidableEq, Repr

namespace GridDims

def ofCount? : Nat → Option GridDims
  | 1 => some .one
  | 2 => some .two
  | 3 => some .three
  | _ => none

def count : GridDims → Nat
  | .one => 1
  | .two => 2
  | .three => 3

/-- The shader type of the grid's extent. -/
def typeName : GridDims → String
  | .one => "u32"
  | .two => "vec2<u32>"
  | .three => "vec3<u32>"

def defaultWorkgroup : GridDims → Axes
  | .one => ⟨64, 1, 1⟩
  | .two => ⟨8, 8, 1⟩
  | .three => ⟨4, 4, 4⟩

/-- The fewest axes that hold the extent. -/
def ofExtent (extent : Extent) : GridDims :=
  if extent.depth > 1 then .three else if extent.height > 1 then .two else .one

end GridDims

/-- A grid source whose arguments are resolved. -/
inductive PlannedSource where
  | fixed (extent : Extent)
  | dynamic (size : GridSize)
  | texture (handle : TextureHandle)
  | buffer (handle : BufferHandle)
  | surface
deriving DecidableEq, Repr

def PlannedSource.describe : PlannedSource → String
  | .fixed extent => s!"Fixed({extent.describe})"
  | .dynamic _ => "Dynamic"
  | .texture handle => s!"Texture({handle.describe})"
  | .buffer handle => s!"Buffer({handle.describe})"
  | .surface => "Surface"

structure GridPlan where
  dims : GridDims
  source : PlannedSource
  scale : Scale
  workgroup : Axes
  /-- The kernel turns threads outside the grid away. -/
  boundsCheck : Bool
  /-- The device is given thread counts instead of group counts. -/
  exactThreads : Bool

namespace GridPlan

/-- The scaled source extent; axes beyond the grid's are one. -/
def extent (plan : GridPlan) (source : Extent) : Axes where
  x := scaleAxis source.width plan.scale.x
  y := if 1 < plan.dims.count then scaleAxis source.height plan.scale.y else 1
  z := if 2 < plan.dims.count then scaleAxis source.depth plan.scale.z else 1

/-- Workgroups that cover a grid. -/
def workgroups (plan : GridPlan) (grid : Axes) : Axes where
  x := groupsToCover grid.x plan.workgroup.x
  y := groupsToCover grid.y plan.workgroup.y
  z := groupsToCover grid.z plan.workgroup.z

/-- The grid's extent as a uniform block of sixteen bytes. -/
def extentBytes (grid : Axes) : List UInt8 :=
  [grid.x, grid.y, grid.z, 0].flatMap fun axis => wordBytes 4 axis.toUInt32

/-- The first argument of this name, seen through `pick`. -/
def findArgument {α : Type} (arguments : List Argument) (name : String)
    (pick : ArgumentKind → Option α) : Option α :=
  (arguments.find? (·.name == name)).bind fun argument => pick argument.kind

/-- The number of axes and the resolved source of one fit. -/
def resolveSource (function : String) (fit : GridSource) (scale : Scale) (arguments : List Argument)
    (table : ResourceTable) : Except GridError (GridDims × PlannedSource) :=
  match fit with
  | .fixed extent => .ok (.ofExtent extent, .fixed extent)
  | .dynamic dims size =>
    match GridDims.ofCount? dims with
    | some dims => .ok (dims, .dynamic size)
    | none => .error (.badDimensions function dims)
  | .texture argument =>
    match findArgument arguments argument ArgumentKind.texture? with
    | none => .error (.unknownArgument function argument "texture")
    | some handle =>
      let dims := match (table.texture? handle).map (·.dimension) with
        | some .d1 => GridDims.one
        | some .d3 => .three
        | _ => .two
      .ok (dims, .texture handle)
  | .buffer argument =>
    match findArgument arguments argument ArgumentKind.buffer? with
    | none => .error (.unknownArgument function argument "buffer")
    | some handle =>
      let dims := if scale.z > Single.one then GridDims.three else if scale.y > Single.one then .two else .one
      .ok (dims, .buffer handle)
  | .surface => .ok (.two, .surface)

/-- The plan of a kernel with exactly one fit and a valid scale. -/
def resolve (function : String) (fits : List GridSource) (scale : Scale) (arguments : List Argument)
    (table : ResourceTable) (caps : DeviceCaps) : Except GridError GridPlan :=
  match fits with
  | [] => .error (.missing function)
  | [fit] =>
    if scale.isValid then do
      let (dims, source) ← resolveSource function fit scale arguments table
      return {
        dims, source, scale
        workgroup := dims.defaultWorkgroup
        boundsCheck := !caps.exactDispatch
        exactThreads := caps.exactDispatch }
    else .error (.badScale function)
  | _ => .error (.duplicate function)

end GridPlan

/-- The prologue that turns threads outside the grid away. -/
def boundsCheckText (dims : GridDims) (gid grid : String) : String :=
  let condition := match dims with
    | .one => s!"{gid}.x >= {grid}"
    | .two => s!"{gid}.x >= {grid}.x || {gid}.y >= {grid}.y"
    | .three => s!"{gid}.x >= {grid}.x || {gid}.y >= {grid}.y || {gid}.z >= {grid}.z"
  s!"\n    if ({condition}) \x7b return; \x7d"

end FrameGraph
