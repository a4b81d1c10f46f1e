import FrameGraph.Resource.Extent
import FrameGraph.Resource.Format

/-! # The display surface -/

namespace FrameGraph

/-- Size and format of the display surface. -/
structure Surface where
  extent : Extent
  format : PixelFormat
deriving DecidableEq, Repr

/-- A surface of a window; no axis is empty. -/
def Surface.ofSize (width height : Nat) (format : PixelFormat) : Surface :=
  ⟨.flat (max width 1) (max height 1), format⟩

/-- Width and height, as log lines show them. -/
def Surface.sizeText (surface : Surface) : String :=
  s!"{surface.extent.width}x{surface.extent.height}"

end FrameGraph
