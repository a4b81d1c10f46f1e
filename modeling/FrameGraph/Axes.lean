/-! # Triples of axis lengths -/

namespace FrameGraph

/-- Lengths along three axes: of a thread grid, a workgroup or a launch. -/
structure Axes where
  x : Nat
  y : Nat
  z : Nat
deriving DecidableEq, Repr, Inhabited

namespace Axes

def toList (axes : Axes) : List Nat := [axes.x, axes.y, axes.z]

/-- Some axis is empty. -/
def hasZero (axes : Axes) : Bool := axes.x == 0 || axes.y == 0 || axes.z == 0

end Axes

/-- The number of groups of `size` that cover `length`; an empty group counts as one. -/
def groupsToCover (length size : Nat) : Nat :=
  let size := max size 1
  (length + size - 1) / size

end FrameGraph
