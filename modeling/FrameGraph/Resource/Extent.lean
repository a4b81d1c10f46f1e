import FrameGraph.Axes
import FrameGraph.Text.Blank

/-! # Extents and size policies

An extent has a width, a height and a depth or layer count. A size policy follows the display surface,
follows a fraction of it, or is fixed; what follows the surface is never empty.
-/

namespace FrameGraph

structure Extent where
  width : Nat
  height : Nat
  depth : Nat
deriving DecidableEq, Repr, Inhabited

namespace Extent

def flat (width height : Nat) : Extent := ⟨width, height, 1⟩

def axes (extent : Extent) : Axes := ⟨extent.width, extent.height, extent.depth⟩

def volume (extent : Extent) : Nat := extent.width * extent.height * extent.depth

/-- Inspection text. -/
def describe (extent : Extent) : String :=
  s!"Extent \x7b width: {extent.width}, height: {extent.height}, depth: {extent.depth} \x7d"

end Extent

/-- How width and height of a texture are chosen. -/
inductive SizePolicy where
  | viewport
  /-- The display surface divided by a number. -/
  | divided (divisor : Nat)
  | fixed (width height : Nat)
deriving DecidableEq, Repr

namespace SizePolicy

def followsSurface : SizePolicy → Bool
  | .fixed .. => false
  | _ => true

/-- Width and height at a surface; a divisor of zero counts as one. -/
def resolve (policy : SizePolicy) (surface : Extent) : Nat × Nat :=
  match policy with
  | .viewport => (max surface.width 1, max surface.height 1)
  | .divided divisor =>
    (max (surface.width / max divisor 1) 1, max (surface.height / max divisor 1) 1)
  | .fixed width height => (width, height)

/-- Numbers are 32-bit words. -/
def word? (text : List Char) : Option Nat := Text.decimalBelow? UInt32.size text

/-- Read `viewport`, `viewport/2` or `512x256`. -/
def ofText? (text : String) : Option SizePolicy :=
  let text := Text.trim text.toList
  if text = "viewport".toList then some .viewport
  else if "viewport/".toList.isPrefixOf text then
    match word? (text.drop "viewport/".length) with
    | some divisor => if divisor = 0 then none else some (.divided divisor)
    | none => none
  else do
    let height ← Text.afterFirst? ['x'] text
    return .fixed (← word? (text.takeWhile (· != 'x'))) (← word? height)

end SizePolicy

end FrameGraph
