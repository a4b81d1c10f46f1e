import FrameGraph.Yaml.Cursor

/-! # Gaps

What separates two words of a scalar. Line breaks are folded: a single one counts as a space, and of
several the first does not count. The line and paragraph separators are kept as they are.
-/

namespace FrameGraph.Yaml

/-- What a line break counts as. -/
def keptBreak (c : Char) : Char := if c == '\u2028' || c == '\u2029' then c else '\n'

structure Gap where
  /-- Blanks before the first line break, last character first. -/
  blanks : List Char := []
  /-- A line has ended. -/
  ended : Bool := false
  /-- The first line break, unless it is taken back. -/
  first : Option Char := none
  /-- The line breaks after it, last one first. -/
  more : List Char := []

namespace Gap

def isEmpty (gap : Gap) : Bool := gap.blanks.isEmpty && !gap.ended

/-- One more blank; the blanks around line breaks do not count. -/
def blank (gap : Gap) (c : Char) : Gap :=
  if gap.ended then gap else { gap with blanks := c :: gap.blanks }

/-- One more line break. -/
def lineBreak (gap : Gap) (c : Char) : Gap :=
  if gap.ended then { gap with more := keptBreak c :: gap.more }
  else { ended := true, first := some (keptBreak c) }

/-- A line break that is taken back. -/
def joint : Gap := { ended := true }

/-- The text of a gap, last character first. -/
def text (gap : Gap) : List Char :=
  if !gap.ended then gap.blanks
  else match gap.first with
    | some '\n' => if gap.more.isEmpty then [' '] else gap.more
    | some c => gap.more ++ [c]
    | none => gap.more

end Gap

end FrameGraph.Yaml
