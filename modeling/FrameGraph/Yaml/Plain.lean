import FrameGraph.Yaml.Gap

/-! # Plain scalars

A scalar without quotes may take in the next lines. It ends in front of a comment, of a colon that ends a
word, of a line that starts too far left and, between brackets, of a mark.
-/

namespace FrameGraph.Yaml

/-- Characters with a meaning of their own between brackets. -/
def isFlowMark (c : Char) : Bool := c == ',' || c == '[' || c == ']' || c == '\x7b' || c == '\x7d'

/-- A plain scalar may start here. -/
def startsPlain (flow : Bool) : List Char → Bool
  | [] => false
  | c :: rest =>
    if c == '-' then !endsWord rest.head?
    else if c == '?' || c == ':' then !flow && !endsWord rest.head?
    else !(isSpace c || isBreak c || isFlowMark c || "#&*!|>'\"%@\x60".toList.contains c)

/-- A scalar, the text after it, and whether a line has ended in front of that. -/
structure PlainText where
  text : List Char
  ended : Bool
  rest : List Char

/-- After a gap a scalar does not go on with these characters; they start in this column. -/
def stopsPlain (flow : Bool) (least column : Nat) (text : List Char) : Bool :=
  text.head? == some '#' || (!flow && column < least) || (column = 0 && startsDocumentMark text)

/-- The rest of a plain scalar whose next lines start at column `least` at the earliest. `done` is the
text so far, last character first. A tab must not indent a line that far, and between brackets a colon
right in front of a mark has no meaning. -/
def plainText (flow : Bool) (least : Nat) (done : List Char) (gap : Gap) (column : Nat) :
    List Char → Option PlainText
  | [] => some ⟨done.reverse, gap.ended, []⟩
  | '\r' :: '\n' :: rest => plainText flow least done (gap.lineBreak '\n') 0 rest
  | c :: rest =>
    let here := some ⟨done.reverse, gap.ended, c :: rest⟩
    if isBreak c then plainText flow least done (gap.lineBreak c) 0 rest
    else if isSpace c then
      if c == '\t' && gap.ended && column < least then none
      else plainText flow least done (gap.blank c) (column + 1) rest
    else if !gap.isEmpty && stopsPlain flow least column (c :: rest) then here
    else if flow && c == ':' && rest.head?.any (fun next => isFlowMark next || next == '?') then none
    else if (c == ':' && endsWord rest.head?) || (flow && isFlowMark c) then here
    else plainText flow least (c :: (gap.text ++ done)) {} (column + 1) rest

end FrameGraph.Yaml
