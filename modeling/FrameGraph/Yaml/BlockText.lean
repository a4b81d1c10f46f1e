import FrameGraph.Yaml.Gap

/-! # Block scalars

A scalar that stands on lines of its own behind a mark. All its lines are indented alike; the mark tells
whether they are folded, how far they are indented and what becomes of the line breaks at the end.
-/

namespace FrameGraph.Yaml

/-- What becomes of the line breaks at the end of a block scalar. -/
inductive Chomping where
  | strip | clip | keep
deriving DecidableEq, Repr

def Chomping.ofMark? : Char → Option Chomping
  | '-' => some .strip
  | '+' => some .keep
  | _ => none

/-- What stands behind the mark of a block scalar: its end, and how far its lines are indented if that is
said. The two may stand in either order. -/
def blockHeader? (text : List Char) : Option (Chomping × Nat × List Char) :=
  let chomping? (text : List Char) : Chomping × List Char :=
    match text.head?.bind Chomping.ofMark? with
    | some chomping => (chomping, text.drop 1)
    | none => (.clip, text)
  let (before, text) := chomping? text
  match text with
  | [] => some (before, 0, [])
  | c :: rest =>
    if !c.isDigit then some (before, 0, c :: rest)
    else if c == '0' then none
    else
      let step := c.toNat - '0'.toNat
      if before ≠ .clip then some (before, step, rest)
      else
        let (behind, rest) := chomping? rest
        some (behind, step, rest)

/-- The empty lines in front of a line of a block scalar: their breaks, the column where the line goes on
after its indentation, and the greatest column that an indentation reached. -/
structure EmptyLines where
  breaks : List Char
  column : Nat
  widest : Nat
  rest : List Char

/-- Go over empty lines and the indentation behind them. Lines are indented to the column `indent`, or as
far as spaces go where it is nought; no tab may stand in the indentation. -/
def emptyLines (indent : Nat) (breaks : List Char) (widest column : Nat) : List Char → Option EmptyLines
  | [] => some ⟨breaks, column, max widest column, []⟩
  | '\r' :: '\n' :: rest => emptyLines indent (breaks ++ ['\n']) (max widest column) 0 rest
  | c :: rest =>
    let indents := indent = 0 || column < indent
    if c == ' ' && indents then emptyLines indent breaks widest (column + 1) rest
    else if c == '\t' && indents then none
    else if isBreak c then emptyLines indent (breaks ++ [keptBreak c]) (max widest column) 0 rest
    else some ⟨breaks, column, max widest column, c :: rest⟩

/-- A block scalar in the making. -/
structure BlockText where
  text : List Char := []
  /-- The break of the last line. -/
  ending : Option Char := none
  /-- The last line started with a blank. -/
  startedBlank : Bool := false
  /-- The breaks of the empty lines since then. -/
  breaks : List Char := []

namespace BlockText

/-- What separates the lines so far from the next one; lines that start with a blank are not folded. -/
def joint (block : BlockText) (literal startsBlank : Bool) : List Char :=
  if !literal && block.ending == some '\n' && !block.startedBlank && !startsBlank then
    if block.breaks.isEmpty then [' '] else []
  else block.ending.toList

def addLine (block : BlockText) (literal : Bool) (line : List Char) (ending : Option Char)
    (breaks : List Char) : BlockText :=
  let startsBlank := line.head?.any isSpace
  { text := block.text ++ block.joint literal startsBlank ++ block.breaks ++ line
    ending, startedBlank := startsBlank, breaks }

def finish (block : BlockText) (chomping : Chomping) : List Char :=
  block.text ++ (if chomping ≠ .strip then block.ending.toList else []) ++
    (if chomping = .keep then block.breaks else [])

end BlockText

/-- The break at the start of a text, and the text after it. -/
def splitBreak : List Char → Option Char × List Char
  | '\r' :: '\n' :: rest => (some '\n', rest)
  | c :: rest => if isBreak c then (some (keptBreak c), rest) else (none, c :: rest)
  | [] => (none, [])

/-- The lines of a block scalar, which go on at column `indent`, and the text after them. -/
def blockLines (fuel : Nat) (literal : Bool) (indent : Nat) (block : BlockText) (column : Nat)
    (text : List Char) : Option (BlockText × List Char) :=
  match fuel with
  | 0 => none
  | fuel + 1 =>
    if column ≠ indent || text.isEmpty then some (block, text)
    else do
      let line := text.takeWhile (!isBreak ·)
      let (ending, rest) := splitBreak (text.drop line.length)
      let gap ← emptyLines indent [] 0 0 rest
      blockLines fuel literal indent (block.addLine literal line ending gap.breaks) gap.column gap.rest

/-- The block scalar behind a mark; its lines start at column `least` at the earliest. -/
def blockText? (literal : Bool) (least : Nat) (text : List Char) : Option (List Char × List Char) := do
  let (chomping, step, text) ← blockHeader? text
  let text ← afterLine? text
  let said := if step = 0 then 0 else least - 1 + step
  let gap ← emptyLines said [] 0 0 text
  let indent := if step = 0 then max gap.widest (max least 1) else said
  let (block, rest) ← blockLines (text.length + 1) literal indent { breaks := gap.breaks } gap.column gap.rest
  return (block.finish chomping, rest)

end FrameGraph.Yaml
