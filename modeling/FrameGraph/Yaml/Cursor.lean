/-! # Positions in a text that is read by columns

A cursor is the text that is left together with the place where it starts. Columns tell how deep a line
of a block is nested; lines and offsets tell whether a key is still short enough.
-/

namespace FrameGraph.Yaml

/-- Characters that end a line. -/
def isBreak (c : Char) : Bool :=
  c == '\n' || c == '\r' || c == '\u0085' || c == '\u2028' || c == '\u2029'

/-- Characters that separate words of a line. -/
def isSpace (c : Char) : Bool := c == ' ' || c == '\t'

/-- Letters and digits of a name. -/
def isNameChar (c : Char) : Bool := c.isAlphanum || c == '_' || c == '-'

/-- No word goes on with `next`, the character that follows if there is one. -/
def endsWord (next : Option Char) : Bool :=
  match next with
  | some c => isSpace c || isBreak c
  | none => true

/-- Characters that a text may hold. -/
def isReadable (c : Char) : Bool :=
  let n := c.toNat
  n == 0x9 || n == 0xA || n == 0xD || (0x20 ≤ n && n ≤ 0x7E) || n == 0x85 ||
    (0xA0 ≤ n && n ≤ 0xFFFD) || 0x10000 ≤ n

/-- At the start of a line `mark`, written three times, separates documents. -/
def isDocumentMark (mark : Char) : List Char → Bool
  | a :: b :: c :: rest => a == mark && b == mark && c == mark && endsWord rest.head?
  | _ => false

/-- A mark at the start or at the end of a document. -/
def startsDocumentMark (line : List Char) : Bool := isDocumentMark '-' line || isDocumentMark '.' line

structure Cursor where
  rest : List Char
  line : Nat := 0
  column : Nat := 0
  /-- How many characters stand in front. -/
  offset : Nat := 0
deriving DecidableEq, Repr

namespace Cursor

/-- The cursor after one character. -/
def pass (cursor : Cursor) (c : Char) : Cursor :=
  if isBreak c then { cursor with line := cursor.line + 1, column := 0, offset := cursor.offset + 1 }
  else { cursor with column := cursor.column + 1, offset := cursor.offset + 1 }

/-- The later cursor that has `rest` left. -/
def moveTo (cursor : Cursor) (rest : List Char) : Cursor :=
  let passed := cursor.rest.take (cursor.rest.length - rest.length)
  { passed.foldl pass cursor with rest }

def next (cursor : Cursor) : Option Char := cursor.rest.head?

/-- The character after the next one. -/
def second (cursor : Cursor) : Option Char := cursor.rest.tail.head?

end Cursor

/-- The text after blanks, comments and line breaks, and whether a line has ended. Between brackets tabs
are blanks like spaces; in a block they are none at the start of a line, and elsewhere as `tabs` says. A
byte order mark may start a line. -/
def afterLayout (flow tabs lineStart comment ended : Bool) : List Char → List Char × Bool
  | [] => ([], ended)
  | c :: rest =>
    if isBreak c then afterLayout flow flow true false true rest
    else if comment then afterLayout flow tabs false true ended rest
    else if c == ' ' || (tabs && c == '\t') || (lineStart && c == '\ufeff') then
      afterLayout flow tabs false false ended rest
    else if c == '#' then afterLayout flow tabs false true ended rest
    else (c :: rest, ended)

/-- The text after what may stand behind the last word of a line: blanks, a comment and the line break. -/
def afterLine? (text : List Char) : Option (List Char) :=
  let text := text.dropWhile isSpace
  let text := if text.head? == some '#' then text.dropWhile (!isBreak ·) else text
  match text with
  | [] => some []
  | '\r' :: '\n' :: rest => some rest
  | c :: rest => if isBreak c then some rest else none

end FrameGraph.Yaml
