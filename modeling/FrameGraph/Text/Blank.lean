/-! # Blank characters

Two classes of blanks: the five that separate words of a program, and every character with the
white-space property, which decides where a text is trimmed.
-/

namespace FrameGraph.Text

/-- Space, tab, line feed, form feed and carriage return. -/
def isSeparator (c : Char) : Bool :=
  c == ' ' || c == '\t' || c == '\n' || c == '\x0c' || c == '\r'

/-- Characters with the white-space property. -/
def isBlank (c : Char) : Bool :=
  let n := c.toNat
  (0x9 ≤ n && n ≤ 0xD) || n == 0x20 || n == 0x85 || n == 0xA0 || n == 0x1680 ||
    (0x2000 ≤ n && n ≤ 0x200A) || n == 0x2028 || n == 0x2029 || n == 0x202F || n == 0x205F ||
    n == 0x3000

def trimStart (text : List Char) : List Char := text.dropWhile isBlank

def trimEnd (text : List Char) : List Char := (text.reverse.dropWhile isBlank).reverse

/-- Drop blanks at both ends. -/
def trim (text : List Char) : List Char := trimEnd (trimStart text)

/-- Maximal runs without blanks; `run` is the run in progress, last character first. -/
def blankSeparated (run : List Char) : List Char → List (List Char)
  | [] => if run.isEmpty then [] else [run.reverse]
  | c :: rest =>
    if isBlank c then
      if run.isEmpty then blankSeparated [] rest else run.reverse :: blankSeparated [] rest
    else blankSeparated (c :: run) rest

/-- Parts between occurrences of a separator; `part` is the part in progress, last character first. -/
def splitOn (separator : Char) (part : List Char) : List Char → List (List Char)
  | [] => [part.reverse]
  | c :: rest =>
    if c = separator then part.reverse :: splitOn separator [] rest
    else splitOn separator (c :: part) rest

/-- The text after the first occurrence of `needle`. -/
def afterFirst? (needle : List Char) : List Char → Option (List Char)
  | [] => if needle.isEmpty then some [] else none
  | c :: rest =>
    if needle.isPrefixOf (c :: rest) then some ((c :: rest).drop needle.length)
    else afterFirst? needle rest

/-- A decimal number below `bound`, with at most one plus sign in front. -/
def decimalBelow? (bound : Nat) (text : List Char) : Option Nat :=
  let digits := match text with
    | '+' :: rest => rest
    | other => other
  if digits.isEmpty || !digits.all Char.isDigit then none
  else
    let value := digits.foldl (fun n c => n * 10 + (c.toNat - '0'.toNat)) 0
    if value < bound then some value else none

/-- Number of bytes in UTF-8. -/
def utf8Size : List Char → Nat
  | [] => 0
  | c :: rest => c.utf8Size + utf8Size rest

end FrameGraph.Text
