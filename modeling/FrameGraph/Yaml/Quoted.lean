import FrameGraph.Text.Hex
import FrameGraph.Yaml.Gap

/-! # Quoted scalars

A text in single quotes, where a quote is written twice, or in double quotes, where a backslash starts an
escape. A mark that separates documents must not stand inside.
-/

namespace FrameGraph.Yaml

/-- The rest of a text in single quotes, and the text after it. `done` is the text so far, last character
first. -/
def singleQuoted (done : List Char) (gap : Gap) (lineStart : Bool) :
    List Char → Option (List Char × List Char)
  | [] => none
  | '\'' :: '\'' :: rest => singleQuoted ('\'' :: (gap.text ++ done)) {} false rest
  | '\'' :: rest => some ((gap.text ++ done).reverse, rest)
  | '\r' :: '\n' :: rest => singleQuoted done (gap.lineBreak '\n') true rest
  | c :: rest =>
    if isBreak c then singleQuoted done (gap.lineBreak c) true rest
    else if isSpace c then singleQuoted done (gap.blank c) false rest
    else if lineStart && startsDocumentMark (c :: rest) then none
    else singleQuoted (c :: (gap.text ++ done)) {} false rest

/-- The characters that stand for themselves or for another one after a backslash. -/
def escapes : List (Char × Char) :=
  [('0', '\x00'), ('a', '\x07'), ('b', '\x08'), ('t', '\t'), ('\t', '\t'), ('n', '\n'), ('v', '\x0b'),
    ('f', '\x0c'), ('r', '\r'), ('e', '\x1b'), (' ', ' '), ('"', '"'), ('/', '/'), ('\\', '\\'),
    ('N', '\u0085'), ('_', '\u00a0'), ('L', '\u2028'), ('P', '\u2029')]

/-- How many digits name a character after a backslash and this mark. -/
def escapeDigits (mark : Char) : Option Nat := [('x', 2), ('u', 4), ('U', 8)].lookup mark

/-- The number that digits of a base write. -/
def number? (base : Nat) (digits : List Char) : Option Nat :=
  if digits.isEmpty then none
  else digits.foldlM (fun n c => do
    let digit ← Text.hexValue? c
    if digit < base then some (n * base + digit) else none) 0

/-- The character of a code point. -/
def character? (code : Nat) : Option Char :=
  if code.isValidChar then some (Char.ofNat code) else none

/-- The rest of a text in double quotes; `fuel` bounds its length. -/
def doubleQuoted (fuel : Nat) (done : List Char) (gap : Gap) (lineStart : Bool) (text : List Char) :
    Option (List Char × List Char) :=
  match fuel, text with
  | 0, _ => none
  | _, [] => none
  | _ + 1, '"' :: rest => some ((gap.text ++ done).reverse, rest)
  | fuel + 1, '\\' :: '\r' :: '\n' :: rest => doubleQuoted fuel (gap.text ++ done) .joint true rest
  | fuel + 1, '\\' :: mark :: rest =>
    if isBreak mark then doubleQuoted fuel (gap.text ++ done) .joint true rest
    else match escapeDigits mark with
      | some count => do
        if rest.length < count then none
        let c ← character? (← number? 16 (rest.take count))
        doubleQuoted fuel (c :: (gap.text ++ done)) {} false (rest.drop count)
      | none => do
        let c ← escapes.lookup mark
        doubleQuoted fuel (c :: (gap.text ++ done)) {} false rest
  | fuel + 1, '\r' :: '\n' :: rest => doubleQuoted fuel done (gap.lineBreak '\n') true rest
  | fuel + 1, c :: rest =>
    if isBreak c then doubleQuoted fuel done (gap.lineBreak c) true rest
    else if isSpace c then doubleQuoted fuel done (gap.blank c) false rest
    else if lineStart && startsDocumentMark (c :: rest) then none
    else doubleQuoted fuel (c :: (gap.text ++ done)) {} false rest

/-- A text in quotes at the start of a text, and the text after it. -/
def quoted? : List Char → Option (List Char × List Char)
  | '\'' :: rest => singleQuoted [] {} false rest
  | '"' :: rest => doubleQuoted (rest.length + 1) [] {} false rest
  | _ => none

end FrameGraph.Yaml
