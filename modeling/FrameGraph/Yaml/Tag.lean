import FrameGraph.Text.Hex
import FrameGraph.Yaml.Cursor

/-! # Tags

A tag says what a node means. It is written out between angle brackets, or as a handle and the rest of the
tag; a line in front of the document says what a handle stands for. A tag is a row of bytes, since any byte
may be written with a percent sign.
-/

namespace FrameGraph.Yaml

abbrev Bytes := List UInt8

def bytesOf (text : List Char) : Bytes := text.flatMap fun c => (String.singleton c).toUTF8.toList

/-- What a handle stands for unless a document says otherwise. -/
def handles : List (List Char × Bytes) :=
  [("!".toList, bytesOf "!".toList), ("!!".toList, bytesOf "tag:yaml.org,2002:".toList)]

/-- Characters of a tag; three more of them may stand where the tag is not between brackets itself. -/
def isTagChar (verbatim : Bool) (c : Char) : Bool :=
  isNameChar c || ";/?:@&=+$.%!~*'()".toList.contains c || (verbatim && ",[]".toList.contains c)

/-- How many bytes follow the first byte of a character. -/
def bytesAfter? (first : Nat) : Option Nat :=
  if first < 0x80 then some 0
  else if 0xC0 ≤ first ∧ first < 0xE0 then some 1
  else if 0xE0 ≤ first ∧ first < 0xF0 then some 2
  else if 0xF0 ≤ first ∧ first < 0xF8 then some 3
  else none

/-- The characters of a tag at the start of a text, and the text after them. `missing` bytes of a
character are still to come. -/
def tagBytes (verbatim : Bool) (fuel missing : Nat) (done : Bytes) (text : List Char) :
    Option (Bytes × List Char) :=
  match fuel, text with
  | fuel + 1, '%' :: high :: low :: rest => do
    let byte := 16 * (← Text.hexValue? high) + (← Text.hexValue? low)
    let missing ← match missing with
      | 0 => bytesAfter? byte
      | more + 1 => if 0x80 ≤ byte ∧ byte < 0xC0 then some more else none
    tagBytes verbatim fuel missing (byte.toUInt8 :: done) rest
  | fuel + 1, c :: rest =>
    if missing ≠ 0 || c == '%' then none
    else if isTagChar verbatim c then tagBytes verbatim fuel 0 (bytesOf [c] ++ done) rest
    else some (done.reverse, c :: rest)
  | _, rest => if missing = 0 then some (done.reverse, rest) else none

/-- The part of a tag at the start of a text, which must not be empty behind `written` characters; no byte
behind a zero byte counts. -/
def tagPart? (verbatim : Bool) (written : List Char) (text : List Char) : Option (Bytes × List Char) := do
  let (bytes, rest) ← tagBytes verbatim (text.length + 1) 0 [] text
  if written.isEmpty && bytes.isEmpty then none
  return ((bytesOf (written.drop 1) ++ bytes).takeWhile (· ≠ 0), rest)

/-- A handle at the start of a text: an exclamation mark, and more up to a second one. -/
def tagHandle? : List Char → Option (List Char × List Char)
  | '!' :: rest =>
    let name := rest.takeWhile isNameChar
    match rest.drop name.length with
    | '!' :: after => some ('!' :: name ++ ['!'], after)
    | after => some ('!' :: name, after)
  | _ => none

/-- A tag as it stands in front of a node. -/
structure Tag where
  /-- Nothing if the tag is written out. -/
  handle : Option (List Char)
  rest : Bytes
deriving DecidableEq, Repr

/-- The tag at the start of a text, and the text after it. -/
def tag? (flow : Bool) (text : List Char) : Option (Tag × List Char) := do
  let (tag, rest) ← match text with
    | '!' :: '<' :: rest => do
      let (bytes, rest) ← tagPart? true [] rest
      if rest.head? ≠ some '>' then none
      some (({ handle := none, rest := bytes } : Tag), rest.drop 1)
    | text => do
      let (handle, rest) ← tagHandle? text
      if handle.length ≠ 1 && handle.getLast? == some '!' then
        let (bytes, rest) ← tagPart? false [] rest
        some (({ handle := some handle, rest := bytes } : Tag), rest)
      else
        let (bytes, rest) ← tagPart? false handle rest
        if bytes.isEmpty then some (({ handle := none, rest := bytesOf ['!'] } : Tag), rest)
        else some (({ handle := some ['!'], rest := bytes } : Tag), rest)
  if !(endsWord rest.head? || (flow && rest.head? == some ',')) then none
  return (tag, rest)

end FrameGraph.Yaml
