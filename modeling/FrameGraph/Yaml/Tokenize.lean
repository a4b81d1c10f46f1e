import FrameGraph.Yaml.BlockText
import FrameGraph.Yaml.Plain
import FrameGraph.Yaml.Quoted
import FrameGraph.Yaml.TokenRow

/-! # Reading tokens

A text is read token by token. Brackets switch to a mode where columns do not count.
-/

namespace FrameGraph.Yaml

/-- A number of at most nine digits at the start of a text, and the text after it. -/
def versionNumber? (text : List Char) : Option (Nat × List Char) := do
  let digits := text.takeWhile Char.isDigit
  if 9 < digits.length then none
  return (← number? 10 digits, text.drop digits.length)

/-- The line behind a percent sign, and the text after it. -/
def directive? (text : List Char) : Option (Token × List Char) := do
  let name := text.takeWhile isNameChar
  let text := text.drop name.length
  if !endsWord text.head? then none
  let text := text.dropWhile isSpace
  let (token, text) ← if name = "YAML".toList then do
      let (major, text) ← versionNumber? text
      if text.head? ≠ some '.' then none
      let (minor, text) ← versionNumber? (text.drop 1)
      some (Token.version major minor, text)
    else if name = "TAG".toList then do
      let (handle, text) ← tagHandle? text
      if handle.length ≠ 1 && handle.getLast? ≠ some '!' then none
      if !text.head?.any isSpace then none
      let (meaning, text) ← tagPart? true [] (text.dropWhile isSpace)
      if !endsWord text.head? then none
      some (Token.handle handle meaning, text)
    else none
  return (token, ← afterLine? text)

namespace Reader

/-- A line that belongs to no block. -/
def outsideBlocks : Reader Unit := do
  closeBlocks 0
  dropKey
  allowKey false

def directive : Reader Unit := do
  outsideBlocks
  skip 1
  let (token, rest) ← directive? (← cursor).rest
  goOn rest
  emit token

def documentMark (token : Token) : Reader Unit := do
  outsideBlocks
  skip 3
  emit token

def openFlow (token : Token) : Reader Unit := do
  markKey
  modify fun row => { row with key := none, outerKeys := row.key :: row.outerKeys }
  allowKey true
  skip 1
  emit token

def closeFlow (token : Token) : Reader Unit := do
  dropKey
  modify fun row => match row.outerKeys with
    | [] => row
    | key :: outer => { row with key, outerKeys := outer }
  allowKey false
  skip 1
  emit token

def comma : Reader Unit := do
  dropKey
  allowKey true
  skip 1
  emit .comma

/-- A dash; in a block it may open a sequence. -/
def item : Reader Unit := do
  let row ← get
  if !row.flow then
    if !row.keyAllowed then failure
    if ← opensBlock row.cursor.column then emit .blockSequence
  dropKey
  allowKey true
  skip 1
  emit .item

/-- A key or a value behind a mark of its own; in a block it may open a mapping. -/
def openEntry : Reader Unit := do
  let row ← get
  if !row.flow then
    if !row.keyAllowed then failure
    if ← opensBlock row.cursor.column then emit .blockMapping

/-- A question mark. -/
def key : Reader Unit := do
  openEntry
  dropKey
  allowKey !(← get).flow
  skip 1
  emit .key

/-- A colon. If a key may have started before it, it did start. -/
def value : Reader Unit := do
  match (← get).key with
  | some place =>
    let opened ← opensBlock place.cursor.column
    insertTokens place.tokens (if opened then [.key, .blockMapping] else [.key])
    modify fun row => { row with key := none, keyAllowed := false }
  | none =>
    openEntry
    allowKey !(← get).flow
  skip 1
  emit .value

/-- A word that may be a key or stand in front of one. -/
def beginsWord : Reader Unit := do
  markKey
  allowKey false

/-- The name of a node behind its mark. -/
def nodeName (token : List Char → Token) : Reader Unit := do
  beginsWord
  skip 1
  let rest := (← cursor).rest
  let name := rest.takeWhile isNameChar
  goOn (rest.drop name.length)
  let next := (← cursor).next
  if name.isEmpty || !(endsWord next || next.any "?:,]\x7d%@\x60".toList.contains) then failure
  emit (token name)

def tag : Reader Unit := do
  beginsWord
  let (tag, rest) ← tag? (← get).flow (← cursor).rest
  goOn rest
  emit (.tag tag)

def blockScalar (style : Style) : Reader Unit := do
  dropKey
  allowKey true
  let row ← get
  let (text, rest) ← blockText? (style = .literal) row.least (row.cursor.rest.drop 1)
  goOn rest
  emit (.scalar (String.ofList text) style)

def quotedScalar : Reader Unit := do
  beginsWord
  let (text, rest) ← quoted? (← cursor).rest
  goOn rest
  emit (.scalar (String.ofList text) .quoted)

def plainScalar : Reader Unit := do
  beginsWord
  let row ← get
  let plain ← plainText row.flow row.least [] {} row.cursor.column row.cursor.rest
  goOn plain.rest
  if plain.ended then allowKey true
  emit (.scalar (String.ofList plain.text) .plain)

/-- Go on to the next token. -/
def layout : Reader Unit := do
  let row ← get
  let (rest, ended) := afterLayout row.flow (row.flow || !row.keyAllowed) (row.cursor.column = 0)
    false false row.cursor.rest
  goOn rest
  if ended && !row.flow then allowKey true

/-- Read the token that starts here. -/
def token : Reader Unit := do
  let row ← get
  let here := row.cursor
  let standsAlone := row.flow || endsWord here.second
  if here.column = 0 && here.next == some '%' then directive
  else if here.column = 0 && isDocumentMark '-' here.rest then documentMark .documentStart
  else if here.column = 0 && isDocumentMark '.' here.rest then documentMark .documentEnd
  else match here.next with
    | some '[' => openFlow .openBracket
    | some '\x7b' => openFlow .openBrace
    | some ']' => closeFlow .closeBracket
    | some '\x7d' => closeFlow .closeBrace
    | some ',' => comma
    | some '*' => nodeName .reference
    | some '&' => nodeName .name
    | some '!' => tag
    | some '\'' | some '"' => quotedScalar
    | next =>
      if next == some '-' && endsWord here.second then item
      else if next == some '?' && standsAlone then key
      else if next == some ':' && standsAlone then value
      else if next == some '|' && !row.flow then blockScalar .literal
      else if next == some '>' && !row.flow then blockScalar .folded
      else if startsPlain row.flow here.rest then plainScalar
      else failure

/-- Read tokens up to the end of the text; `fuel` bounds their number. -/
def tokens : Nat → Reader Unit
  | 0 => failure
  | fuel + 1 => do
    layout
    dropStaleKeys
    closeBlocks ((← cursor).column + 1)
    if (← cursor).rest.isEmpty then outsideBlocks
    else
      token
      tokens fuel

end Reader

/-- The tokens of a text. -/
def tokens? (text : List Char) : Option (List Token) := do
  if !text.all isReadable then none
  let (_, row) ← (Reader.tokens (text.length + 1)).run { cursor := { rest := text } }
  return row.tokens.reverse

end FrameGraph.Yaml
