import FrameGraph.Yaml.Token

/-! # Rows of tokens

The tokens read so far, with what decides how the text goes on: the columns of the open blocks, and where
a key may have started. A key without a question mark is known by the colon behind it only, so its token is
put in afterwards.
-/

namespace FrameGraph.Yaml

/-- A place where a key may have started. -/
structure KeyPlace where
  /-- How many tokens precede. -/
  tokens : Nat
  cursor : Cursor
  /-- Only a key can stand here. -/
  required : Bool

structure TokenRow where
  cursor : Cursor
  /-- The last token comes first. -/
  tokens : List Token := []
  /-- The columns of the open blocks, innermost first. -/
  columns : List Nat := []
  key : Option KeyPlace := none
  /-- The same outside of each bracket that is open, innermost first. -/
  outerKeys : List (Option KeyPlace) := []
  /-- A key may start here. -/
  keyAllowed : Bool := true

namespace TokenRow

/-- A bracket is open. -/
def flow (row : TokenRow) : Bool := !row.outerKeys.isEmpty

/-- The column where a line inside the innermost block starts at the earliest. -/
def least (row : TokenRow) : Nat :=
  match row.columns with
  | [] => 0
  | column :: _ => column + 1

/-- The key is too long, or not on one line with the cursor. -/
def isStale (row : TokenRow) (key : KeyPlace) : Bool :=
  key.cursor.line < row.cursor.line || key.cursor.offset + 1024 < row.cursor.offset

end TokenRow

/-- Reads a part of the text, or fails on text without meaning. -/
abbrev Reader := StateT TokenRow Option

namespace Reader

def cursor : Reader Cursor := return (← get).cursor

/-- Go on where `rest` is left. -/
def goOn (rest : List Char) : Reader Unit :=
  modify fun row => { row with cursor := row.cursor.moveTo rest }

/-- Go over `count` characters of the line. -/
def skip (count : Nat) : Reader Unit := do goOn ((← cursor).rest.drop count)

def emit (token : Token) : Reader Unit := modify fun row => { row with tokens := token :: row.tokens }

/-- Put tokens, the last one first, behind the first `place` ones. -/
def insertTokens (place : Nat) (tokens : List Token) : Reader Unit :=
  modify fun row =>
    let later := row.tokens.length - place
    { row with tokens := row.tokens.take later ++ tokens ++ row.tokens.drop later }

def allowKey (allowed : Bool) : Reader Unit := modify fun row => { row with keyAllowed := allowed }

/-- A block starts at `column` unless the innermost one does so already. -/
def opensBlock (column : Nat) : Reader Bool := do
  let row ← get
  if row.flow || column < row.least then return false
  set { row with columns := column :: row.columns }
  return true

/-- Close the blocks that start right of `least`. -/
def closeBlocks (least : Nat) : Reader Unit := do
  let row ← get
  if !row.flow then
    let closed := row.columns.takeWhile (least ≤ ·)
    set { row with
      columns := row.columns.drop closed.length
      tokens := List.replicate closed.length Token.blockEnd ++ row.tokens }

/-- No key started where one may have started. -/
def dropKey : Reader Unit := do
  let row ← get
  if row.key.any (·.required) then failure
  set { row with key := none }

/-- A key may start here. -/
def markKey : Reader Unit := do
  let row ← get
  if row.keyAllowed then
    dropKey
    let required := !row.flow && row.columns.head? == some row.cursor.column
    modify fun row =>
      { row with key := some { tokens := row.tokens.length, cursor := row.cursor, required } }

/-- No key started where it would be stale now. -/
def dropStaleKeys : Reader Unit := do
  let row ← get
  let keep (key : Option KeyPlace) : Option KeyPlace := key.filter (!row.isStale ·)
  if (row.key :: row.outerKeys).any (·.any fun key => key.required && row.isStale key) then failure
  set { row with key := keep row.key, outerKeys := row.outerKeys.map keep }

end Reader

end FrameGraph.Yaml
