import FrameGraph.Text.Bracket
import FrameGraph.Text.Stage

/-! # Entry points

An entry point is a stage mark at bracket depth zero whose header declares the name: `fn`, the name and
a parameter list, then a body. It is kept as the text cut into pieces, so an edit replaces pieces and
every offset is a sum of sizes. A header ends at its first `{` or `;`; a mark whose header does not
declare the name is passed over together with its body.
-/

namespace FrameGraph

open Text

/-- A text cut at one entry point:
`before lead name gap ( params ) trailer { body } after`, where `lead` starts with the stage mark. -/
structure EntryPoint where
  before : List Token
  lead : List Token
  name : List Char
  gap : List Token
  params : List Token
  trailer : List Token
  body : List Token
  after : List Token
deriving DecidableEq, Repr

namespace EntryPoint

/-- Everything from the stage mark up to the body. -/
def headerTokens (entry : EntryPoint) : List Token :=
  entry.lead ++ [.word entry.name] ++ entry.gap ++ [.char '('] ++ entry.params ++ [.char ')'] ++
    entry.trailer

/-- The tokens of the whole text. -/
def tokens (entry : EntryPoint) : List Token :=
  entry.before ++ entry.headerTokens ++ [.char '\x7b'] ++ entry.body ++ [.char '\x7d'] ++ entry.after

def header (entry : EntryPoint) : List Char := render entry.headerTokens

/-- The entry point without the text around it. -/
def extract (entry : EntryPoint) : EntryPoint := { entry with before := [], after := [] }

/-- The same entry point in a text with more tokens in front. -/
def prepend (front : List Token) (entry : EntryPoint) : EntryPoint :=
  { entry with before := front ++ entry.before }

/-- Byte offsets of the pieces. -/
structure Span where
  start : Nat
  nameStart : Nat
  nameEnd : Nat
  paramsOpen : Nat
  paramsClose : Nat
  bodyOpen : Nat
  bodyClose : Nat
deriving DecidableEq, Repr

def Span.stop (span : Span) : Nat := span.bodyClose + 1

/-- The offsets in the order of the text. -/
def Span.offsets (span : Span) : List Nat :=
  [span.start, span.nameStart, span.nameEnd, span.paramsOpen, span.paramsClose, span.bodyOpen, span.bodyClose]

/-- Each offset is the one before it plus the size of the piece between them. -/
def span (entry : EntryPoint) : Span :=
  let start := byteSize entry.before
  let nameStart := start + byteSize entry.lead
  let nameEnd := nameStart + utf8Size entry.name
  let paramsOpen := nameEnd + byteSize entry.gap
  let paramsClose := paramsOpen + 1 + byteSize entry.params
  let bodyOpen := paramsClose + 1 + byteSize entry.trailer
  { start, nameStart, nameEnd, paramsOpen, paramsClose, bodyOpen
    bodyClose := bodyOpen + 1 + byteSize entry.body }

end EntryPoint

namespace Text

/-- The header pieces seen before the parameter list. `previous` and `last` are the last two words
that still count; `gap` is what follows the last one. -/
structure HeaderScan where
  lead : List Token
  previous : Option (List Char)
  last : Option (List Char)
  gap : List Token
deriving DecidableEq, Repr

namespace HeaderScan

def start (mark : List Token) : HeaderScan := ⟨mark, none, none, []⟩

/-- Tokens of the header so far. -/
def seen (scan : HeaderScan) : List Token :=
  scan.lead ++ (match scan.last with
    | some word => .word word :: scan.gap
    | none => scan.gap)

/-- A word takes the place of the last one. -/
def word (scan : HeaderScan) (text : List Char) : HeaderScan :=
  ⟨scan.seen, scan.last, some text, []⟩

/-- A token that is neither a word nor a bracket. Separators, comments and `@` keep both words; any
other character makes the word before the last one forgotten. -/
def pass (scan : HeaderScan) (token : Token) : HeaderScan :=
  let keeps := match token with
    | .char c => isSeparator c || c == '@'
    | _ => true
  { scan with gap := scan.gap ++ [token], previous := if keeps then scan.previous else none }

/-- After a bracketed group no word counts. -/
def group (scan : HeaderScan) (inside : List Token) : HeaderScan :=
  ⟨scan.seen ++ .char '(' :: inside ++ [.char ')'], none, none, []⟩

/-- The words right before a parameter list declare `name`. -/
def declares (scan : HeaderScan) (name : String) : Bool :=
  scan.previous == some ['f', 'n'] && scan.last == some name.toList

end HeaderScan

/-- What a header turned out to be. -/
inductive Header where
  /-- It declares the name; the tokens in front of the entry point are not part of it. -/
  | found (entry : EntryPoint)
  /-- It declares something else: the tokens it covers and the tokens after it. -/
  | other (covered rest : List Token)

/-- Read the rest of a header whose parameter list is found. -/
def readTrailer (offset : Nat) (scan : HeaderScan) (params trailer : List Token) :
    List Token → Except PatchError Header
  | [] => .ok (.other (scan.seen ++ .char '(' :: params ++ .char ')' :: trailer) [])
  | token :: rest =>
    let covered := scan.seen ++ .char '(' :: params ++ .char ')' :: trailer
    match token with
    | .char c =>
      if isOpener c then
        match found : splitGroup c offset rest with
        | .error error => .error error
        | .ok (inside, after) =>
          have := splitGroup_after_length_lt found
          if c = '(' then
            readTrailer (offset + 2 + byteSize inside) scan params
              (trailer ++ .char '(' :: inside ++ [.char ')']) after
          else
            .ok (.found ⟨[], scan.lead, scan.last.getD [], scan.gap, params, trailer, inside, after⟩)
      else if isCloser c then .error (.unbalancedBrackets c offset)
      else if c = ';' then .ok (.other (covered ++ [token]) rest)
      else readTrailer (offset + token.size) scan params (trailer ++ [token]) rest
    | _ => readTrailer (offset + token.size) scan params (trailer ++ [token]) rest
termination_by tokens => tokens.length
decreasing_by all_goals (simp only [List.length_cons]; omega)

/-- Read a header from the tokens after its mark. -/
def readHeader (name : String) (offset : Nat) (scan : HeaderScan) :
    List Token → Except PatchError Header
  | [] => .ok (.other scan.seen [])
  | token :: rest =>
    match token with
    | .word text => readHeader name (offset + token.size) (scan.word text) rest
    | .comment _ => readHeader name (offset + token.size) (scan.pass token) rest
    | .char c =>
      if isOpener c then
        match found : splitGroup c offset rest with
        | .error error => .error error
        | .ok (inside, after) =>
          have := splitGroup_after_length_lt found
          if c = '(' then
            if scan.declares name then readTrailer (offset + 2 + byteSize inside) scan inside [] after
            else readHeader name (offset + 2 + byteSize inside) (scan.group inside) after
          else .ok (.other (scan.seen ++ token :: inside ++ [.char '\x7d']) after)
      else if isCloser c then .error (.unbalancedBrackets c offset)
      else if c = ';' then .ok (.other (scan.seen ++ [token]) rest)
      else readHeader name (offset + token.size) (scan.pass token) rest
termination_by tokens => tokens.length
decreasing_by all_goals (simp only [List.length_cons]; omega)

theorem readTrailer_rest_length_le {offset : Nat} {scan : HeaderScan} {params trailer : List Token}
    {tokens covered after : List Token}
    (read : readTrailer offset scan params trailer tokens = .ok (.other covered after)) :
    after.length ≤ tokens.length := by
  fun_induction readTrailer offset scan params trailer tokens <;>
    grind [→ splitGroup_after_length_lt]

theorem readHeader_rest_length_le {name : String} {offset : Nat} {scan : HeaderScan}
    {tokens covered after : List Token}
    (read : readHeader name offset scan tokens = .ok (.other covered after)) :
    after.length ≤ tokens.length := by
  fun_induction readHeader name offset scan tokens <;>
    grind [→ splitGroup_after_length_lt, → readTrailer_rest_length_le]

/-- The first entry point of the stage that declares `name`, from tokens at bracket depth zero. -/
def findEntryFrom (stage : Stage) (name : String) (offset : Nat) :
    List Token → Except PatchError EntryPoint
  | [] => .error (.functionNotFound stage.mark name)
  | token :: rest =>
    match token with
    | .char c =>
      if isOpener c then
        match found : splitGroup c offset rest with
        | .error error => .error error
        | .ok (inside, after) =>
          have := splitGroup_after_length_lt found
          (findEntryFrom stage name (offset + 2 + byteSize inside) after).map
            (·.prepend (token :: inside ++ [.char (closerOf c)]))
      else if isCloser c then .error (.unbalancedBrackets c offset)
      else if c = '@' ∧ rest.head? = some (.word stage.word.toList) then
        let mark := [token, .word stage.word.toList]
        match read : readHeader name (offset + byteSize mark) (.start mark) rest.tail with
        | .error error => .error error
        | .ok (.found entry) => .ok entry
        | .ok (.other covered after) =>
          have := readHeader_rest_length_le read
          (findEntryFrom stage name (offset + byteSize covered) after).map (·.prepend covered)
      else (findEntryFrom stage name (offset + token.size) rest).map (·.prepend [token])
    | _ => (findEntryFrom stage name (offset + token.size) rest).map (·.prepend [token])
termination_by tokens => tokens.length
decreasing_by all_goals (simp only [List.length_cons, List.length_tail] at *; omega)

end Text

namespace EntryPoint

/-- The first entry point of the stage that declares `name`. -/
def find (source : String) (stage : Stage) (name : String) : Except PatchError EntryPoint :=
  findEntryFrom stage name 0 (Text.tokens source.toList)

end EntryPoint

end FrameGraph
