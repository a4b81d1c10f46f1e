import FrameGraph.Text.Token

/-! # Free identifiers

A word is free unless it is a member access (`a.word`), an attribute (`@word`) or the tail of a number.
What decides the first two is the last character before the word that is no separator, the characters
of comments included. References and renamings concern free words only.
-/

namespace FrameGraph.Text

/-- What stands before a token: the last character that is no separator, and whether the token right
before it is a digit. -/
structure Context where
  visible : Option Char
  digit : Bool
deriving DecidableEq, Repr

namespace Context

/-- Nothing stands before the first token. -/
def start : Context := ⟨none, false⟩

def after (context : Context) (token : Token) : Context :=
  { visible := match token.chars.reverse.find? (fun c => !isSeparator c) with
      | some c => some c
      | none => context.visible
    digit := match token with
      | .char c => c.isDigit
      | _ => false }

/-- A word in this place is neither a member, an attribute nor the tail of a number. -/
def isFree (context : Context) : Bool :=
  !context.digit && context.visible != some '.' && context.visible != some '@'

end Context

/-- The free words from a context on, in order. -/
def freeWordsFrom (context : Context) : List Token → List (List Char)
  | [] => []
  | token :: rest =>
    let later := freeWordsFrom (context.after token) rest
    match token with
    | .word text => if context.isFree then text :: later else later
    | _ => later

/-- The free words of a row of tokens, in order. -/
def freeWords (tokens : List Token) : List (List Char) := freeWordsFrom .start tokens

/-- Some free word is `name`. -/
def references (tokens : List Token) (name : String) : Bool :=
  (freeWords tokens).any (· == name.toList)

/-- New names for words; of two entries for a word the first counts. -/
abbrev Renames := List (String × String)

/-- The new text of a word. -/
def Renames.apply (renames : Renames) (word : List Char) : List Char :=
  match renames.lookup (String.ofList word) with
  | some new => new.toList
  | none => word

/-- The text with the free words from a context on renamed. -/
def renameFrom (renames : Renames) (context : Context) : List Token → List Char
  | [] => []
  | token :: rest =>
    let here := match token with
      | .word text => if context.isFree then renames.apply text else text
      | other => other.chars
    here ++ renameFrom renames (context.after token) rest

/-- The text with its free words renamed; contexts are those of the old text. -/
def rename (renames : Renames) (tokens : List Token) : List Char :=
  renameFrom renames .start tokens

end FrameGraph.Text
