import FrameGraph.Text.EntryPoint
import FrameGraph.Text.Identifier

/-! # Editing an entry point

A patch adds parameters in front, one attribute behind the stage mark, lines at the top of the body and
a new name, and renames identifiers in the parameters and the body. All text around these places is
kept as it is. The place behind the mark is looked for by characters: what follows the mark without a gap
counts to it, and where that is everything up to the name, no place is left and the edit fails.
-/

namespace FrameGraph

open Text

/-- Edits of one entry point. -/
structure Patch where
  /-- Parameter declarations put right after the opening bracket. -/
  parameters : List String
  attr : Option String
  /-- Text at the top of the body. -/
  prologue : String
  newName : Option String
  identifiers : Renames
deriving DecidableEq, Repr

namespace Patch

def empty : Patch := ⟨[], none, "", none, []⟩

/-- The latest name for an identifier counts. -/
def rename (patch : Patch) (old new : String) : Patch :=
  { patch with identifiers := (old, new) :: patch.identifiers }

def addParameter (patch : Patch) (parameter : String) : Patch :=
  { patch with parameters := patch.parameters ++ [parameter] }

def addPrologue (patch : Patch) (text : String) : Patch :=
  { patch with prologue := patch.prologue ++ text }

end Patch

namespace EntryPoint

/-- Tokens that extend a stage mark when they follow it without a gap. -/
def extendsMark : Token → Bool
  | .word _ => true
  | .char c => c == '@' || c.isDigit
  | .comment _ => false

/-- The parameter list after an edit. -/
def patchedParams (entry : EntryPoint) (patch : Patch) : List Char :=
  let joint := if patch.parameters.isEmpty || (trim (render entry.params)).isEmpty then [] else [',', ' ']
  (String.intercalate ", " patch.parameters).toList ++ joint ++ Text.rename patch.identifiers entry.params

/-- The body after an edit. -/
def patchedBody (entry : EntryPoint) (patch : Patch) : List Char :=
  patch.prologue.toList ++ Text.rename patch.identifiers entry.body

/-- The header up to the name after an edit. -/
def patchedLead (entry : EntryPoint) (patch : Patch) : List Char :=
  let attr := match patch.attr with
    | some text => ' ' :: text.toList
    | none => []
  render (entry.lead.takeWhile extendsMark) ++ attr ++ render (entry.lead.dropWhile extendsMark)

def patchedName (entry : EntryPoint) (patch : Patch) : List Char :=
  match patch.newName with
  | some name => name.toList
  | none => entry.name

/-- The whole text after an edit, wherever it can be made. -/
def apply (entry : EntryPoint) (patch : Patch) : String :=
  String.ofList <|
    render entry.before ++ entry.patchedLead patch ++ entry.patchedName patch ++ render entry.gap ++
      '(' :: entry.patchedParams patch ++ ')' :: render entry.trailer ++
      '\x7b' :: entry.patchedBody patch ++ '\x7d' :: render entry.after

/-- Everything between the stage mark and the name extends the mark. -/
def markMeetsName (entry : EntryPoint) : Bool := entry.lead.all extendsMark

/-- The whole text after an edit; none where the mark meets the name. -/
def edit? (entry : EntryPoint) (patch : Patch) : Option String :=
  if entry.markMeetsName then none else some (entry.apply patch)

end EntryPoint

end FrameGraph
