import FrameGraph.Yaml.Content
import FrameGraph.Yaml.Tokenize

/-! # Documents

A text is one document, which holds one node. Lines that give the version of the format and the meaning of
handles may precede it, and then a mark must start it; another mark may end it, more than once.
-/

namespace FrameGraph.Yaml

/-- What the lines in front of a document have said. -/
structure Preamble where
  versioned : Bool := false
  handles : List (List Char × Bytes) := []

/-- The lines in front of a document, and the tokens after them. Nothing is said twice. -/
def Preamble.read? (said : Preamble) : List Token → Option (Preamble × List Token)
  | .version major minor :: rest =>
    if said.versioned || major ≠ 1 || (minor ≠ 1 && minor ≠ 2) then none
    else Preamble.read? { said with versioned := true } rest
  | .handle name meaning :: rest =>
    if (said.handles.lookup name).isSome then none
    else Preamble.read? { said with handles := said.handles ++ [(name, meaning)] } rest
  | rest => some (said, rest)

namespace Document

/-- Read a document; a document that holds nothing has an empty node. -/
def ofTokens? (tokens : List Token) : Option Document := do
  let (said, rest) ← Preamble.read? {} tokens
  let introduced := said.versioned || !said.handles.isEmpty
  let (marked, rest) := match rest with
    | .documentStart :: rest => (true, rest)
    | rest => (false, rest)
  if introduced && !marked then none
  let isOver := match rest.head? with
    | none => true
    | some (.version ..) | some (.handle ..) | some .documentStart | some .documentEnd => marked
    | some _ => false
  let content : Content := { tokens := rest, handles := said.handles ++ handles }
  let (root, content) ← if isOver then some (Node.empty, content)
    else (Builder.node true false (4 * rest.length + 8)).run content
  if !content.tokens.all (· = .documentEnd) then none
  return { root, names := content.names }

/-- Read a text that is one document. -/
def ofText? (text : List Char) : Option Document := tokens? text >>= ofTokens?

end Document

end FrameGraph.Yaml
