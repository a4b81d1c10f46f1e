import FrameGraph.Yaml.Node

/-! # Nodes from tokens

A node is a scalar or a collection with a name and a tag in front. Entries of mappings and items of
sequences may be empty.
-/

namespace FrameGraph.Yaml

/-- What is left to read, what the handles of tags stand for, and the names so far. -/
structure Content where
  tokens : List Token
  handles : List (List Char × Bytes)
  names : NodeNames := {}

/-- Reads nodes, or fails on tokens that make no node. -/
abbrev Builder := StateT Content Option

namespace Builder

def next : Builder (Option Token) := return (← get).tokens.head?

/-- Go over a token. -/
def drop : Builder Unit := modify fun content => { content with tokens := content.tokens.tail }

/-- Go over `token` if it is the next one. -/
def take (token : Token) : Builder Bool := do
  if (← next) ≠ some token then return false
  drop
  return true

/-- What stands in front of a node. -/
structure Properties where
  name : Option (List Char) := none
  tag : Option Bytes := none
  given : Bool := false

/-- A tag in full; its handle must stand for something. -/
def fullTag (tag : Tag) : Builder Bytes := do
  match tag.handle with
  | none => return tag.rest
  | some handle => do
    let meaning ← (← get).handles.lookup handle
    return meaning ++ tag.rest

def nameIfAny (found : Properties) : Builder Properties := do
  match ← next with
  | some (.name name) => do
    drop
    return { found with name := some name, given := true }
  | _ => return found

def tagIfAny (found : Properties) : Builder Properties := do
  match ← next with
  | some (.tag tag) => do
    drop
    return { found with tag := some (← fullTag tag), given := true }
  | _ => return found

/-- A name and a tag, in either order. -/
def properties : Builder Properties := do
  match ← next with
  | some (.tag _) => nameIfAny (← tagIfAny {})
  | _ => tagIfAny (← nameIfAny {})

/-- A node that starts here is given its name; the result is its place among the named nodes. -/
def giveName (name : List Char) : Builder Nat := do
  let names := (← get).names
  modify fun content => { content with names := names.give name }
  return names.given.length

/-- A reference to the node that has the name now. -/
def reference (name : List Char) : Builder Node := do
  return .reference (← (← get).names.numbers.lookup name)

mutual

/-- A node. Collections of a block start only where `block` says so; a sequence that stands below its key
without being indented has no token of its own, and `below` tells whether one may stand here. -/
def node (block below : Bool) : Nat → Builder Node
  | 0 => failure
  | fuel + 1 => do
    if let some (.reference name) ← next then
      drop
      return ← reference name
    let found ← properties
    let place ← found.name.mapM giveName
    let node ← match ← next with
      | some (.scalar text style) => do
        drop
        pure (.scalar text style found.tag)
      | some .openBracket => do
        drop
        pure (.sequence (← flowItems fuel true []))
      | some .openBrace => do
        drop
        pure (.mapping (← flowEntries fuel true []))
      | next => do
        if below && next == some .item then pure (.sequence (← itemsBelow fuel []))
        else if block && next == some .blockSequence then
          drop
          pure (.sequence (← blockItems fuel []))
        else if block && next == some .blockMapping then
          drop
          pure (.mapping (← blockEntries fuel []))
        else if found.given then pure (.scalar "" .plain found.tag)
        else failure
    if let some place := place then
      modify fun content => { content with names := content.names.keep place node }
    return node

/-- A node, or an empty one in front of any token of `ends`. -/
def nodeUnless (ends : List Token) (block below : Bool) : Nat → Builder Node
  | 0 => failure
  | fuel + 1 => do
    if (← next).any ends.contains then return .empty
    node block below fuel

/-- The items of a sequence in a block. -/
def blockItems : Nat → List Node → Builder (List Node)
  | 0, _ => failure
  | fuel + 1, done => do
    if ← take .blockEnd then return done
    if !(← take .item) then failure
    let item ← nodeUnless [.item, .blockEnd] true false fuel
    blockItems fuel (done ++ [item])

/-- The items of a sequence below its key. -/
def itemsBelow : Nat → List Node → Builder (List Node)
  | 0, _ => failure
  | fuel + 1, done => do
    if !(← take .item) then return done
    let item ← nodeUnless [.item, .key, .value, .blockEnd] true false fuel
    itemsBelow fuel (done ++ [item])

/-- The entries of a mapping in a block. -/
def blockEntries : Nat → List (Node × Node) → Builder (List (Node × Node))
  | 0, _ => failure
  | fuel + 1, done => do
    if ← take .blockEnd then return done
    if !(← take .key) then failure
    let key ← nodeUnless [.key, .value, .blockEnd] true true fuel
    let value ← if ← take .value then nodeUnless [.key, .value, .blockEnd] true true fuel
      else pure .empty
    blockEntries fuel (done ++ [(key, value)])

/-- The items up to a bracket; they stand between commas. An item with a key is a mapping of one entry. The
token behind an empty key is passed over, whatever it is. -/
def flowItems : Nat → Bool → List Node → Builder (List Node)
  | 0, _, _ => failure
  | fuel + 1, first, done => do
    if ← take .closeBracket then return done
    if !first then
      if !(← take .comma) then failure
    if ← take .closeBracket then return done
    if ← take .key then
      let key ← if (← next).any [.value, .comma, .closeBracket].contains then
          drop
          pure .empty
        else node false false fuel
      let value ← if ← take .value then nodeUnless [.comma, .closeBracket] false false fuel
        else pure .empty
      flowItems fuel false (done ++ [.mapping [(key, value)]])
    else
      let item ← node false false fuel
      flowItems fuel false (done ++ [item])

/-- The entries up to a brace; they stand between commas. A node without a key mark is a key that has an
empty value. -/
def flowEntries : Nat → Bool → List (Node × Node) → Builder (List (Node × Node))
  | 0, _, _ => failure
  | fuel + 1, first, done => do
    if ← take .closeBrace then return done
    if !first then
      if !(← take .comma) then failure
    if ← take .closeBrace then return done
    if ← take .key then
      let key ← nodeUnless [.value, .comma, .closeBrace] false false fuel
      let value ← if ← take .value then nodeUnless [.comma, .closeBrace] false false fuel
        else pure .empty
      flowEntries fuel false (done ++ [(key, value)])
    else
      let key ← node false false fuel
      flowEntries fuel false (done ++ [(key, .empty)])

end

end Builder

end FrameGraph.Yaml
