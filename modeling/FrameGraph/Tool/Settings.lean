import FrameGraph.Text.Blank
import FrameGraph.Yaml.Document

/-! # Settings

The settings file is a YAML mapping in which every field may be missing. A field that is not known is
passed over, whatever it holds; a known one is given once at most.
-/

namespace FrameGraph

structure WindowSettings where
  title : String := "kiln"
  width : Nat := 1280
  height : Nat := 720
  vsync : Bool := true
deriving DecidableEq, Repr

structure Settings where
  window : WindowSettings := {}
  /-- The log filter. -/
  log : String := "info"
  defaultDemo : String := "gradient"
  validate : Bool := true
deriving DecidableEq, Repr

namespace Yaml.Document

/-- The text of a scalar; an empty node is the empty text. -/
def text? (document : Document) (node : Node) : Option String := do
  match ← document.follow? node with
  | .scalar text _ _ => some text
  | _ => none

/-- The text of a scalar that may be a number or a truth value: one without quotes or marks, or a literal
one with the tag `kind`. -/
def bare? (document : Document) (kind : String) (node : Node) : Option String := do
  match ← document.follow? node with
  | .scalar text .plain _ => some text
  | .scalar text .literal (some tag) => if tag = bytesOf kind.toList then some text else none
  | _ => none

def bool? (document : Document) (node : Node) : Option Bool := do
  let text ← document.bare? "tag:yaml.org,2002:bool" node
  if text ∈ ["true", "True", "TRUE"] then some true
  else if text ∈ ["false", "False", "FALSE"] then some false
  else none

/-- A 32-bit word: decimal without leading zeros, or hexadecimal, octal or binary behind a mark; a
plus sign may stand in front. -/
def word? (document : Document) (node : Node) : Option Nat := do
  let text ← document.bare? "tag:yaml.org,2002:int" node
  let digits := match text.toList with
    | '+' :: rest => rest
    | other => other
  let value ← match digits with
    | '0' :: 'x' :: rest => number? 16 rest
    | '0' :: 'o' :: rest => number? 8 rest
    | '0' :: 'b' :: rest => number? 2 rest
    | '0' :: _ :: _ => none
    | other => number? 10 other
  if value < UInt32.size then some value else none

/-- The fields of a mapping, whose keys are scalars. An empty node has none. -/
def fields? (document : Document) (node : Node) : Option (List (String × Node)) := do
  match ← document.follow? node with
  | .scalar "" .plain _ => some []
  | .mapping entries => entries.mapM fun (key, value) => do return (← document.text? key, value)
  | _ => none

end Yaml.Document

namespace Settings

open Yaml

/-- The value of a field, or its default where it is missing; it must not be given twice. -/
def field {α : Type} (fields : List (String × Node)) (name : String) (read : Node → Option α)
    (default : α) : Option α :=
  match fields.filter (·.1 == name) with
  | [] => some default
  | [(_, value)] => read value
  | _ => none

def window? (document : Document) (node : Node) : Option WindowSettings := do
  let fields ← document.fields? node
  let default : WindowSettings := {}
  return {
    title := ← field fields "title" document.text? default.title
    width := ← field fields "width" document.word? default.width
    height := ← field fields "height" document.word? default.height
    vsync := ← field fields "vsync" document.bool? default.vsync }

def ofDocument? (document : Document) : Option Settings := do
  let fields ← document.fields? document.root
  let default : Settings := {}
  return {
    window := ← field fields "window" (window? document) default.window
    log := ← field fields "log" document.text? default.log
    defaultDemo := ← field fields "default_demo" document.text? default.defaultDemo
    validate := ← field fields "validate" document.bool? default.validate }

/-- Read a settings file; a blank one leaves every default. -/
def ofText? (text : String) : Option Settings :=
  if (Text.trim text.toList).isEmpty then some {}
  else Yaml.Document.ofText? text.toList >>= ofDocument?

end Settings

end FrameGraph
