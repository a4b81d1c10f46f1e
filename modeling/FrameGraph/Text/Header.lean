import FrameGraph.Axes
import FrameGraph.Text.EntryPoint

/-! # Header queries

What a header says about attributes, workgroup sizes and builtin parameters. The queries look at the
header as plain text, comments included.
-/

namespace FrameGraph

open Text

namespace Text

/-- The text after the first occurrence of an attribute that no word character continues. Occurrences
do not overlap: `skip` characters belong to the one before. -/
def afterAttribute? (attr : List Char) (skip : Nat) : List Char → Option (List Char)
  | [] => if skip = 0 ∧ attr.isEmpty then some [] else none
  | c :: rest =>
    if skip > 0 then afterAttribute? attr (skip - 1) rest
    else if attr.isPrefixOf (c :: rest) then
      let after := (c :: rest).drop attr.length
      if after.head?.any isWordChar then afterAttribute? attr (attr.length - 1) rest
      else some after
    else afterAttribute? attr 0 rest

/-- Drop trailing integer suffixes. -/
def dropSuffix (text : List Char) : List Char :=
  (text.reverse.dropWhile fun c => c == 'u' || c == 'i').reverse

/-- The text between round brackets at the start, blanks before them aside. -/
def bracketedStart? (text : List Char) : Option (List Char) :=
  match trimStart text with
  | '(' :: rest => if rest.contains ')' then some (rest.takeWhile (· != ')')) else none
  | _ => none

/-- One blank between words, and none inside round brackets next to them. -/
def compact (text : List Char) : List Char :=
  let rec afterOpen : List Char → List Char
    | '(' :: ' ' :: rest => '(' :: afterOpen rest
    | c :: rest => c :: afterOpen rest
    | [] => []
  let rec beforeClose : List Char → List Char
    | ' ' :: ')' :: rest => ')' :: beforeClose rest
    | c :: rest => c :: beforeClose rest
    | [] => []
  beforeClose (afterOpen ([' '].intercalate (blankSeparated [] text)))

end Text

/-- What a header says about the workgroup size. -/
inductive WorkgroupAttribute where
  | absent
  /-- There is one, but not of one to three integer literals. -/
  | notLiteral
  | literal (size : Axes)
deriving DecidableEq, Repr

namespace EntryPoint

def hasAttribute (entry : EntryPoint) (attr : String) : Bool :=
  (afterAttribute? attr.toList 0 entry.header).isSome

/-- A missing axis is one. -/
def workgroupOf (sizes : List Nat) : WorkgroupAttribute :=
  match sizes with
  | [x] => .literal ⟨x, 1, 1⟩
  | [x, y] => .literal ⟨x, y, 1⟩
  | [x, y, z] => .literal ⟨x, y, z⟩
  | _ => .notLiteral

/-- The size in an existing `@workgroup_size` attribute. -/
def workgroupSize (entry : EntryPoint) : WorkgroupAttribute :=
  match afterAttribute? "@workgroup_size".toList 0 entry.header with
  | none => .absent
  | some after =>
    match bracketedStart? after with
    | none => .notLiteral
    | some inner =>
      let values := ((Text.splitOn ',' [] inner).map trim).filter fun value => !value.isEmpty
      match values.mapM fun value => decimalBelow? UInt32.size (dropSuffix value) with
      | some sizes => workgroupOf sizes
      | none => .notLiteral

end EntryPoint

/-- The parameter that already declares a builtin value. -/
def declaredBuiltin? (params : List Char) (builtin : String) : Option String :=
  match afterFirst? s!"@builtin({builtin})".toList (compact params) with
  | none => none
  | some after =>
    let name := (trimStart after).takeWhile isWordChar
    if name.isEmpty then none else some (String.ofList name)

end FrameGraph
