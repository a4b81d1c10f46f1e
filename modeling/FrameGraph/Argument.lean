import FrameGraph.Resource.Table
import FrameGraph.Shared

/-! # Arguments of entry points

An entry point takes buffers, uniform bytes, textures and named argument blocks. Buffers and bytes are
numbered in one space and textures in another; the caller may pin a number. A block has a bind group
of its own and takes no number.
-/

namespace FrameGraph

inductive BufferSpace where
  | uniform
  | storage (readOnly : Bool)
deriving DecidableEq, Repr

inductive TextureAccess where
  | sample | write | readWrite
deriving DecidableEq, Repr

/-- The two spaces that binding numbers are drawn from. -/
inductive IndexSpace where
  | buffers | textures
deriving DecidableEq, Repr

def IndexSpace.text : IndexSpace → String
  | .buffers => "buffer"
  | .textures => "texture"

/-- An argument that binds a `κ`. -/
structure ArgumentOf (κ : Type) where
  name : String
  /-- The number pinned by the caller. -/
  index : Option Nat
  /-- The type given by the caller, written as it stands. -/
  type : Option String
  kind : κ
deriving Inhabited

inductive ArgumentKind where
  | buffer (handle : BufferHandle) (space : BufferSpace)
  | bytes (source : BytesSource)
  | texture (handle : TextureHandle) (access : TextureAccess)
  /-- A block that every use of the same name shares. -/
  | block (name : String) (members : List (ArgumentOf ArgumentKind))
deriving Inhabited

abbrev Argument := ArgumentOf ArgumentKind

namespace ArgumentKind

/-- The space of the number; a block has none. -/
def space? : ArgumentKind → Option IndexSpace
  | .buffer .. | .bytes _ => some .buffers
  | .texture .. => some .textures
  | .block .. => none

def texture? : ArgumentKind → Option TextureHandle
  | .texture handle _ => some handle
  | _ => none

def buffer? : ArgumentKind → Option BufferHandle
  | .buffer handle _ => some handle
  | _ => none

end ArgumentKind

namespace BufferSpace

def describe : BufferSpace → String
  | .uniform => "Uniform"
  | .storage readOnly => s!"Storage \x7b read_only: {readOnly} \x7d"

end BufferSpace

def TextureAccess.describe : TextureAccess → String
  | .sample => "Sample"
  | .write => "Write"
  | .readWrite => "ReadWrite"

/-- Inspection text of an optional value. -/
def describeOption (item : Option String) : String :=
  match item with
  | some text => s!"Some({text})"
  | none => "None"

mutual

/-- Inspection text of what an argument binds. -/
def ArgumentKind.describe : ArgumentKind → String
  | .buffer handle space =>
    s!"Buffer \x7b buffer: {handle.describe}, space: {space.describe} \x7d"
  | .bytes source => "Bytes(" ++ source.type.describe ++ ")"
  | .texture handle access =>
    s!"Texture \x7b texture: {handle.describe}, access: {access.describe} \x7d"
  | .block name members =>
    "ArgumentBuffer \x7b name: " ++ Text.quoted name ++ ", members: " ++
      Text.bracketed (describeMembers members) ++ " \x7d"

/-- Inspection texts of block members, in order. -/
def describeMembers : List Argument → List String
  | [] => []
  | ⟨name, index, type, kind⟩ :: rest =>
    ("Argument \x7b name: " ++ Text.quoted name ++ ", index: " ++
      describeOption (index.map toString) ++ ", gpu_type: " ++
      describeOption (type.map Text.quoted) ++ ", kind: " ++ kind.describe ++ " \x7d") ::
      describeMembers rest

end

end FrameGraph
