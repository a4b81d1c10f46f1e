import FrameGraph.Text.Quoted

/-! # Shader types and their layout

A value that a program reads is a scalar, a vector, a column-major matrix, an array, a record or a
type known by name only. Sizes and alignments follow the rules of the shading language: a vector of
two is aligned to its size, longer ones to four scalars; array elements and matrix columns are spaced
by their size rounded up to their alignment; a record is aligned to its strictest member and its size
is rounded up to that. A type known by name has no layout, nor has any type that contains one. Sizes and
offsets are 64-bit words: what does not fit into one starts again at zero.

Records carry the offsets and the size that the host gives them, so that `Record.validate` can compare
the two placements byte for byte.
-/

namespace FrameGraph

/-- Number formats of single components. `u16` exists only as an index-buffer element. -/
inductive Scalar where
  | f32 | i32 | u32 | u16
deriving DecidableEq, Repr, Inhabited

namespace Scalar

def name? : Scalar → Option String
  | .f32 => some "f32"
  | .i32 => some "i32"
  | .u32 => some "u32"
  | .u16 => none

def size : Scalar → Nat
  | .u16 => 2
  | _ => 4

def describe : Scalar → String
  | .f32 => "F32"
  | .i32 => "I32"
  | .u32 => "U32"
  | .u16 => "U16"

end Scalar

/-- A record member; `hostOffset` is its byte offset in the host's own record. -/
structure FieldOf (τ : Type) where
  name : String
  type : τ
  hostOffset : Nat
deriving DecidableEq, Repr

/-- A record over member types `τ`; `hostSize` is its size in the host's memory. -/
structure RecordOf (τ : Type) where
  name : String
  fields : List (FieldOf τ)
  hostSize : Nat
deriving DecidableEq, Repr

/-- The shape of a value on the device. -/
inductive ShaderType where
  | scalar (format : Scalar)
  | vector (format : Scalar) (count : Nat)
  /-- Columns of `f32` vectors. -/
  | matrix (columns rows : Nat)
  | array (element : ShaderType) (count : Nat)
  | record (decl : RecordOf ShaderType)
  /-- A name given by the caller, written as it stands. -/
  | named (name : String)
deriving Inhabited, Repr

abbrev Field := FieldOf ShaderType
abbrev Record := RecordOf ShaderType

namespace ShaderType

mutual

/-- Equality of types is decided member by member. -/
def decEq : (a b : ShaderType) → Decidable (a = b)
  | .scalar s, .scalar t => if h : s = t then isTrue (by rw [h]) else isFalse (by simp [h])
  | .vector s n, .vector t m =>
    if h : s = t ∧ n = m then isTrue (by rw [h.1, h.2]) else isFalse (by simpa using h)
  | .matrix c r, .matrix d q =>
    if h : c = d ∧ r = q then isTrue (by rw [h.1, h.2]) else isFalse (by simpa using h)
  | .array e n, .array f m =>
    match decEq e f with
    | isTrue h => if g : n = m then isTrue (by rw [h, g]) else isFalse (by simp [g])
    | isFalse h => isFalse (by simp [h])
  | .record ⟨a, fs, s⟩, .record ⟨b, gs, t⟩ =>
    match decEqFields fs gs with
    | isTrue h =>
      if g : a = b ∧ s = t then isTrue (by rw [h, g.1, g.2])
      else isFalse (by intro e; injection e with e; injection e; exact g ⟨by assumption, by assumption⟩)
    | isFalse h => isFalse (by simp [h])
  | .named n, .named m => if h : n = m then isTrue (by rw [h]) else isFalse (by simp [h])
  | .scalar _, .vector .. | .scalar _, .matrix .. | .scalar _, .array .. | .scalar _, .record _
  | .scalar _, .named _ | .vector .., .scalar _ | .vector .., .matrix .. | .vector .., .array ..
  | .vector .., .record _ | .vector .., .named _ | .matrix .., .scalar _ | .matrix .., .vector ..
  | .matrix .., .array .. | .matrix .., .record _ | .matrix .., .named _ | .array .., .scalar _
  | .array .., .vector .. | .array .., .matrix .. | .array .., .record _ | .array .., .named _
  | .record _, .scalar _ | .record _, .vector .. | .record _, .matrix .. | .record _, .array ..
  | .record _, .named _ | .named _, .scalar _ | .named _, .vector .. | .named _, .matrix ..
  | .named _, .array .. | .named _, .record _ => isFalse (by simp)

/-- Members are compared in order. -/
def decEqFields : (a b : List Field) → Decidable (a = b)
  | [], [] => isTrue rfl
  | [], _ :: _ => isFalse (by simp)
  | _ :: _, [] => isFalse (by simp)
  | ⟨a, t, o⟩ :: r, ⟨b, u, p⟩ :: q =>
    match decEq t u, decEqFields r q with
    | isTrue h, isTrue k =>
      if g : a = b ∧ o = p then isTrue (by rw [h, k, g.1, g.2])
      else isFalse (by intro e; simp at e; exact g ⟨e.1.1, e.1.2.2⟩)
    | isFalse h, _ => isFalse (by simp [h])
    | _, isFalse h => isFalse (by simp [h])

end

instance : DecidableEq ShaderType := decEq

mutual

/-- Inspection text of a type. -/
def describe : ShaderType → String
  | .scalar s => s!"Scalar({s.describe})"
  | .vector s n => s!"Vector({s.describe}, {n})"
  | .matrix c r => s!"Matrix \x7b columns: {c}, rows: {r} \x7d"
  | .array e n => "Array(" ++ describe e ++ s!", {n})"
  | .record ⟨name, fields, size⟩ =>
    "Struct(StructDecl \x7b name: " ++ Text.quoted name ++ ", fields: " ++
      Text.bracketed (describeFields fields) ++ s!", native_size: {size} \x7d)"
  | .named name => "Named(" ++ Text.quoted name ++ ")"

/-- Inspection texts of record members, in order. -/
def describeFields : List Field → List String
  | [] => []
  | ⟨name, type, offset⟩ :: rest =>
    ("FieldDecl \x7b name: " ++ Text.quoted name ++ ", ty: " ++ describe type ++
      s!", native_offset: {offset} \x7d") :: describeFields rest

end

/-- The type is exactly this scalar. -/
def isScalar (type : ShaderType) (format : Scalar) : Bool :=
  match type with
  | .scalar s => s == format
  | _ => false

end ShaderType

/-- Why a type cannot be laid out or written. -/
inductive LayoutError where
  /-- Two different records share a name. -/
  | conflict (name : String)
  | fieldOffset (record field : String) (host device : Nat)
  | size (record : String) (host device : Nat)
  | unsupported (type : ShaderType)
deriving Repr

namespace LayoutError

def message : LayoutError → String
  | .conflict name => s!"struct `{name}` is declared twice with different layouts"
  | .fieldOffset record field host device =>
    s!"field `{record}.{field}` sits at native offset {host} but WGSL places it at {device}"
  | .size record host device =>
    s!"struct `{record}` is {host} bytes natively but {device} bytes in WGSL"
  | .unsupported type => "type `" ++ type.describe ++ "` cannot be used inside a shader program"

end LayoutError

namespace Layout

/-- A number of bytes as a 64-bit word. -/
def word (bytes : Nat) : Nat := bytes % UInt64.size

/-- The least multiple of `align` that is at least `value`; an alignment of zero asks for nothing. -/
def ceil (align value : Nat) : Nat :=
  if align = 0 then value else (value + align - 1) / align * align

/-- `ceil` in 64-bit words. -/
def roundUp (align value : Nat) : Nat := word (ceil align value)

/-- Alignment and size of a place. -/
structure Extents where
  align : Nat
  size : Nat
deriving DecidableEq, Repr

/-- Distance between neighbouring elements of this layout. -/
def Extents.stride (e : Extents) : Nat := roundUp e.align e.size

/-- Components of a vector are packed; two align to their size, any other count to four scalars. -/
def vector (format : Scalar) (count : Nat) : Extents :=
  let size := word (format.size * count)
  ⟨if count = 2 then size else format.size * 4, size⟩

/-- The end of the last of some members, and the strictest alignment among them. -/
structure Cursor where
  offset : Nat
  align : Nat
deriving DecidableEq, Repr

end Layout

namespace ShaderType

/-- How the type is spelled in shader text. -/
def name : ShaderType → Except LayoutError String
  | .scalar s =>
    match s.name? with
    | some n => .ok n
    | none => .error (.unsupported (.scalar s))
  | .vector s n =>
    match s.name? with
    | some format => .ok s!"vec{n}<{format}>"
    | none => .error (.unsupported (.vector s n))
  | .matrix c r => .ok s!"mat{c}x{r}<f32>"
  | .array e n =>
    match name e with
    | .ok element => .ok s!"array<{element}, {n}>"
    | .error error => .error error
  | .record decl => .ok decl.name
  | .named name => .ok name

mutual

/-- Alignment and size, absent when the type contains one known by name only. -/
def layout? : ShaderType → Option Layout.Extents
  | .scalar s => some ⟨s.size, s.size⟩
  | .vector s n => some (Layout.vector s n)
  | .matrix columns rows =>
    let column := Layout.vector .f32 rows
    some ⟨column.align, Layout.word (columns * column.stride)⟩
  | .array e n => (layout? e).map fun element => ⟨element.align, Layout.word (n * element.stride)⟩
  | .record ⟨_, fields, _⟩ =>
    match offsetsFrom? fields 0 with
    | none => none
    | some offsets =>
      (measure? fields offsets ⟨0, 1⟩).map fun last => ⟨last.align, Layout.roundUp last.align last.offset⟩
  | .named _ => none

/-- Offsets of members placed one after the other, the first one behind `free`. -/
def offsetsFrom? : List Field → Nat → Option (List Nat)
  | [], _ => some []
  | ⟨_, type, _⟩ :: rest, free =>
    match layout? type with
    | none => none
    | some member =>
      let offset := Layout.roundUp member.align free
      (offsetsFrom? rest (Layout.word (offset + member.size))).map fun offsets => offset :: offsets

/-- Where members at these offsets end, and the strictest alignment that any of them needs. -/
def measure? : List Field → List Nat → Layout.Cursor → Option Layout.Cursor
  | ⟨_, type, _⟩ :: rest, offset :: offsets, reached =>
    match layout? type with
    | none => none
    | some member =>
      measure? rest offsets ⟨Layout.word (offset + member.size), max reached.align member.align⟩
  | _, _, reached => some reached

end

end ShaderType

namespace RecordOf

/-- Device offsets of the members in order. -/
def offsets? (decl : Record) : Option (List Nat) :=
  ShaderType.offsetsFrom? decl.fields 0

def layout? (decl : Record) : Option Layout.Extents := (ShaderType.record decl).layout?

/-- The first member whose host offset differs from its device offset. -/
def firstMisplaced? (fields : List Field) (offsets : List Nat) : Option (Field × Nat) :=
  (fields.zip offsets).find? fun placed => placed.1.hostOffset != placed.2

/-- The host's record is the device's record byte for byte; nothing is asked of a record without a
layout. -/
def validate (decl : Record) : Except LayoutError Unit :=
  match decl.offsets?, decl.layout? with
  | some offsets, some layout =>
    match firstMisplaced? decl.fields offsets with
    | some (field, device) => .error (.fieldOffset decl.name field.name field.hostOffset device)
    | none =>
      if layout.size = decl.hostSize then .ok () else .error (.size decl.name decl.hostSize layout.size)
  | _, _ => .ok ()

/-- Lines of the members of a declaration. -/
def memberLines : List Field → Except LayoutError String
  | [] => .ok ""
  | field :: rest => do
    let type ← field.type.name
    let lines ← memberLines rest
    return s!"    {field.name}: {type},\n" ++ lines

/-- The declaration as shader text. -/
def declaration (decl : Record) : Except LayoutError String := do
  let lines ← memberLines decl.fields
  return s!"struct {decl.name} \x7b\n" ++ lines ++ "\x7d\n"

end RecordOf

end FrameGraph
