import FrameGraph.Layout.ShaderType

/-! # Host values

A host type says what the host keeps in memory: scalars, vectors, matrices, packed arrays and records
with the offsets that the host chose. `HostType.shaderType` is the type a program sees for it; an array
of two to four numeric scalars is a vector there. `HostType.size` is the number of bytes the host keeps.

A host value is a row of equal components, held as 32-bit words.
-/

namespace FrameGraph

/-- The type of a host value. -/
inductive HostType where
  | scalar (format : Scalar)
  | vector (format : Scalar) (count : Nat)
  | matrix (columns rows : Nat)
  | array (element : HostType) (count : Nat)
  | record (decl : RecordOf HostType)
deriving Inhabited

namespace HostType

/-- An array of two to four numeric scalars is a vector on the device. -/
def arrayType (element : ShaderType) (count : Nat) : ShaderType :=
  match element with
  | .scalar format =>
    if 2 ≤ count ∧ count ≤ 4 ∧ format ≠ .u16 then .vector format count
    else .array (.scalar format) count
  | other => .array other count

mutual

/-- The type a program sees. -/
def shaderType : HostType → ShaderType
  | .scalar format => .scalar format
  | .vector format count => .vector format count
  | .matrix columns rows => .matrix columns rows
  | .array element count => arrayType (shaderType element) count
  | .record ⟨name, fields, size⟩ => .record ⟨name, shaderFields fields, size⟩

/-- Members keep their names and host offsets. -/
def shaderFields : List (FieldOf HostType) → List Field
  | [] => []
  | ⟨name, type, offset⟩ :: rest => ⟨name, shaderType type, offset⟩ :: shaderFields rest

end

/-- Bytes in host memory; arrays are packed. -/
def size : HostType → Nat
  | .scalar format => format.size
  | .vector format count => format.size * count
  | .matrix columns rows => columns * rows * 4
  | .array element count => count * size element
  | .record decl => decl.hostSize

/-- The scalar whose repetition fills a value; matrices and records count as floats. -/
def format : HostType → Scalar
  | .scalar format | .vector format _ => format
  | .array element _ => format element
  | _ => .f32

end HostType

/-- The `count` low bytes of a word, lowest first. -/
def wordBytes (count : Nat) (word : UInt32) : List UInt8 :=
  (List.range count).map fun i => (word >>> (8 * i).toUInt32).toUInt8

/-- A row of equal components; `type` is what a program sees of it. -/
structure HostValue where
  format : Scalar
  type : ShaderType
  words : List UInt32

namespace HostValue

/-- A value of a host type. -/
def ofWords (host : HostType) (words : List UInt32) : HostValue := ⟨host.format, host.shaderType, words⟩

def bytes (value : HostValue) : List UInt8 :=
  value.words.flatMap (wordBytes value.format.size)

/-- Replace the components. -/
def set (value : HostValue) (words : List UInt32) : HostValue := { value with words }

/-- The bit pattern of a sum of two floats; a sum that is no number although both operands are has
the sign bit set, and an operand that is no number is passed on as a quiet one. -/
def addFloatBits (a b : UInt32) : UInt32 :=
  let x := Float32.ofBits a
  let y := Float32.ofBits b
  if x.isNaN then a ||| 0x400000
  else if y.isNaN then b ||| 0x400000
  else if (x + y).isNaN then 0xFFC00000
  else (x + y).toBits

/-- Add two components of one format; integers wrap at their width. -/
def addWords : Scalar → UInt32 → UInt32 → UInt32
  | .f32, a, b => addFloatBits a b
  | .u16, a, b => (a + b) &&& 0xFFFF
  | _, a, b => a + b

/-- Add component by component. -/
def add (value : HostValue) (words : List UInt32) : HostValue :=
  { value with words := List.zipWith (addWords value.format) value.words words }

end HostValue

end FrameGraph
