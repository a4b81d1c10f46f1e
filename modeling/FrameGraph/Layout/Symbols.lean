import FrameGraph.Layout.ShaderType

/-! # Record declarations of one program unit

A unit declares each record once, after the records it contains. `declare` walks a type, inner records
first. A record that is already stored is left alone, a different one under a stored name is refused,
and a new one is stored only if it agrees with its host layout. What was stored before a refusal
stays. The trace lists the names in the order they were stored.
-/

namespace FrameGraph

/-- Records in the order of their declaration. -/
structure SymbolTable where
  records : List Record

namespace SymbolTable

def empty : SymbolTable := ⟨[]⟩

def find? (table : SymbolTable) (name : String) : Option Record :=
  table.records.find? (·.name == name)

def contains (table : SymbolTable) (name : String) : Bool := (table.find? name).isSome

def names (table : SymbolTable) : List String := table.records.map (·.name)

def size (table : SymbolTable) : Nat := table.records.length

/-- Store one record whose members are already declared. -/
def insert (table : SymbolTable) (decl : Record) : SymbolTable × Except LayoutError Unit :=
  match table.find? decl.name with
  | some stored =>
    if stored = decl then (table, .ok ())
    else (table, .error (.conflict decl.name))
  | none =>
    match decl.validate with
    | .ok () => (⟨table.records ++ [decl]⟩, .ok ())
    | .error error => (table, .error error)

mutual

/-- Declare every record inside the type, inner ones first. -/
def declare (table : SymbolTable) : ShaderType → SymbolTable × Except LayoutError Unit
  | .array element _ => declare table element
  | .record ⟨name, fields, size⟩ =>
    match declareFields table fields with
    | (table, .ok ()) => table.insert ⟨name, fields, size⟩
    | (table, .error error) => (table, .error error)
  | .scalar _ | .vector .. | .matrix .. | .named _ => (table, .ok ())

/-- Declare the records inside each member, in order, up to the first refusal. -/
def declareFields (table : SymbolTable) : List Field → SymbolTable × Except LayoutError Unit
  | [] => (table, .ok ())
  | ⟨_, type, _⟩ :: rest =>
    match declare table type with
    | (table, .ok ()) => declareFields table rest
    | (table, .error error) => (table, .error error)

end

/-- Declarations one after the other, each followed by an empty line. -/
def declarationLines : List Record → Except LayoutError String
  | [] => .ok ""
  | decl :: rest => do
    let text ← decl.declaration
    let lines ← declarationLines rest
    return text ++ "\n" ++ lines

def declarations (table : SymbolTable) : Except LayoutError String := declarationLines table.records

end SymbolTable

end FrameGraph
