import FrameGraph.Compile.Error
import FrameGraph.Compile.Naming
import FrameGraph.Compile.Output
import FrameGraph.Flatten
import FrameGraph.Layout.Symbols
import FrameGraph.Log

/-! # What a compile has gathered so far

Each unit has its record table, its blocks of text and its entry names. Argument blocks and resource
usage belong to the whole program.
-/

namespace FrameGraph

/-- Classes of module-scope variables. -/
inductive VarClass where
  | uniform | storageRead | storageReadWrite | handle
deriving DecidableEq, Repr

def VarClass.text : VarClass → String
  | .uniform => "var<uniform>"
  | .storageRead => "var<storage, read>"
  | .storageReadWrite => "var<storage, read_write>"
  | .handle => "var"

/-- A binding and the variable that declares it. -/
structure BoundVariable where
  spec : BindingSpec
  var : VarClass
  type : String
deriving DecidableEq, Repr

/-- The variable's declaration in a bind group. -/
def BoundVariable.declaration (bound : BoundVariable) (group : Nat) : Declaration :=
  ⟨group, bound.spec.entry.binding, bound.var.text, bound.spec.name, bound.type⟩

structure UnitState where
  label : String
  library : String
  symbols : SymbolTable
  leaves : List LeafText
  /-- Entry names in the order they were given. -/
  entries : List String

namespace UnitState

def start (unit : UnitDecl) : UnitState := ⟨unit.label, unit.library, .empty, [], []⟩

/-- Give out an entry name that no other entry point of the unit has. -/
def giveEntry (unit : UnitState) (name : String) : String × UnitState :=
  let entry := Naming.fresh name unit.entries
  (entry, { unit with entries := unit.entries ++ [entry] })

/-- Record declarations, library and leaves. -/
def source (unit : UnitState) : Except LayoutError String := do
  let records ← unit.symbols.declarations
  let library := Text.trim unit.library.toList
  let middle := if library.isEmpty then "" else String.ofList library ++ "\n\n"
  return records ++ middle ++ String.join (unit.leaves.map LeafText.text)

def finish (unit : UnitState) : Except LayoutError CompiledUnit := do
  return ⟨unit.label, ← unit.source, unit.symbols.records, unit.entries, unit.leaves⟩

end UnitState

/-- An argument block as its first use defined it, with the stages of all uses so far. -/
structure RegisteredBlock where
  name : String
  group : GroupSpec
  members : List BoundVariable

/-- The state of a compile. -/
structure CompileState where
  usage : ResourceUsage := {}
  blocks : List RegisteredBlock := []
  units : List UnitState
  log : List LogLine := []

/-- A step of compiling; an error ends the compile. -/
abbrev Compile := StateT CompileState (Except CompileError)

namespace Compile

def fail {α : Type} (error : CompileError) : Compile α := fun _ => .error error

def log (level : LogLevel) (source : LogSource) (text : String) : Compile Unit :=
  modify fun state => { state with log := state.log ++ [⟨level, source, text⟩] }

def useTexture (handle : TextureHandle) (use : TextureUsage) : Compile Unit :=
  modify fun state => { state with usage := state.usage.texture handle use }

def useBuffer (handle : BufferHandle) (use : BufferUsage) : Compile Unit :=
  modify fun state => { state with usage := state.usage.buffer handle use }

def modifyUnit (unit : Nat) (change : UnitState → UnitState) : Compile Unit :=
  modify fun state => { state with units := state.units.modify unit change }

def textureDecl (table : ResourceTable) (function : String) (handle : TextureHandle) :
    Compile TextureDecl :=
  match table.texture? handle with
  | some decl => pure decl
  | none => fail (.unknownTexture function handle)

def bufferDecl (table : ResourceTable) (function : String) (handle : BufferHandle) :
    Compile BufferDecl :=
  match table.buffer? handle with
  | some decl => pure decl
  | none => fail (.unknownBuffer function handle)

/-- Declare the records of a type in a unit and spell the type. -/
def typeName (unit : Nat) (type : ShaderType) : Compile String := do
  let state ← get
  let symbols := (state.units[unit]?.map (·.symbols)).getD .empty
  let (declared, result) := symbols.declare type
  modifyUnit unit fun u => { u with symbols := declared }
  (declared.names.drop symbols.size).forM fun name => log .trace .layout s!"declared struct {name}"
  match result, type.name with
  | .error error, _ => fail (.layout error)
  | .ok (), .error error => fail (.layout error)
  | .ok (), .ok name => return name

def giveEntry (unit : Nat) (name : String) : Compile String := do
  let state ← get
  match state.units[unit]? with
  | none => return name
  | some u =>
    let (entry, changed) := u.giveEntry name
    modifyUnit unit fun _ => changed
    return entry

end Compile

end FrameGraph
