import FrameGraph.Compile.Leaves

/-! # Compiling a component tree

The leaves are compiled in pre-order against one resource table; then every unit's text is put
together.
-/

namespace FrameGraph

namespace Compile

/-- Compile one leaf of the flat tree. -/
def flatLeaf (table : ResourceTable) (caps : DeviceCaps) (flat : FlatLeaf) : Compile CompiledLeaf := do
  let compiled ← leaf table caps flat.unit flat.node
  log .trace .compiler s!"compiled leaf {flat.path}"
  return compiled

/-- Put the units together, in order. -/
def finishUnits : List UnitState → Except CompileError (List CompiledUnit)
  | [] => .ok []
  | unit :: rest => do
    match unit.finish with
    | .error cause => .error (.layout cause)
    | .ok finished => return finished :: (← finishUnits rest)

/-- The line that tells what a unit came to. -/
def unitLine (unit : CompiledUnit) : LogLine :=
  ⟨.debug, .compiler,
    s!"compiled unit '{unit.label}': {unit.entries.length} entries, {unit.records.length} structs, {unit.source.utf8ByteSize} bytes of WGSL"⟩

end Compile

namespace Program

/-- Compile a tree; the log tells what was done. -/
def compile (program : Program) (table : ResourceTable) (caps : DeviceCaps) :
    Except CompileError (CompiledProgram × List LogLine) := do
  let flat := Flattened.ofProgram program
  let start : CompileState := { units := flat.units.map UnitState.start }
  let (leaves, state) ← (flat.leaves.mapM (Compile.flatLeaf table caps)).run start
  let units ← Compile.finishUnits state.units
  let blocks := state.blocks.map fun block => ⟨block.name, block.group⟩
  return (⟨units, leaves, state.usage, blocks⟩, state.log ++ units.map Compile.unitLine)

end Program

end FrameGraph
