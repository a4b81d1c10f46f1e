import FrameGraph.Compile.Arguments
import FrameGraph.Text.Header
import FrameGraph.Text.Patch

/-! # Entry points under compilation

An entry point is located in its source, taken out of it, and patched: new name, renamed arguments,
builtin parameters for the reserved identifiers it uses.
-/

namespace FrameGraph

open Text

/-- One entry point and its arguments; `entry` is taken out of its source. -/
structure EntryJob where
  stage : Stage
  name : String
  entry : EntryPoint
  arguments : List Argument

namespace EntryJob

/-- The names that an argument brings into the entry point. -/
def argumentNames (argument : Argument) : List String :=
  match argument.kind with
  | .block _ members => members.map (·.name)
  | _ => [argument.name]

/-- The first name that stands in the list before. -/
def firstDuplicate? : List String → List String → Option String
  | _, [] => none
  | seen, name :: rest => if name ∈ seen then some name else firstDuplicate? (name :: seen) rest

/-- Find the entry point; no two arguments may bring the same name. -/
def locate (source : String) (stage : Stage) (name : String) (arguments : List Argument) :
    Except CompileError EntryJob :=
  match EntryPoint.find source stage name with
  | .error cause => .error (.patch name cause)
  | .ok entry =>
    match firstDuplicate? [] (arguments.flatMap argumentNames) with
    | some duplicate => .error (.duplicateName name duplicate)
    | none => .ok ⟨stage, name, entry.extract, arguments⟩

/-- Parameters and body, where identifiers are looked for. -/
def code (job : EntryJob) : List Token := job.entry.params ++ .char '\n' :: job.entry.body

/-- The entry point wants this builtin and its parameters do not use the identifier. -/
def wants (job : EntryJob) (forced : List String) (builtin : Builtin) : Bool :=
  (forced.contains builtin.ident || references job.code builtin.ident) &&
    !references job.entry.params builtin.ident

/-- Bind one builtin: rename to the parameter that has its value, or add a parameter. -/
def bindBuiltin (job : EntryJob) (forced : List String) (patch : Patch) (builtin : Builtin) : Patch :=
  if job.wants forced builtin then
    match declaredBuiltin? (render job.entry.params) builtin.value with
    | some existing => patch.rename builtin.ident existing
    | none => patch.addParameter builtin.parameter
  else patch

/-- Bind the builtins of the stage in the order of its table. -/
def bindBuiltins (job : EntryJob) (forced : List String) (patch : Patch) : Patch :=
  job.stage.builtins.foldl (job.bindBuiltin forced) patch

/-- The name of the global invocation id inside the patched entry point. -/
def gidName (patch : Patch) : String := (patch.identifiers.lookup "gid").getD "gid"

end EntryJob

/-- A leaf's bindings and an entry point's patch, as its arguments are bound. -/
structure ArgumentScan where
  pool : IndexPool
  bindings : LeafBindings
  patch : Patch

namespace Compile

/-- Bind one block member inside an entry point. -/
def shareMember (entry : String) (block : Nat) (scan : ArgumentScan) (member : BoundVariable) :
    ArgumentScan :=
  let own := member.spec.name
  let name := Naming.global entry own
  { scan with
    patch := scan.patch.rename own name
    bindings := { scan.bindings with
      members := scan.bindings.members ++
        [⟨entry, block, { member with spec := { member.spec with name } }⟩] } }

/-- Bind one argument of an entry point. -/
def bindArgument (table : ResourceTable) (unit : Nat) (job : EntryJob) (entry : String)
    (scan : ArgumentScan) (argument : Argument) : Compile ArgumentScan := do
  match argument.kind with
  | .block name members =>
    let (block, bound) ← bindBlock table unit job.name name members job.stage
    let shared := scan.bindings.shared
    let shared := if shared.contains block then shared else shared ++ [block]
    return bound.foldl (shareMember entry block)
      { scan with bindings := { scan.bindings with shared } }
  | kind =>
    let space := kind.space?.getD .buffers
    let (binding, pool) := scan.pool.assign argument.index space
    let (bound, bytes) ← bindPlain table unit job.name argument binding job.stage scan.bindings.bytes
    let name := Naming.global entry argument.name
    let owned : EntryVariable := ⟨entry, { bound with spec := { bound.spec with name } }⟩
    let bindings := match space with
      | .buffers => { scan.bindings with bytes, buffers := scan.bindings.buffers ++ [owned] }
      | .textures => { scan.bindings with bytes, textures := scan.bindings.textures ++ [owned] }
    return ⟨pool, bindings, scan.patch.rename argument.name name⟩

/-- Bind the arguments of an entry point in order. -/
def bindArguments (table : ResourceTable) (unit : Nat) (job : EntryJob) (entry : String)
    (scan : ArgumentScan) : Compile ArgumentScan :=
  job.arguments.foldlM (bindArgument table unit job entry) scan

end Compile

end FrameGraph
