import FrameGraph.Compile.Program
import FrameGraph.OffFrame.Worker

/-! # Pass graphs

`build` compiles a program and makes its passes. `setup` creates modules, resources, pipelines and bind
groups once; it can be tried again after a failure. `resize` follows the display surface. `encode`
records one frame into a command stream, which the caller submits or drops.
-/

namespace FrameGraph

inductive GraphError where
  | compile (cause : CompileError)
  | program (unit : String) (cause : DeviceError)
  | device (cause : DeviceError)
  | pass (cause : PassError)
  | notSetUp
  /-- A leaf of the tree has no fitting compiled leaf. -/
  | leafMismatch (place : Nat)
deriving Repr

def GraphError.message : GraphError → String
  | .compile cause => cause.message
  | .program unit cause => s!"program unit '{unit}': {cause.message}"
  | .device cause => cause.message
  | .pass cause => cause.message
  | .notSetUp => "the pass graph has not been set up"
  | .leafMismatch place => s!"leaf {place} of the component tree has no matching compiled leaf"

structure Graph (σ : Type) where
  session : Session σ
  passes : List Pass
  ready : Bool := false
  /-- Frames encoded so far. -/
  frame : Nat := 0

/-- An action on a graph. -/
abbrev GraphM (σ : Type) := Effect (Graph σ) GraphError

namespace Graph

variable {σ : Type}

def sessionLens : Lens (Graph σ) (Session σ) := ⟨Graph.session, fun session graph => { graph with session }⟩

/-- Write a log line. -/
def note (level : LogLevel) (text : String) : GraphM σ Unit :=
  (Session.note level .graph text).inside sessionLens

def deviceAction {α : Type} (wrap : DeviceError → GraphError) (action : HostM σ α) : GraphM σ α :=
  ((action.mapError wrap).inside Session.hostLens).inside sessionLens

/-- Act on the resource pool. -/
def poolAction {α : Type} (action : PoolM σ α) : GraphM σ α :=
  (((action.inWhole Session.hostLens).mapError GraphError.device).joined Session.poolLens).inside
    sessionLens

/-- What a step of the passes came to. -/
def passAction (step : List Pass → StateM (Session σ) (Pass.Outcome (List Pass))) : GraphM σ Unit := do
  let graph ← get
  let ((result, passes), session) := (step graph.passes).run graph.session
  set { graph with session, passes }
  MonadExcept.ofExcept (result.mapError .pass)

def setSurface (surface : Surface) : GraphM σ Unit :=
  modify fun graph => { graph with session := { graph.session with surface := some surface } }

variable [Device σ]

/-- A graph on a device; nothing is created on the device yet. The shared values and the coordinators
are the caller's. -/
def build (host : Host σ) (shared : Shared) (coordinators : List (String × OffFrame.Coordinator))
    (program : Program) (table : ResourceTable) : Except GraphError (Graph σ) := do
  let (compiled, log) ← (program.compile table (Device.caps host.device)).mapError .compile
  let (passes, _) ←
    ((Pass.ofComponents table compiled.leaves program.root).run 0).mapError .leafMismatch
  let usage := compiled.usage
  let line : LogLine := ⟨.info, .graph,
    s!"built pass graph: {compiled.units.length} units, {compiled.leaves.length} leaves, {usage.textures.length} textures, {usage.buffers.length} buffers"⟩
  return {
    session := {
      host := { host with log := host.log ++ log ++ [line] }
      compiled
      pool := .empty table usage
      blockGroups := compiled.blocks.map fun _ => none
      shared
      coordinators }
    passes }

/-- Create the module of a unit. -/
def createModule (unit : CompiledUnit) : GraphM σ ShaderModule :=
  deviceAction (.program unit.label) (Host.perform (Device.createModule ⟨unit.label, unit.source⟩))

/-- Modules are kept from the first attempt that created them all. -/
def keepModules (modules : List ShaderModule) : GraphM σ Unit := do
  let graph ← get
  if graph.session.modules.isSome then
    note .debug "programs were created by an earlier setup attempt"
  else set { graph with session := { graph.session with modules := some modules } }

/-- Follow a change of the display surface; only what depends on it is created anew. -/
def resize (surface : Surface) : GraphM σ Unit := do
  if (← get).ready then
    let _ ← poolAction (Pool.resize surface)
  setSurface surface

/-- Create modules and resources and set every pass up; on a graph that is ready, follow the surface. -/
def setup (surface : Surface) : GraphM σ Unit := do
  let graph ← get
  if graph.ready then resize surface
  else
    keepModules (← graph.session.compiled.units.mapM createModule)
    let _ ← poolAction (Pool.materialize surface)
    setSurface surface
    passAction (Pass.setupAll ⟨(← get).session.pool, surface⟩)
    modify fun graph => { graph with ready := true }
    note .info s!"pass graph set up at {surface.sizeText}"

/-- Record one frame into a stream of its own. -/
def encodeFrame (target : Option Texture) (surface : Surface) : GraphM σ CommandStream := do
  let graph ← get
  let view : EncodeView := { pool := graph.session.pool, surface, target, frame := graph.frame }
  let start : CommandStream := { label := s!"frame {graph.frame}" }
  let ((result, stream), session) :=
    (Pass.encodeAll Session.ask view graph.passes).apply start graph.session
  set { graph with session }
  MonadExcept.ofExcept (result.mapError GraphError.pass)
  return stream

/-- Prepare all passes, then record them; the caller may drop the stream. -/
def encode (target : Option Texture) (surface : Surface) : GraphM σ CommandStream := do
  if !(← get).ready then throw .notSetUp
  if (← get).session.surface ≠ some surface then resize surface
  passAction (Pass.prepareAll ⟨(← get).session.pool, surface⟩)
  let stream ← encodeFrame target surface
  let frame := (← get).frame
  note .trace s!"encoded frame {frame}"
  modify fun graph => { graph with frame := frame + 1 }
  return stream

/-- Submit the rest of a frame; the result lists all its submissions. -/
def finish (stream : CommandStream) : GraphM σ (List Nat) := deviceAction .device (CommandStream.finish stream)

/-- Record and submit one frame. -/
def runFrame (target : Option Texture) (surface : Surface) : GraphM σ (List Nat) := do
  finish (← encode target surface)

end Graph

end FrameGraph
