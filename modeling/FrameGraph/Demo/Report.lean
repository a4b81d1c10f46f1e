import FrameGraph.Demo.Basic
import FrameGraph.Device.Recorder
import FrameGraph.Graph

/-! # Reports on demos

The list of demos, the program text of a demo, and what the recorder was given when some frames of a
demo ran on it.
-/

namespace FrameGraph

inductive ReportError where
  | demo (cause : UnknownDemo)
  | compile (cause : CompileError)
  | graph (cause : GraphError)
deriving Repr

def ReportError.message : ReportError → String
  | .demo cause => cause.message
  | .compile cause => cause.message
  | .graph cause => cause.message

namespace Demo

/-- A line for every demo, with the names padded to one width. -/
def listing : String :=
  let width := (all.map (·.name.length)).foldl max 0
  String.join (all.map fun demo =>
    "  " ++ demo.name ++ "".pushn ' ' (width - demo.name.length) ++ "  " ++ demo.summary ++ "\n")

/-- The text of one unit below a line with its label and its entry points. -/
def unitReport (unit : CompiledUnit) : String :=
  let entries := ", ".intercalate unit.entries
  s!"// ---- unit '{unit.label}': {entries} ----\n{unit.source}\n"

/-- The program text of a demo, with the log of its compile. -/
def programReport (name : String) : Except ReportError (String × List LogLine) := do
  let demo ← (ofName name).mapError .demo
  let (compiled, log) ← (demo.program.compile demo.resources {}).mapError .compile
  return (String.join (compiled.units.map unitReport), log)

/-- The graph of a demo on a device. -/
def graph {σ : Type} [Device σ] (demo : Demo) (host : Host σ) : Except GraphError (Graph σ) :=
  Graph.build host demo.shared demo.coordinators demo.program demo.resources

/-- A frame of the headless run lasts a sixtieth of a second. -/
def frameSeconds : Float32 := 1 / 60

/-- Let the host of a demo do what it does before a frame. -/
def beginFrame {σ : Type} (demo : Demo) (graph : Graph σ) : Graph σ :=
  { graph with session := graph.session.modifyShared (demo.advance frameSeconds) }

def submissionReport (submission : Submission) : String :=
  let commands := ", ".intercalate (submission.commands.map Command.label)
  s!"#{submission.index} {submission.label}: {commands}\n"

/-- What the recorder was given in so many frames. -/
def recorderReport (frames : Nat) (recorder : Recorder) : String :=
  String.join (recorder.submissions.map submissionReport) ++
    s!"{frames} frames, {recorder.submissions.length} submissions, {recorder.writes.length} uploads\n"

/-- Run one frame of a demo. -/
def runFrame {σ : Type} [Device σ] (demo : Demo) (target : Texture) (surface : Surface) :
    GraphM σ (List Nat) := do
  modify demo.beginFrame
  Graph.runFrame (some target) surface

/-- Set a demo up on the recorder, run frames and report; the log is written in any case. -/
def headless (frames : Nat) (surface : Surface) (demo : Demo) : GraphM Recorder String := do
  Graph.setup surface
  let target ← Graph.deviceAction .device (Host.perform (Recorder.surfaceTexture surface))
  repeatedly (do
    let _ ← demo.runFrame target surface) frames
  return recorderReport frames (← get).session.host.device

/-- The report of a headless run and its log. -/
def headlessReport (name : String) (frames : Nat) (surface : Surface) :
    Except ReportError String × List LogLine :=
  match ofName name with
  | .error cause => (.error (.demo cause), [])
  | .ok demo =>
    match demo.graph { device := ({} : Recorder) } with
    | .error cause => (.error (.graph cause), [])
    | .ok graph =>
      let (result, graph) := (headless frames surface demo).apply graph
      (result.mapError .graph, graph.session.host.log)

end Demo

end FrameGraph
