import FrameGraph.Demo.Report
import FrameGraph.Tool.CommandLine
import FrameGraph.Tool.LogFilter
import FrameGraph.Tool.Search

/-! # The command-line tool

Arguments and files determine what the program prints, where it prints it and its exit code.
-/

namespace FrameGraph

namespace Tool

def version : String := "0.1.0"

/-- What a run leaves behind. -/
structure Outcome where
  exit : Nat := 0
  output : String := ""
  errors : String := ""
deriving DecidableEq, Repr

def failure (output message : String) : Outcome :=
  { exit := 1, output, errors := s!"Error: {message}\n" }

def usage : String := Text.lines [
  "Usage: kiln [OPTIONS] <COMMAND>",
  "",
  "Commands:",
  "  run       Open a window and drive a demo graph every frame",
  "  compile   Print the program text generated for a demo",
  "  headless  Run frames on the recorder and print what was submitted",
  "  demos     List the bundled demos",
  "  help      Print this message",
  "",
  "Options:",
  "      --config <CONFIG>  Path of the settings file",
  "      --log <LOG>        Log filter",
  "      --no-validate      Do not validate the program text",
  "  -h, --help             Print help",
  "  -V, --version          Print version"]

def refuse : Refusal → Outcome
  | .displayHelp => { output := usage }
  | .displayVersion => { output := s!"kiln {version}\n" }
  | .usage => { exit := 2, errors := usage }

/-- The lines that every run starts with. -/
def startLog (path : Option String) : List LogLine :=
  ⟨.info, .program, s!"kiln v{version}"⟩ ::
    path.toList.map fun path => ⟨.info, .program, s!"loaded config {path}"⟩

/-- The text that a task prints, and the log of the work. -/
def report (settings : Settings) (task : Task) : Except String String × List LogLine :=
  let demo := task.demo?.getD settings.defaultDemo
  match task with
  | .run _ => (.error "no display is available", [])
  | .compile _ =>
    match Demo.programReport demo with
    | .ok (text, log) => (.ok text, log)
    | .error cause => (.error cause.message, [])
  | .headless _ frames =>
    let surface := .ofSize settings.window.width settings.window.height .bgra8UnormSrgb
    let (result, log) := Demo.headlessReport demo frames surface
    (result.mapError ReportError.message, log)
  | .demos => (.ok Demo.listing, [])

/-- Do a task: the log comes first, then its report. -/
def perform (settings : Settings) (path : Option String) (line : CommandLine) : Outcome :=
  let filter := LogFilter.ofText (line.options.log.getD settings.log)
  let (result, log) := report settings line.task
  let output := filter.print (startLog path ++ log)
  match result with
  | .ok text => { output := output ++ text }
  | .error message => failure output message

/-- Run the program with arguments. -/
def run {m : Type → Type} [Monad m] (files : FileAccess m) (arguments : List String) : m Outcome := do
  match CommandLine.ofArguments arguments with
  | .error refusal => return refuse refusal
  | .ok line =>
    match ← Settings.resolve files line.options.config with
    | .error cause => return failure "" cause.message
    | .ok (settings, path) => return perform settings path line

end Tool

end FrameGraph
