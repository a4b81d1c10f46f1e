import FrameGraph.Files.Access
import FrameGraph.Tool.Settings

/-! # Finding the settings

Settings come from a file that is named explicitly, else from the nearest one above the working
directory, else they keep their defaults.
-/

namespace FrameGraph

inductive SettingsError where
  /-- The file could not be read; `reason` is in the words of the system. -/
  | io (path reason : String)
  | parse (path : String)
deriving DecidableEq, Repr

def SettingsError.message : SettingsError → String
  | .io path reason => s!"IO error reading {path}: {reason}"
  | .parse path => s!"failed to parse {path}"

namespace Settings

def fileName : String := "kiln.yaml"

/-- The settings files of a directory and of those above it, nearest first; `names` leads to it, last
name first. -/
def candidatesAbove : List String → List String
  | [] => ["/" ++ fileName]
  | name :: above =>
    ("/" ++ "/".intercalate (name :: above).reverse ++ "/" ++ fileName) :: candidatesAbove above

/-- The places where a settings file is looked for. -/
def candidates (directory : String) : List String :=
  candidatesAbove ((Text.splitOn '/' [] directory.toList).filter (!·.isEmpty) |>.map String.ofList).reverse

variable {m : Type → Type} [Monad m]

/-- The first path at which there is something. -/
def firstExisting (files : FileAccess m) : List String → m (Option String)
  | [] => return none
  | path :: rest => do
    if ← files.pathExists path then return some path else firstExisting files rest

/-- The settings file to read, if there is one. -/
def locate (files : FileAccess m) (explicit : Option String) : m (Option String) := do
  match explicit with
  | some path => return some path
  | none => firstExisting files (candidates (← files.workingDirectory))

def load (files : FileAccess m) (path : String) : m (Except SettingsError Settings) := do
  match ← files.read path with
  | .error reason => return .error (.io path reason)
  | .ok text =>
    match ofText? text with
    | some settings => return .ok settings
    | none => return .error (.parse path)

/-- The settings, and the path that they were read from. -/
def resolve (files : FileAccess m) (explicit : Option String) :
    m (Except SettingsError (Settings × Option String)) := do
  match ← locate files explicit with
  | none => return .ok ({}, none)
  | some path => return (← load files path).map fun settings => (settings, some path)

end Settings

end FrameGraph
