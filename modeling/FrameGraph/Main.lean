import FrameGraph.Tool.Run

/-! # The executable -/

namespace FrameGraph

/-- The system's words for a failure. -/
def describeFailure : IO.Error → String
  | .noFileOrDirectory _ code reason | .inappropriateType _ code reason
  | .permissionDenied _ code reason => s!"{reason} (os error {code})"
  | other => other.toString

/-- The files of the system. -/
def systemFiles : FileAccess IO where
  workingDirectory := return (← IO.currentDir).toString
  pathExists path :=
    try
      let _ ← IO.FS.readFile path
      return true
    catch
      | .noFileOrDirectory .. => return false
      | .inappropriateType _ code _ => return code == 21
      | _ => return true
  read path :=
    try
      return .ok (← IO.FS.readFile path)
    catch error => return .error (describeFailure error)

end FrameGraph

def main (arguments : List String) : IO UInt32 := do
  let outcome ← FrameGraph.Tool.run FrameGraph.systemFiles arguments
  IO.print outcome.output
  IO.eprint outcome.errors
  return outcome.exit.toUInt32
