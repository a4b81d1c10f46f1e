import FrameGraph.OffFrame.State
import FrameGraph.Pass.Basic

/-! # Coordinators

Everything that belongs to one off-frame group: its state, the jobs that its worker has not taken yet,
the work that setup attached, and the caller's hooks. A worker runs one job at a time.
-/

namespace FrameGraph.OffFrame

inductive WorkError where
  | notAttached (label : String)
  | notSetUp (label : String)
  | pass (cause : PassError)
  | device (cause : DeviceError)
  | prepare (text : String)
deriving DecidableEq, Repr

def WorkError.message : WorkError → String
  | .notAttached label => s!"async group '{label}' has no attached work"
  | .notSetUp label => s!"async group '{label}' ran before the graph was set up"
  | .pass cause => cause.message
  | .device cause => cause.message
  | .prepare text => s!"prepare hook failed: {text}"

/-- The set-up children of a group. -/
structure Work where
  passes : List Pass
  /-- Runs that succeeded. -/
  runs : Nat := 0

/-- What the caller does with parameters before a job is encoded; it may refuse them. -/
inductive PrepareHook where
  | absent
  | immediate (check : NamedParameters → Except String Unit)
  /-- The worker waits in the hook until the caller lets it go on. -/
  | gated

inductive WorkerStage where
  | free
  /-- In a gated hook, with the parameters of the job. -/
  | waiting (params : NamedParameters)
  /-- Inside a job. -/
  | busy
deriving DecidableEq, Repr

structure Coordinator where
  state : State NamedParameters := .idle
  /-- Jobs that were sent and not yet taken. -/
  queue : List NamedParameters := []
  stage : WorkerStage := .free
  work : Option Work := none
  /-- Jobs taken so far, failed ones included. -/
  dispatches : Nat := 0
  prepareHook : PrepareHook := .absent
  /-- The completion hook and its successors; each call but the last one's makes way for the next. -/
  completionHooks : List String := []
  /-- Parameters that the prepare hook was called with. -/
  prepared : List NamedParameters := []
  /-- Completion hooks that were called, with the parameters. -/
  completed : List (String × NamedParameters) := []

namespace Coordinator

/-- Call the completion hook. -/
def callCompletion (coordinator : Coordinator) (params : NamedParameters) : Coordinator :=
  match coordinator.completionHooks with
  | [] => coordinator
  | [hook] => { coordinator with completed := coordinator.completed ++ [(hook, params)] }
  | hook :: next :: later =>
    { coordinator with
      completed := coordinator.completed ++ [(hook, params)]
      completionHooks := next :: later }

def send (coordinator : Coordinator) (params : NamedParameters) : Coordinator :=
  { coordinator with queue := coordinator.queue ++ [params] }

end Coordinator

end FrameGraph.OffFrame
