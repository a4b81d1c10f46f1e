import FrameGraph.Pass.Tree

/-! # Workers

A worker takes the jobs of its coordinator one by one. A job calls the prepare hook, encodes the
group's passes into a stream of its own, submits it and waits for the device. A request is carried out
at once: the worker runs until nothing is queued or it waits in a gated hook. Passes of a job may make
requests in turn; a coordinator that is inside a job only merges parameters.
-/

namespace FrameGraph

open OffFrame

variable {σ : Type}

namespace Session

/-- Do what a transition asks for. -/
def carryOut (session : Session σ) (name : String) : Action NamedParameters → Session σ
  | .none => session
  | .dispatch params => session.modifyCoordinator name (·.send params)
  | .complete params =>
    ((session.modifyShared (·.setFlag (.completedOnce name) true)).addLog .debug .offFrame
      s!"async group '{name}' complete").modifyCoordinator name (·.callCompletion params)

/-- Change the state of a coordinator and do what the change asks for. -/
def transition (session : Session σ) (name : String)
    (step : State NamedParameters → State NamedParameters × Action NamedParameters) : Session σ :=
  match session.coordinator? name with
  | none => session
  | some coordinator =>
    let (state, action) := step coordinator.state
    let session := session.modifyCoordinator name fun coordinator => { coordinator with state }
    (session.updateFlags name).carryOut name action

/-- Hand a request to a coordinator; its worker does not run yet. -/
def receive (session : Session σ) (name : String) : Request → Session σ
  | .ready => session.transition name State.ready
  | .run params =>
    let session :=
      if (session.coordinator? name).any (·.state.isBusy) then
        session.addLog .trace .offFrame s!"async group '{name}' busy, parameters coalesced"
      else session
    session.transition name (State.run params)

def setStage (session : Session σ) (name : String) (stage : WorkerStage) : Session σ :=
  session.modifyCoordinator name fun coordinator => { coordinator with stage }

variable [Device σ]

/-- Prepare and encode the work of a group, submit it and wait. -/
def runPasses (ask : Ask σ) (name : String) (work : Work) (surface : Surface) :
    StateM (Session σ) (Except WorkError Unit × Work) := do
  let view : PassView := ⟨(← get).pool, surface⟩
  let (prepared, passes) ← Pass.prepareAll view work.passes
  let work := { work with passes }
  match prepared with
  | .error error => return (.error (.pass error), work)
  | .ok () =>
    let stream : CommandStream := { label := s!"{name} (async)" }
    let encodeView : EncodeView := { view with target := none, frame := work.runs }
    let (encoded, stream) ← (Pass.encodeAll ask encodeView passes).run.run stream
    match encoded with
    | .error error => return (.error (.pass error), work)
    | .ok () =>
      let (finished, _) ← (CommandStream.commitAndWait.inWhole hostLens).run.run stream
      match finished with
      | .error error => return (.error (.device error), work)
      | .ok () => return (.ok (), { work with runs := work.runs + 1 })

/-- Run the attached work of a group. -/
def runWork (ask : Ask σ) (name : String) : StateM (Session σ) (Except WorkError Unit) := do
  let session ← get
  match (session.coordinator? name).bind (·.work), session.pool.surface with
  | none, _ => return .error (.notAttached name)
  | some _, none => return .error (.notSetUp name)
  | some work, some surface =>
    let (result, work) ← runPasses ask name work surface
    modify fun session => session.modifyCoordinator name fun coordinator =>
      { coordinator with work := some work }
    return result

/-- Finish a job whose prepare hook has answered. -/
def finishJob (ask : Ask σ) (name : String) (prepared : Except String Unit) (session : Session σ) :
    Session σ :=
  let (result, session) : Except WorkError Unit × Session σ := match prepared with
    | .error text => (.error (.prepare text), session)
    | .ok () => (runWork ask name).run session
  let session := match result with
    | .error error => session.addLog .error .offFrame
        s!"async group '{name}' dispatch failed: {WorkError.message error}"
    | .ok () => session
  (session.transition name (State.finish result.isOk)).setStage name .free

/-- Take a job up to its prepare hook; a gated hook keeps the worker. -/
def startJob (ask : Ask σ) (name : String) (hook : PrepareHook) (params : NamedParameters)
    (session : Session σ) : Session σ :=
  let called (coordinator : Coordinator) : Coordinator :=
    { coordinator with prepared := coordinator.prepared ++ [params] }
  match hook with
  | .absent => session.finishJob ask name (.ok ())
  | .immediate check => (session.modifyCoordinator name called).finishJob ask name (check params)
  | .gated => (session.modifyCoordinator name called).setStage name (.waiting params)

/-- Let the worker of a coordinator run; `fuel` bounds the jobs that this starts, and what is left stays
queued. -/
def settle : Nat → String → Session σ → Session σ
  | 0, _, session => session
  | fuel + 1, name, session =>
    match session.coordinator? name with
    | some { stage := .free, queue := params :: queue, prepareHook, .. } =>
      let taken := session.modifyCoordinator name fun coordinator =>
        { coordinator with queue, stage := .busy, dispatches := coordinator.dispatches + 1 }
      let ask : Ask σ := fun other request session => settle fuel other (session.receive other request)
      settle fuel name (taken.startJob ask name prepareHook params)
    | _ => session

/-- The most jobs that one request starts. -/
def jobLimit : Nat := 1000

/-- Carry a request out and let the worker run. -/
def ask (name : String) (request : Request) (session : Session σ) : Session σ :=
  settle jobLimit name (session.receive name request)

/-- The worker waits in a gated hook. -/
def isWaiting (session : Session σ) (name : String) : Bool :=
  (session.coordinator? name).any fun coordinator =>
    match coordinator.stage with
    | .waiting _ => true
    | _ => false

/-- Answer the gated hook that a worker waits in; without one nothing happens. -/
def release (name : String) (answer : Except String Unit) (session : Session σ) : Session σ :=
  if session.isWaiting name then
    let session := session.setStage name .busy
    settle jobLimit name (session.finishJob ask name answer)
  else session

end Session

end FrameGraph
