import FrameGraph.Pass.Dispatch
import FrameGraph.Pass.Draw
import FrameGraph.Pass.Transfer

/-! # Trees of passes

Setup, preparation and encoding of a whole tree, in order. A group reads its flag and its counter once
a frame, when it is prepared, so that a callback that changes them later cannot encode children that
were not prepared. An off-frame group hands its children over to its coordinator at setup; in the frame
it only reports that a frame has seen it.
-/

namespace FrameGraph

/-- How requests to the coordinator of a name are carried out. -/
abbrev Ask (σ : Type) := String → OffFrame.Request → Session σ → Session σ

namespace Session

variable {σ : Type}

/-- The busy and complete flags of a group show its state. -/
def updateFlags (session : Session σ) (name : String) : Session σ :=
  match session.coordinator? name with
  | some coordinator => session.modifyShared fun shared =>
      (shared.setFlag (.busy name) coordinator.state.isBusy).setFlag (.complete name)
        coordinator.state.isComplete
  | none => session

/-- A frame looks at an off-frame group. -/
def observeFrame (session : Session σ) (name : String) : Session σ :=
  match session.coordinator? name with
  | none => session
  | some coordinator =>
    match coordinator.state.observe with
    | (_, false) => session
    | (state, true) =>
      (session.modifyCoordinator name fun coordinator => { coordinator with state }).updateFlags name

/-- Hand set-up children over to a coordinator. -/
def attach (session : Session σ) (name : String) (passes : List Pass) : Session σ :=
  (session.addLog .info .offFrame s!"async group '{name}' attached").modifyCoordinator name
    fun coordinator => { coordinator with work := some { passes } }

end Session

section

variable {σ : Type} [Device σ]

/-- Act on the stream of a frame and go on with what came of it. -/
def Session.tryStream {α : Type} (action : StreamM σ α) : EncodeM σ (Except DeviceError α) :=
  (action.inWhole hostLens).attempt

/-- Carry out the code of a callback. -/
def CallbackCode.run (ask : Ask σ) : CallbackCode → EncodeM σ Unit
  | .finish result => MonadExcept.ofExcept result
  | .look next => do
    let stream ← get
    let session ← PartEffect.around get
    run ask (next ⟨stream.hasPending, stream.submissions, session.shared⟩)
  | .openEncoder next => do
    let _ ← Session.tryStream CommandStream.openEncoder
    run ask next
  | .record command next => do
    let result ← Session.tryStream (CommandStream.record command)
    run ask (next result)
  | .commit next => do
    let result ← Session.tryStream CommandStream.commit
    run ask (next result)
  | .commitAndWait next => do
    let result ← Session.tryStream CommandStream.commitAndWait
    run ask (next result)
  | .share change next => do
    PartEffect.around (modify fun session => session.modifyShared change)
    run ask next
  | .ask group request next => do
    PartEffect.around (modify (ask group request))
    run ask next
  | .writeDown entry next => do
    PartEffect.around (modify fun session => { session with records := session.records ++ [entry] })
    run ask next

def Callback.encode (ask : Ask σ) (node : Callback) (view : EncodeView) : EncodeM σ Unit :=
  (node.code view).run ask

end

/-- How often a group runs its children this frame. -/
def GroupOptions.iterations (options : GroupOptions) (shared : Shared) : Nat :=
  if options.active.any fun key => !shared.flag key then 0
  else match options.repeatCount with
    | some name => shared.counter name
    | none => 1

namespace Pass

variable {σ : Type} [Device σ]

/-- The outcome of a step and what it made of the passes `S`, kept also when it failed. -/
abbrev Outcome (S : Type) := Except PassError Unit × S

/-- Run an action on the state of a pass. -/
def stepOf {S : Type} (wrap : S → Pass) (pass : S) (action : PassM S σ Unit) :
    StateM (Session σ) (Outcome Pass) := do
  let (result, pass) ← action.run.run pass
  return (result, wrap pass)

/-- Nothing to do. -/
def still (pass : Pass) : StateM (Session σ) (Outcome Pass) := return (.ok (), pass)

mutual

/-- Create what a pass needs; children before the handing over. -/
def setup (view : PassView) : Pass → StateM (Session σ) (Outcome Pass)
  | .dispatch pass => stepOf .dispatch pass (DispatchPass.setup view)
  | .draw pass => stepOf .draw pass (DrawPass.setup view)
  | .filter pass => stepOf .filter pass (FilterPass.setup view)
  | .blit node => still (.blit node)
  | .callback node => still (.callback node)
  | .group options planned children => do
    let (result, children) ← setupAll view children
    return (result, .group options planned children)
  | .offFrame name held children =>
    if held then do
      match ← setupAll view children with
      | (.error error, _) => return (.error error, .offFrame name false [])
      | (.ok (), children) =>
        modify fun session => session.attach name children
        return (.ok (), .offFrame name false [])
    else still (.offFrame name held children)

/-- Set passes up in order, up to the first failure. -/
def setupAll (view : PassView) : List Pass → StateM (Session σ) (Outcome (List Pass))
  | [] => return (.ok (), [])
  | pass :: rest => do
    match ← setup view pass with
    | (.error error, pass) => return (.error error, pass :: rest)
    | (.ok (), pass) =>
      let (result, rest) ← setupAll view rest
      return (result, pass :: rest)

end

mutual

/-- Make a pass ready for one frame; the children of a group only if they are encoded at all. -/
def prepare (view : PassView) : Pass → StateM (Session σ) (Outcome Pass)
  | .dispatch pass => stepOf .dispatch pass (DispatchPass.prepare view)
  | .draw pass => stepOf .draw pass (DrawPass.prepare view)
  | .filter pass => still (.filter pass)
  | .blit node => still (.blit node)
  | .callback node => still (.callback node)
  | .group options _ children => do
    let planned := options.iterations (← get).shared
    if planned = 0 then return (.ok (), .group options planned children)
    else
      let (result, children) ← prepareAll view children
      return (result, .group options planned children)
  | .offFrame name held children => still (.offFrame name held children)

/-- Prepare passes in order, up to the first failure. -/
def prepareAll (view : PassView) : List Pass → StateM (Session σ) (Outcome (List Pass))
  | [] => return (.ok (), [])
  | pass :: rest => do
    match ← prepare view pass with
    | (.error error, pass) => return (.error error, pass :: rest)
    | (.ok (), pass) =>
      let (result, rest) ← prepareAll view rest
      return (result, pass :: rest)

end

mutual

/-- Record the commands of a pass. -/
def encode (ask : Ask σ) (view : EncodeView) : Pass → EncodeM σ Unit
  | .dispatch pass => pass.encode
  | .draw pass => pass.encode view
  | .filter pass => pass.encode view
  | .blit node => node.encode view
  | .callback node => node.encode ask view
  | .group options planned children =>
    if planned = 0 then PartEffect.around (Session.note .trace .group s!"group '{options.label}' skipped")
    else repeatedly (encodeAll ask view children) planned
  | .offFrame name _ _ => PartEffect.around (modify fun session => session.observeFrame name)

/-- Encode passes in order. -/
def encodeAll (ask : Ask σ) (view : EncodeView) : List Pass → EncodeM σ Unit
  | [] => return
  | pass :: rest => do
    encode ask view pass
    encodeAll ask view rest

end

end Pass

end FrameGraph
