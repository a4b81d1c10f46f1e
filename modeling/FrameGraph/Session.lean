import FrameGraph.Device.Stream
import FrameGraph.OffFrame.Coordinator
import FrameGraph.Pool

/-! # The state of a built graph

What frames and off-frame jobs work on: the device, the compiled program and its modules, the resource
pool, one bind group for each argument block, the values shared with the caller and the coordinators of
the off-frame groups.
-/

namespace FrameGraph

structure Session (σ : Type) where
  host : Host σ
  compiled : CompiledProgram
  /-- The modules of all units, once they were created. -/
  modules : Option (List ShaderModule) := none
  pool : Pool
  surface : Option Surface := none
  /-- The bind group of each argument block, shared by every pass that uses the block. -/
  blockGroups : List (Option BoundGroup)
  shared : Shared := {}
  coordinators : List (String × OffFrame.Coordinator) := []
  records : List CallbackRecord := []

/-- An action on a session. -/
abbrev SessionM (σ : Type) := Effect (Session σ) PassError

/-- An action on the state `S` of a pass. -/
abbrev PassM (S σ : Type) := PartEffect S (Session σ) PassError

/-- An action that records commands. -/
abbrev EncodeM (σ : Type) := PartEffect CommandStream (Session σ) PassError

namespace Session

variable {σ : Type}

def hostLens : Lens (Session σ) (Host σ) := ⟨Session.host, fun host session => { session with host }⟩

def poolLens : Lens (Session σ) Pool := ⟨Session.pool, fun pool session => { session with pool }⟩

def addLog (session : Session σ) (level : LogLevel) (source : LogSource) (text : String) : Session σ :=
  { session with host := session.host.addLog level source text }

/-- Write a log line. -/
def note {ε : Type} (level : LogLevel) (source : LogSource) (text : String) :
    Effect (Session σ) ε Unit :=
  modify fun session => session.addLog level source text

/-- Run a device operation for a pass. -/
def perform {α : Type} (pass : String) (operation : DeviceM σ α) : SessionM σ α :=
  ((Host.perform operation).inside hostLens).mapError (.device pass)

/-- Act on a command stream for a pass. -/
def stream {α : Type} (pass : String) (action : StreamM σ α) : EncodeM σ α :=
  (action.inWhole hostLens).mapError (.device pass)

/-- Upload to a buffer. -/
def upload [Device σ] (buffer : Buffer) (bytes : List UInt8) : SessionM σ Unit :=
  modify fun session =>
    { session with host :=
      { session.host with device := Device.writeBuffer buffer 0 bytes session.host.device } }

def module? (session : Session σ) (unit : Nat) : Option ShaderModule :=
  (session.modules.getD [])[unit]?

def coordinator? (session : Session σ) (name : String) : Option OffFrame.Coordinator :=
  session.coordinators.lookup name

def modifyCoordinator (session : Session σ) (name : String)
    (change : OffFrame.Coordinator → OffFrame.Coordinator) : Session σ :=
  match session.coordinator? name with
  | some coordinator =>
    { session with coordinators := Shared.assign name (change coordinator) session.coordinators }
  | none => session

def modifyShared (session : Session σ) (change : Shared → Shared) : Session σ :=
  { session with shared := change session.shared }

end Session

end FrameGraph
