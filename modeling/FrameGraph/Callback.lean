import FrameGraph.Device.Interface
import FrameGraph.OffFrame.State
import FrameGraph.Pool

/-! # Callbacks

Code of the caller that runs while a frame is encoded. It sees what every pass sees, acts on the command
stream of the frame, on the values shared with the caller and on off-frame groups, and decides what to do
next by what has come of it so far. What it remembers from one run to the next stands among the shared
values. What it does with the device apart from the stream (objects that it creates, bytes that it
uploads) and putting another stream in place of the frame's are left out.
-/

namespace FrameGraph

/-- What setup and preparation see. -/
structure PassView where
  pool : Pool
  surface : Surface

/-- What encoding sees. -/
structure EncodeView extends PassView where
  /-- The texture to present, absent off-frame. -/
  target : Option Texture
  frame : Nat

inductive PassError where
  | missingTexture (pass : String) (handle : TextureHandle)
  | missingBuffer (pass : String) (handle : BufferHandle)
  | noSurface (pass : String)
  | unbound (pass : String)
  | device (pass : String) (cause : DeviceError)
  | callback (pass text : String)
deriving DecidableEq, Repr

def PassError.message : PassError → String
  | .missingTexture pass handle => s!"{pass}: {handle.text} is not materialized"
  | .missingBuffer pass handle => s!"{pass}: {handle.text} is not materialized"
  | .noSurface pass => s!"{pass}: no display surface this frame"
  | .unbound pass => s!"{pass} was encoded before setup"
  | .device pass cause => s!"{pass}: {cause.message}"
  | .callback pass text => s!"{pass}: {text}"

/-- What a callback saw when it wrote it down. -/
structure CallbackRecord where
  pass : String
  frame : Nat
  surface : Surface
  /-- The texture that the frame is presented in. -/
  target : Option Texture
  pending : Bool
  submissions : List Nat
deriving DecidableEq, Repr

/-- What a callback finds when it looks while it runs. -/
structure CallbackSight where
  /-- An encoder is open. -/
  pending : Bool
  /-- Submissions that the stream has made so far. -/
  submissions : List Nat
  shared : Shared

/-- What a callback does, one thing after the other. Where something may come out in several ways, what
follows is chosen by that. -/
inductive CallbackCode where
  | finish (result : Except PassError Unit)
  | look (next : CallbackSight → CallbackCode)
  /-- Open an encoder unless one is open. -/
  | openEncoder (next : CallbackCode)
  /-- Record a command, whatever it refers to. -/
  | record (command : Command) (next : Except DeviceError Unit → CallbackCode)
  | commit (next : Except DeviceError (Option Nat) → CallbackCode)
  | commitAndWait (next : Except DeviceError Unit → CallbackCode)
  | share (change : Shared → Shared) (next : CallbackCode)
  /-- Make a request to an off-frame group. -/
  | ask (group : String) (request : OffFrame.Request) (next : CallbackCode)
  /-- Write something down for the caller. -/
  | writeDown (entry : CallbackRecord) (next : CallbackCode)

namespace CallbackCode

/-- Nothing is left to do. -/
def done : CallbackCode := .finish (.ok ())

/-- Go on if the device did what it was asked for, and fail with its error otherwise. -/
def ifDone {α : Type} (next : CallbackCode) (label : String) : Except DeviceError α → CallbackCode
  | .ok _ => next
  | .error cause => .finish (.error (.device label cause))

/-- Clear a buffer of the pool, or fail if it is not there. -/
def clear (next : CallbackCode) (label : String) (view : EncodeView) (handle : BufferHandle) : CallbackCode :=
  match view.pool.buffer? handle with
  | some buffer => .record (.clearBuffer buffer) (next.ifDone label)
  | none => .finish (.error (.missingBuffer label handle))

/-- Tell an off-frame group that its result is taken, if there is one. -/
def readyIfComplete (next : CallbackCode) (group : String) : CallbackCode :=
  .look fun sight => if sight.shared.flag (.complete group) then .ask group .ready next else next

/-- Write down what there is to see. -/
def witness (next : CallbackCode) (label : String) (view : EncodeView) : CallbackCode :=
  .look fun sight => .writeDown {
    pass := label
    frame := view.frame
    surface := view.surface
    target := view.target
    pending := sight.pending
    submissions := sight.submissions } next

end CallbackCode

/-- Caller code that runs when the frame is encoded. -/
structure Callback where
  label : String
  code : EncodeView → CallbackCode

end FrameGraph
