import FrameGraph.Device.Interface

/-! # Command streams

The commands of a frame on their way to the device. An encoder is opened by the first command after a
submission; committing submits it. A stream that is dropped submits nothing more.
-/

namespace FrameGraph

structure CommandStream where
  label : String
  /-- The commands of the open encoder. -/
  encoder : Option (List Command) := none
  /-- Submissions made so far, oldest first. -/
  submissions : List Nat := []
deriving DecidableEq

/-- An action on a stream of commands for a device. -/
abbrev StreamM (σ : Type) := PartEffect CommandStream (Host σ) DeviceError

namespace CommandStream

/-- An encoder is open. -/
def hasPending (stream : CommandStream) : Bool := stream.encoder.isSome

variable {σ : Type}

/-- Open an encoder unless one is open. -/
def openEncoder : StreamM σ Unit :=
  modify fun stream => { stream with encoder := some (stream.encoder.getD []) }

variable [Device σ]

/-- Record a command. -/
def record (command : Command) : StreamM σ Unit := do
  openEncoder
  PartEffect.around (Host.perform (Device.encode command))
  modify fun stream => { stream with encoder := stream.encoder.map (· ++ [command]) }

/-- Submit the open encoder, if there is one. -/
def commit : StreamM σ (Option Nat) := do
  let stream ← get
  match stream.encoder with
  | none => return none
  | some commands =>
    set { stream with encoder := none }
    let submission ← PartEffect.around (Host.perform (Device.submit stream.label commands))
    PartEffect.around (Host.note .trace .recording s!"submission {submission}: {commands.length} commands")
    modify fun stream => { stream with submissions := stream.submissions ++ [submission] }
    return some submission

/-- Submit and wait until the device has finished everything so far. -/
def commitAndWait : StreamM σ Unit := do
  if let some submission ← commit then
    PartEffect.around (Host.perform (Device.wait submission))

/-- Submit what is left; the result lists every submission of the stream. -/
def finish (stream : CommandStream) : HostM σ (List Nat) :=
  Effect.ofFunction fun host =>
    let ((result, stream), host) := commit.apply stream host
    (result.map fun _ => stream.submissions, host)

end CommandStream

end FrameGraph
