import FrameGraph.Device.Command
import FrameGraph.Effect
import FrameGraph.Grid.Plan
import FrameGraph.Log

/-! # The device interface

A device is a state with operations that create objects, upload bytes, take commands and submit them.
An operation that fails may have changed the device.
-/

namespace FrameGraph

inductive DeviceError where
  | creation (what message : String)
  /-- The hardware's own validation refused a creation. -/
  | refused (what : String)
  | submission (message : String)
  | unsupported (what : String)
deriving DecidableEq, Repr

def DeviceError.message : DeviceError → String
  | .creation what message => s!"failed to create {what}: {message}"
  | .refused what => s!"failed to create {what}: validation error"
  | .submission message => s!"submission failed: {message}"
  | .unsupported what => s!"{what} is not supported by this device"

/-- An operation of a device whose state is a `σ`. -/
abbrev DeviceM (σ : Type) := Effect σ DeviceError

class Device (σ : Type) where
  caps : σ → DeviceCaps
  createTexture : TextureSpec → DeviceM σ Texture
  createBuffer : BufferSpec → DeviceM σ Buffer
  /-- Upload bytes at an offset. -/
  writeBuffer : Buffer → Nat → List UInt8 → σ → σ
  createModule : ShaderModule → DeviceM σ ShaderModule
  createComputePipeline : ComputePipelineSpec → DeviceM σ ComputePipeline
  createRenderPipeline : RenderPipelineSpec → DeviceM σ RenderPipeline
  createBindGroup : String → List LayoutEntry → List BoundResource → DeviceM σ BindGroup
  createFilter : ImageFilter → PixelFormat → DeviceM σ PreparedFilter
  /-- What the device does when an encoder takes a command. -/
  encode : Command → DeviceM σ Unit
  /-- Submit the commands of an encoder; the result numbers the submission. -/
  submit : String → List Command → DeviceM σ Nat
  /-- Wait until a submission has finished. -/
  wait : Nat → DeviceM σ Unit

/-- A device and the log of what is done with it. -/
structure Host (σ : Type) where
  device : σ
  log : List LogLine := []

/-- An action on a device and its log. -/
abbrev HostM (σ : Type) := Effect (Host σ) DeviceError

namespace Host

variable {σ : Type}

def addLog (host : Host σ) (level : LogLevel) (source : LogSource) (text : String) : Host σ :=
  { host with log := host.log ++ [⟨level, source, text⟩] }

def deviceLens : Lens (Host σ) σ := ⟨Host.device, fun device host => { host with device }⟩

/-- Run a device operation. -/
def perform {α : Type} (operation : DeviceM σ α) : HostM σ α := operation.inside deviceLens

/-- Write a log line. -/
def note (level : LogLevel) (source : LogSource) (text : String) : HostM σ Unit :=
  modify fun host => host.addLog level source text

end Host

end FrameGraph
