import FrameGraph.Demo.Source
import FrameGraph.OffFrame.Coordinator

/-! # Bundled demos

Each demo is a program with its resources, the shared values it starts with, its off-frame groups and
what its host does before a frame.
-/

namespace FrameGraph

structure Demo where
  name : String
  summary : String
  program : Program
  resources : ResourceTable
  shared : Shared := {}
  coordinators : List (String × OffFrame.Coordinator) := []
  /-- Change the shared values before a frame that lasts this many seconds. -/
  advance : Float32 → Shared → Shared := fun _ shared => shared

/-- The name of no demo. -/
structure UnknownDemo where
  name : String
deriving DecidableEq, Repr

def UnknownDemo.message (error : UnknownDemo) : String := s!"unknown demo '{error.name}' (see `kiln demos`)"

namespace Demo

/-- An argument without a pinned number or a type of its own. -/
def argument (name : String) (kind : ArgumentKind) : Argument := ⟨name, none, none, kind⟩

/-- A bytes argument fed by a shared scalar. -/
def scalarArgument (name : String) (format : Scalar) : Argument :=
  argument name (.bytes (.shared name (.scalar format) format.size))

/-- A shared scalar that starts at zero. -/
def zeroScalar (name : String) (format : Scalar) : String × HostValue := (name, ⟨format, .scalar format, [0]⟩)

/-- A clear colour. -/
def clearTo (red green blue : Float) : LoadAction :=
  .clear red.toBits green.toBits blue.toBits (1.0 : Float).toBits

/-- Tile an image over the display surface. -/
def present (image : TextureHandle) : Component := .leaf (.draw {
  label := "present"
  source := presentText
  vertex := "present_vs"
  fragment := "present_fs"
  fragmentArguments := [argument "image" (.texture image .sample)]
  targets := [{ texture := .surface, load := clearTo 0.02 0.02 0.03 }] })

/-- A kernel writes a picture as large as the display surface, and a draw presents it. -/
def gradient : Demo where
  name := "gradient"
  summary := "compute shader fills a viewport-sized texture, a fullscreen draw presents it"
  resources := {
    textures := [{ name := "image", size := .viewport, format := .fixed .rgba8Unorm }] }
  program := {
    library := libraryText
    root := [
      .leaf (.dispatch {
        label := "shade"
        source := shadeText
        function := "shade"
        arguments := [argument "image" (.texture ⟨0⟩ .write), scalarArgument "time" .f32]
        fits := [.texture "image"] }),
      present ⟨0⟩] }
  shared := { uniforms := [zeroScalar "time" .f32] }
  advance seconds shared := shared.addUniform "time" [seconds.toBits]

def particleCount : Nat := 4096

/-- Steps of integration in a frame. -/
def substeps : Nat := 2

def particleType : HostType :=
  let pair : HostType := .array (.scalar .f32) 2
  .record ⟨"Particle", [⟨"position", pair, 0⟩, ⟨"velocity", pair, 8⟩], 16⟩

/-- The length of one step of integration: a frame counts as a twentieth of a second at most. -/
def stepLength (seconds : Float32) : Float32 :=
  (if seconds < 0.05 then seconds else 0.05) / Float32.ofNat substeps

/-- Particles in free flight, integrated in steps and drawn as points. -/
def particles : Demo where
  name := "particles"
  summary := "repeated integration substeps over a particle buffer, drawn as points"
  resources := { buffers := [.ofHost "particles" particleType (.fixed particleCount)] }
  program := {
    library := libraryText
    root := [
      .group { label := "simulate", repeatCount := some "substeps" } [
        .leaf (.dispatch {
          label := "integrate"
          source := integrateText
          function := "integrate"
          arguments := [argument "particles" (.buffer ⟨0⟩ (.storage false)), scalarArgument "dt" .f32]
          fits := [.buffer "particles"] })],
      .leaf (.draw {
        label := "points"
        source := pointsText
        vertex := "point_vs"
        fragment := "point_fs"
        vertexArguments := [argument "particles" (.buffer ⟨0⟩ (.storage true))]
        targets := [{ texture := .surface, load := clearTo 0 0 0 }]
        topology := .pointList
        vertices := .buffer ⟨0⟩ })] }
  shared := {
    uniforms := [zeroScalar "dt" .f32]
    counters := [("substeps", substeps)] }
  advance seconds shared := shared.setUniform "dt" [(stepLength seconds).toBits]

def noiseSize : Nat := 256

/-- Frames between two bakes. -/
def bakeInterval : Nat := 240

/-- A complete bake is taken, and every so often another one is run with the next seed. -/
def scheduleBake (view : EncodeView) : CallbackCode :=
  let bake : CallbackCode :=
    if view.frame % bakeInterval = 0 then
      .share (·.addUniform "seed" [1]) (.ask "bake" (.run []) .done)
    else .done
  bake.readyIfComplete "bake"

/-- Noise baked off-frame, blurred and presented once it was baked for the first time. -/
def filters : Demo where
  name := "filters"
  summary := "noise baked by an async group, blurred by a vendor filter once ready"
  resources := {
    textures := ["noise", "blurred"].map fun name =>
      { name, size := .fixed noiseSize noiseSize, format := .fixed .rgba8Unorm } }
  program := {
    library := libraryText
    root := [
      .leaf (.callback {
        label := "schedule bake"
        code := scheduleBake }),
      .offFrame "bake" [
        .leaf (.dispatch {
          label := "bake"
          source := bakeText
          function := "bake"
          arguments := [argument "noise" (.texture ⟨0⟩ .write), scalarArgument "seed" .u32]
          fits := [.texture "noise"] })],
      .group { label := "show", active := some (.completedOnce "bake") } [
        .leaf (.filter {
          label := (ImageFilter.gaussianBlur 2).name
          filter := .gaussianBlur 2
          source := ⟨0⟩
          destination := ⟨1⟩ }),
        present ⟨1⟩]] }
  shared := { uniforms := [zeroScalar "seed" .u32] }
  coordinators := [("bake", {})]

def all : List Demo := [gradient, particles, filters]

def ofName (name : String) : Except UnknownDemo Demo :=
  match all.find? (·.name == name) with
  | some demo => .ok demo
  | none => .error ⟨name⟩

end Demo

end FrameGraph
