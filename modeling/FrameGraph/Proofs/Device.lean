import FrameGraph.Device.Recorder
import FrameGraph.Proofs.Effect
import FrameGraph.WebGpu.Device

/-! # Lawful devices

A device may fail whenever it likes, but an object that it creates is the one it was asked for. Both
devices are lawful.
-/

namespace FrameGraph

/-- From any state of the device, a result of the operation is as described. -/
abbrev DeviceM.Yields {σ α : Type} (operation : DeviceM σ α) (described : α → Prop) : Prop :=
  Effect.Ensures (fun _ => True) operation (fun a _ => described a) fun _ _ => True

/-- Created objects keep the descriptions they were asked for with. -/
class LawfulDevice (σ : Type) [Device σ] : Prop where
  createTexture : ∀ spec, DeviceM.Yields (σ := σ) (Device.createTexture spec) (·.toTextureSpec = spec)
  createBuffer : ∀ spec, DeviceM.Yields (σ := σ) (Device.createBuffer spec) (·.toBufferSpec = spec)
  createModule : ∀ module, DeviceM.Yields (σ := σ) (Device.createModule module) (· = module)
  createComputePipeline : ∀ spec,
    DeviceM.Yields (σ := σ) (Device.createComputePipeline spec) (·.toComputePipelineSpec = spec)
  createRenderPipeline : ∀ spec,
    DeviceM.Yields (σ := σ) (Device.createRenderPipeline spec) (·.toRenderPipelineSpec = spec)
  createBindGroup : ∀ label layout resources,
    DeviceM.Yields (σ := σ) (Device.createBindGroup label layout resources) fun group =>
      group.label = label ∧ group.layout = layout ∧ group.resources = resources
  createFilter : ∀ filter destination,
    DeviceM.Yields (σ := σ) (Device.createFilter filter destination) (· = ⟨filter, destination⟩)

/-- What a graph asks of its device; commands only when they are admitted. -/
inductive Device.Asked {σ : Type} [Device σ] (admitted : Command → Prop) : {α : Type} → DeviceM σ α → Prop
  | createTexture (spec : TextureSpec) : Asked admitted (Device.createTexture spec)
  | createBuffer (spec : BufferSpec) : Asked admitted (Device.createBuffer spec)
  | createModule (module : ShaderModule) : Asked admitted (Device.createModule module)
  | createComputePipeline (spec : ComputePipelineSpec) : Asked admitted (Device.createComputePipeline spec)
  | createRenderPipeline (spec : RenderPipelineSpec) : Asked admitted (Device.createRenderPipeline spec)
  | createBindGroup (label : String) (layout : List LayoutEntry) (resources : List BoundResource) :
    Asked admitted (Device.createBindGroup label layout resources)
  | createFilter (filter : ImageFilter) (destination : PixelFormat) :
    Asked admitted (Device.createFilter filter destination)
  | encode (command : Command) : admitted command → Asked admitted (Device.encode command)
  | submit (label : String) (commands : List Command) :
    (∀ command ∈ commands, admitted command) → Asked admitted (Device.submit label commands)
  | wait (submission : Nat) : Asked admitted (Device.wait submission)

/-- An assertion on a device and its log that lasts as long as the device is given admitted commands only. -/
structure Host.Accepts {σ : Type} [Device σ] (admitted : Command → Prop) (inv : Host σ → Prop) : Prop where
  log : ∀ host log, inv host → inv { host with log }
  upload : ∀ host buffer offset bytes, inv host →
    inv { host with device := Device.writeBuffer buffer offset bytes host.device }
  perform : ∀ {α : Type} {operation : DeviceM σ α}, Device.Asked admitted operation →
    Effect.Keeps inv (Host.perform operation)

/-- What is known apart from the host lasts, and the rest may depend on it. -/
theorem Host.Accepts.given {σ : Type} [Device σ] {admitted : Command → Prop} {inv : Host σ → Prop} {known : Prop}
    (accepts : known → Host.Accepts admitted inv) : Host.Accepts admitted fun host => known ∧ inv host where
  log host log held := ⟨held.1, (accepts held.1).log host log held.2⟩
  upload host buffer offset bytes held := ⟨held.1, (accepts held.1).upload host buffer offset bytes held.2⟩
  perform asked := .given fun holds =>
    ((accepts holds).perform asked).mono (fun _ _ => .intro holds) fun _ _ => .intro holds

theorem Host.Accepts.beside {σ : Type} [Device σ] {admitted : Command → Prop} {inv : Host σ → Prop}
    (accepts : Host.Accepts admitted inv) (known : Prop) : Host.Accepts admitted fun host => known ∧ inv host :=
  .given fun _ => accepts

theorem Device.Asked.mono {σ α : Type} [Device σ] {admitted more : Command → Prop} {operation : DeviceM σ α}
    (asked : Device.Asked admitted operation) (admits : ∀ command, admitted command → more command) :
    Device.Asked more operation := by
  cases asked with
  | encode command fits => exact .encode command (admits command fits)
  | submit label commands fits => exact .submit label commands fun command found => admits command (fits command found)
  | _ => constructor

/-- What lasts through more commands lasts through fewer. -/
theorem Host.Accepts.mono {σ : Type} [Device σ] {admitted fewer : Command → Prop} {inv : Host σ → Prop}
    (accepts : Host.Accepts admitted inv) (admits : ∀ command, fewer command → admitted command) :
    Host.Accepts fewer inv where
  log := accepts.log
  upload := accepts.upload
  perform asked := accepts.perform (asked.mono admits)

/-- Between two states of a host, its device was given admitted commands only: whatever lasts through these and
held before holds after. -/
def Host.Reaches {σ : Type} [Device σ] (admitted : Command → Prop) (before after : Host σ) : Prop :=
  ∀ inv, Host.Accepts admitted inv → inv before → inv after

namespace Host.Reaches

variable {σ : Type} [Device σ] {admitted more : Command → Prop} {first middle last : Host σ}

theorem refl (admitted : Command → Prop) (host : Host σ) : Reaches admitted host host := fun _ _ => id

theorem trans (one : Reaches admitted first middle) (two : Reaches admitted middle last) :
    Reaches admitted first last := fun inv accepts held => two inv accepts (one inv accepts held)

theorem mono (reaches : Reaches admitted first last) (admits : ∀ command, admitted command → more command) :
    Reaches more first last := fun inv accepts => reaches inv (accepts.mono admits)

/-- It goes on as long as admitted commands only are given. -/
theorem accepts (admitted : Command → Prop) (start : Host σ) : Host.Accepts admitted (Reaches admitted start) where
  log host log reached inv accepts held := accepts.log host log (reached inv accepts held)
  upload host buffer offset bytes reached inv accepts held :=
    accepts.upload host buffer offset bytes (reached inv accepts held)
  perform {α operation} asked host reached := by
    have kept (inv : Host σ → Prop) (accepts : Host.Accepts admitted inv) (held : inv start) :=
      accepts.perform asked host (reached inv accepts held)
    split <;> rename_i applied
    · intro inv accepts held
      simpa only [applied] using kept inv accepts held
    · intro inv accepts held
      simpa only [applied] using kept inv accepts held

end Host.Reaches

namespace Host

variable {σ α : Type} {before : Host σ → Prop}

/-- An operation changes the device only; what its results are like is known beside. -/
theorem perform_ensures {operation : DeviceM σ α} {described : α → Prop}
    (yields : operation.Yields described)
    (stable : ∀ host device, before host → before { host with device }) :
    Effect.Ensures before (perform operation) (fun a host => before host ∧ described a) fun _ => before := by
  refine .inside fun host holds whole _ => ?_
  have described := yields whole trivial
  split at described
  · exact ⟨stable _ _ holds, described⟩
  · exact stable _ _ holds

theorem perform_keeps {operation : DeviceM σ α}
    (stable : ∀ host device, before host → before { host with device }) :
    Effect.Keeps before (perform operation) := by
  have described : operation.Yields fun _ => True := Effect.Ensures.any _
  exact (perform_ensures described stable).mono (fun _ _ => And.left) fun _ _ => id

theorem note_ensures {failed : DeviceError → Host σ → Prop} (level : LogLevel) (source : LogSource)
    (text : String) (stable : ∀ host log, before host → before { host with log }) :
    Effect.Ensures before (note level source text) (fun _ => before) failed :=
  .ofModify fun _ holds => stable _ _ holds

end Host

open Effect.Ensures

namespace Recorder

theorem createTexture_yields (spec : TextureSpec) :
    (createTexture spec).Yields (·.toTextureSpec = spec) := by
  refine ofGuard (fun _ _ _ => trivial) fun _ => skip fun recorder => ?_
  refine ofIf (fun _ => skip fun _ => fun _ _ => trivial) fun _ => ?_
  exact skip fun _ => skip fun _ => ofPure fun _ _ => rfl

theorem createBuffer_yields (spec : BufferSpec) : (createBuffer spec).Yields (·.toBufferSpec = spec) :=
  skip fun _ => skip fun _ => ofPure fun _ _ => rfl

theorem createModule_yields (module : ShaderModule) : (createModule module).Yields (· = module) :=
  skip fun _ => ofPure fun _ _ => rfl

theorem createComputePipeline_yields (spec : ComputePipelineSpec) :
    (createComputePipeline spec).Yields (·.toComputePipelineSpec = spec) :=
  skip fun _ => skip fun _ => ofPure fun _ _ => rfl

theorem createRenderPipeline_yields (spec : RenderPipelineSpec) :
    (createRenderPipeline spec).Yields (·.toRenderPipelineSpec = spec) :=
  skip fun _ => skip fun _ => skip fun _ => ofPure fun _ _ => rfl

theorem createBindGroup_yields (label : String) (layout : List LayoutEntry) (resources : List BoundResource) :
    (createBindGroup label layout resources).Yields fun group =>
      group.label = label ∧ group.layout = layout ∧ group.resources = resources :=
  ofGuard (fun _ _ _ => trivial) fun _ => skip fun _ => ofPure fun _ _ => ⟨rfl, rfl, rfl⟩

theorem createFilter_yields (filter : ImageFilter) (destination : PixelFormat) :
    (createFilter filter destination).Yields (· = ⟨filter, destination⟩) :=
  ofIf (fun _ => ofPure fun _ _ => rfl) fun _ => ofThrow fun _ _ => trivial

instance : LawfulDevice Recorder where
  createTexture := createTexture_yields
  createBuffer := createBuffer_yields
  createModule := createModule_yields
  createComputePipeline := createComputePipeline_yields
  createRenderPipeline := createRenderPipeline_yields
  createBindGroup := createBindGroup_yields
  createFilter := createFilter_yields

variable {admitted : Command → Prop} {logged : List Submission → Prop}

theorem takeId_logged : Effect.Keeps (fun recorder : Recorder => logged recorder.submissions) takeId :=
  ofGet fun _ held => .bind (ofSet fun _ here => here ▸ held) fun _ => ofPure fun _ => id

/-- Only submitting changes what was submitted, and it adds to that. -/
theorem asked_logged {α : Type} {operation : DeviceM Recorder α} (asked : Device.Asked admitted operation)
    (added : ∀ log label commands, logged log → (∀ command ∈ commands, admitted command) →
      logged (log ++ [⟨log.length, label, commands⟩])) :
    Effect.Keeps (fun recorder : Recorder => logged recorder.submissions) operation := by
  cases asked with
  | createTexture spec =>
    refine ofGuard (fun _ _ => id) fun _ => ofGet fun recorder held => ofIf (fun _ => ?_) fun _ => ?_
    · exact .bind (ofSet fun _ _ => held) fun _ => ofThrow fun _ => id
    · refine .pre (fun _ here => here ▸ held) (takeId_logged.bind fun _ => ?_)
      exact .bind (ofModify fun _ => id) fun _ => ofPure fun _ => id
  | createBuffer spec =>
    change Effect.Keeps _ (createBuffer spec)
    exact takeId_logged.bind fun _ => .bind (ofModify fun _ => id) fun _ => ofPure fun _ => id
  | createModule module =>
    change Effect.Keeps _ (createModule module)
    exact .bind (ofModify fun _ => id) fun _ => ofPure fun _ => id
  | createComputePipeline spec =>
    exact .bind (ofIf (fun _ => ofPure fun _ => id) fun _ => ofThrow fun _ => id) fun _ =>
      takeId_logged.bind fun _ => ofPure fun _ => id
  | createRenderPipeline spec =>
    have required (entry : String) :
        Effect.Keeps (fun recorder : Recorder => logged recorder.submissions) (requireEntry spec.label spec.module entry) :=
      ofIf (fun _ => ofPure fun _ => id) fun _ => ofThrow fun _ => id
    exact (required _).bind fun _ => (required _).bind fun _ => takeId_logged.bind fun _ => ofPure fun _ => id
  | createBindGroup label layout resources =>
    exact ofGuard (fun _ _ => id) fun _ => takeId_logged.bind fun _ => ofPure fun _ => id
  | createFilter filter destination => exact ofIf (fun _ => ofPure fun _ => id) fun _ => ofThrow fun _ => id
  | encode command fits => exact ofPure fun _ => id
  | submit label commands fits =>
    change Effect.Keeps _ (Recorder.submit label commands)
    refine ofGet fun recorder held => ?_
    exact .bind (ofSet fun _ _ => added _ label commands held fits) fun _ => ofPure fun _ => id
  | wait submission =>
    exact ofGet fun recorder held => ofIf (fun _ => ofThrow fun _ here => here ▸ held) fun _ =>
      ofPure fun _ here => here ▸ held

/-- What lasts when submissions of admitted commands are added lasts. -/
theorem accepts_logged (added : ∀ log label commands, logged log → (∀ command ∈ commands, admitted command) →
      logged (log ++ [⟨log.length, label, commands⟩])) :
    Host.Accepts (σ := Recorder) admitted fun host => logged host.device.submissions where
  log _ _ := id
  upload _ _ _ _ := id
  perform asked := .inside fun _ held => .pre (fun _ here => here ▸ held) (asked_logged asked added)

/-- All commands that were submitted are admitted. -/
abbrev Holds (admitted : Command → Prop) (recorder : Recorder) : Prop :=
  ∀ command ∈ recorder.commands, admitted command

/-- A recorder that is given admitted commands only has recorded such commands only. -/
theorem accepts (admitted : Command → Prop) :
    Host.Accepts (σ := Recorder) admitted fun host => host.device.Holds admitted := by
  refine @accepts_logged admitted (fun log => ∀ command ∈ log.flatMap (·.commands), admitted command) ?_
  intro log label commands held fits
  simp only [List.flatMap_append, List.flatMap_singleton, List.forall_mem_append]
  exact ⟨held, fits⟩

/-- Submissions are never taken back. -/
theorem submissions_of_reaches {before after : Host Recorder} (reaches : Host.Reaches admitted before after) :
    before.device.submissions <+: after.device.submissions :=
  reaches (fun host => before.device.submissions <+: host.device.submissions)
    (accepts_logged fun _ _ _ kept _ => kept.trans (List.prefix_append _ _)) (List.prefix_refl _)

/-- Numbers that were given are not given again, and uploads are never taken back. -/
structure Advances (before after : Recorder) : Prop where
  nextId : before.nextId ≤ after.nextId
  writes : before.writes <+: after.writes

namespace Advances

variable {first middle last : Recorder}

theorem refl (recorder : Recorder) : Advances recorder recorder := ⟨Nat.le_refl _, List.prefix_refl _⟩

theorem trans (one : Advances first middle) (two : Advances middle last) : Advances first last :=
  ⟨Nat.le_trans one.nextId two.nextId, one.writes.trans two.writes⟩

theorem takeId_gives : Effect.Ensures (Advances first) takeId
    (fun id recorder => (first.nextId ≤ id ∧ id < recorder.nextId) ∧ Advances first recorder) fun _ => Advances first :=
  ofGet fun recorder held => .bind (ofSet fun _ _ => ⟨⟨held.nextId, Nat.lt_succ_self recorder.nextId⟩,
    Nat.le_succ_of_le held.nextId, held.writes⟩) fun _ => ofPure fun _ => id

theorem takeId_keeps : Effect.Keeps (Advances first) takeId := takeId_gives.mono (fun _ _ => And.right) fun _ _ => id

/-- A new buffer has a number that was not given before. -/
theorem createBuffer_gives (spec : BufferSpec) : Effect.Ensures (Advances first) (createBuffer spec)
    (fun buffer recorder => (first.nextId ≤ buffer.id ∧ buffer.id < recorder.nextId) ∧ Advances first recorder)
    fun _ => Advances first :=
  takeId_gives.bind fun _ => .bind (ofModify fun _ held => ⟨held.1, held.2.nextId, held.2.writes⟩) fun _ =>
    ofPure fun _ => id

/-- So has a new bind group, which refers to what it was asked for with. -/
theorem createBindGroup_gives (label : String) (layout : List LayoutEntry) (resources : List BoundResource) :
    Effect.Ensures (Advances first) (createBindGroup label layout resources)
      (fun group recorder => (first.nextId ≤ group.id ∧ group.id < recorder.nextId ∧ group.resources = resources) ∧
        Advances first recorder) fun _ => Advances first :=
  ofGuard (fun _ _ => id) fun _ => takeId_gives.bind fun _ =>
    ofPure fun _ held => ⟨⟨held.1.1, held.1.2, rfl⟩, held.2⟩

/-- Nothing that a graph asks for takes numbers or uploads back. -/
theorem asked {α : Type} {operation : DeviceM Recorder α} (asked : Device.Asked admitted operation) :
    Effect.Keeps (Advances first) operation := by
  cases asked with
  | createTexture spec =>
    refine ofGuard (fun _ _ => id) fun _ => ofGet fun recorder held => ofIf (fun _ => ?_) fun _ => ?_
    · exact .bind (ofSet fun _ _ => ⟨held.nextId, held.writes⟩) fun _ => ofThrow fun _ => id
    · refine .pre (fun _ here => here ▸ held) (takeId_keeps.bind fun _ => ?_)
      exact .bind (ofModify fun _ held => ⟨held.nextId, held.writes⟩) fun _ => ofPure fun _ => id
  | createBuffer spec => exact (createBuffer_gives spec).mono (fun _ _ => And.right) fun _ _ => id
  | createModule module =>
    change Effect.Keeps _ (createModule module)
    exact .bind (ofModify fun _ held => ⟨held.nextId, held.writes⟩) fun _ => ofPure fun _ => id
  | createComputePipeline spec =>
    exact .bind (ofIf (fun _ => ofPure fun _ => id) fun _ => ofThrow fun _ => id) fun _ =>
      takeId_keeps.bind fun _ => ofPure fun _ => id
  | createRenderPipeline spec =>
    have required (entry : String) : Effect.Keeps (Advances first) (requireEntry spec.label spec.module entry) :=
      ofIf (fun _ => ofPure fun _ => id) fun _ => ofThrow fun _ => id
    exact (required _).bind fun _ => (required _).bind fun _ => takeId_keeps.bind fun _ => ofPure fun _ => id
  | createBindGroup label layout resources =>
    exact (createBindGroup_gives label layout resources).mono (fun _ _ => And.right) fun _ _ => id
  | createFilter filter destination => exact ofIf (fun _ => ofPure fun _ => id) fun _ => ofThrow fun _ => id
  | encode command fits => exact ofPure fun _ => id
  | submit label commands fits =>
    change Effect.Keeps _ (Recorder.submit label commands)
    refine ofGet fun recorder held => ?_
    exact .bind (ofSet fun _ _ => ⟨held.nextId, held.writes⟩) fun _ => ofPure fun _ => id
  | wait submission =>
    exact ofGet fun recorder held => ofIf (fun _ => ofThrow fun _ here => here ▸ held) fun _ =>
      ofPure fun _ here => here ▸ held

theorem accepts (admitted : Command → Prop) (first : Recorder) :
    Host.Accepts (σ := Recorder) admitted fun host => first.Advances host.device where
  log _ _ := id
  upload _ _ _ _ held := ⟨held.nextId, held.writes.trans (List.prefix_append _ _)⟩
  perform operation := .inside fun _ held => .pre (fun _ here => here ▸ held) (asked operation)

/-- A recorder goes on from what it was, whatever is done with it. -/
theorem of_reaches {before after : Host Recorder} (reaches : Host.Reaches admitted before after) :
    before.device.Advances after.device :=
  reaches (fun host => before.device.Advances host.device) (accepts admitted before.device) (refl _)

end Advances

end Recorder

namespace WebGpu

theorem createTexture_yields (spec : TextureSpec) :
    (createTexture spec).Yields (·.toTextureSpec = spec) :=
  ofGuard (fun _ _ _ => trivial) fun _ => skip fun _ => skip fun _ => skip fun _ => ofPure fun _ _ => rfl

theorem createBuffer_yields (spec : BufferSpec) : (createBuffer spec).Yields (·.toBufferSpec = spec) :=
  ofGuard (fun _ _ _ => trivial) fun _ => skip fun _ => skip fun _ => ofPure fun _ _ => rfl

theorem createModule_yields (module : ShaderModule) : (createModule module).Yields (· = module) :=
  skip fun _ => ofPure fun _ _ => rfl

theorem createComputePipeline_yields (spec : ComputePipelineSpec) :
    (createComputePipeline spec).Yields (·.toComputePipelineSpec = spec) :=
  skip fun _ => skip fun _ => skip fun _ => skip fun _ => ofPure fun _ _ => rfl

theorem createRenderPipeline_yields (spec : RenderPipelineSpec) :
    (createRenderPipeline spec).Yields (·.toRenderPipelineSpec = spec) :=
  skip fun _ => skip fun _ => skip fun _ => skip fun _ => skip fun _ => ofPure fun _ _ => rfl

theorem createBindGroup_yields (label : String) (layout : List LayoutEntry) (resources : List BoundResource) :
    (createBindGroup label layout resources).Yields fun group =>
      group.label = label ∧ group.layout = layout ∧ group.resources = resources := by
  refine ofGuard (fun _ _ _ => trivial) fun _ => skip fun _ => ?_
  refine ofGuard (fun _ _ _ => trivial) fun _ => skip fun _ => skip fun _ => ?_
  exact ofPure fun _ _ => ⟨rfl, rfl, rfl⟩

theorem createFilter_yields (filter : ImageFilter) (destination : PixelFormat) :
    (createFilter filter destination).Yields (· = ⟨filter, destination⟩) := by
  refine ofGuard (fun _ _ _ => trivial) fun _ => skip fun _ => skip fun _ => skip fun _ => skip fun _ => ?_
  exact skip fun _ => skip fun _ => ofPure fun _ _ => rfl

instance : LawfulDevice WebGpu where
  createTexture := createTexture_yields
  createBuffer := createBuffer_yields
  createModule := createModule_yields
  createComputePipeline := createComputePipeline_yields
  createRenderPipeline := createRenderPipeline_yields
  createBindGroup := createBindGroup_yields
  createFilter := createFilter_yields

end WebGpu

end FrameGraph
