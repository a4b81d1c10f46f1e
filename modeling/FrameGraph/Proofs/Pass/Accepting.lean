import FrameGraph.Proofs.Pass.Binding
import FrameGraph.Proofs.Pass.Reads

/-! # What passes do to their host

Setup and preparation create objects, write log lines and upload bytes. An assertion on sessions that lasts through
whatever is done to the host lasts through all of these, and what they create is as they asked for.
-/

namespace FrameGraph

variable {σ : Type} [Device σ] {admitted : Command → Prop} {inv : Session σ → Prop}

/-- An assertion on sessions that lasts as long as the device is given admitted commands only. -/
def Session.Accepting (admitted : Command → Prop) (inv : Session σ → Prop) : Prop :=
  ∀ session : Session σ, Host.Accepts admitted fun host => inv { session with host }

section

variable (accepting : Session.Accepting admitted inv)

include accepting

namespace Session.Accepting

theorem note (level : LogLevel) (source : LogSource) (text : String) :
    Effect.Keeps inv (Session.note (ε := PassError) level source text) :=
  .ofModify fun session held => (accepting session).log session.host _ held

theorem upload (buffer : Buffer) (bytes : List UInt8) : Effect.Keeps inv (Session.upload buffer bytes) :=
  .ofModify fun session held => (accepting session).upload session.host buffer 0 bytes held

/-- What a device operation yields, a pass gets from it. -/
theorem perform {α : Type} {operation : DeviceM σ α} {described : α → Prop} (label : String)
    (asked : Device.Asked admitted operation) (yields : operation.Yields described) :
    Effect.Ensures inv (Session.perform label operation) (fun a session => described a ∧ inv session)
      fun _ => inv := by
  refine .mapError (.inside fun session held => ?_)
  have described : Effect.Ensures (fun _ => True) (Host.perform operation) (fun a _ => True ∧ described a)
      fun _ _ => True := Host.perform_ensures yields fun _ _ => id
  refine .pre ?_ ((((accepting session).perform asked).and described).mono ?_ ?_)
  · rintro _ rfl
    exact ⟨held, trivial⟩
  · exact fun _ _ done => ⟨done.2.2, done.1⟩
  · exact fun _ _ failed => failed.1

/-- What the host does not matter to lasts beside. -/
theorem beside {known : Session σ → Prop} (apart : ∀ session host, known session → known { session with host }) :
    Session.Accepting admitted fun session => known session ∧ inv session := by
  intro session
  have split (host : Host σ) : known { session with host } ∧ inv { session with host } ↔
      known session ∧ inv { session with host } :=
    ⟨fun held => ⟨apart { session with host } session.host held.1, held.2⟩,
      fun held => ⟨apart session host held.1, held.2⟩⟩
  rw [funext fun host => propext (split host)]
  exact (accepting session).beside _

end Session.Accepting

/-- A created bind group has the layout of its group, and it remembers the pool that its resources are from. -/
theorem GroupSpec.create_ensures [LawfulDevice σ] (label : String) (group : GroupSpec) (pool : Pool)
    (bytes : List Buffer) (grid : Option Buffer) {refers : BindingSpec → BoundResource → Prop}
    (resolved : ∀ binding ∈ group, Comes (refers binding) (fun _ => True) (binding.resolve label pool bytes grid)) :
    Effect.Ensures inv (group.create (σ := σ) label pool bytes grid)
      (fun bound session => (bound.group.layout = group.layout ∧ bound.stamp = group.stamp pool ∧
        List.Forall₂ refers group bound.group.resources) ∧ inv session) fun _ => inv := by
  refine .ofExcept (fun resources found => ?_) fun _ _ _ held => held
  have all := (Comes.mapM resolved).result found
  have asked : Device.Asked (σ := σ) admitted _ := .createBindGroup label group.layout resources
  refine .bind (accepting.perform label asked (LawfulDevice.createBindGroup _ _ _)) fun created => ?_
  exact .ofPure fun _ done => ⟨⟨done.1.2.1, rfl, done.1.2.2 ▸ all⟩, done.2⟩

/-- What is asserted of the bind group of a block has to hold of the one that is kept, and of a new one when it is
stored. -/
theorem Session.blockGroup_ensures {ok : BindGroup → Session σ → Prop} (place : Nat) (pool : Pool)
    (kept : ∀ session block bound, inv session → session.compiled.blocks[place]? = some block →
      session.blockGroups[place]? = some (some bound) → ok bound.group session)
    (created : ∀ session block, inv session → session.compiled.blocks[place]? = some block →
      Effect.Ensures inv (block.group.create block.name pool [] none)
        (fun bound now => ok bound.group { now with blockGroups := now.blockGroups.set place (some bound) })
        fun _ => inv) :
    Effect.Ensures inv (Session.blockGroup place pool) ok fun _ => inv := by
  refine blockGroup_rule place pool (fun _ held _ => held)
    (fun session block bound held found stored _ => kept session block bound held found stored) ?_
  intro session block held found _
  exact ⟨inv, .pre (fun _ here => here ▸ held) (accepting.note _ _ _), created session block held found⟩

namespace Bindings

/-- The same of a group number of a pass itself, whatever is known of its bindings. -/
theorem ownGroup_ensures {known : Bindings → Prop} {ok : Bindings → BindGroup → Prop}
    (made : Bindings → BoundGroup → Prop) (place : Nat) (group : GroupSpec) (view : PassView)
    (kept : ∀ bindings bound, known bindings → bindings.own[place]? = some (some bound) →
      bound.stamp = group.stamp view.pool → ok bindings bound.group)
    (created : ∀ bindings, known bindings → Effect.Ensures inv
      (group.create (σ := σ) bindings.label view.pool bindings.bytesBuffers bindings.gridBuffer)
      (fun bound session => made bindings bound ∧ inv session) fun _ => inv)
    (stored : ∀ bindings bound, known bindings → made bindings bound →
      known { bindings with own := bindings.own.set place (some bound) } ∧
        ok { bindings with own := bindings.own.set place (some bound) } bound.group) :
    PartEffect.Ensures (fun bindings session => known bindings ∧ inv session) (ownGroup (σ := σ) place group view)
      (fun bound bindings session => ok bindings bound ∧ known bindings ∧ inv session)
      fun _ bindings session => known bindings ∧ inv session := by
  refine ownGroup_rule place group view ?_ ?_
  · intro bindings session bound held there fresh
    exact ⟨kept bindings bound held.1 there fresh, held⟩
  · intro bindings session held
    refine ⟨fun bound now => made bindings bound ∧ inv now, ?_, fun bound text => ?_, fun bound now done => ?_⟩
    · exact .pre (fun _ here => here ▸ held.2) ((created bindings held.1).mono (fun _ _ => id) fun _ _ => .intro held.1)
    · exact .given fun done => (accepting.note _ _ _).mono (fun _ _ => .intro done) fun _ _ => .intro held.1
    · obtain ⟨known, fits⟩ := stored bindings bound held.1 done.1
      exact ⟨fits, known, done.2⟩

theorem uploadBytes_keeps (bindings : Bindings) : Effect.Keeps inv (bindings.uploadBytes (σ := σ)) :=
  .ofGet fun _ held => .pre (fun _ here => here ▸ held) (.forM fun _ _ => accepting.upload _ _)

theorem uploadGrid_keeps (bindings : Bindings) (grid : Axes) :
    Effect.Keeps inv (bindings.uploadGrid (σ := σ) grid) := by
  unfold uploadGrid
  cases bindings.gridBuffer with
  | none => exact .ofPure fun _ => id
  | some buffer => exact accepting.upload buffer _

/-- A uniform block is created with the flags of uniform blocks. -/
theorem createBlock_makes [LawfulDevice σ] (label name : String) (size : Nat) :
    Effect.Ensures inv (createBlock (σ := σ) label name size)
      (fun buffer session => buffer.usage = blockUsage ∧ inv session) fun _ => inv :=
  (accepting.perform label (.createBuffer _) (LawfulDevice.createBuffer _)).mono
    (fun _ _ done => ⟨congrArg BufferSpec.usage done.1, done.2⟩) fun _ _ => id

/-- A setup keeps what is known of bindings when new uniform blocks do not matter to it and a refresh keeps it. -/
theorem setup_makes [LawfulDevice σ] {known : Bindings → Prop} (view : PassView)
    (emptied : ∀ bindings, known bindings → known { bindings with bytesBuffers := [] })
    (bytes : ∀ bindings (buffer : Buffer), buffer.usage = blockUsage → known bindings →
      known { bindings with bytesBuffers := bindings.bytesBuffers ++ [buffer] })
    (grid : ∀ bindings (buffer : Buffer), buffer.usage = blockUsage → known bindings →
      known { bindings with gridBuffer := some buffer })
    (refreshed : PartEffect.Keeps (fun bindings session => known bindings ∧ inv session) (refresh (σ := σ) view)) :
    PartEffect.Keeps (fun bindings session => known bindings ∧ inv session) (setup (σ := σ) view) := by
  refine .ofGet fun bindings session held => ?_
  have started : PartEffect.Ensures (fun part whole => part = bindings ∧ whole = session)
      (set { bindings with bytesBuffers := [] } : PassM Bindings σ Unit)
      (fun _ b s => known b ∧ inv s) fun _ b s => known b ∧ inv s := by
    refine .ofSet ?_
    rintro _ _ ⟨-, rfl⟩
    exact ⟨emptied bindings held.1, held.2⟩
  refine started.bind fun _ => .bind (.forM fun slot _ => ?_) fun _ => ?_
  · refine .bind (.yields (createBlock_makes accepting _ _ _)) fun buffer => .given fun made => ?_
    exact .change fun b => bytes b buffer made
  · refine .ofIf (fun _ => ?_) fun _ => refreshed
    refine .bind (.yields (createBlock_makes accepting _ _ _)) fun buffer => .given fun made => ?_
    exact .bind (.change fun b => grid b buffer made) fun _ => refreshed

/-- What does not depend on the uniform blocks of a pass lasts through its setup when a refresh keeps it. -/
theorem setup_keeps [LawfulDevice σ] {known : Bindings → Prop} (view : PassView)
    (same : ∀ old new : Bindings, new.groups = old.groups → new.own = old.own → new.resolved = old.resolved →
      known old → known new)
    (refreshed : PartEffect.Keeps (fun bindings session => known bindings ∧ inv session) (refresh (σ := σ) view)) :
    PartEffect.Keeps (fun bindings session => known bindings ∧ inv session) (setup (σ := σ) view) :=
  setup_makes accepting view (fun b => same b _ rfl rfl rfl) (fun b _ _ => same b _ rfl rfl rfl)
    (fun b _ _ => same b _ rfl rfl rfl) refreshed

section

variable [LawfulDevice σ] (stored : ∀ session blockGroups, inv session → inv { session with blockGroups })

theorem create_keeps (label : String) (group : GroupSpec) (pool : Pool) (bytes : List Buffer) (grid : Option Buffer) :
    Effect.Ensures inv (group.create (σ := σ) label pool bytes grid) (fun _ => inv) fun _ => inv :=
  (GroupSpec.create_ensures accepting label group pool bytes grid fun _ _ => .any _).mono (fun _ _ => And.right)
    fun _ _ => id

include stored

theorem blockGroup_keeps (block : Nat) (pool : Pool) : Effect.Keeps inv (Session.blockGroup (σ := σ) block pool) :=
  Session.blockGroup_ensures accepting block pool (fun _ _ _ held _ _ => held) fun _ _ _ _ =>
    (create_keeps accepting _ _ _ _ _).mono (fun _ now => stored now _) fun _ _ => id

/-- What depends neither on the host nor on the groups of blocks lasts through a refresh. -/
theorem refresh_keeps (view : PassView) :
    PartEffect.Keeps (fun _ session => inv session) (refresh (σ := σ) view) := by
  refine .ofReading fun bindings => .bind (.mapM (fun _ _ _ session => inv session) fun _ _ group _ => ?_)
    fun _ => .ofModify fun _ _ => id
  obtain ⟨spec | block, place⟩ := group
  · refine ownGroup_rule place spec view (fun _ _ _ held _ _ => held) fun bindings session held => ?_
    refine ⟨fun _ => inv, ?_, fun _ _ => accepting.note _ _ _, fun _ _ => id⟩
    exact .pre (fun _ here => here ▸ held) (create_keeps accepting _ _ _ _ _)
  · exact .around fun _ => blockGroup_keeps accepting stored block view.pool

end

end Bindings

end

namespace DispatchPass

variable {known before : DispatchPass → Session σ → Prop}

/-- A setup keeps what is known of a pass and a session when the setup of its bindings does and when a new pipeline,
which has the entry point of the pass and the layouts of its groups, does not matter to it. -/
theorem setup_keeps [LawfulDevice σ] (view : PassView) (accepting : ∀ pass, Session.Accepting admitted (known pass))
    (piped : ∀ pass session (pipeline : ComputePipeline), known pass session → pipeline.entry = pass.compiled.entry →
      pipeline.groups = session.compiled.groupLayouts pass.bindings.groups →
        known { pass with pipeline := some pipeline } session)
    (bound : PartEffect.Keeps known ((Bindings.setup (σ := σ) view).inPart bindingsLens)) :
    PartEffect.Keeps known (setup view) := by
  refine .ofGet fun _ _ held => .ofLook fun pass now here => ?_
  obtain ⟨rfl, rfl⟩ := here
  refine .ofNeed (fun module _ => ?_) fun _ _ _ here => here.1 ▸ here.2 ▸ held
  have kept : Session.Accepting admitted fun s => s.compiled = now.compiled ∧ known pass s :=
    (accepting pass).beside fun _ _ => id
  have created (spec : ComputePipelineSpec) : PartEffect.Ensures (fun p s => p = pass ∧ s = now)
      (PartEffect.around (Session.perform pass.label (Device.createComputePipeline spec)))
      (fun pipeline p s => p = pass ∧ pipeline.toComputePipelineSpec = spec ∧ s.compiled = now.compiled ∧ known p s)
      fun _ => known := by
    refine .around fun p => .given fun same => ?_
    subst same
    refine .pre (fun s here => ⟨congrArg Session.compiled here, here ▸ held⟩) ((kept.perform _ (.createComputePipeline _)
      (LawfulDevice.createComputePipeline _)).mono (fun pipeline s done => ⟨rfl, done⟩) fun _ s failed => failed.2)
  refine (created _).bind fun pipeline => .bind (.ofModify ?_) fun _ => bound
  rintro _ s ⟨rfl, spec, compiled, here⟩
  refine piped _ s pipeline here (congrArg ComputePipelineSpec.entry spec) ?_
  rw [compiled]
  exact congrArg ComputePipelineSpec.groups spec

/-- A preparation goes on from the refreshed bindings; the grid and uploads do not matter any more. -/
theorem prepare_ensures (view : PassView) (accepting : ∀ pass, Session.Accepting admitted (known pass))
    (fitted : ∀ pass session grid, known pass session → known { pass with grid } session)
    {failed : DispatchPass → Session σ → Prop} (weaken : ∀ pass session, known pass session → failed pass session)
    (refreshed : PartEffect.Ensures before ((Bindings.refresh (σ := σ) view).inPart bindingsLens) (fun _ => known)
      fun _ => failed) :
    PartEffect.Ensures before (prepare view) (fun _ => known) fun _ => failed := by
  refine refreshed.bind fun _ => .ofGet fun pass session held => .ofLook fun _ now _ => ?_
  refine .pre (fun _ w here => here.2 ▸ ⟨here.1, held⟩ : ∀ p w, p = pass ∧ w = session → p = pass ∧ known pass w) ?_
  refine .ofExcept (fun extent _ => ?_) fun _ _ p w here => here.1 ▸ weaken _ _ here.2
  have set : PartEffect.Ensures (fun p w => p = pass ∧ known pass w)
      (set { pass with grid := pass.compiled.grid.extent extent } : PassM DispatchPass σ Unit)
      (fun _ => known) fun _ => failed := .ofSet fun _ w here => fitted pass w _ here.2
  have uploaded {action : SessionM σ Unit} (keeps : ∀ p, Effect.Keeps (known p) action) :
      PartEffect.Ensures known (PartEffect.around action) (fun _ => known) fun _ => failed :=
    .around fun p => (keeps p).mono (fun _ _ => id) fun _ => weaken p
  exact set.bind fun _ => (uploaded fun p => Bindings.uploadBytes_keeps (accepting p) _).bind fun _ =>
    uploaded fun p => Bindings.uploadGrid_keeps (accepting p) _ _

end DispatchPass

namespace DrawPass

variable {known before : DrawPass → Session σ → Prop}

/-- A new pipeline is created from what the draw specifies for the formats that are recorded with it. -/
theorem buildPipeline_makes [LawfulDevice σ] (formats : List PixelFormat)
    (accepting : ∀ pass, Session.Accepting admitted (known pass))
    (piped : ∀ pass session (pipeline : RenderPipeline) module, known pass session →
      pipeline.toRenderPipelineSpec =
        pass.pipelineSpec module (session.compiled.groupLayouts pass.bindings.groups) formats →
        known { pass with pipeline := some pipeline, formats } session) :
    PartEffect.Keeps known (buildPipeline (σ := σ) formats) := by
  refine .ofGet fun _ _ held => .ofLook fun pass now here => ?_
  obtain ⟨rfl, rfl⟩ := here
  refine .ofNeed (fun module _ => ?_) fun _ _ _ here => here.1 ▸ here.2 ▸ held
  have kept : Session.Accepting admitted fun s => s.compiled = now.compiled ∧ known pass s :=
    (accepting pass).beside fun _ _ => id
  have created (spec : RenderPipelineSpec) : PartEffect.Ensures (fun p s => p = pass ∧ s = now)
      (PartEffect.around (Session.perform pass.label (Device.createRenderPipeline spec)))
      (fun pipeline _ s => pipeline.toRenderPipelineSpec = spec ∧ s.compiled = now.compiled ∧ known pass s)
      fun _ => known := by
    refine .around fun p => .given fun same => ?_
    subst same
    exact .pre (fun s here => ⟨congrArg Session.compiled here, here ▸ held⟩) ((kept.perform _ (.createRenderPipeline _)
      (LawfulDevice.createRenderPipeline _)).mono (fun _ _ => id) fun _ s failed => failed.2)
  refine (created _).bind fun pipeline => .ofSet fun _ s ⟨spec, compiled, here⟩ => ?_
  refine piped _ s pipeline module here ?_
  rw [compiled]
  exact spec

/-- It has the entry points of the draw and the layouts of its groups. -/
theorem buildPipeline_keeps [LawfulDevice σ] (formats : List PixelFormat)
    (accepting : ∀ pass, Session.Accepting admitted (known pass))
    (piped : ∀ pass session (pipeline : RenderPipeline), known pass session →
      pipeline.vertexEntry = pass.compiled.vertexEntry → pipeline.fragmentEntry = pass.compiled.fragmentEntry →
      pipeline.groups = session.compiled.groupLayouts pass.bindings.groups →
        known { pass with pipeline := some pipeline, formats } session) :
    PartEffect.Keeps known (buildPipeline (σ := σ) formats) :=
  buildPipeline_makes formats accepting fun pass session pipeline _ held spec =>
    piped pass session pipeline held (congrArg RenderPipelineSpec.vertexEntry spec)
      (congrArg RenderPipelineSpec.fragmentEntry spec) (congrArg RenderPipelineSpec.groups spec)

theorem setup_keeps (view : PassView) (built : ∀ formats, PartEffect.Keeps known (buildPipeline (σ := σ) formats))
    (bound : PartEffect.Keeps known ((Bindings.setup (σ := σ) view).inPart bindingsLens)) :
    PartEffect.Keeps known (setup view) := by
  refine .ofGet fun pass session held => .pre (fun _ _ here => here.1 ▸ here.2 ▸ held) ?_
  exact .ofExcept (fun formats _ => (built formats).bind fun _ => bound) fun _ _ _ _ => id

/-- A preparation refreshes the bindings after it has built a pipeline, if it has to. -/
theorem prepare_ensures (view : PassView) (accepting : ∀ pass, Session.Accepting admitted (known pass))
    (earlier : ∀ pass, Session.Accepting admitted (before pass))
    {failed : DrawPass → Session σ → Prop} (weaken : ∀ pass session, known pass session → failed pass session)
    (sooner : ∀ pass session, before pass session → failed pass session)
    (built : ∀ formats, PartEffect.Keeps before (buildPipeline (σ := σ) formats))
    (refreshed : PartEffect.Ensures before ((Bindings.refresh (σ := σ) view).inPart bindingsLens) (fun _ => known)
      fun _ => failed) :
    PartEffect.Ensures before (prepare view) (fun _ => known) fun _ => failed := by
  have finished : PartEffect.Ensures before
      (do
        (Bindings.refresh view).inPart bindingsLens
        PartEffect.around (← get).bindings.uploadBytes)
      (fun _ => known) fun _ => failed := by
    refine refreshed.bind fun _ => .ofGet fun pass _ held => .pre (fun _ _ here => here.1 ▸ here.2 ▸ held) ?_
    exact .around fun p => (Bindings.uploadBytes_keeps (accepting p) _).mono (fun _ _ => id) fun _ => weaken p
  refine .ofGet fun pass _ held => .pre (fun _ _ here => here.1 ▸ here.2 ▸ held) ?_
  refine .ofExcept (fun formats _ => .ofIf (fun _ => ?_) fun _ => finished) fun _ _ => sooner
  have noted (text : String) : PartEffect.Ensures before
      (PartEffect.around (Session.note .debug .draw text) : PassM DrawPass σ Unit) (fun _ => before) fun _ => failed :=
    .around fun p => ((earlier p).note _ _ _).mono (fun _ _ => id) fun _ => sooner p
  have rebuilt : PartEffect.Ensures before (buildPipeline (σ := σ) formats) (fun _ => before) fun _ => failed :=
    (built formats).mono (fun _ _ _ => id) fun _ => sooner
  exact (noted _).bind fun _ => rebuilt.bind fun _ => finished

end DrawPass

theorem FilterPass.setup_keeps [LawfulDevice σ] (accepting : Session.Accepting admitted inv) (view : PassView) :
    PartEffect.Keeps (fun _ session => inv session) (setup (σ := σ) view) := by
  refine .ofReading fun pass => .ofExcept (fun destination _ => ?_) fun _ _ _ _ => id
  refine .bind (.around fun _ => (accepting.perform _ (.createFilter _ _) (LawfulDevice.createFilter _ _)).mono
    (fun _ _ => And.right) fun _ _ => id) fun prepared => .ofSet fun _ _ => id

end FrameGraph
