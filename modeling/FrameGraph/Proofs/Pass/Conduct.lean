import FrameGraph.Proofs.Pass.Binding
import FrameGraph.Proofs.Pass.Reads

/-! # What leaves change and miss

Setup and preparation of a leaf change the device, the bind groups of argument blocks and what the leaf
keeps of its own; nothing else of the session, and not what the leaf was built as. When they fail for a
resource, it is one that the leaf reads and that the pool does not have.
-/

namespace FrameGraph

variable {σ : Type}

/-- An assertion on sessions that knows the compiled program and says nothing of the device and of the
bind groups of blocks. -/
structure Session.Aloof (program : CompiledProgram) (inv : Session σ → Prop) : Prop where
  compiled : ∀ session, inv session → session.compiled = program
  host : ∀ session host, inv session → inv { session with host }
  blocks : ∀ session blockGroups, inv session → inv { session with blockGroups }

/-- The compiled program and the shared values are the same. -/
structure Session.Alike (start session : Session σ) : Prop where
  compiled_eq : session.compiled = start.compiled
  shared_eq : session.shared = start.shared

namespace Session.Alike

variable {start session : Session σ}

theorem refl (session : Session σ) : session.Alike session := ⟨rfl, rfl⟩

theorem aloof (start : Session σ) : Aloof start.compiled start.Alike where
  compiled _ := compiled_eq
  host _ _ alike := ⟨alike.compiled_eq, alike.shared_eq⟩
  blocks _ _ alike := ⟨alike.compiled_eq, alike.shared_eq⟩

theorem attach (alike : start.Alike session) (name : String) (passes : List Pass) :
    start.Alike (session.attach name passes) := by
  unfold Session.attach Session.modifyCoordinator
  split <;> exact ⟨alike.compiled_eq, alike.shared_eq⟩

end Session.Alike

variable {program : CompiledProgram} {inv : Session σ → Prop} {pool : Pool}

/-- An action on a session stays in `inv` and misses only some of these resources. -/
abbrev Session.Acts {α : Type} (inv : Session σ → Prop) (pool : Pool) (textures : List TextureHandle)
    (buffers : List BufferHandle) (action : SessionM σ α) : Prop :=
  Effect.Ensures inv action (fun _ => inv) fun error session =>
    error.Misses pool textures buffers ∧ inv session

/-- An action on a part does too, and the part stays what it was built as. -/
abbrev Session.Conducts {α S B : Type} (inv : Session σ → Prop) (built : S → B) (origin : B) (pool : Pool)
    (textures : List TextureHandle) (buffers : List BufferHandle) (action : PassM S σ α) : Prop :=
  PartEffect.Ensures (fun part session => built part = origin ∧ inv session) action
    (fun _ part session => built part = origin ∧ inv session)
    fun error part session => error.Misses pool textures buffers ∧ built part = origin ∧ inv session

open Session (Acts Conducts Aloof)

theorem Session.perform_acts (aloof : Aloof program inv) {α : Type} (label : String) (operation : DeviceM σ α)
    (textures : List TextureHandle) (buffers : List BufferHandle) :
    Acts inv pool textures buffers (Session.perform label operation) :=
  .mapError (.inside fun session held => (Effect.Ensures.any _).mono
    (fun _ host _ => aloof.host session host held) fun _ host _ => ⟨trivial, aloof.host session host held⟩)

section

variable {α β S B : Type} {built : S → B} {origin : B} {textures textures' : List TextureHandle}
  {buffers buffers' : List BufferHandle}

theorem Session.Acts.conducts {action : SessionM σ α} (acts : Acts inv pool textures buffers action) :
    Conducts inv built origin pool textures buffers (PartEffect.around action) :=
  .around fun _ => .given fun here => acts.mono (fun _ _ => .intro here)
    fun _ _ failed => ⟨failed.1, here, failed.2⟩

theorem Session.Conducts.weaken {action : PassM S σ α}
    (conducts : Conducts inv built origin pool textures buffers action) (more : textures ⊆ textures')
    (more' : buffers ⊆ buffers') : Conducts inv built origin pool textures' buffers' action :=
  PartEffect.Ensures.mono conducts (fun _ _ _ => id) fun _ _ _ failed => ⟨failed.1.mono more more', failed.2⟩

/-- The part that is read is what it was built as. -/
theorem Session.Conducts.ofGet {next : S → PassM S σ β}
    (rest : ∀ part, built part = origin → Conducts inv built origin pool textures buffers (next part)) :
    Conducts inv built origin pool textures buffers (get >>= next) :=
  PartEffect.Ensures.ofGet fun part _ held =>
    .pre (fun _ _ here => here.1 ▸ here.2 ▸ held) (rest part held.1)

/-- What was created and decided may change. -/
theorem Session.Conducts.ofModify {change : S → S} (same : ∀ part, built (change part) = built part) :
    Conducts inv built origin pool textures buffers (modify change : PassM S σ Unit) :=
  PartEffect.Ensures.ofModify fun part _ held => ⟨(same part).trans held.1, held.2⟩

theorem Session.Conducts.ofSet {next : S} (same : built next = origin) :
    Conducts inv built origin pool textures buffers (set next : PassM S σ Unit) :=
  PartEffect.Ensures.ofSet fun _ _ held => ⟨same, held.2⟩

/-- An action on what is inside a part keeps what the part was built as if that depends on what the
inside was built as. -/
theorem Session.Conducts.inPart {T C : Type} {lens : Lens S T} {action : PassM T σ α} (inside : T → C)
    (conducts : ∀ part, built part = origin →
      Conducts inv inside (inside (lens.get part)) pool textures buffers action)
    (same : ∀ part inner, inside inner = inside (lens.get part) → built (lens.set inner part) = built part) :
    Conducts inv built origin pool textures buffers (action.inPart lens) := by
  refine PartEffect.Ensures.inPart fun part inner session held => ?_
  obtain ⟨rfl, here, held⟩ := held
  refine PartEffect.Ensures.mono (conducts part here) (fun _ t _ done => ?_) (fun _ t _ failed => ?_) _
    session ⟨rfl, held⟩
  · exact ⟨(same part t done.1).trans here, done.2⟩
  · exact ⟨failed.1, (same part t failed.2.1).trans here, failed.2.2⟩

theorem Session.note_acts (aloof : Aloof program inv) (level : LogLevel) (source : LogSource) (text : String) :
    Acts inv pool textures buffers (Session.note level source text) :=
  .ofModify fun _ held => aloof.host _ _ held

end

theorem BindingSpec.resolve_comes (label : String) (pool : Pool) (bytes : List Buffer) (grid : Option Buffer)
    (binding : BindingSpec) :
    Comes (fun _ => True)
      (PassError.Misses pool binding.source.texture?.toList binding.source.buffer?.toList)
      (binding.resolve label pool bytes grid) := by
  unfold resolve
  cases source : binding.source with
  | buffer handle => exact .ofNeed (fun _ _ => trivial) fun absent => ⟨.head _, absent⟩
  | texture handle => exact .ofNeed (fun _ _ => trivial) fun absent => ⟨.head _, absent⟩
  | bytes slot => exact .ofNeed (fun _ _ => trivial) fun _ => trivial
  | gridExtent => exact .ofNeed (fun _ _ => trivial) fun _ => trivial

variable [Device σ]

theorem GroupSpec.create_acts (aloof : Aloof program inv) (label : String) (group : GroupSpec) (pool : Pool)
    (bytes : List Buffer) (grid : Option Buffer) :
    Acts inv pool group.textures group.buffers (group.create (σ := σ) label pool bytes grid) := by
  have resolved : Comes (fun _ => True) (PassError.Misses pool group.textures group.buffers)
      (group.mapM (BindingSpec.resolve label pool bytes grid)) := by
    refine (Comes.mapM fun binding found => (binding.resolve_comes label pool bytes grid).mono (fun _ => id)
      fun error misses => misses.mono ?_ ?_).mono (fun _ _ => trivial) fun _ => id
    · intro handle named
      exact List.mem_filterMap.mpr ⟨binding, found, Option.mem_toList.mp named⟩
    · intro handle named
      exact List.mem_filterMap.mpr ⟨binding, found, Option.mem_toList.mp named⟩
  refine .ofExcept (fun resources _ => ?_) fun error failed _ held => ⟨resolved.error failed, held⟩
  exact (Session.perform_acts aloof label _ _ _).bind fun _ => .ofPure fun _ => id

theorem Session.blockGroup_acts (aloof : Aloof program inv) (block : Nat) (pool : Pool) :
    Acts inv pool (program.groupSpec (.shared block)).textures (program.groupSpec (.shared block)).buffers
      (Session.blockGroup (σ := σ) block pool) := by
  refine blockGroup_rule block pool (fun _ held _ => ⟨trivial, held⟩) (fun _ _ _ held _ _ _ => held) ?_
  intro session layout held found _
  have spec : program.groupSpec (.shared block) = layout.group := by
    rw [aloof.compiled session held] at found
    simp [CompiledProgram.groupSpec, found]
  rw [spec]
  refine ⟨inv, .pre (fun _ here => here ▸ held) (Session.note_acts aloof _ _ _), ?_⟩
  exact (layout.group.create_acts aloof layout.name pool [] none).mono (fun _ _ done => aloof.blocks _ _ done) fun _ _ => id

namespace Bindings

variable {origin : Bindings}

theorem ownGroup_conducts (aloof : Aloof program inv) (place : Nat) (group : GroupSpec) (view : PassView) :
    Conducts inv asBuilt origin view.pool group.textures group.buffers
      (ownGroup (σ := σ) place group view) := by
  refine ownGroup_rule place group view (fun _ _ _ held _ _ => held) fun bindings session held => ?_
  refine ⟨fun _ => inv, .pre (fun _ here => here ▸ held.2) ?_, fun _ _ => ?_, fun _ _ done => ⟨held.1, done⟩⟩
  · exact (group.create_acts aloof _ view.pool _ _).mono (fun _ _ => id) fun _ _ failed => ⟨failed.1, held.1, failed.2⟩
  · exact (Session.note_acts aloof _ _ _).mono (fun _ _ => id) fun _ _ failed => ⟨failed.1, held.1, failed.2⟩

theorem resolveGroup_conducts (aloof : Aloof program inv) (view : PassView) (group : GroupBinding × Nat) :
    Conducts inv asBuilt origin view.pool (program.groupSpec group.1).textures
      (program.groupSpec group.1).buffers (resolveGroup (σ := σ) view group) := by
  obtain ⟨spec | block, place⟩ := group
  · exact ownGroup_conducts aloof place spec view
  · exact (Session.blockGroup_acts aloof block view.pool).conducts

theorem refresh_conducts (aloof : Aloof program inv) (view : PassView) :
    Conducts inv asBuilt origin view.pool (program.groupTextures origin.groups)
      (program.groupBuffers origin.groups) (refresh (σ := σ) view) := by
  refine .ofGet fun bindings built => ?_
  subst built
  refine .bind (.mapM (fun _ _ b session => asBuilt b = asBuilt bindings ∧ inv session)
    fun _ _ group found => ?_) fun resolved => Session.Conducts.ofModify fun _ => rfl
  have listed := List.fst_mem_of_mem_zipIdx found
  refine (resolveGroup_conducts aloof view group).weaken ?_ ?_
  · exact fun handle read => List.mem_flatMap.mpr ⟨group.1, listed, read⟩
  · exact fun handle read => List.mem_flatMap.mpr ⟨group.1, listed, read⟩

variable {textures : List TextureHandle} {buffers : List BufferHandle}

theorem createBlock_acts (aloof : Aloof program inv) (label name : String) (size : Nat) :
    Acts inv pool textures buffers (createBlock (σ := σ) label name size) :=
  Session.perform_acts aloof _ _ _ _

theorem setup_conducts (aloof : Aloof program inv) (view : PassView) :
    Conducts inv asBuilt origin view.pool (program.groupTextures origin.groups)
      (program.groupBuffers origin.groups) (setup (σ := σ) view) := by
  refine .ofGet fun bindings built => ?_
  refine .bind (Session.Conducts.ofSet built) fun _ => ?_
  refine .bind (.forM fun slot _ => ?_) fun _ => ?_
  · exact .bind (createBlock_acts aloof _ _ _).conducts fun _ => Session.Conducts.ofModify fun _ => rfl
  · refine .ofIf (fun _ => .bind (createBlock_acts aloof _ _ _).conducts fun grid => ?_)
      fun _ => refresh_conducts aloof view
    exact .bind (Session.Conducts.ofModify fun _ => rfl) fun _ => refresh_conducts aloof view

theorem uploadBytes_acts (aloof : Aloof program inv) (bindings : Bindings) :
    Acts inv pool textures buffers (bindings.uploadBytes (σ := σ)) := by
  refine .ofGet fun session held => .pre (fun _ here => here ▸ held) (.forM fun slot _ => ?_)
  exact .ofModify fun _ held => aloof.host _ _ held

theorem uploadGrid_acts (aloof : Aloof program inv) (bindings : Bindings) (grid : Axes) :
    Acts inv pool textures buffers (bindings.uploadGrid (σ := σ) grid) := by
  unfold uploadGrid
  cases bindings.gridBuffer with
  | none => exact .ofPure fun _ => id
  | some buffer => exact .ofModify fun _ held => aloof.host _ _ held

end Bindings

namespace DispatchPass

variable {origin : DispatchPass}

/-- What a kernel pass reads beside its bind groups. -/
theorem sourceExtent_comes (pass : DispatchPass) (view : PassView) (shared : Shared) :
    Comes (fun _ => True) (PassError.Misses view.pool pass.compiled.grid.source.texture?.toList
      pass.compiled.grid.source.buffer?.toList) (pass.sourceExtent view shared) := by
  unfold sourceExtent
  cases source : pass.compiled.grid.source with
  | texture handle =>
    refine .ofNeed (fun _ _ => trivial) fun absent => ⟨.head _, ?_⟩
    rw [Pool.texture?, absent, Option.map_none]
  | buffer handle =>
    refine .ofNeed (fun _ _ => trivial) fun absent => ⟨.head _, ?_⟩
    rw [Pool.bufferLength?, Option.map_eq_none_iff] at absent
    rw [Pool.buffer?, absent, Option.map_none]
  | _ => trivial

omit [Device σ] in
theorem bindings_conduct {action : PassM Bindings σ Unit} (pool : Pool)
    (conducts : ∀ bindings, Conducts inv Bindings.asBuilt bindings pool
      (program.groupTextures bindings.groups) (program.groupBuffers bindings.groups) action) :
    Conducts inv asBuilt origin pool (Pass.textures program (.dispatch origin))
      (Pass.buffers program (.dispatch origin)) (action.inPart bindingsLens) := by
  refine Session.Conducts.inPart Bindings.asBuilt (fun part same => ?_) fun part inner same => ?_
  · subst same
    exact (conducts _).weaken (List.subset_append_left _ _) (List.subset_append_left _ _)
  · simp only [asBuilt, bindingsLens, same]

theorem setup_conducts (aloof : Aloof program inv) (view : PassView) :
    Conducts inv asBuilt origin view.pool (Pass.textures program (.dispatch origin))
      (Pass.buffers program (.dispatch origin)) (setup (σ := σ) view) := by
  refine .ofGet fun pass built => ?_
  refine .ofLook fun _ session held => .ofNeed (fun module _ => ?_) fun _ _ _ held => ⟨trivial, held⟩
  refine .bind (Session.perform_acts aloof _ _ _ _).conducts fun pipeline => ?_
  refine .bind (Session.Conducts.ofModify fun _ => rfl) fun _ => ?_
  exact bindings_conduct _ fun _ => Bindings.setup_conducts aloof view

theorem prepare_conducts (aloof : Aloof program inv) (view : PassView) :
    Conducts inv asBuilt origin view.pool (Pass.textures program (.dispatch origin))
      (Pass.buffers program (.dispatch origin)) (prepare (σ := σ) view) := by
  refine .bind (bindings_conduct _ fun _ => Bindings.refresh_conducts aloof view) fun _ => ?_
  refine Session.Conducts.ofGet fun pass built => .ofLook fun _ session held => ?_
  have source := pass.sourceExtent_comes view session.shared
  subst built
  refine .ofExcept (fun extent _ => ?_) fun error failed _ _ held => ⟨?_, held⟩
  · refine .bind (Session.Conducts.ofSet rfl) fun _ => ?_
    exact .bind (Bindings.uploadBytes_acts aloof _).conducts fun _ => (Bindings.uploadGrid_acts aloof _ _).conducts
  · exact (source.error failed).mono (List.subset_append_right _ _) (List.subset_append_right _ _)

omit [Device σ] in
/-- A launch misses no resource. -/
theorem command_comes (pass : DispatchPass) (pool : Pool) :
    Comes (fun _ => True) (PassError.Misses pool [] []) pass.command := by
  refine .ofNeed (fun pipeline _ => ?_) fun _ => trivial
  have bound : Comes (fun _ => True) (PassError.Misses pool [] []) pass.bindings.bound := by
    unfold Bindings.bound
    split <;> trivial
  exact bound.bind fun _ _ => trivial

end DispatchPass

namespace DrawPass

variable {origin : DrawPass}

omit [Device σ] in
theorem textureFormat_comes (pass : DrawPass) (pool : Pool) {handle : TextureHandle}
    {textures : List TextureHandle} {buffers : List BufferHandle} (read : handle ∈ textures) :
    Comes (fun _ => True) (PassError.Misses pool textures buffers) (pass.textureFormat pool handle) :=
  .ofNeed (fun _ _ => trivial) fun absent => ⟨read, absent⟩

omit [Device σ] in
theorem targetFormats_comes (program : CompiledProgram) (pass : DrawPass) (view : PassView) :
    Comes (fun _ => True) (PassError.Misses view.pool (Pass.textures program (.draw pass))
      (Pass.buffers program (.draw pass))) (pass.targetFormats view) := by
  have colors : ∀ target ∈ pass.targets, Comes (fun _ => True)
      (PassError.Misses view.pool (Pass.textures program (.draw pass)) (Pass.buffers program (.draw pass)))
      (pass.targetFormat view target.texture) := by
    intro target found
    cases ref : target.texture with
    | surface => trivial
    | resource handle =>
      refine pass.textureFormat_comes view.pool (List.mem_append_left _ (List.mem_append_right _ ?_))
      exact List.mem_filterMap.mpr ⟨target, found, by rw [ref]; rfl⟩
  refine (Comes.mapM colors).bind fun formats _ => ?_
  cases deep : pass.depth with
  | none => trivial
  | some depth =>
    refine (pass.textureFormat_comes view.pool (List.mem_append_right _ ?_)).bind fun _ _ => trivial
    rw [deep]
    exact .head _

omit [Device σ] in
theorem bindings_conduct {action : PassM Bindings σ Unit} (pool : Pool)
    (conducts : ∀ bindings, Conducts inv Bindings.asBuilt bindings pool
      (program.groupTextures bindings.groups) (program.groupBuffers bindings.groups) action) :
    Conducts inv asBuilt origin pool (Pass.textures program (.draw origin))
      (Pass.buffers program (.draw origin)) (action.inPart bindingsLens) := by
  refine Session.Conducts.inPart Bindings.asBuilt (fun part same => ?_) fun part inner same => ?_
  · subst same
    refine (conducts _).weaken (fun handle read => ?_) (List.subset_append_left _ _)
    exact List.mem_append_left _ (List.mem_append_left _ read)
  · simp only [asBuilt, bindingsLens, same]

theorem buildPipeline_conducts (aloof : Aloof program inv) (formats : List PixelFormat)
    {textures : List TextureHandle} {buffers : List BufferHandle} :
    Conducts inv asBuilt origin pool textures buffers (buildPipeline (σ := σ) formats) := by
  refine .ofGet fun pass built => .ofLook fun _ session held => .ofNeed (fun module _ => ?_)
    fun _ _ _ held => ⟨trivial, held⟩
  refine .bind (Session.perform_acts aloof _ _ _ _).conducts fun pipeline => ?_
  exact Session.Conducts.ofSet built

theorem setup_conducts (aloof : Aloof program inv) (view : PassView) :
    Conducts inv asBuilt origin view.pool (Pass.textures program (.draw origin))
      (Pass.buffers program (.draw origin)) (setup (σ := σ) view) := by
  refine Session.Conducts.ofGet fun pass built => ?_
  have formats := pass.targetFormats_comes program view
  subst built
  refine .ofExcept (fun colors _ => ?_) fun error failed _ _ held => ⟨formats.error failed, held⟩
  refine .bind (buildPipeline_conducts aloof colors) fun _ => ?_
  exact bindings_conduct _ fun _ => Bindings.setup_conducts aloof view

theorem prepare_conducts (aloof : Aloof program inv) (view : PassView) :
    Conducts inv asBuilt origin view.pool (Pass.textures program (.draw origin))
      (Pass.buffers program (.draw origin)) (prepare (σ := σ) view) := by
  have finished : Conducts (σ := σ) inv asBuilt origin view.pool (Pass.textures program (.draw origin))
      (Pass.buffers program (.draw origin)) (do
        (Bindings.refresh view).inPart bindingsLens
        PartEffect.around (← get).bindings.uploadBytes) :=
    .bind (bindings_conduct _ fun _ => Bindings.refresh_conducts aloof view) fun _ =>
      Session.Conducts.ofGet fun pass _ => (Bindings.uploadBytes_acts aloof _).conducts
  refine Session.Conducts.ofGet fun pass built => ?_
  have formats := pass.targetFormats_comes program view
  subst built
  refine .ofExcept (fun colors _ => ?_) fun error failed _ _ held => ⟨formats.error failed, held⟩
  refine .ofIf (fun _ => ?_) fun _ => finished
  refine .bind (Session.note_acts aloof _ _ _).conducts fun _ => ?_
  exact .bind (buildPipeline_conducts aloof colors) fun _ => finished

omit [Device σ] in
theorem attachment_comes (pass : DrawPass) (view : EncodeView) {target : ColorTarget}
    (found : target ∈ pass.targets) :
    Comes (fun _ => True)
      (PassError.Misses view.pool (Pass.textures program (.draw pass)) (Pass.buffers program (.draw pass)))
      (pass.attachment view target) := by
  unfold attachment
  cases ref : target.texture with
  | surface => exact .ofNeed (fun _ _ => trivial) fun _ => trivial
  | resource handle =>
    refine .ofNeed (fun _ _ => trivial) fun absent => ⟨?_, absent⟩
    refine List.mem_append_left _ (List.mem_append_right _ ?_)
    exact List.mem_filterMap.mpr ⟨target, found, by rw [ref]; rfl⟩

omit [Device σ] in
theorem depthAttachment_comes (pass : DrawPass) (view : EncodeView) {depth : DepthTarget}
    (found : pass.depth = some depth) :
    Comes (fun _ => True)
      (PassError.Misses view.pool (Pass.textures program (.draw pass)) (Pass.buffers program (.draw pass)))
      (pass.depthAttachment view depth) := by
  refine .ofNeed (fun _ _ => trivial) fun absent => ⟨List.mem_append_right _ ?_, absent⟩
  rw [found]
  exact .head _

omit [Device σ] in
theorem indexBinding_comes (pass : DrawPass) (view : EncodeView) {index : BufferHandle × IndexFormat}
    (found : pass.index = some index) :
    Comes (fun _ => True)
      (PassError.Misses view.pool (Pass.textures program (.draw pass)) (Pass.buffers program (.draw pass)))
      (pass.indexBinding view index) := by
  refine .ofNeed (fun _ _ => trivial) fun absent => ⟨List.mem_append_right _ ?_, ?_⟩
  · rw [found]
    exact .head _
  · rw [Pool.buffer?, absent, Option.map_none]

omit [Device σ] in
theorem vertexCount_comes (pass : DrawPass) (view : EncodeView) :
    Comes (fun _ => True)
      (fun error => ∃ handle, pass.vertices = .buffer handle ∧ view.pool.buffer? handle = none ∧
        error = .missingBuffer pass.label handle)
      (pass.vertexCount view) := by
  unfold vertexCount
  cases count : pass.vertices with
  | fixed count => trivial
  | buffer handle =>
    refine .ofNeed (fun _ _ => trivial) fun absent => ⟨handle, rfl, ?_, rfl⟩
    rw [Pool.bufferLength?, Option.map_eq_none_iff] at absent
    rw [Pool.buffer?, absent, Option.map_none]

omit [Device σ] in
/-- A draw misses a target or a buffer that it reads, or the buffer that its vertices are counted from. -/
theorem command_comes (program : CompiledProgram) (pass : DrawPass) (view : EncodeView) :
    Comes (fun _ => True)
      (fun error => error.Misses view.pool (Pass.textures program (.draw pass)) (Pass.buffers program (.draw pass)) ∨
        ∃ handle, pass.vertices = .buffer handle ∧ view.pool.buffer? handle = none ∧
          error = .missingBuffer pass.label handle)
      (pass.command view) := by
  have bound : Comes (fun _ => True) (PassError.Misses view.pool (Pass.textures program (.draw pass))
      (Pass.buffers program (.draw pass))) pass.bindings.bound := by
    unfold Bindings.bound
    split <;> trivial
  refine .ofNeed (fun pipeline _ => ?_) fun _ => .inl trivial
  refine (Comes.mapM fun target found => (pass.attachment_comes view found).mono (fun _ => id)
    fun _ => .inl).bind fun colors _ => ?_
  refine (Comes.optionMapM fun depth found => (pass.depthAttachment_comes view found).mono (fun _ => id)
    fun _ => .inl).bind fun depth _ => ?_
  refine (Comes.optionMapM fun index found => (pass.indexBinding_comes view found).mono (fun _ => id)
    fun _ => .inl).bind fun index _ => ?_
  refine ((pass.vertexCount_comes view).mono (fun _ => id) fun _ => .inr).bind fun vertices _ => ?_
  exact (bound.mono (fun _ => id) fun _ => .inl).bind fun _ _ => trivial

end DrawPass

namespace FilterPass

theorem setup_conducts (aloof : Aloof program inv) {origin : FilterPass} (view : PassView) :
    Conducts inv asBuilt origin view.pool (Pass.textures program (.filter origin))
      (Pass.buffers program (.filter origin)) (setup (σ := σ) view) := by
  refine Session.Conducts.ofGet fun pass built => ?_
  subst built
  have found : Comes (fun _ => True) (PassError.Misses view.pool [pass.node.source, pass.node.destination] [])
      (pass.texture view.pool pass.node.destination) :=
    .need (fun _ _ => trivial) fun absent => ⟨.tail _ (.head _), absent⟩
  refine .ofExcept (fun destination _ => ?_) fun error failed _ _ held => ⟨found.error failed, held⟩
  refine .bind (Session.perform_acts aloof _ _ _ _).conducts fun prepared => ?_
  exact Session.Conducts.ofSet rfl

omit [Device σ] in
theorem command_comes (program : CompiledProgram) (pass : FilterPass) (view : EncodeView) :
    Comes (fun _ => True) (PassError.Misses view.pool (Pass.textures program (.filter pass))
      (Pass.buffers program (.filter pass))) (pass.command view) := by
  have found {handle : TextureHandle} (read : handle ∈ [pass.node.source, pass.node.destination]) :
      Comes (fun _ => True) (PassError.Misses view.pool (Pass.textures program (.filter pass))
        (Pass.buffers program (.filter pass))) (pass.texture view.pool handle) :=
    .need (fun _ _ => trivial) fun absent => ⟨read, absent⟩
  refine .ofNeed (fun prepared _ => ?_) fun _ => trivial
  exact (found (.head _)).bind fun _ _ => (found (.tail _ (.head _))).bind fun _ _ => trivial

end FilterPass

omit [Device σ] in
theorem Blit.command_comes (program : CompiledProgram) (node : Blit) (view : EncodeView) :
    Comes (fun _ => True) (PassError.Misses view.pool (Pass.textures program (.blit node))
      (Pass.buffers program (.blit node))) (node.command view) := by
  have texture {handle : TextureHandle} (read : handle ∈ node.op.textures) :
      Comes (fun _ => True) (PassError.Misses view.pool node.op.textures node.op.buffers)
        (node.texture view.pool handle) :=
    .need (fun _ _ => trivial) fun absent => ⟨read, absent⟩
  have buffer {handle : BufferHandle} (read : handle ∈ node.op.buffers) :
      Comes (fun _ => True) (PassError.Misses view.pool node.op.textures node.op.buffers)
        (node.buffer view.pool handle) :=
    .need (fun _ _ => trivial) fun absent => ⟨read, absent⟩
  change Comes _ (PassError.Misses view.pool node.op.textures node.op.buffers) _
  unfold Blit.command
  cases op : node.op with
  | copyTexture source destination =>
    rw [op] at texture
    refine (texture (.head _)).bind fun _ _ => ?_
    cases destination with
    | surface => exact .ofNeed (fun _ _ => trivial) fun _ => trivial
    | resource destination => exact (texture (.tail _ (.head _))).bind fun _ _ => trivial
  | copyBuffer source destination =>
    rw [op] at buffer
    exact (buffer (.head _)).bind fun _ _ => (buffer (.tail _ (.head _))).bind fun _ _ => trivial
  | clearBuffer handle =>
    rw [op] at buffer
    exact (buffer (.head _)).bind fun _ _ => trivial

end FrameGraph
