import FrameGraph.Proofs.Pass.Accepting

/-! # Layouts of bind groups

A bind group that is kept was created from the layout of the group that it stands for, however often it is
created anew and whatever fails in between. So a pass that has its pipeline and all its bind groups has them
for the same layouts.
-/

namespace FrameGraph

variable {σ : Type} [Device σ] {program : CompiledProgram} {admitted : Command → Prop} {inv : Session σ → Prop}

/-- An assertion on sessions that knows the compiled program, lasts through what passes do to the device, and
knows that the bind groups of blocks were created from the layouts of their blocks. -/
structure Session.Mindful (program : CompiledProgram) (admitted : Command → Prop) (inv : Session σ → Prop) :
    Prop where
  compiled : ∀ session, inv session → session.compiled = program
  accepts : Session.Accepting admitted inv
  cached : ∀ session (place : Nat) (block : ArgumentBlock) (bound : BoundGroup), inv session →
    program.blocks[place]? = some block → session.blockGroups[place]? = some (some bound) →
      bound.group.layout = block.group.layout
  store : ∀ session (place : Nat) (block : ArgumentBlock) (bound : BoundGroup), inv session →
    program.blocks[place]? = some block → bound.group.layout = block.group.layout →
      inv { session with blockGroups := session.blockGroups.set place (some bound) }

variable [LawfulDevice σ]

theorem GroupSpec.create_layout (mindful : Session.Mindful program admitted inv) (label : String)
    (group : GroupSpec) (pool : Pool) (bytes : List Buffer) (grid : Option Buffer) :
    Effect.Ensures inv (group.create (σ := σ) label pool bytes grid)
      (fun bound session => bound.group.layout = group.layout ∧ inv session) fun _ => inv :=
  (group.create_ensures mindful.accepts label pool bytes grid fun _ _ => .any _).mono
    (fun _ _ done => ⟨done.1.1, done.2⟩) fun _ _ => id

theorem Session.blockGroup_layout (mindful : Session.Mindful program admitted inv) (place : Nat) (pool : Pool) :
    Effect.Ensures inv (Session.blockGroup (σ := σ) place pool)
      (fun group session => group.layout = (program.groupSpec (.shared place)).layout ∧ inv session)
      fun _ => inv := by
  have spec {block : ArgumentBlock} (found : program.blocks[place]? = some block) :
      program.groupSpec (.shared place) = block.group := by
    simp [CompiledProgram.groupSpec, found]
  refine Session.blockGroup_ensures mindful.accepts place pool ?_ ?_
  · intro session block bound held found stored
    rw [mindful.compiled session held] at found
    rw [spec found]
    exact ⟨mindful.cached _ place block bound held found stored, held⟩
  · intro session block held found
    rw [mindful.compiled session held] at found
    rw [spec found]
    refine (block.group.create_layout mindful block.name pool [] none).mono (fun bound now done => ?_) fun _ _ => id
    exact ⟨done.1, mindful.store now place block bound done.2 found done.1⟩

/-- The bindings are for these groups, and every bind group of theirs has the layout of its group. -/
structure Bindings.Aligned (program : CompiledProgram) (groups : List GroupBinding) (bindings : Bindings) :
    Prop where
  groups_eq : bindings.groups = groups
  own : ∀ (place : Nat) (spec : GroupSpec) (bound : BoundGroup), groups[place]? = some (.own spec) → bindings.own[place]? = some (some bound) →
    bound.group.layout = spec.layout
  resolved : bindings.resolved = [] ∨ bindings.resolved.map (·.layout) = program.groupLayouts groups

namespace Bindings

variable {groups : List GroupBinding}

omit [LawfulDevice σ] [Device σ] in
theorem aligned_ofGroups (program : CompiledProgram) (label : String) (groups : List GroupBinding)
    (bytes : List BytesSlot) : (ofGroups label groups bytes).Aligned program groups where
  groups_eq := rfl
  own place _ _ _ found := by
    rw [ofGroups, List.getElem?_map, Option.map_eq_some_iff] at found
    obtain ⟨_, _, ⟨⟩⟩ := found
  resolved := .inl rfl

omit [LawfulDevice σ] [Device σ] in
theorem Aligned.store {bindings : Bindings} (aligned : bindings.Aligned program groups) {place : Nat}
    {spec : GroupSpec} {bound : BoundGroup} (listed : groups[place]? = some (.own spec))
    (layout : bound.group.layout = spec.layout) :
    Aligned program groups { bindings with own := bindings.own.set place (some bound) } where
  groups_eq := aligned.groups_eq
  own other spec' bound' listed' found := by
    rw [List.getElem?_set] at found
    split at found
    · rename_i same
      subst same
      rw [listed] at listed'
      split at found <;> cases found
      cases listed'
      exact layout
    · exact aligned.own other spec' bound' listed' found
  resolved := aligned.resolved

omit [LawfulDevice σ] [Device σ] in
/-- What passes bind is nothing but what the last refresh resolved. -/
theorem Aligned.bound_comes {bindings : Bindings} (aligned : bindings.Aligned program groups) :
    Comes (fun bound => bound.map (·.layout) = program.groupLayouts groups) (fun _ => True) bindings.bound := by
  unfold bound
  split
  · rename_i complete
    obtain empty | layouts := aligned.resolved
    · rw [empty, aligned.groups_eq] at complete
      rw [List.length_eq_zero_iff.mp complete.symm, empty]
      rfl
    · exact layouts
  · trivial

theorem ownGroup_layout (mindful : Session.Mindful program admitted inv) {place : Nat} {spec : GroupSpec}
    (listed : groups[place]? = some (.own spec)) (view : PassView) :
    PartEffect.Ensures (fun bindings session => bindings.Aligned program groups ∧ inv session)
      (ownGroup (σ := σ) place spec view)
      (fun group bindings session => group.layout = spec.layout ∧ bindings.Aligned program groups ∧ inv session)
      fun _ bindings session => bindings.Aligned program groups ∧ inv session := by
  refine ownGroup_ensures mindful.accepts (fun _ bound => bound.group.layout = spec.layout) place spec view ?_ ?_ ?_
  · exact fun bindings bound aligned stored _ => aligned.own place spec bound listed stored
  · exact fun bindings _ => spec.create_layout mindful bindings.label view.pool _ _
  · exact fun bindings bound aligned layout => ⟨aligned.store listed layout, layout⟩

theorem resolveGroup_layout (mindful : Session.Mindful program admitted inv) (view : PassView)
    {group : GroupBinding × Nat} (listed : group ∈ groups.zipIdx) :
    PartEffect.Ensures (fun bindings session => bindings.Aligned program groups ∧ inv session)
      (resolveGroup (σ := σ) view group)
      (fun created bindings session => created.layout = (program.groupSpec group.1).layout ∧
        bindings.Aligned program groups ∧ inv session)
      fun _ bindings session => bindings.Aligned program groups ∧ inv session := by
  obtain ⟨spec | block, place⟩ := group
  · exact ownGroup_layout mindful (List.mem_zipIdx_iff_getElem?.mp listed) view
  · exact .yields (Session.blockGroup_layout mindful block view.pool)

/-- A refresh that fails leaves the bind groups that were resolved before. -/
theorem refresh_aligned (mindful : Session.Mindful program admitted inv) (view : PassView) :
    PartEffect.Keeps (fun bindings session => bindings.Aligned program groups ∧ inv session)
      (refresh (σ := σ) view) := by
  refine .ofGet fun bindings session held => ?_
  rw [held.1.groups_eq]
  -- what was resolved so far has the layouts of the groups so far
  let inv' (seen : List (GroupBinding × Nat)) (out : List BindGroup) (b : Bindings) (s : Session σ) : Prop :=
    out.map (·.layout) = program.groupLayouts (seen.map (·.1)) ∧ b.Aligned program groups ∧ inv s
  refine .pre ?_ (.bind (.mapM inv' fun seen out group found => .given fun same => ?_)
    fun resolved => .ofModify ?_)
  · rintro _ _ ⟨rfl, rfl⟩
    exact ⟨rfl, held⟩
  · refine (resolveGroup_layout mindful view found).mono (fun _ _ _ done => ⟨?_, done.2⟩) fun _ _ _ => id
    rw [program.groupLayouts_eq] at same ⊢
    simp only [List.map_append, same, List.map_singleton, done.1]
  · rintro b s ⟨same, aligned, held⟩
    rw [List.zipIdx_map_fst] at same
    exact ⟨⟨aligned.groups_eq, aligned.own, .inr same⟩, held⟩

/-- Uniform blocks do not matter to layouts. -/
theorem setup_aligned (mindful : Session.Mindful program admitted inv) (view : PassView) :
    PartEffect.Keeps (fun bindings session => bindings.Aligned program groups ∧ inv session)
      (setup (σ := σ) view) :=
  setup_keeps mindful.accepts view (fun _ _ groups_eq own resolved aligned =>
    ⟨groups_eq.trans aligned.groups_eq, own ▸ aligned.own, resolved ▸ aligned.resolved⟩)
    (refresh_aligned mindful view)

end Bindings

/-- A kernel pass of this label is for this compiled kernel, and its pipeline was created for the layouts of its
groups. -/
structure DispatchPass.Aligned (program : CompiledProgram) (label : String) (compiled : CompiledDispatch)
    (pass : DispatchPass) : Prop where
  label_eq : pass.label = label
  entry_eq : pass.compiled.entry = compiled.entry
  bindings : pass.bindings.Aligned program compiled.groups
  pipeline : ∀ pipeline, pass.pipeline = some pipeline →
    pipeline.entry = compiled.entry ∧ pipeline.groups = program.groupLayouts compiled.groups

namespace DispatchPass

variable {label : String} {compiled : CompiledDispatch}

omit [LawfulDevice σ] [Device σ] in
theorem bindings_aligned {action : PassM Bindings σ Unit}
    (keeps : PartEffect.Keeps (fun bindings session => bindings.Aligned program compiled.groups ∧ inv session)
      action) :
    PartEffect.Keeps (fun pass session => pass.Aligned program label compiled ∧ inv session)
      (action.inPart bindingsLens) := by
  refine .inPart fun pass => ?_
  rintro _ session ⟨rfl, aligned, held⟩
  refine (keeps.mono ?_ ?_) pass.bindings session ⟨aligned.bindings, held⟩
  · exact fun _ _ _ done => ⟨⟨aligned.label_eq, aligned.entry_eq, done.1, aligned.pipeline⟩, done.2⟩
  · exact fun _ _ _ done => ⟨⟨aligned.label_eq, aligned.entry_eq, done.1, aligned.pipeline⟩, done.2⟩

theorem setup_aligned (mindful : Session.Mindful program admitted inv) (view : PassView) :
    PartEffect.Keeps (fun pass session => pass.Aligned program label compiled ∧ inv session)
      (setup (σ := σ) view) := by
  refine setup_keeps view (fun _ => mindful.accepts.beside fun _ _ => id) (fun pass session pipeline held entry groups => ?_)
    (bindings_aligned (Bindings.setup_aligned mindful view))
  refine ⟨{ held.1 with pipeline := ?_ }, held.2⟩
  rintro _ ⟨⟩
  rw [mindful.compiled session held.2, held.1.bindings.groups_eq] at groups
  exact ⟨entry.trans held.1.entry_eq, groups⟩

theorem prepare_aligned (mindful : Session.Mindful program admitted inv) (view : PassView) :
    PartEffect.Keeps (fun pass session => pass.Aligned program label compiled ∧ inv session)
      (prepare (σ := σ) view) :=
  prepare_ensures view (fun _ => mindful.accepts.beside fun _ _ => id) (fun _ _ _ held => ⟨{ held.1 with }, held.2⟩)
    (fun _ _ => id) (bindings_aligned (Bindings.refresh_aligned mindful view))

omit [LawfulDevice σ] [Device σ] in
/-- A launch binds groups of just the layouts that its pipeline was created for. -/
theorem Aligned.command_comes {pass : DispatchPass} (aligned : pass.Aligned program label compiled) :
    Comes (fun command => command.label = label ∧ command.pipeline.entry = compiled.entry ∧
        command.pipeline.groups = program.groupLayouts compiled.groups ∧
        command.groups.map (·.layout) = command.pipeline.groups)
      (fun _ => True) pass.command := by
  refine .ofNeed (fun pipeline made => ?_) fun _ => trivial
  obtain ⟨entry, layouts⟩ := aligned.pipeline pipeline made
  refine aligned.bindings.bound_comes.bind fun bound same => ?_
  exact ⟨aligned.label_eq, entry, layouts, same.trans layouts.symm⟩

end DispatchPass

/-- A draw of this label is for this compiled draw, and its pipeline was created for the layouts of its groups. -/
structure DrawPass.Aligned (program : CompiledProgram) (label : String) (compiled : CompiledDraw)
    (pass : DrawPass) : Prop where
  label_eq : pass.label = label
  vertexEntry_eq : pass.compiled.vertexEntry = compiled.vertexEntry
  fragmentEntry_eq : pass.compiled.fragmentEntry = compiled.fragmentEntry
  bindings : pass.bindings.Aligned program compiled.groups
  pipeline : ∀ pipeline, pass.pipeline = some pipeline →
    pipeline.vertexEntry = compiled.vertexEntry ∧ pipeline.fragmentEntry = compiled.fragmentEntry ∧
      pipeline.groups = program.groupLayouts compiled.groups

namespace DrawPass

variable {label : String} {compiled : CompiledDraw}

omit [LawfulDevice σ] [Device σ] in
theorem bindings_aligned {action : PassM Bindings σ Unit}
    (keeps : PartEffect.Keeps (fun bindings session => bindings.Aligned program compiled.groups ∧ inv session)
      action) :
    PartEffect.Keeps (fun pass session => pass.Aligned program label compiled ∧ inv session)
      (action.inPart bindingsLens) := by
  refine .inPart fun pass => ?_
  rintro _ session ⟨rfl, aligned, held⟩
  refine (keeps.mono ?_ ?_) pass.bindings session ⟨aligned.bindings, held⟩
  · exact fun _ _ _ done => ⟨{ aligned with bindings := done.1 }, done.2⟩
  · exact fun _ _ _ done => ⟨{ aligned with bindings := done.1 }, done.2⟩

theorem buildPipeline_aligned (mindful : Session.Mindful program admitted inv) (formats : List PixelFormat) :
    PartEffect.Keeps (fun pass session => pass.Aligned program label compiled ∧ inv session)
      (buildPipeline (σ := σ) formats) := by
  refine buildPipeline_keeps formats (fun _ => mindful.accepts.beside fun _ _ => id)
    fun pass session pipeline held vertex fragment groups => ?_
  refine ⟨{ held.1 with pipeline := ?_ }, held.2⟩
  rintro _ ⟨⟩
  rw [mindful.compiled session held.2, held.1.bindings.groups_eq] at groups
  exact ⟨vertex.trans held.1.vertexEntry_eq, fragment.trans held.1.fragmentEntry_eq, groups⟩

theorem setup_aligned (mindful : Session.Mindful program admitted inv) (view : PassView) :
    PartEffect.Keeps (fun pass session => pass.Aligned program label compiled ∧ inv session)
      (setup (σ := σ) view) :=
  setup_keeps view (buildPipeline_aligned mindful) (bindings_aligned (Bindings.setup_aligned mindful view))

theorem prepare_aligned (mindful : Session.Mindful program admitted inv) (view : PassView) :
    PartEffect.Keeps (fun pass session => pass.Aligned program label compiled ∧ inv session)
      (prepare (σ := σ) view) :=
  have accepting (pass : DrawPass) : Session.Accepting admitted fun session : Session σ =>
      pass.Aligned program label compiled ∧ inv session := mindful.accepts.beside fun _ _ => id
  prepare_ensures view accepting accepting (fun _ _ => id) (fun _ _ => id) (buildPipeline_aligned mindful)
    (bindings_aligned (Bindings.refresh_aligned mindful view))

omit [LawfulDevice σ] [Device σ] in
/-- A draw binds groups of just the layouts that its pipeline was created for. -/
theorem Aligned.command_comes {pass : DrawPass} (aligned : pass.Aligned program label compiled)
    (view : EncodeView) :
    Comes (fun command => command.label = label ∧ command.pipeline.vertexEntry = compiled.vertexEntry ∧
        command.pipeline.fragmentEntry = compiled.fragmentEntry ∧
        command.pipeline.groups = program.groupLayouts compiled.groups ∧
        command.groups.map (·.layout) = command.pipeline.groups)
      (fun _ => True) (pass.command view) := by
  refine .ofNeed (fun pipeline made => ?_) fun _ => trivial
  obtain ⟨vertex, fragment, layouts⟩ := aligned.pipeline pipeline made
  refine (Comes.any _).bind fun _ _ => (Comes.any _).bind fun _ _ => (Comes.any _).bind fun _ _ => ?_
  refine (Comes.any _).bind fun _ _ => aligned.bindings.bound_comes.bind fun bound same => ?_
  exact ⟨aligned.label_eq, vertex, fragment, layouts, same.trans layouts.symm⟩

end DrawPass

end FrameGraph
