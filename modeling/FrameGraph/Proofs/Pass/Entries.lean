import FrameGraph.Proofs.Compile.Spelling
import FrameGraph.Proofs.Pass.Binding
import FrameGraph.Proofs.Pass.Setting

/-! # Entry points that setup looks for

On a recorder, setup looks for the entry points of a kernel or a draw in the module of its unit. Nothing else that it
does there ends with the error of an entry point that is not found.
-/

namespace FrameGraph

/-- The entry points that a leaf was given. -/
def CompiledLeaf.entries : CompiledLeaf → List String
  | .dispatch leaf => [leaf.entry]
  | .draw leaf => [leaf.vertexEntry, leaf.fragmentEntry]
  | .host => []

/-- What a recorder answers when it does not find an entry point. -/
def notFoundText (entry : String) : String := s!"entry point `{entry}` not found"

theorem toList_notFoundText (entry : String) :
    (notFoundText entry).toList = "entry point `".toList ++ entry.toList ++ "` not found".toList := by
  simp only [notFoundText, toString, String.toList_append]

theorem notFoundText_inj {entry other : String} (same : notFoundText entry = notFoundText other) : entry = other := by
  have texts := congrArg String.toList same
  rw [toList_notFoundText, toList_notFoundText] at texts
  exact String.toList_inj.mp (List.append_cancel_left (List.append_cancel_right texts))

/-- A count is not taken for it. -/
theorem notFoundText_ne (n : Nat) (rest entry : String) : toString n ++ rest ≠ notFoundText entry := by
  intro same
  have first := congrArg (fun text => text.toList.head?) same
  rw [toList_notFoundText, String.toList_append, Nat.toString_eq_ofList_toDigits, String.toList_ofList] at first
  cases written : Nat.toDigits 10 n with
  | nil => exact absurd written Nat.toDigits_ne_nil
  | cons c more =>
    have digit : c.isDigit := Nat.isDigit_of_mem_toDigits (by decide) (by decide) (written ▸ List.mem_cons_self)
    have letter : c = 'e' := by simpa [written] using first
    rw [letter] at digit
    cases digit

/-- The error says of an entry point that it was not found. -/
def PassError.Unfound (entry : String) (error : PassError) : Prop :=
  ∃ pass label, error = .device pass (.creation label (notFoundText entry))

/-- The error is not that of an entry point. -/
abbrev PassError.Other (error : PassError) : Prop := ∀ entry, ¬error.Unfound entry

namespace PassError

theorem unfound_device {pass label entry other : String} :
    (device pass (.creation label (notFoundText other))).Unfound entry ↔ entry = other := by
  constructor
  · rintro ⟨_, _, same⟩
    exact (notFoundText_inj (DeviceError.creation.inj (device.inj same).2).2).symm
  · rintro rfl
    exact ⟨pass, label, rfl⟩

/-- Errors of a device other than a failed creation are not. -/
theorem other_device {pass : String} {cause : DeviceError}
    (other : ∀ label entry, cause ≠ .creation label (notFoundText entry)) : (device pass cause).Other := by
  rintro entry ⟨_, label, same⟩
  exact other label entry (device.inj same).2

end PassError

/-- Whatever the state is, an error is as in `failed`. -/
abbrev Effect.Errs {W ε α : Type} (failed : ε → Prop) (effect : Effect W ε α) : Prop :=
  Ensures (fun _ => True) effect (fun _ _ => True) fun error _ => failed error

/-- Whatever the part and the whole are, an error is as in `failed`. -/
abbrev PartEffect.Errs {S W ε α : Type} (failed : ε → Prop) (effect : PartEffect S W ε α) : Prop :=
  Ensures (fun _ _ => True) effect (fun _ _ _ => True) fun error _ _ => failed error

theorem Effect.Errs.around {S W ε α : Type} {failed : ε → Prop} {effect : Effect W ε α} (errs : effect.Errs failed) :
    PartEffect.Errs failed (PartEffect.around effect : PartEffect S W ε α) := .around fun _ => errs

theorem PartEffect.Errs.inPart {S T W ε α : Type} {failed : ε → Prop} {effect : PartEffect T W ε α} (lens : Lens S T)
    (errs : effect.Errs failed) : PartEffect.Errs failed (effect.inPart lens) :=
  PartEffect.Ensures.inPart fun _ => errs.pre fun _ _ _ => trivial

open Effect (Ensures)

/-- What a device operation comes to, a pass gets from it. -/
theorem Session.perform_comes {σ α : Type} {operation : DeviceM σ α} {described : α → Prop}
    {refused : DeviceError → Prop} (label : String)
    (comes : Ensures (fun _ => True) operation (fun a _ => described a) fun error _ => refused error) :
    Ensures (fun _ => True) (Session.perform label operation) (fun a _ => described a)
      fun error _ => ∃ cause, refused cause ∧ error = .device label cause := by
  refine .mapError (.inside fun _ _ => .inside fun _ _ => .pre (fun _ _ => trivial) ?_)
  exact comes.mono (fun _ _ => id) fun cause _ refused => ⟨cause, refused, rfl⟩

/-- When it never ends with the error of an entry point, nor does the pass. -/
theorem Session.perform_errs {σ α : Type} {operation : DeviceM σ α} (label : String)
    (errs : operation.Errs fun cause => ∀ what entry, cause ≠ .creation what (notFoundText entry)) :
    (Session.perform label operation).Errs PassError.Other :=
  (perform_comes label errs).mono (fun _ _ => id) fun _ _ ⟨_, other, same⟩ => same ▸ PassError.other_device other

namespace Recorder

theorem takeId_succeeds {failed : DeviceError → Recorder → Prop} :
    Ensures (fun _ => True) takeId (fun _ _ => True) failed :=
  .ofGet fun _ _ => .bind (.ofSet fun _ _ => trivial) fun _ => .ofPure fun _ => id

theorem createBuffer_errs (spec : BufferSpec) :
    (createBuffer spec).Errs fun cause => ∀ what entry, cause ≠ .creation what (notFoundText entry) :=
  takeId_succeeds.bind fun _ => .bind (.ofModify fun _ => id) fun _ => .ofPure fun _ => id

theorem createBindGroup_errs (label : String) (layout : List LayoutEntry) (resources : List BoundResource) :
    (createBindGroup label layout resources).Errs fun cause => ∀ what entry, cause ≠ .creation what (notFoundText entry) := by
  refine .ofGuard (fun _ _ _ what entry same => ?_) fun _ => takeId_succeeds.bind fun _ => .ofPure fun _ => id
  have text := (DeviceError.creation.inj same).2
  simp only [toString, String.append_assoc] at text
  exact notFoundText_ne layout.length _ entry text

theorem createFilter_errs (filter : ImageFilter) (destination : PixelFormat) :
    (createFilter filter destination).Errs fun cause => ∀ what entry, cause ≠ .creation what (notFoundText entry) :=
  .ofIf (fun _ => .ofPure fun _ => id) fun _ => .ofThrow fun _ _ _ _ => nofun

/-- An entry point that is required is in the module, or it is the one that was not found. -/
theorem requireEntry_comes (label : String) (module : ShaderModule) (entry : String) :
    Ensures (fun _ => True) (requireEntry label module entry) (fun _ _ => declares module entry)
      fun cause _ => ¬declares module entry ∧ cause = .creation label (notFoundText entry) :=
  .ofIf (fun found => .ofPure fun _ _ => found) fun absent => .ofThrow fun _ _ => ⟨absent, rfl⟩

theorem createComputePipeline_comes (spec : ComputePipelineSpec) :
    Ensures (fun _ => True) (createComputePipeline spec) (fun _ _ => declares spec.module spec.entry)
      fun cause _ => ¬declares spec.module spec.entry ∧ cause = .creation spec.label (notFoundText spec.entry) := by
  refine (requireEntry_comes _ _ _).bind fun _ => .pre (fun _ found => ⟨found, trivial⟩) (.given fun found => ?_)
  exact takeId_succeeds.bind fun _ => .ofPure fun _ _ => found

theorem createRenderPipeline_comes (spec : RenderPipelineSpec) :
    Ensures (fun _ => True) (createRenderPipeline spec)
      (fun _ _ => ∀ entry ∈ [spec.vertexEntry, spec.fragmentEntry], declares spec.module entry)
      fun cause _ => ∃ entry ∈ [spec.vertexEntry, spec.fragmentEntry], ¬declares spec.module entry ∧
        cause = .creation spec.label (notFoundText entry) := by
  have required {entry : String} (named : entry ∈ [spec.vertexEntry, spec.fragmentEntry]) :
      Ensures (fun _ => True) (requireEntry spec.label spec.module entry) (fun _ _ => declares spec.module entry)
        fun cause _ => ∃ entry ∈ [spec.vertexEntry, spec.fragmentEntry], ¬declares spec.module entry ∧
          cause = .creation spec.label (notFoundText entry) :=
    (requireEntry_comes _ _ _).mono (fun _ _ => id) fun _ _ absent => ⟨entry, named, absent⟩
  refine (required (.head _)).bind fun _ => .pre (fun _ found => ⟨found, trivial⟩) (.given fun vertex => ?_)
  refine (required (.tail _ (.head _))).bind fun _ => .pre (fun _ found => ⟨found, trivial⟩) (.given fun fragment => ?_)
  refine takeId_succeeds.bind fun _ => .ofPure fun _ _ => ?_
  rintro _ (_ | ⟨_, _ | ⟨_, ⟨⟩⟩⟩)
  · exact vertex
  · exact fragment

end Recorder

/-! ## Bindings -/

theorem BindingSpec.resolve_other (label : String) (pool : Pool) (bytes : List Buffer) (grid : Option Buffer)
    (binding : BindingSpec) : Comes (fun _ => True) PassError.Other (binding.resolve label pool bytes grid) := by
  unfold resolve
  cases binding.source with
  | buffer handle => exact .ofNeed (fun _ _ => trivial) fun _ _ => nofun
  | texture handle => exact .ofNeed (fun _ _ => trivial) fun _ _ => nofun
  | bytes slot => exact .ofNeed (fun _ _ => trivial) fun _ _ => nofun
  | gridExtent => exact .ofNeed (fun _ _ => trivial) fun _ _ => nofun

/-- Creating a bind group does not look for entry points. -/
theorem GroupSpec.create_errs (label : String) (group : GroupSpec) (pool : Pool) (bytes : List Buffer)
    (grid : Option Buffer) : (group.create (σ := Recorder) label pool bytes grid).Errs PassError.Other := by
  have resolved : Comes (List.Forall₂ (fun _ _ => True) group) PassError.Other
      (group.mapM (BindingSpec.resolve label pool bytes grid)) :=
    Comes.mapM fun binding _ => BindingSpec.resolve_other label pool bytes grid binding
  refine .ofExcept (fun resources _ => ?_) fun _ failed _ _ => resolved.error failed
  exact (Session.perform_errs label (Recorder.createBindGroup_errs _ _ _)).bind fun _ => .ofPure fun _ => id

theorem Session.blockGroup_errs (block : Nat) (pool : Pool) :
    (Session.blockGroup (σ := Recorder) block pool).Errs PassError.Other :=
  blockGroup_rule block pool (fun _ _ _ _ => nofun) (fun _ _ _ _ _ _ _ => trivial) fun _ layout _ _ _ =>
    ⟨fun _ => True, .ofModify fun _ _ => trivial, layout.group.create_errs _ _ _ _⟩

namespace Bindings

theorem createBlock_errs (label name : String) (size : Nat) :
    (createBlock (σ := Recorder) label name size).Errs PassError.Other :=
  Session.perform_errs label (Recorder.createBuffer_errs _)

theorem ownGroup_errs (place : Nat) (group : GroupSpec) (view : PassView) :
    (ownGroup (σ := Recorder) place group view).Errs PassError.Other :=
  ownGroup_rule place group view (fun _ _ _ _ _ _ => trivial) fun _ _ _ =>
    ⟨fun _ _ => True, .pre (fun _ _ => trivial) (group.create_errs _ _ _ _), fun _ _ => .ofModify fun _ => id,
      fun _ _ _ => trivial⟩

theorem refresh_errs (view : PassView) : (refresh (σ := Recorder) view).Errs PassError.Other := by
  refine .ofReading fun bindings => .bind (.mapM (fun _ _ _ _ => True) fun _ _ group _ => ?_) fun _ =>
    .ofModify fun _ _ => id
  obtain ⟨spec | block, place⟩ := group
  · exact ownGroup_errs place spec view
  · exact (Session.blockGroup_errs block view.pool).around

/-- Setting bindings up does not look for entry points. -/
theorem setup_errs (view : PassView) : (setup (σ := Recorder) view).Errs PassError.Other := by
  refine .ofReading fun bindings => ?_
  have emptied : PartEffect.Errs PassError.Other
      (set { bindings with bytesBuffers := [] } : PassM Bindings Recorder Unit) := .ofSet fun _ _ => id
  refine emptied.bind fun _ => .bind (.forM fun slot _ => ?_) fun _ => ?_
  · exact (createBlock_errs _ _ _).around.bind fun _ => .ofModify fun _ _ => id
  · refine .ofIf (fun _ => ?_) fun _ => refresh_errs view
    exact (createBlock_errs _ _ _).around.bind fun _ => .bind (.ofModify fun _ _ => id) fun _ => refresh_errs view

end Bindings

/-! ## Passes -/

namespace Pass

/-- What a kernel or a draw was compiled to. -/
def compiled? : Pass → Option CompiledLeaf
  | .dispatch pass => some (.dispatch pass.compiled)
  | .draw pass => some (.draw pass.compiled)
  | _ => none

/-- The recorder finds every entry point of the pass. -/
def Finds (modules : List ShaderModule) (pass : Pass) : Prop :=
  ∀ leaf ∈ pass.compiled?, ∀ entry ∈ leaf.entries, leaf.FoundIn modules entry

/-- The recorder does not find this entry point of the pass. -/
def Lacks (modules : List ShaderModule) (entry : String) (pass : Pass) : Prop :=
  ∃ leaf ∈ pass.compiled?, entry ∈ leaf.entries ∧ ¬leaf.FoundIn modules entry

/-- A setup that succeeds has found all entry points of the pass, and one that ends with an entry point that is not found
has not found one of these. -/
abbrev LooksUp {S : Type} (modules : List ShaderModule) (wrap : S → Pass) (pass : S) (action : PassM S Recorder Unit) :
    Prop :=
  PartEffect.Ensures (fun p session => p = pass ∧ session.modules = some modules) action
    (fun _ _ _ => Finds modules (wrap pass)) fun error _ _ => ∀ entry, error.Unfound entry → Lacks modules entry (wrap pass)

end Pass

variable {modules : List ShaderModule}

/-- A module of a unit that a session has is the one that entry points are looked for in. -/
theorem CompiledLeaf.foundIn_iff (leaf : CompiledLeaf) {session : Session Recorder}
    (has : session.modules = some modules) {unit : Nat} (sits : leaf.unit? = some unit) {module : ShaderModule} (found : session.module? unit = some module)
    (entry : String) : leaf.FoundIn modules entry ↔ Recorder.declares module entry := by
  rw [Session.module?, has, Option.getD_some] at found
  constructor
  · rintro ⟨place, other, sits', found', declares⟩
    cases sits.symm.trans sits'
    cases found.symm.trans found'
    exact declares
  · exact fun declares => ⟨unit, module, sits, found, declares⟩

/-- What follows in a setup does not matter to what was found. -/
theorem Pass.LooksUp.ofRest {S α : Type} {pass : Pass} {action : PassM S Recorder α} (errs : action.Errs PassError.Other) :
    PartEffect.Ensures (fun _ _ => pass.Finds modules) action (fun _ _ _ => pass.Finds modules)
      fun error _ _ => ∀ entry, error.Unfound entry → pass.Lacks modules entry := by
  refine .pre (fun _ _ finds => ⟨finds, trivial⟩) (.given fun finds => ?_)
  exact errs.mono (fun _ _ _ _ => finds) fun error _ _ other entry unfound => absurd unfound (other entry)

theorem DispatchPass.setup_looksUp (pass : DispatchPass) (view : PassView) :
    Pass.LooksUp modules .dispatch pass (setup view) := by
  refine .ofGet fun _ _ held => .ofLook fun p session here => ?_
  obtain ⟨rfl, rfl⟩ := here
  obtain ⟨rfl, has⟩ := held
  refine .ofNeed (fun module found => ?_) fun _ _ _ _ _ => nofun
  have there := CompiledLeaf.foundIn_iff (.dispatch p.compiled) has rfl found
  refine .bind (.around fun _ => .pre (fun _ _ => trivial) ((Session.perform_comes _
    (Recorder.createComputePipeline_comes _)).mono (fun pipeline _ declares => ?_) fun error _ failed => ?_))
    fun pipeline => .bind (.ofModify fun _ _ => id) fun _ => Pass.LooksUp.ofRest ((Bindings.setup_errs view).inPart _)
  · rintro _ ⟨⟩ _ (_ | ⟨_, ⟨⟩⟩)
    exact (there _).mpr declares
  · obtain ⟨_, ⟨absent, rfl⟩, rfl⟩ := failed
    rintro entry unfound
    rw [PassError.unfound_device.mp unfound]
    exact ⟨_, rfl, .head _, (there _).not.mpr absent⟩

namespace DrawPass

theorem textureFormat_other (pass : DrawPass) (pool : Pool) (handle : TextureHandle) :
    Comes (fun _ => True) PassError.Other (pass.textureFormat pool handle) :=
  .ofNeed (fun _ _ => trivial) fun _ _ => nofun

theorem targetFormats_other (pass : DrawPass) (view : PassView) :
    Comes (fun _ => True) PassError.Other (pass.targetFormats view) := by
  have colors : Comes (List.Forall₂ (fun _ _ => True) pass.targets) PassError.Other
      (pass.targets.mapM fun target => pass.targetFormat view target.texture) := by
    refine Comes.mapM fun target _ => ?_
    cases target.texture with
    | surface => trivial
    | resource handle => exact pass.textureFormat_other view.pool handle
  refine colors.bind fun formats _ => ?_
  cases pass.depth with
  | none => trivial
  | some depth => exact (pass.textureFormat_other view.pool depth.texture).bind fun _ _ => trivial

theorem buildPipeline_looksUp (pass : DrawPass) (formats : List PixelFormat) :
    Pass.LooksUp modules .draw pass (buildPipeline formats) := by
  refine .ofGet fun _ _ held => .ofLook fun p session here => ?_
  obtain ⟨rfl, rfl⟩ := here
  obtain ⟨rfl, has⟩ := held
  refine .ofNeed (fun module found => ?_) fun _ _ _ _ _ => nofun
  have there := CompiledLeaf.foundIn_iff (.draw p.compiled) has rfl found
  refine .bind (.around fun _ => .pre (fun _ _ => trivial) ((Session.perform_comes _
    (Recorder.createRenderPipeline_comes _)).mono (fun pipeline _ declares => ?_) fun error _ failed => ?_))
    fun pipeline => .ofSet fun _ _ => id
  · rintro _ ⟨⟩ entry named
    exact (there _).mpr (declares entry named)
  · obtain ⟨_, ⟨named, listed, absent, rfl⟩, rfl⟩ := failed
    rintro entry unfound
    rw [PassError.unfound_device.mp unfound]
    exact ⟨_, rfl, listed, (there _).not.mpr absent⟩

theorem setup_looksUp (pass : DrawPass) (view : PassView) : Pass.LooksUp modules .draw pass (setup view) := by
  refine .ofGet fun p session held => ?_
  obtain ⟨rfl, has⟩ := held
  refine .ofExcept (fun formats _ => ?_) fun error failed _ _ _ entry unfound => ?_
  · refine .bind (.pre ?_ (p.buildPipeline_looksUp formats)) fun _ =>
      Pass.LooksUp.ofRest ((Bindings.setup_errs view).inPart _)
    rintro _ _ ⟨rfl, rfl⟩
    exact ⟨rfl, has⟩
  · exact absurd unfound ((p.targetFormats_other view).error failed entry)

end DrawPass

theorem FilterPass.setup_looksUp (pass : FilterPass) (view : PassView) :
    Pass.LooksUp modules .filter pass (setup view) := by
  have none : Pass.Finds modules (.filter pass) := nofun
  refine .pre (fun _ _ _ => none) (Pass.LooksUp.ofRest (.ofReading fun p => .ofExcept (fun destination _ => ?_) ?_))
  · exact (Session.perform_errs _ (Recorder.createFilter_errs _ _)).around.bind fun _ => .ofSet fun _ _ => id
  · intro error failed _ _ _
    have missing : Comes (fun _ => True) PassError.Other (p.texture view.pool p.node.destination) :=
      .need (fun _ _ => trivial) fun _ _ => nofun
    exact missing.error failed

/-! ## Trees of passes -/

namespace Pass

variable {setting : Setting}

open Session (At)

/-- A setup that succeeds has found the entry points of all leaves, and one that ends with an entry point that is not
found has not found one of theirs. -/
abbrev TreeLooksUp {P : Type} (setting : Setting) (modules : List ShaderModule) (leaves : List Pass)
    (step : StateM (Session Recorder) (Outcome P)) : Prop :=
  Step.Ensures (At setting) step (fun _ _ session => (∀ leaf ∈ leaves, leaf.Finds modules) ∧ session.At setting)
    fun error _ session =>
      (∀ entry, error.Unfound entry → ∃ leaf ∈ leaves, leaf.Lacks modules entry) ∧ session.At setting

theorem stepOf_looksUp {S : Type} {wrap : S → Pass} {pass : S} {action : PassM S Recorder Unit}
    {raw good : Pass → Prop} {allowed : PassError → Prop} (has : setting.modules = some modules)
    (looksUp : LooksUp modules wrap pass action) (stays : LeafStep (At setting) wrap pass action raw good allowed) :
    TreeLooksUp setting modules [wrap pass] (stepOf wrap pass action) := by
  refine stepOf_step (.pre ?_ ((looksUp.and stays).mono (fun _ _ _ done => ?_) fun _ _ _ failed => ?_))
  · rintro _ session ⟨rfl, held⟩
    exact ⟨⟨rfl, (congrArg Setting.modules held.setting_eq).trans has⟩, rfl, held⟩
  · exact ⟨List.forall_mem_singleton.mpr done.1, done.2.2⟩
  · exact ⟨fun entry unfound => ⟨_, .head _, failed.1 entry unfound⟩, failed.2.2.2⟩

theorem still_looksUp {pass : Pass} (none : pass.compiled? = none) :
    TreeLooksUp setting modules [pass] (still pass) := by
  refine .ofReturn fun session held => ⟨List.forall_mem_singleton.mpr ?_, held⟩
  intro leaf compiled
  rw [none] at compiled
  cases compiled

variable {view : PassView}

mutual

theorem setup_looksUp (has : setting.modules = some modules) (seen : view.pool = setting.pool) :
    ∀ pass : Pass, TreeLooksUp setting modules pass.leaves (setup view pass)
  | .dispatch pass => stepOf_looksUp has (pass.setup_looksUp view) ((Lasting.any.setsUp seen).dispatch pass trivial)
  | .draw pass => stepOf_looksUp has (pass.setup_looksUp view) ((Lasting.any.setsUp seen).draw pass trivial)
  | .filter pass => stepOf_looksUp has (pass.setup_looksUp view) ((Lasting.any.setsUp seen).filter pass trivial)
  | .blit _ => still_looksUp rfl
  | .callback _ => still_looksUp rfl
  | .group _ _ children =>
    (setupAll_looksUp has seen children).bind (fun _ _ => .ofReturn fun _ => id) fun _ _ => .ofReturn fun _ => id
  | .offFrame _ true children =>
    (setupAll_looksUp has seen children).bind
      (fun | (), _, _, done => ⟨done.1, (Session.setting_modifyCoordinator _ _ _).trans done.2.setting_eq, trivial⟩)
      fun _ _ => .ofReturn fun _ => id
  | .offFrame _ false _ => .ofReturn fun _ held => ⟨nofun, held⟩

theorem setupAll_looksUp (has : setting.modules = some modules) (seen : view.pool = setting.pool) :
    ∀ passes : List Pass, TreeLooksUp setting modules (leavesAll passes) (setupAll view passes)
  | [] => .ofReturn fun _ held => ⟨nofun, held⟩
  | pass :: rest => by
    refine cons_step (setup_looksUp has seen pass) (fun _ => .given fun first => ?_) fun _ _ _ failed => ⟨?_, failed.2⟩
    · refine (setupAll_looksUp has seen rest).mono (fun _ _ _ done => ⟨?_, done.2⟩) fun _ _ _ failed => ⟨?_, failed.2⟩
      · exact List.forall_mem_append.mpr ⟨first, done.1⟩
      · intro entry unfound
        obtain ⟨leaf, found, lacks⟩ := failed.1 entry unfound
        exact ⟨leaf, List.mem_append_right _ found, lacks⟩
    · intro entry unfound
      obtain ⟨leaf, found, lacks⟩ := failed.1 entry unfound
      exact ⟨leaf, List.mem_append_left _ found, lacks⟩

end

end Pass

end FrameGraph
