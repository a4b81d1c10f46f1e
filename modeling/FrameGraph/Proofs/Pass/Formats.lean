import FrameGraph.Flatten
import FrameGraph.Proofs.Pass.Demands

/-! # Formats of draw pipelines

A draw keeps one pipeline and the list of formats that it was created for. The two change together, and only when a
pipeline was created, so they agree whatever fails. A preparation that succeeds leaves the list that the targets have
at that time.
-/

namespace FrameGraph

/-- The format of a target: that of the surface, or that of the texture of its handle. -/
def Pool.targetFormat? (pool : Pool) : TextureRef → Option PixelFormat
  | .surface => pool.surface.map (·.format)
  | .resource handle => (pool.texture? handle).map (·.format)

/-- A draw uses a pipeline that was created with the formats of its targets and of its depth target, one by one, and
draws into the textures that the pool holds for them. -/
structure DrawCommand.Follows (pool : Pool) (node : Draw) (command : DrawCommand) : Prop where
  label_eq : command.label = node.label
  targets : List.Forall₂ (fun target spec => pool.targetFormat? target.texture = some spec.format ∧ spec.blend = target.blend)
    node.targets command.pipeline.targets
  depth : Option.Rel (fun target format => pool.targetFormat? (.resource target.texture) = some format) node.depth
    command.pipeline.depth
  colors : List.Forall₂ (fun target color => ∀ handle, target.texture = .resource handle →
    pool.texture? handle = some color.texture) node.targets command.colors
  depths : Option.Rel (fun target depth => pool.texture? target.texture = some depth.texture) node.depth command.depth

/-- A draw command is for one of these draws, whose entry points its pipeline has, and follows its targets. -/
def Command.Follows (leaves : List (FlatLeaf × CompiledLeaf)) (pool : Pool) : Command → Prop
  | .draw command => ∃ (leaf : FlatLeaf) (compiled : CompiledDraw) (node : Draw),
      (leaf, .draw compiled) ∈ leaves ∧ leaf.node = .draw node ∧ command.pipeline.vertexEntry = compiled.vertexEntry ∧
      command.pipeline.fragmentEntry = compiled.fragmentEntry ∧ command.Follows pool node
  | _ => True

/-- What is made of each element together with a made one, when more are made than needed. -/
theorem forall₂_zip_append {α β γ : Type} {made : α → β → Prop} {kept : α → γ → Prop} {f : α × β → γ}
    (keeps : ∀ a b, made a b → kept a (f (a, b))) {as : List α} {bs : List β} (all : List.Forall₂ made as bs)
    (more : List β) : List.Forall₂ kept as ((as.zip (bs ++ more)).map f) := by
  induction all with
  | nil => exact .nil
  | cons one _ ih => exact .cons (keeps _ _ one) ih

namespace DrawPass

variable {node : Draw} {compiled : CompiledDraw} {pass : DrawPass} {pool : Pool} {surface : Surface}

/-- The formats of the colour targets, in order, then that of the depth target, if there is one. -/
theorem targetFormats_each (pass : DrawPass) (view : PassView) :
    Comes (fun formats => ∃ colors depth, formats = colors ++ depth.toList ∧
        List.Forall₂ (fun target format => pass.targetFormat view target.texture = .ok format) pass.targets colors ∧
        Option.Rel (fun target format => pass.textureFormat view.pool target.texture = .ok format) pass.depth depth)
      (fun _ => True) (pass.targetFormats view) := by
  unfold targetFormats
  refine (Comes.mapM fun target _ => Comes.itself (pass.targetFormat view target.texture)).bind fun colors all => ?_
  cases pass.depth with
  | none => exact ⟨colors, none, (List.append_nil colors).symm, all, .none⟩
  | some target =>
    refine (Comes.itself (pass.textureFormat view.pool target.texture)).bind fun format found => ?_
    exact ⟨colors, some format, rfl, all, .some found⟩

/-- What is found of a texture is its format in the pool. -/
theorem textureFormat_eq_ok {handle : TextureHandle} {format : PixelFormat}
    (found : pass.textureFormat pool handle = .ok format) : pool.targetFormat? (.resource handle) = some format := by
  obtain ⟨texture, has, same⟩ := bind_eq_ok found
  cases same
  rw [Pool.targetFormat?, need_eq_ok has]
  rfl

theorem targetFormat_eq_ok (faced : pool.surface = some surface) {target : TextureRef} {format : PixelFormat}
    (found : pass.targetFormat ⟨pool, surface⟩ target = .ok format) : pool.targetFormat? target = some format := by
  cases target with
  | surface =>
    cases found
    rw [Pool.targetFormat?, faced]
    rfl
  | resource handle => exact textureFormat_eq_ok found

/-- The pass is of this draw, and its pipeline was created for the formats that it has recorded. -/
structure Piped (node : Draw) (compiled : CompiledDraw) (pass : DrawPass) : Prop where
  label_eq : pass.label = node.label
  compiled_eq : pass.compiled = compiled
  targets_eq : pass.targets = node.targets
  depth_eq : pass.depth = node.depth
  pipeline : ∀ pipeline, pass.pipeline = some pipeline →
    ∃ module groups, pipeline.toRenderPipelineSpec = pass.pipelineSpec module groups pass.formats

/-- The recorded formats are those that the targets have in this pool. -/
def Fitted (pool : Pool) (pass : DrawPass) : Prop :=
  ∃ surface, pool.surface = some surface ∧ pass.targetFormats ⟨pool, surface⟩ = .ok pass.formats

/-- So a pass that is prepared draws with a pipeline that was created for them. -/
theorem Piped.command_comes {view : EncodeView} (piped : pass.Piped node compiled) (fitted : pass.Fitted view.pool) :
    Comes (fun command => command.pipeline.vertexEntry = compiled.vertexEntry ∧
        command.pipeline.fragmentEntry = compiled.fragmentEntry ∧ command.Follows view.pool node)
      (fun _ => True) (pass.command view) := by
  obtain ⟨surface, faced, found⟩ := fitted
  obtain ⟨formats, depthFormat, split, each, depthEach⟩ := (pass.targetFormats_each ⟨view.pool, surface⟩).result found
  refine .ofNeed (fun pipeline made => ?_) fun _ => trivial
  obtain ⟨module, groups, spec⟩ := piped.pipeline pipeline made
  have targets : List.Forall₂
      (fun target spec => view.pool.targetFormat? target.texture = some spec.format ∧ spec.blend = target.blend)
      pass.targets pipeline.targets := by
    rw [congrArg RenderPipelineSpec.targets spec, pipelineSpec, split]
    exact forall₂_zip_append (fun target format found => ⟨targetFormat_eq_ok faced found, rfl⟩) each _
  have depth : Option.Rel (fun target format => view.pool.targetFormat? (.resource target.texture) = some format)
      pass.depth pipeline.depth := by
    rw [congrArg RenderPipelineSpec.depth spec, pipelineSpec, split, each.length_eq]
    generalize pass.depth = target at depthEach
    cases depthEach with
    | none => exact .none
    | some found => simpa using Option.Rel.some (textureFormat_eq_ok found)
  have attached (target : ColorTarget) : Comes (fun color => ∀ handle, target.texture = .resource handle →
      view.pool.texture? handle = some color.texture) (fun _ => True) (pass.attachment view target) := by
    unfold attachment
    cases target.texture with
    | surface => exact .ofNeed (fun _ _ => nofun) fun _ => trivial
    | resource handle =>
      refine .ofNeed (fun texture has => ?_) fun _ => trivial
      rintro _ ⟨⟩
      exact has
  have cleared (target : DepthTarget) : Comes (fun depth => view.pool.texture? target.texture = some depth.texture)
      (fun _ => True) (pass.depthAttachment view target) := .ofNeed (fun texture has => has) fun _ => trivial
  refine (Comes.mapM fun target _ => attached target).bind fun colors colored => ?_
  refine (Comes.optionMapM fun target _ => cleared target).bind fun depthTexture held => ?_
  refine (Comes.any _).bind fun _ _ => (Comes.any _).bind fun _ _ => (Comes.any _).bind fun _ _ => ?_
  have vertex : pipeline.vertexEntry = compiled.vertexEntry := by
    rw [congrArg RenderPipelineSpec.vertexEntry spec, pipelineSpec, piped.compiled_eq]
  have fragment : pipeline.fragmentEntry = compiled.fragmentEntry := by
    rw [congrArg RenderPipelineSpec.fragmentEntry spec, pipelineSpec, piped.compiled_eq]
  exact ⟨vertex, fragment, piped.label_eq, piped.targets_eq ▸ targets, piped.depth_eq ▸ depth,
    piped.targets_eq ▸ colored, piped.depth_eq ▸ held⟩

variable {σ : Type} {admitted : Command → Prop} {inv : Session σ → Prop} {view : PassView}

/-- Bindings do not matter to it. -/
theorem bindings_piped {action : PassM Bindings σ Unit} (keeps : PartEffect.Keeps (fun _ session => inv session) action) :
    PartEffect.Keeps (fun pass session => pass.Piped node compiled ∧ inv session) (action.inPart bindingsLens) := by
  refine .inPart fun pass => ?_
  rintro bindings session ⟨-, piped, held⟩
  refine (keeps.mono ?_ ?_) bindings session held
  · exact fun _ _ _ held => ⟨{ piped with }, held⟩
  · exact fun _ _ _ held => ⟨{ piped with }, held⟩

variable [Device σ]

theorem buildPipeline_piped [LawfulDevice σ] (accepting : Session.Accepting admitted inv) (formats : List PixelFormat) :
    PartEffect.Keeps (fun pass session => pass.Piped node compiled ∧ inv session) (buildPipeline (σ := σ) formats) := by
  refine buildPipeline_makes formats (fun _ => accepting.beside fun _ _ => id)
    fun pass session pipeline module held spec => ⟨{ held.1 with pipeline := ?_ }, held.2⟩
  rintro _ ⟨⟩
  exact ⟨module, _, spec⟩

/-- After a preparation that succeeds, the recorded formats are those that the targets have. -/
theorem prepare_fits (view : PassView) :
    PartEffect.Ensures (fun (_ : DrawPass) (_ : Session σ) => True) (prepare view)
      (fun _ pass _ => pass.targetFormats view = .ok pass.formats) fun _ _ _ => True := by
  have finished : PartEffect.Ensures
      (fun (pass : DrawPass) (_ : Session σ) => pass.targetFormats view = .ok pass.formats)
      (do
        (Bindings.refresh view).inPart bindingsLens
        PartEffect.around (← get).bindings.uploadBytes)
      (fun _ pass _ => pass.targetFormats view = .ok pass.formats) fun _ _ _ => True := by
    refine .bind (.mono (.within _ fun _ _ same => same) (fun _ _ _ => id) fun _ _ _ _ => trivial) fun _ => ?_
    refine .ofRead fun pass same => .pre ?_ (.mono (.apart _) (fun _ _ _ => id) fun _ _ _ _ => trivial)
    rintro _ _ rfl
    exact same
  refine .ofRead fun pass _ => .ofExcept (fun formats found => ?_) fun _ _ _ _ _ => trivial
  refine .ofIf (fun _ => ?_) fun same => ?_
  · have built : PartEffect.Ensures (fun (p : DrawPass) (_ : Session σ) => p = pass) (buildPipeline formats)
        (fun _ p _ => p.targetFormats view = .ok p.formats) fun _ _ _ => True := by
      refine .ofRead fun p here => .ofLook fun _ _ _ => .ofNeed (fun module _ => ?_) fun _ _ _ _ => trivial
      subst here
      exact .bind (.mono (.apart _) (fun _ _ _ => id) fun _ _ _ _ => trivial) fun pipeline =>
        .ofSet fun _ _ _ => found
    refine .bind (.mono (.apart _) (fun _ _ _ => id) fun _ _ _ _ => trivial) fun _ => ?_
    exact built.bind fun _ => finished
  · refine .pre ?_ finished
    rintro _ _ rfl
    exact Classical.not_not.mp same ▸ found

end DrawPass

/-- A draw that is kept is of one of these leaves, with the pipeline that goes with the formats it has recorded, and so
is a callback. -/
def Pass.Piped (leaves : List (FlatLeaf × CompiledLeaf)) : Pass → Prop
  | .draw pass => ∃ (leaf : FlatLeaf) (compiled : CompiledDraw) (node : Draw),
      (leaf, .draw compiled) ∈ leaves ∧ leaf.node = .draw node ∧ pass.Piped node compiled
  | .callback node => .callback node ∈ leaves.map (·.1.node)
  | _ => True

/-- A draw that is prepared has recorded the formats that its targets have. -/
def Pass.Fitted (leaves : List (FlatLeaf × CompiledLeaf)) (pool : Pool) (leaf : Pass) : Prop :=
  leaf.Piped leaves ∧ match leaf with
    | .draw pass => pass.Fitted pool
    | _ => True

/-- What is demanded for draws to follow their targets, callbacks apart; neither bind groups nor the pool matter. -/
def Demands.formats (leaves : List (FlatLeaf × CompiledLeaf)) : Demands where
  stocked _ _ := True
  grouped _ := True
  good := Pass.Piped leaves
  ready := Pass.Fitted leaves
  admitted pool command := command.ByCaller (leaves.map (·.1.node)) pool ∨ command.Follows leaves pool

variable {σ : Type} [Device σ] [LawfulDevice σ] {leaves : List (FlatLeaf × CompiledLeaf)} {setting : Setting}
  {start : Session σ} {view : PassView}

open Session (Holds)

/-- Bind groups do not matter to draws that follow their targets. -/
theorem Bindings.refresh_holds (leaves : List (FlatLeaf × CompiledLeaf)) (setting : Setting) (start : Session σ)
    (view : PassView) :
    PartEffect.Keeps (fun _ session => Holds (.formats leaves) setting start session) (Bindings.refresh (σ := σ) view) :=
  refresh_keeps (Holds.accepting _ setting start)
    (fun _ _ holds => ⟨⟨holds.setting_eq, ⟨trivial, fun _ _ => trivial, holds.kept.works⟩⟩, holds.begun, holds.host⟩) view

theorem Bindings.setup_holds (leaves : List (FlatLeaf × CompiledLeaf)) (setting : Setting) (start : Session σ)
    (view : PassView) :
    PartEffect.Keeps (fun _ session => Holds (.formats leaves) setting start session) (Bindings.setup (σ := σ) view) := by
  have refreshed : PartEffect.Keeps (fun _ session => True ∧ Holds (.formats leaves) setting start session)
      (Bindings.refresh (σ := σ) view) :=
    .pre (fun _ _ => And.right) ((refresh_holds leaves setting start view).mono (fun _ _ _ => .intro trivial)
      fun _ _ _ => .intro trivial)
  exact .pre (fun _ _ => .intro trivial)
    ((setup_keeps (Holds.accepting (.formats leaves) setting start) view (fun _ _ _ _ _ => id) refreshed).mono
      (fun _ _ _ => And.right) fun _ _ _ => And.right)

namespace DispatchPass

theorem setup_holds (leaves : List (FlatLeaf × CompiledLeaf)) (setting : Setting) (start : Session σ) (view : PassView) :
    PartEffect.Keeps (fun _ session => Holds (.formats leaves) setting start session) (setup (σ := σ) view) := by
  refine setup_keeps view (fun _ => Holds.accepting _ setting start) (fun _ _ _ holds _ _ => holds) (.inPart fun _ => ?_)
  exact .pre (fun _ _ => And.right) (Bindings.setup_holds leaves setting start view)

theorem prepare_holds (leaves : List (FlatLeaf × CompiledLeaf)) (setting : Setting) (start : Session σ) (view : PassView) :
    PartEffect.Keeps (fun _ session => Holds (.formats leaves) setting start session) (prepare (σ := σ) view) := by
  refine prepare_ensures view (fun _ => Holds.accepting _ setting start) (fun _ _ _ => id) (fun _ _ => id) (.inPart fun _ => ?_)
  exact .pre (fun _ _ => And.right) (Bindings.refresh_holds leaves setting start view)

end DispatchPass

namespace DrawPass

variable {node : Draw} {compiled : CompiledDraw}

theorem setup_piped (leaves : List (FlatLeaf × CompiledLeaf)) (setting : Setting) (start : Session σ) (view : PassView) :
    PartEffect.Keeps (fun pass session => pass.Piped node compiled ∧ Holds (.formats leaves) setting start session)
      (setup (σ := σ) view) :=
  setup_keeps view (buildPipeline_piped (Holds.accepting _ setting start))
    (bindings_piped (Bindings.setup_holds leaves setting start view))

theorem prepare_piped (leaves : List (FlatLeaf × CompiledLeaf)) (setting : Setting) (start : Session σ) (view : PassView) :
    PartEffect.Keeps (fun pass session => pass.Piped node compiled ∧ Holds (.formats leaves) setting start session)
      (prepare (σ := σ) view) := by
  have accepting (pass : DrawPass) : Session.Accepting _ fun session : Session σ =>
      pass.Piped node compiled ∧ Holds (.formats leaves) setting start session :=
    (Holds.accepting (.formats leaves) setting start).beside fun _ _ => id
  exact prepare_ensures view accepting accepting (fun _ _ => id) (fun _ _ => id)
    (buildPipeline_piped (Holds.accepting _ setting start))
    (bindings_piped (Bindings.refresh_holds leaves setting start view))

end DrawPass

theorem Command.Groupless.follows {pool : Pool} {command : Command} (groupless : command.Groupless) :
    command.Follows leaves pool := by
  cases command with
  | draw command => exact groupless.elim
  | _ => trivial

/-- Draws follow their targets, whatever else the leaves do. -/
theorem Demands.formats_met (leaves : List (FlatLeaf × CompiledLeaf)) : (Demands.formats leaves).Met σ where
  setsUpDispatch setting start view pass _ _ _ :=
    .pre (fun _ _ => And.right) ((DispatchPass.setup_holds leaves setting start view).mono
      (fun _ _ _ => .intro trivial) fun _ _ _ holds => ⟨trivial, trivial, holds⟩)
  setsUpDraw setting start view pass _ _ := fun ⟨leaf, compiled, node, listed, is, piped⟩ =>
    .ofKeeps (DrawPass.setup_piped leaves setting start view) piped fun _ piped => ⟨leaf, compiled, node, listed, is, piped⟩
  prepared _ _ := id
  preparesDispatch setting start view pass _ _ _ _ :=
    .pre (fun _ _ => And.right) ((DispatchPass.prepare_holds leaves setting start view).mono
      (fun _ _ _ => .intro ⟨trivial, trivial, trivial⟩) fun _ _ _ => .intro trivial)
  preparesDraw setting start view pass _ seen faced := by
    rintro ⟨leaf, compiled, node, listed, is, piped⟩
    have good {p : DrawPass} (piped : p.Piped node compiled) : Pass.Piped leaves (.draw p) :=
      ⟨leaf, compiled, node, listed, is, piped⟩
    have kept : PartEffect.Keeps
        (fun (p : DrawPass) session => p.Piped node compiled ∧ Holds (.formats leaves) setting start session)
        (DrawPass.prepare view) := DrawPass.prepare_piped leaves setting start view
    refine .pre (fun p session held => ⟨⟨held.1 ▸ piped, held.2⟩, trivial⟩)
      ((kept.and (DrawPass.prepare_fits view)).mono ?_ ?_)
    · rintro _ p session ⟨⟨piped, holds⟩, found⟩
      refine ⟨⟨good piped, good piped, view.surface, faced, ?_⟩, holds⟩
      rw [← seen]
      exact found
    · exact fun _ p session failed => ⟨good failed.1.1, failed.1.2⟩
  readyBlit _ _ fits := ⟨fits, trivial⟩
  readyFilter _ _ fits := ⟨fits, trivial⟩
  readyCallback _ _ fits := ⟨fits, trivial⟩
  dispatch pool pass _ := .map ((Comes.any _).mono (fun _ _ => .inr trivial) fun _ => id)
  draw program view pass _ := by
    rintro ⟨⟨leaf, compiled, node, listed, is, piped⟩, fitted⟩
    exact .map ((piped.command_comes fitted).mono (fun _ follows => .inr ⟨leaf, compiled, node, listed, is, follows⟩)
      fun _ => id)
  blit program view node _ _ := (node.command_groupless view).mono (fun _ bare => .inr bare.follows) fun _ => id
  filter program view pass _ _ := (pass.command_groupless view).mono (fun _ bare => .inr bare.follows) fun _ => id
  callback view node _ ready records := .inl ⟨node, ready.1, view, rfl, records⟩

end FrameGraph
