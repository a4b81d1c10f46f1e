import FrameGraph.Proofs.Pass.Conduct
import FrameGraph.Proofs.Pass.Upheld

/-! # What passes leave alone

Frames, jobs and setup of passes never change the compiled program, the modules, the pool or the
surface of a session. A pass fails for a resource only when it reads it and the pool does not have it.
-/

namespace FrameGraph

variable {σ : Type}

/-- What passes work with. -/
structure Setting where
  compiled : CompiledProgram
  modules : Option (List ShaderModule)
  pool : Pool
  surface : Option Surface

namespace Session

def setting (session : Session σ) : Setting :=
  ⟨session.compiled, session.modules, session.pool, session.surface⟩

/-- The leaves of all work that was handed to coordinators are as asked. -/
def Works (good : Pass → Prop) (session : Session σ) : Prop :=
  ∀ name coordinator work, session.coordinator? name = some coordinator → coordinator.work = some work →
    Pass.Each good work.passes

theorem works_of_idle {good : Pass → Prop} {session : Session σ}
    (idle : ∀ entry ∈ session.coordinators, entry.2.work = none) : session.Works good := by
  intro name coordinator work found has
  obtain ⟨_, _, entries, -⟩ := List.lookup_eq_some_iff.mp found
  rw [idle (name, coordinator) (by simp [entries])] at has
  cases has

theorem coordinator?_modifyCoordinator (session : Session σ) (name other : String)
    (change : OffFrame.Coordinator → OffFrame.Coordinator) :
    (session.modifyCoordinator name change).coordinator? other =
      if other = name then (session.coordinator? name).map change else session.coordinator? other := by
  unfold modifyCoordinator
  cases found : session.coordinator? name with
  | none =>
    by_cases same : other = name
    · simp [same, found]
    · simp [same]
  | some coordinator => simp [coordinator?, Shared.lookup_assign]

theorem setting_modifyCoordinator (session : Session σ) (name : String)
    (change : OffFrame.Coordinator → OffFrame.Coordinator) :
    (session.modifyCoordinator name change).setting = session.setting := by
  unfold modifyCoordinator
  split <;> rfl

variable {good : Pass → Prop}

theorem Works.coordinate {session : Session σ} (works : session.Works good) (name : String)
    {change : OffFrame.Coordinator → OffFrame.Coordinator}
    (same : ∀ coordinator, (change coordinator).work = coordinator.work) :
    (session.modifyCoordinator name change).Works good := by
  intro other coordinator work found has
  rw [coordinator?_modifyCoordinator] at found
  split at found
  · obtain ⟨old, there, rfl⟩ := Option.map_eq_some_iff.mp found
    exact works name old work there (same old ▸ has)
  · exact works other coordinator work found has

theorem Works.hand {session : Session σ} (works : session.Works good) (name : String)
    {new : OffFrame.Work} (all : Pass.Each good new.passes) :
    (session.modifyCoordinator name fun coordinator => { coordinator with work := some new }).Works good := by
  intro other coordinator work found has
  rw [coordinator?_modifyCoordinator] at found
  split at found
  · obtain ⟨old, _, rfl⟩ := Option.map_eq_some_iff.mp found
    cases has
    exact all
  · exact works other coordinator work found has

/-- The setting is this one, and what is kept whatever the setting holds. -/
structure Stands (setting : Setting) (kept : Session σ → Prop) (session : Session σ) : Prop where
  setting_eq : session.setting = setting
  kept : kept session

namespace Stands

variable {setting : Setting} {kept : Session σ → Prop} {session : Session σ}

theorem compiled_eq (stands : session.Stands setting kept) : session.compiled = setting.compiled :=
  congrArg Setting.compiled stands.setting_eq

theorem pool_eq (stands : session.Stands setting kept) : session.pool = setting.pool :=
  congrArg Setting.pool stands.setting_eq

theorem surface_eq (stands : session.Stands setting kept) : session.surface = setting.surface :=
  congrArg Setting.surface stands.setting_eq

end Stands

/-- The setting is this one. -/
abbrev At (setting : Setting) : Session σ → Prop := Stands setting fun _ => True

theorem at_aloof (setting : Setting) : Aloof (σ := σ) setting.compiled (At setting) where
  compiled _ holds := holds.compiled_eq
  host _ _ holds := ⟨holds.setting_eq, holds.kept⟩
  blocks _ _ holds := ⟨holds.setting_eq, holds.kept⟩

end Session

/-- The error is a missing resource only when the pool does not have it and a leaf reads it; a buffer
that a leaf reads without having it recorded is missed under the name of that leaf. -/
def PassError.ReadBy (setting : Setting) (good : Pass → Prop) : PassError → Prop
  | .missingTexture _ handle =>
    setting.pool.texture? handle = none ∧ ∃ leaf, good leaf ∧ handle ∈ leaf.textures setting.compiled
  | .missingBuffer label handle =>
    setting.pool.buffer? handle = none ∧
      ((∃ leaf, good leaf ∧ handle ∈ leaf.buffers setting.compiled) ∨
        ∃ leaf, good leaf ∧ leaf.label = label ∧ handle ∈ leaf.looseBuffers)
  | _ => True

/-- A callback among good leaves may fail with the error while the pool is that of the setting, or it is about what
leaves read. -/
def PassError.Raised (setting : Setting) (good : Pass → Prop) (error : PassError) : Prop :=
  (∃ node, good (.callback node) ∧ ∃ view : EncodeView, view.pool = setting.pool ∧ node.MayFail view error) ∨
    error.ReadBy setting good

theorem PassError.Misses.raised {setting : Setting} {good : Pass → Prop} {error : PassError} (leaf : Pass)
    (misses : error.Misses setting.pool (leaf.textures setting.compiled) (leaf.buffers setting.compiled))
    (fits : good leaf) : error.Raised setting good := by
  refine .inr ?_
  cases error with
  | missingTexture _ handle => exact ⟨misses.2, leaf, fits, misses.1⟩
  | missingBuffer _ handle => exact ⟨misses.2, .inl ⟨leaf, fits, misses.1⟩⟩
  | _ => trivial

section

variable [Device σ]

theorem DrawPass.buildPipeline_isSome (formats : List PixelFormat) (known : Prop) :
    PartEffect.Ensures (fun (pass : DrawPass) (_ : Session σ) => known → pass.pipeline.isSome)
      (buildPipeline formats) (fun _ pass _ => pass.pipeline.isSome)
      fun _ pass _ => known → pass.pipeline.isSome := by
  refine .ofRead fun pass held => .ofLook fun _ _ here => .ofNeed (fun module _ => ?_) fun _ => ?_
  · refine .bind (.mono (.apart _) (fun _ _ _ => id) ?_) fun pipeline => .ofSet fun _ _ _ => rfl
    rintro _ _ _ rfl
    exact held
  · rintro _ _ rfl
    exact held

theorem DrawPass.setup_pipeline (view : PassView) :
    PartEffect.Ensures (fun (_ : DrawPass) (_ : Session σ) => True) (setup view)
      (fun _ pass _ => pass.pipeline.isSome) fun _ _ _ => True := by
  refine .ofRead fun pass _ => .ofExcept (fun formats _ => ?_) fun _ _ _ _ _ => trivial
  refine .bind (.pre ?_ (.mono (buildPipeline_isSome formats False) (fun _ _ _ => id) fun _ _ _ _ => trivial))
    fun _ => .mono (.within _ fun _ _ => id) (fun _ _ _ => id) fun _ _ _ _ => trivial
  exact fun _ _ _ => False.elim

theorem DrawPass.prepare_pipeline (view : PassView) :
    PartEffect.Ensures (fun (pass : DrawPass) (_ : Session σ) => pass.pipeline.isSome) (prepare view)
      (fun _ pass _ => pass.pipeline.isSome) fun _ pass _ => pass.pipeline.isSome := by
  have finished : PartEffect.Ensures (fun (pass : DrawPass) (_ : Session σ) => pass.pipeline.isSome)
      (do
        (Bindings.refresh view).inPart bindingsLens
        PartEffect.around (← get).bindings.uploadBytes)
      (fun _ pass _ => pass.pipeline.isSome) fun _ pass _ => pass.pipeline.isSome := by
    refine (PartEffect.Ensures.within _ fun _ _ => id).bind fun _ => .ofRead fun pass built => ?_
    refine .pre ?_ (.apart _)
    rintro _ _ rfl
    exact built
  have rebuilt (formats : List PixelFormat) :
      PartEffect.Ensures (fun (pass : DrawPass) (_ : Session σ) => pass.pipeline.isSome) (buildPipeline formats)
      (fun _ pass _ => pass.pipeline.isSome) fun _ pass _ => pass.pipeline.isSome :=
    .pre (fun _ _ built _ => built) (.mono (buildPipeline_isSome formats True) (fun _ _ _ => id)
      fun _ _ _ held => held trivial)
  refine .ofRead fun pass built => .pre (fun _ _ here => here ▸ built) (.ofExcept (fun formats _ => ?_)
    fun _ _ _ _ => id)
  refine .ofIf (fun _ => ?_) fun _ => finished
  exact (PartEffect.Ensures.apart _).bind fun _ => (rebuilt formats).bind fun _ => finished

/-- A draw has its pipeline. -/
def Pass.HasPipeline : Pass → Prop
  | .draw pass => pass.pipeline.isSome
  | _ => True

/-- Assertions on leaves before and after setup that depend on what a leaf was built as and on whether a
draw has its pipeline. -/
structure Pass.Lasting (raw good : Pass → Prop) : Prop where
  weaken : ∀ leaf, good leaf → raw leaf
  raw_same : ∀ leaf other, other.asBuilt = leaf.asBuilt → raw leaf → raw other
  good_same : ∀ leaf other, other.asBuilt = leaf.asBuilt → (leaf.HasPipeline → other.HasPipeline) →
    good leaf → good other
  finished : ∀ leaf, raw leaf → leaf.HasPipeline → good leaf

omit [Device σ] in
/-- Nothing at all may be asked of leaves. -/
theorem Pass.Lasting.any : Pass.Lasting (fun _ => True) fun _ => True :=
  ⟨fun _ => id, fun _ _ _ => id, fun _ _ _ _ => id, fun _ _ _ => .intro⟩

omit [Device σ] in
/-- A leaf that is conducted stays as asked when that depends on what it was built as. -/
theorem Session.Conducts.leafStep {S : Type} {inv : Session σ → Prop} {wrap : S → Pass} {built : S → S}
    {pass : S} {pool : Pool} {textures : List TextureHandle} {buffers : List BufferHandle}
    {action : PassM S σ Unit} {raw good : Pass → Prop} {allowed : PassError → Prop}
    (conducts : Conducts inv built (built pass) pool textures buffers action)
    (ok : ∀ p, built p = built pass → good (wrap p)) (failed : ∀ p, built p = built pass → raw (wrap p))
    (misses : ∀ error, error.Misses pool textures buffers → allowed error) :
    Pass.LeafStep inv wrap pass action raw good allowed :=
  .pre (fun _ _ held => ⟨held.1 ▸ rfl, held.2⟩) (.mono conducts (fun _ p _ done => ⟨ok p done.1, done.2⟩)
    fun error p _ broken => ⟨misses error broken.1, failed p broken.2.1, broken.2.2⟩)

namespace Pass.Lasting

variable {raw good : Pass → Prop} {setting : Setting} {view : PassView}

open Session (At)

/-- Setup of passes leaves the setting alone. -/
theorem setsUp (lasting : Lasting raw good) (seen : view.pool = setting.pool) :
    SetsUp (σ := σ) view (At setting) raw good (PassError.Raised setting raw) where
  weaken := lasting.weaken
  dispatch pass fits := by
    have same (p : DispatchPass) (built : p.asBuilt = pass.asBuilt) : raw (.dispatch p) :=
      lasting.raw_same (.dispatch pass) _ (congrArg Pass.dispatch built) fits
    refine (DispatchPass.setup_conducts (Session.at_aloof setting) view).leafStep
      (fun p built => lasting.finished _ (same p built) trivial) same fun error misses => ?_
    exact PassError.Misses.raised (.dispatch pass) (seen ▸ misses) fits
  draw pass fits := by
    have same (p : DrawPass) (built : p.asBuilt = pass.asBuilt) : raw (.draw p) :=
      lasting.raw_same (.draw pass) _ (congrArg Pass.draw built) fits
    have step : LeafStep (σ := σ) (At setting) .draw pass (DrawPass.setup view) raw raw (PassError.Raised setting raw) :=
      (DrawPass.setup_conducts (Session.at_aloof setting) view).leafStep same same fun error misses =>
        PassError.Misses.raised (.draw pass) (seen ▸ misses) fits
    refine .pre (fun _ _ held => ⟨held, trivial⟩) ((step.and (DrawPass.setup_pipeline view)).mono ?_ ?_)
    · exact fun _ p _ done => ⟨lasting.finished _ done.1.1 done.2, done.1.2⟩
    · exact fun _ p _ broken => broken.1
  filter pass fits := by
    have same (p : FilterPass) (built : p.asBuilt = pass.asBuilt) : raw (.filter p) :=
      lasting.raw_same (.filter pass) _ (congrArg Pass.filter built) fits
    refine (FilterPass.setup_conducts (Session.at_aloof setting) view).leafStep
      (fun p built => lasting.finished _ (same p built) trivial) same fun error misses => ?_
    exact PassError.Misses.raised (.filter pass) (seen ▸ misses) fits
  blit node fits := lasting.finished _ fits trivial
  callback node fits := lasting.finished _ fits trivial
  attach session name passes held _ :=
     ⟨(Session.setting_modifyCoordinator _ _ _).trans held.setting_eq, trivial⟩

theorem prepares (lasting : Lasting raw good) (seen : view.pool = setting.pool) :
    Prepares (σ := σ) view (At setting) good (PassError.Raised setting good) where
  dispatch pass fits := by
    have same (p : DispatchPass) (built : p.asBuilt = pass.asBuilt) : good (.dispatch p) :=
      lasting.good_same (.dispatch pass) _ (congrArg Pass.dispatch built) (fun _ => trivial) fits
    refine (DispatchPass.prepare_conducts (Session.at_aloof setting) view).leafStep same same
      fun error misses => ?_
    exact PassError.Misses.raised (.dispatch pass) (seen ▸ misses) fits
  draw pass fits := by
    have same (p : DrawPass) (built : p.asBuilt = pass.asBuilt)
        (still : pass.pipeline.isSome → p.pipeline.isSome) : good (.draw p) :=
      lasting.good_same (.draw pass) _ (congrArg Pass.draw built) still fits
    have conducts := @DrawPass.prepare_conducts σ setting.compiled _ _ pass.asBuilt (Session.at_aloof setting) view
    have misses (error : PassError) (missed : error.Misses view.pool (textures setting.compiled (.draw pass))
        (buffers setting.compiled (.draw pass))) : error.Raised setting good :=
      PassError.Misses.raised (.draw pass) (seen ▸ missed) fits
    by_cases has : pass.pipeline.isSome
    · refine .pre (fun p _ held => ⟨⟨held.1 ▸ rfl, held.2⟩, held.1 ▸ has⟩)
        ((conducts.and (DrawPass.prepare_pipeline view)).mono ?_ ?_)
      · exact fun _ p _ done => ⟨same p done.1.1 fun _ => done.2, done.1.2⟩
      · exact fun error p _ broken =>
          ⟨misses error broken.1.1, same p broken.1.2.1 fun _ => broken.2, broken.1.2.2⟩
    · exact conducts.leafStep (fun p built => same p built fun some => absurd some has)
        (fun p built => same p built fun some => absurd some has) misses

/-- Frames leave the setting alone, and a pass that fails for a resource misses one that some
leaf reads. -/
theorem upheld (lasting : Lasting raw good) :
    Upheld (σ := σ) (At setting) good (fun _ => True) (PassError.Raised setting good) where
  log _ _ held := ⟨held.setting_eq, held.kept⟩
  share _ _ held := ⟨held.setting_eq, held.kept⟩
  writeDown _ _ held := ⟨held.setting_eq, held.kept⟩
  coordinate _ _ _ _ held := ⟨(Session.setting_modifyCoordinator _ _ _).trans held.setting_eq, trivial⟩
  encode _ _ _ := Host.perform_keeps fun _ _ held => ⟨held.setting_eq, held.kept⟩
  submit _ _ _ _ := Host.perform_keeps fun _ _ held => ⟨held.setting_eq, held.kept⟩
  wait _ _ := Host.perform_keeps fun _ _ held => ⟨held.setting_eq, held.kept⟩
  prepare session view held seen := lasting.prepares (seen.trans held.pool_eq)
  dispatch pass fits := by
    refine .map ((pass.command_comes setting.pool).mono (fun _ _ => trivial) fun error misses => ?_)
    exact PassError.Misses.raised (.dispatch pass)
      (misses.mono (List.nil_subset _) (List.nil_subset _)) fits
  draw session view pass held seen fits := by
    have pool : view.pool = setting.pool := seen.trans held.pool_eq
    refine .map ((pass.command_comes setting.compiled view).mono (fun _ _ => trivial) fun error misses => ?_)
    rw [pool] at misses
    obtain misses | ⟨handle, counted, absent, rfl⟩ := misses
    · exact misses.raised (.draw pass) fits
    · refine .inr ⟨absent, .inr ⟨.draw pass, fits, rfl, ?_⟩⟩
      rw [looseBuffers, counted]
      exact .head _
  blit session view node held seen fits := by
    have pool : view.pool = setting.pool := seen.trans held.pool_eq
    refine (node.command_comes setting.compiled view).mono (fun _ _ => trivial) fun error misses => ?_
    rw [pool] at misses
    exact misses.raised (.blit node) fits
  filter session view pass held seen fits := by
    have pool : view.pool = setting.pool := seen.trans held.pool_eq
    refine (pass.command_comes setting.compiled view).mono (fun _ _ => trivial) fun error misses => ?_
    rw [pool] at misses
    exact misses.raised (.filter pass) fits
  callback _ _ _ _ _ _ _ _ := trivial
  device _ _ := .inr trivial
  fail _ view node _ held seen fits fails := .inl ⟨node, fits, view, seen.trans held.pool_eq, fails⟩

end Pass.Lasting

/-- Jobs leave the setting alone, whatever their leaves are. -/
theorem Session.at_upheldInJobs (setting : Setting) :
    UpheldInJobs (σ := σ) (At setting) (fun _ => True) (fun _ => True)
      (PassError.Raised setting fun _ => True) where
  toUpheld := Pass.Lasting.any.upheld
  hand _ _ _ _ held := ⟨(Session.setting_modifyCoordinator _ _ _).trans held.setting_eq, trivial⟩
  works _ _ _ _ _ _ _ _ _ := trivial

end

end FrameGraph
