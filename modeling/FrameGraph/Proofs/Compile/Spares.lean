import FrameGraph.Compile.Leaves
import FrameGraph.Proofs.Compile.Arguments

/-! # Steps that leave a part of the state alone

Most steps only record uses and write to the log. They leave everything else of the state as it is, whichever part of it
is looked at.
-/

namespace FrameGraph.Compile

variable {α β γ δ : Type} {table : ResourceTable} {view : CompileState → δ}

/-- The step changes nothing of what is looked at. -/
def Spares (view : CompileState → δ) (step : Compile α) : Prop :=
  ∀ ⦃state a after⦄, step.run state = .ok (a, after) → view after = view state

/-- Neither the recorded uses nor the log are looked at. -/
structure Aside (view : CompileState → δ) : Prop where
  usage : ∀ (state : CompileState) usage, view { state with usage } = view state
  log : ∀ (state : CompileState) log, view { state with log } = view state

/-- Neither the units nor the log are looked at. -/
structure Unitless (view : CompileState → δ) : Prop where
  units : ∀ (state : CompileState) units, view { state with units } = view state
  log : ∀ (state : CompileState) log, view { state with log } = view state

namespace Spares

theorem ofPure (a : α) : Spares view (pure a) := by
  intro _ _ _ run
  rw [(pure_ok run).2]

theorem ofFail (error : CompileError) : Spares view (fail error : Compile α) := fun _ _ _ run => (fail_ok run).elim

theorem ofModify {change : CompileState → CompileState} (same : ∀ state, view (change state) = view state) :
    Spares view (modify change) := by
  intro state _ _ run
  rw [modify_ok run, same]

theorem bind {step : Compile α} {next : α → Compile β} (first : Spares view step)
    (rest : ∀ a, Spares view (next a)) : Spares view (step >>= next) := by
  intro _ _ _ run
  obtain ⟨a, _, one, run⟩ := bind_ok run
  rw [rest a run, first one]

theorem ofGet {next : CompileState → Compile α} (rest : ∀ state, Spares view (next state)) :
    Spares view (get >>= next) := fun state _ _ run => rest state (get_bind_ok run)

theorem forM {step : γ → Compile PUnit} (each : ∀ x, Spares view (step x)) (xs : List γ) :
    Spares view (xs.forM step) := by
  induction xs with
  | nil => exact ofPure _
  | cons x rest ih => exact (each x).bind fun _ => ih

theorem textureDecl (function : String) (handle : TextureHandle) : Spares view (textureDecl table function handle) :=
  fun _ _ _ run => by rw [textureDecl_ok run]

theorem bufferDecl (function : String) (handle : BufferHandle) : Spares view (bufferDecl table function handle) :=
  fun _ _ _ run => by rw [bufferDecl_ok run]

theorem textureBinding (function : String) (handle : TextureHandle) (access : TextureAccess) :
    Spares view (textureBinding table function handle access) :=
  fun _ _ _ run => by rw [(textureBinding_ok run).1]

variable (aside : Aside view)
include aside

theorem log (level : LogLevel) (source : LogSource) (text : String) : Spares view (log level source text) :=
  ofModify fun state => aside.log state _

theorem useTexture (handle : TextureHandle) (use : TextureUsage) : Spares view (useTexture handle use) :=
  ofModify fun state => aside.usage state _

theorem useBuffer (handle : BufferHandle) (use : BufferUsage) : Spares view (useBuffer handle use) :=
  ofModify fun state => aside.usage state _

/-- A texture that is declared and used. -/
theorem declaredTexture (label : String) (handle : TextureHandle) (use : TextureUsage) : Spares view (do
    let _ ← Compile.textureDecl table label handle
    Compile.useTexture handle use) := (textureDecl label handle).bind fun _ => useTexture aside handle use

theorem target (label : String) (target : ColorTarget) : Spares view (do
    if let .resource handle := target.texture then
      let _ ← Compile.textureDecl table label handle
      Compile.useTexture handle { renderTarget := true }) := by
  split
  · exact declaredTexture aside _ _ _
  · exact ofPure _

theorem depth (label : String) (depth : Option DepthTarget) : Spares view (do
    if let some depth := depth then
      let _ ← Compile.textureDecl table label depth.texture
      Compile.useTexture depth.texture { renderTarget := true } : Compile Unit) := by
  split
  · exact declaredTexture aside _ _ _
  · exact ofPure _

theorem attachments (node : Draw) : Spares view (do
    node.targets.forM fun target => do
      if let .resource handle := target.texture then
        let _ ← Compile.textureDecl table node.label handle
        Compile.useTexture handle { renderTarget := true }
    if let some depth := node.depth then
      let _ ← Compile.textureDecl table node.label depth.texture
      Compile.useTexture depth.texture { renderTarget := true }) :=
  (forM (target aside node.label) node.targets).bind fun _ => depth aside node.label node.depth

/-- What a draw records besides its index buffer. -/
theorem vertices (node : Draw) : Spares view (do
    if let .buffer handle := node.vertices then
      let _ ← Compile.bufferDecl table node.label handle
    node.targets.forM fun target => do
      if let .resource handle := target.texture then
        let _ ← Compile.textureDecl table node.label handle
        Compile.useTexture handle { renderTarget := true }
    if let some depth := node.depth then
      let _ ← Compile.textureDecl table node.label depth.texture
      Compile.useTexture depth.texture { renderTarget := true } : Compile Unit) := by
  dsimp only
  split
  · exact (bufferDecl _ _).bind fun _ => attachments aside node
  · exact attachments aside node

theorem drawResources (node : Draw) : Spares view (drawResources table node) := by
  unfold Compile.drawResources
  dsimp only
  split
  · apply (bufferDecl _ _).bind
    intro decl
    split
    · exact (useBuffer aside _ _).bind fun _ => vertices aside node
    · exact (ofFail _).bind fun _ => vertices aside node
  · exact vertices aside node

theorem blit (node : Blit) : Spares view (blit table node) := by
  unfold Compile.blit
  split
  · apply (textureDecl _ _).bind
    intro _
    apply (useTexture aside _ _).bind
    intro _
    split
    · exact declaredTexture aside _ _ _
    · exact ofPure _
  · apply (bufferDecl _ _).bind
    intro _
    apply (bufferDecl _ _).bind
    intro _
    exact (useBuffer aside _ _).bind fun _ => useBuffer aside _ _
  · exact (bufferDecl _ _).bind fun _ => useBuffer aside _ _

theorem filter (node : FilterNode) : Spares view (filter table node) := by
  unfold Compile.filter
  apply (textureDecl _ _).bind
  intro _
  apply (textureDecl _ _).bind
  intro destination
  have used := (useTexture aside node.source { sampled := true }).bind fun _ =>
    useTexture aside node.destination { storage := true }
  dsimp only
  split
  · exact (ofFail _).bind fun _ => used
  · exact used

omit aside

variable (unitless : Unitless view) (unit : Nat)
include unitless

theorem modifyUnit (change : UnitState → UnitState) : Spares view (modifyUnit unit change) :=
  ofModify fun state => unitless.units state _

theorem typeName (type : ShaderType) : Spares view (typeName unit type) := by
  apply ofGet
  intro state
  apply (modifyUnit unitless unit _).bind
  intro _
  apply (forM (fun _ => ofModify fun state => unitless.log state _) _).bind
  intro _
  split
  · exact ofFail _
  · exact ofFail _
  · exact ofPure _

theorem giveEntry (name : String) : Spares view (giveEntry unit name) := by
  apply ofGet
  intro state
  split
  · exact ofPure _
  · exact (modifyUnit unitless unit _).bind fun _ => ofPure _

end Spares

end FrameGraph.Compile
