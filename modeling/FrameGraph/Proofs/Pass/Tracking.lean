import FrameGraph.Compile.Program
import FrameGraph.Flatten
import FrameGraph.Proofs.Pass.Accepting
import FrameGraph.Proofs.Pass.Setting
import FrameGraph.Proofs.Pool

/-! # Bind groups and allocations

A bind group remembers the generations of the resources that it was created from. A slot never gets an allocation of
the same generation again, so a group whose stamp is the pool's binds what the pool holds, however long ago it was
created and whatever failed since. A refresh that succeeds has all groups of a pass so, and those of the argument
blocks are the groups that every other pass finds until the pool changes.
-/

namespace FrameGraph

/-- A binding of a texture or a buffer of the caller refers to what the pool holds for it. -/
def BindingSpec.Refers (pool : Pool) (binding : BindingSpec) (resource : BoundResource) : Prop :=
  match binding.source with
  | .buffer handle => (pool.buffer? handle).map .buffer = some resource
  | .texture handle => (pool.texture? handle).map .texture = some resource
  | .bytes _ | .gridExtent => True

/-- A bind group was created from a pool that the pool has evolved from, and it remembers the generations then. -/
def BoundGroup.Tracks (spec : GroupSpec) (pool : Pool) (bound : BoundGroup) : Prop :=
  ∃ past : Pool, past.Evolves pool ∧ bound.stamp = spec.stamp past ∧
    List.Forall₂ (BindingSpec.Refers past) spec bound.group.resources

/-- A resource that is resolved is the one in the pool. -/
theorem BindingSpec.resolve_refers (label : String) (pool : Pool) (bytes : List Buffer) (grid : Option Buffer)
    (binding : BindingSpec) :
    Comes (binding.Refers pool) (fun _ => True) (binding.resolve label pool bytes grid) := by
  unfold resolve Refers
  cases binding.source with
  | buffer handle => exact .ofNeed (fun _ found => congrArg (Option.map BoundResource.buffer) found) fun _ => trivial
  | texture handle => exact .ofNeed (fun _ found => congrArg (Option.map BoundResource.texture) found) fun _ => trivial
  | bytes slot => exact .ofNeed (fun _ _ => trivial) fun _ => trivial
  | gridExtent => exact .ofNeed (fun _ _ => trivial) fun _ => trivial

/-- Where the generations are the same, so are the allocations. -/
theorem BindingSpec.Refers.evolve {past now : Pool} (evolves : past.Evolves now) {binding : BindingSpec}
    {resource : BoundResource} (refers : binding.Refers past resource)
    (same : GroupSpec.stamp [binding] past = GroupSpec.stamp [binding] now) : binding.Refers now resource := by
  unfold Refers at refers ⊢
  simp only [GroupSpec.stamp, List.map_cons, List.map_nil, List.cons.injEq, and_true] at same
  cases source : binding.source with
  | buffer handle =>
    simp only [source, Pool.buffer?, Option.map_map, Option.map_eq_some_iff] at refers same ⊢
    obtain ⟨slot, filled, rfl⟩ := refers
    rw [filled, Option.map_some] at same
    have there : past.allocation? (.buffer handle) = some (.inr slot) := by rw [Pool.allocation?, filled, Option.map_some]
    have kept := evolves.allocation_eq there (by rw [Pool.allocation?, Option.map_map]; exact same.symm)
    obtain ⟨_, held, ⟨⟩⟩ := Option.map_eq_some_iff.mp kept
    exact ⟨slot, held, rfl⟩
  | texture handle =>
    simp only [source, Pool.texture?, Option.map_map, Option.map_eq_some_iff] at refers same ⊢
    obtain ⟨slot, filled, rfl⟩ := refers
    rw [filled, Option.map_some] at same
    have there : past.allocation? (.texture handle) = some (.inl slot) := by rw [Pool.allocation?, filled, Option.map_some]
    have kept := evolves.allocation_eq there (by rw [Pool.allocation?, Option.map_map]; exact same.symm)
    obtain ⟨_, held, ⟨⟩⟩ := Option.map_eq_some_iff.mp kept
    exact ⟨slot, held, rfl⟩
  | bytes slot => trivial
  | gridExtent => trivial

namespace BoundGroup.Tracks

variable {spec : GroupSpec} {pool later : Pool} {bound : BoundGroup}

theorem evolve (tracks : bound.Tracks spec pool) (evolves : pool.Evolves later) : bound.Tracks spec later := by
  obtain ⟨past, since, stamp, refers⟩ := tracks
  exact ⟨past, since.trans evolves, stamp, refers⟩

/-- A group whose stamp is the pool's binds what the pool holds. -/
theorem refers (tracks : bound.Tracks spec pool) (fresh : bound.stamp = spec.stamp pool) :
    List.Forall₂ (BindingSpec.Refers pool) spec bound.group.resources := by
  obtain ⟨past, since, stamp, refers⟩ := tracks
  have same : spec.stamp past = spec.stamp pool := stamp.symm.trans fresh
  generalize bound.group.resources = resources at refers ⊢
  clear stamp fresh
  induction refers with
  | nil => exact .nil
  | cons one rest ih =>
    obtain ⟨head, tail⟩ := List.cons_eq_cons.mp same
    exact .cons (one.evolve since (congrArg (List.cons · []) head)) (ih tail)

end BoundGroup.Tracks

/-- What a group number of a leaf is bound to: its group refers to what the pool holds, and for an argument block it
is the group of the block, which is up to date. -/
structure Session.Binds {σ : Type} (session : Session σ) (binding : GroupBinding) (group : BindGroup) : Prop where
  refers : List.Forall₂ (BindingSpec.Refers session.pool) (session.compiled.groupSpec binding) group.resources
  shared : ∀ place, binding = .shared place → ∃ block bound, session.compiled.blocks[place]? = some block ∧
    session.blockGroups[place]? = some (some bound) ∧ bound.stamp = block.group.stamp session.pool ∧
      bound.group = group

variable {σ : Type} {leaves : List (FlatLeaf × CompiledLeaf)}

/-- A launch or a draw is that of a compiled leaf, and each of its bind groups is what the session binds for the group
number. So all such commands carry the same group for an argument block. -/
def Command.Current (leaves : List (FlatLeaf × CompiledLeaf)) (session : Session σ) : Command → Prop
  | .dispatch command => ∃ leaf compiled, (leaf, .dispatch compiled) ∈ leaves ∧
      command.label = leaf.node.label ∧ command.pipeline.entry = compiled.entry ∧
      List.Forall₂ session.Binds compiled.groups command.groups
  | .draw command => ∃ leaf compiled, (leaf, .draw compiled) ∈ leaves ∧
      command.label = leaf.node.label ∧ command.pipeline.vertexEntry = compiled.vertexEntry ∧
      command.pipeline.fragmentEntry = compiled.fragmentEntry ∧
      List.Forall₂ session.Binds compiled.groups command.groups
  | _ => True

/-- The command is current, or a callback among the leaves may record it. -/
def Command.Given (leaves : List (FlatLeaf × CompiledLeaf)) (session : Session σ) (command : Command) : Prop :=
  command.ByCaller (leaves.map (·.1.node)) session.pool ∨ command.Current leaves session

/-- The bindings are for these groups, and every bind group of theirs tracks the pool. -/
structure Bindings.Tracked (groups : List GroupBinding) (pool : Pool) (bindings : Bindings) : Prop where
  groups_eq : bindings.groups = groups
  own : ∀ (place : Nat) (spec : GroupSpec) (bound : BoundGroup), groups[place]? = some (.own spec) →
    bindings.own[place]? = some (some bound) → bound.Tracks spec pool

/-- A kernel pass of this label is for this compiled kernel, and its bind groups track the pool. -/
structure DispatchPass.Tracked (label : String) (compiled : CompiledDispatch) (pool : Pool) (pass : DispatchPass) :
    Prop where
  label_eq : pass.label = label
  entry_eq : pass.compiled.entry = compiled.entry
  pipeline : ∀ pipeline, pass.pipeline = some pipeline → pipeline.entry = compiled.entry
  bindings : pass.bindings.Tracked compiled.groups pool

/-- A draw of this label is for this compiled draw, and its bind groups track the pool. -/
structure DrawPass.Tracked (label : String) (compiled : CompiledDraw) (pool : Pool) (pass : DrawPass) : Prop where
  label_eq : pass.label = label
  vertexEntry_eq : pass.compiled.vertexEntry = compiled.vertexEntry
  fragmentEntry_eq : pass.compiled.fragmentEntry = compiled.fragmentEntry
  pipeline : ∀ pipeline, pass.pipeline = some pipeline →
    pipeline.vertexEntry = compiled.vertexEntry ∧ pipeline.fragmentEntry = compiled.fragmentEntry
  bindings : pass.bindings.Tracked compiled.groups pool

/-- What a pass has created is for its compiled leaf and tracks the pool; a callback is one of the leaves. -/
def Pass.Tracked (leaves : List (FlatLeaf × CompiledLeaf)) (pool : Pool) : Pass → Prop
  | .dispatch pass => ∃ leaf compiled, (leaf, .dispatch compiled) ∈ leaves ∧ pass.Tracked leaf.node.label compiled pool
  | .draw pass => ∃ leaf compiled, (leaf, .draw compiled) ∈ leaves ∧ pass.Tracked leaf.node.label compiled pool
  | .callback node => .callback node ∈ leaves.map (·.1.node)
  | _ => True

/-- The groups that a pass resolved are what a session binds. -/
def Bindings.UpToDate (session : Session σ) (bindings : Bindings) : Prop :=
  List.Forall₂ session.Binds bindings.groups bindings.resolved

/-- A pass tracks the pool of a session and is up to date with it. -/
def Pass.Ready (leaves : List (FlatLeaf × CompiledLeaf)) (session : Session σ) : Pass → Prop
  | .dispatch pass => ∃ leaf compiled, (leaf, .dispatch compiled) ∈ leaves ∧
      pass.Tracked leaf.node.label compiled session.pool ∧ pass.bindings.UpToDate session
  | .draw pass => ∃ leaf compiled, (leaf, .draw compiled) ∈ leaves ∧
      pass.Tracked leaf.node.label compiled session.pool ∧ pass.bindings.UpToDate session
  | .callback node => .callback node ∈ leaves.map (·.1.node)
  | _ => True

section

variable {pool later : Pool} (evolves : pool.Evolves later)

include evolves

theorem Bindings.Tracked.evolve {groups : List GroupBinding} {bindings : Bindings}
    (tracked : bindings.Tracked groups pool) : bindings.Tracked groups later where
  groups_eq := tracked.groups_eq
  own place spec bound listed stored := (tracked.own place spec bound listed stored).evolve evolves

theorem Pass.Tracked.evolve {leaf : Pass} (tracked : leaf.Tracked leaves pool) : leaf.Tracked leaves later := by
  cases leaf with
  | dispatch pass =>
    obtain ⟨leaf, compiled, listed, tracked⟩ := tracked
    exact ⟨leaf, compiled, listed, { tracked with bindings := tracked.bindings.evolve evolves }⟩
  | draw pass =>
    obtain ⟨leaf, compiled, listed, tracked⟩ := tracked
    exact ⟨leaf, compiled, listed, { tracked with bindings := tracked.bindings.evolve evolves }⟩
  | _ => trivial

end

/-- Bindings that were just built have created nothing. -/
theorem Bindings.tracked_ofGroups (label : String) (groups : List GroupBinding) (bytes : List BytesSlot)
    (pool : Pool) : (ofGroups label groups bytes).Tracked groups pool where
  groups_eq := rfl
  own place _ _ _ stored := by
    rw [ofGroups, List.getElem?_map, Option.map_eq_some_iff] at stored
    obtain ⟨_, _, ⟨⟩⟩ := stored

theorem Bindings.Tracked.store {groups : List GroupBinding} {pool : Pool} {bindings : Bindings}
    (tracked : bindings.Tracked groups pool) {place : Nat} {spec : GroupSpec} {bound : BoundGroup}
    (listed : groups[place]? = some (.own spec)) (tracks : bound.Tracks spec pool) :
    Tracked groups pool { bindings with own := bindings.own.set place (some bound) } where
  groups_eq := tracked.groups_eq
  own other spec' bound' listed' stored := by
    rw [List.getElem?_set] at stored
    split at stored
    · rename_i same
      subst same
      rw [listed] at listed'
      split at stored <;> cases stored
      cases listed'
      exact tracks
    · exact tracked.own other spec' bound' listed' stored

namespace Session

/-- The bind groups of the argument blocks track the pool, and so do those of the passes that coordinators hold. -/
structure Tracked (leaves : List (FlatLeaf × CompiledLeaf)) (session : Session σ) : Prop where
  sized : session.blockGroups.length = session.compiled.blocks.length
  blocks : ∀ (place : Nat) (block : ArgumentBlock) (bound : BoundGroup), session.compiled.blocks[place]? = some block →
    session.blockGroups[place]? = some (some bound) → bound.Tracks block.group session.pool
  works : session.Works (Pass.Tracked leaves session.pool)

/-- The setting is the same, and so are the groups of the argument blocks that were up to date. -/
structure Retains (start session : Session σ) : Prop where
  setting_eq : session.setting = start.setting
  blocks : ∀ (place : Nat) (block : ArgumentBlock) (bound : BoundGroup), start.compiled.blocks[place]? = some block →
    start.blockGroups[place]? = some (some bound) → bound.stamp = block.group.stamp start.pool →
      session.blockGroups[place]? = some (some bound)

namespace Retains

variable {start middle session : Session σ}

theorem refl (session : Session σ) : Retains session session := ⟨rfl, fun _ _ _ _ stored _ => stored⟩

/-- The host does not matter to what a session binds. -/
theorem rehost (session : Session σ) (host : Host σ) : Retains session { session with host } :=
  ⟨rfl, fun _ _ _ _ stored _ => stored⟩

theorem compiled_eq (retains : Retains start session) : session.compiled = start.compiled :=
  congrArg Setting.compiled retains.setting_eq

theorem pool_eq (retains : Retains start session) : session.pool = start.pool :=
  congrArg Setting.pool retains.setting_eq

theorem trans (one : Retains start middle) (two : Retains middle session) : Retains start session where
  setting_eq := two.setting_eq.trans one.setting_eq
  blocks place block bound found stored fresh := by
    refine two.blocks place block bound ?_ (one.blocks place block bound found stored fresh) ?_
    · rw [one.compiled_eq, found]
    · rw [one.pool_eq, fresh]

/-- What a session binds it goes on to bind. -/
theorem binds (retains : Retains start session) {binding : GroupBinding} {group : BindGroup}
    (binds : start.Binds binding group) : session.Binds binding group where
  refers := by
    rw [retains.pool_eq, retains.compiled_eq]
    exact binds.refers
  shared place same := by
    obtain ⟨block, bound, found, stored, fresh, group_eq⟩ := binds.shared place same
    refine ⟨block, bound, ?_, retains.blocks place block bound found stored fresh, ?_, group_eq⟩
    · rw [retains.compiled_eq, found]
    · rw [retains.pool_eq, fresh]

theorem current (retains : Retains start session) {command : Command} (current : command.Current leaves start) :
    command.Current leaves session := by
  cases command with
  | dispatch command =>
    obtain ⟨leaf, compiled, listed, label, entry, bound⟩ := current
    exact ⟨leaf, compiled, listed, label, entry, bound.imp fun _ _ => retains.binds⟩
  | draw command =>
    obtain ⟨leaf, compiled, listed, label, vertex, fragment, bound⟩ := current
    exact ⟨leaf, compiled, listed, label, vertex, fragment, bound.imp fun _ _ => retains.binds⟩
  | _ => trivial

theorem given (retains : Retains start session) {command : Command} (given : command.Given leaves start) :
    command.Given leaves session := by
  obtain caller | current := given
  · exact .inl (retains.pool_eq ▸ caller)
  · exact .inr (retains.current current)

theorem upToDate (retains : Retains start session) {bindings : Bindings} (upToDate : bindings.UpToDate start) :
    bindings.UpToDate session := upToDate.imp fun _ _ => retains.binds

theorem ready (retains : Retains start session) {leaf : Pass} (ready : leaf.Ready leaves start) :
    leaf.Ready leaves session := by
  cases leaf with
  | dispatch pass =>
    obtain ⟨leaf, compiled, listed, tracked, upToDate⟩ := ready
    exact ⟨leaf, compiled, listed, retains.pool_eq ▸ tracked, retains.upToDate upToDate⟩
  | draw pass =>
    obtain ⟨leaf, compiled, listed, tracked, upToDate⟩ := ready
    exact ⟨leaf, compiled, listed, retains.pool_eq ▸ tracked, retains.upToDate upToDate⟩
  | callback node => exact ready
  | _ => trivial

end Retains

variable [Device σ]

/-- What becomes of a session of this setting in frames and jobs: it goes on to track the pool, the groups of the
argument blocks that were up to date stay, and its device is given commands only that bind what it binds, or that callbacks record. -/
structure Onward (leaves : List (FlatLeaf × CompiledLeaf)) (setting : Setting) (start session : Session σ) : Prop
    extends Retains start session where
  begun : start.setting = setting
  tracked : session.Tracked leaves
  host : Host.Reaches (Command.Given leaves session) start.host session.host

namespace Onward

variable {setting : Setting} {start middle session : Session σ}

theorem refl (begun : session.setting = setting) (tracked : session.Tracked leaves) :
    Onward leaves setting session session := ⟨.refl session, begun, tracked, .refl _ _⟩

theorem again (onward : Onward leaves setting start session) : Onward leaves setting session session :=
  .refl (onward.setting_eq.trans onward.begun) onward.tracked

theorem trans (one : Onward leaves setting start middle) (two : Onward leaves setting middle session) :
    Onward leaves setting start session where
  toRetains := one.toRetains.trans two.toRetains
  begun := one.begun
  tracked := two.tracked
  host := (one.host.mono fun _ => two.given).trans two.host

theorem seen (onward : Onward leaves setting start session) : session.pool = setting.pool :=
  congrArg Setting.pool (onward.setting_eq.trans onward.begun)

/-- Commands that the start binds may be given. -/
theorem accepting (leaves : List (FlatLeaf × CompiledLeaf)) (setting : Setting) (start : Session σ) :
    Session.Accepting (Command.Given leaves start) (Onward leaves setting start) := by
  intro session
  have back (host : Host σ) : Retains { session with host } session := .rehost { session with host } session.host
  have split (host : Host σ) : Onward leaves setting start { session with host } ↔
      (Retains start session ∧ start.setting = setting ∧ session.Tracked leaves) ∧
        Host.Reaches (Command.Given leaves session) start.host host := by
    constructor
    · intro held
      exact ⟨⟨held.toRetains.trans (back host), held.begun, { held.tracked with }⟩,
        held.host.mono fun _ => (back host).given⟩
    · rintro ⟨⟨retains, begun, tracked⟩, reached⟩
      have away := Retains.rehost session host
      exact ⟨retains.trans away, begun, { tracked with }, reached.mono fun _ => away.given⟩
  rw [funext fun host => propext (split host)]
  exact .given fun known => (Host.Reaches.accepts _ _).mono fun _ => known.1.given

/-- What happens to neither the setting nor the bind groups nor the host does not matter. -/
theorem act (onward : Onward leaves setting start session) {later : Session σ} (setting_eq : later.setting = session.setting)
    (groups_eq : later.blockGroups = session.blockGroups) (host_eq : later.host = session.host)
    (works : later.Works (Pass.Tracked leaves session.pool)) : Onward leaves setting start later := by
  have retains : Retains session later := ⟨setting_eq, fun _ _ _ _ stored _ => groups_eq ▸ stored⟩
  refine ⟨onward.toRetains.trans retains, onward.begun, ?_, host_eq ▸ onward.host.mono fun _ => retains.given⟩
  have tracked := onward.tracked
  refine ⟨?_, ?_, ?_⟩
  · rw [groups_eq, retains.compiled_eq, tracked.sized]
  · rw [groups_eq, retains.compiled_eq, retains.pool_eq]
    exact tracked.blocks
  · rwa [retains.pool_eq]

theorem modify (onward : Onward leaves setting start session) {name : String}
    {change : OffFrame.Coordinator → OffFrame.Coordinator}
    (works : (session.modifyCoordinator name change).Works (Pass.Tracked leaves session.pool)) :
    Onward leaves setting start (session.modifyCoordinator name change) := by
  refine onward.act (setting_modifyCoordinator session name change) ?_ ?_ works
  · unfold modifyCoordinator
    split <;> rfl
  · unfold modifyCoordinator
    split <;> rfl

theorem tended (leaves : List (FlatLeaf × CompiledLeaf)) (setting : Setting) (start : Session σ) :
    Session.Tended (Onward leaves setting start) where
  log session log onward := (accepting leaves setting start session).log session.host log onward
  share _ _ onward := onward.act rfl rfl rfl onward.tracked.works
  writeDown _ _ onward := onward.act rfl rfl rfl onward.tracked.works
  coordinate _ name _ same onward := onward.modify (onward.tracked.works.coordinate name same)

/-- Work may be handed over whose passes track the pool. -/
theorem hand (onward : Onward leaves setting start session) (name : String) {work : OffFrame.Work}
    (all : Pass.Each (Pass.Tracked leaves setting.pool) work.passes) :
    Onward leaves setting start
      (session.modifyCoordinator name fun coordinator => { coordinator with work := some work }) :=
  onward.modify (onward.tracked.works.hand name (onward.seen ▸ all))

/-- An argument block is bound to its group when that is up to date. -/
theorem bindsBlock (onward : Onward leaves setting start session) {place : Nat} {block : ArgumentBlock}
    {bound : BoundGroup} (found : session.compiled.blocks[place]? = some block)
    (stored : session.blockGroups[place]? = some (some bound)) (fresh : bound.stamp = block.group.stamp session.pool) :
    session.Binds (.shared place) bound.group where
  refers := by
    simp only [CompiledProgram.groupSpec, found, Option.map_some, Option.getD_some]
    exact (onward.tracked.blocks place block bound found stored).refers fresh
  shared other same := by
    cases same
    exact ⟨block, bound, found, stored, fresh, rfl⟩

/-- A group that is not up to date may be replaced. -/
theorem store (onward : Onward leaves setting start session) {place : Nat} {block : ArgumentBlock}
    {bound : BoundGroup} (found : session.compiled.blocks[place]? = some block)
    (stale : ∀ old, session.blockGroups[place]? = some (some old) → old.stamp ≠ block.group.stamp session.pool)
    (tracks : bound.Tracks block.group session.pool) :
    Onward leaves setting start { session with blockGroups := session.blockGroups.set place (some bound) } := by
  have retains : Retains session { session with blockGroups := session.blockGroups.set place (some bound) } := by
    refine ⟨rfl, fun other block' old found' stored fresh => ?_⟩
    rw [List.getElem?_set]
    split
    · rename_i same
      subst same
      cases found.symm.trans found'
      exact absurd fresh (stale old stored)
    · exact stored
  refine ⟨onward.toRetains.trans retains, onward.begun, ⟨?_, ?_, onward.tracked.works⟩,
    onward.host.mono fun _ => retains.given⟩
  · exact List.length_set.trans onward.tracked.sized
  · intro other block' bound' found' stored
    rw [List.getElem?_set] at stored
    split at stored
    · rename_i same
      subst same
      cases found.symm.trans found'
      split at stored <;> cases stored
      exact tracks
    · exact onward.tracked.blocks other block' bound' found' stored

end Onward

end Session

variable [Device σ] [LawfulDevice σ] {admitted : Command → Prop} {inv : Session σ → Prop} {setting : Setting}
  {start : Session σ} {view : PassView}

open Session (Onward)

/-- A created bind group tracks the pool that it was created from. -/
theorem GroupSpec.create_tracks (accepting : Session.Accepting admitted inv) (label : String) (group : GroupSpec)
    (pool : Pool) (bytes : List Buffer) (grid : Option Buffer) :
    Effect.Ensures inv (group.create (σ := σ) label pool bytes grid)
      (fun bound session => (bound.Tracks group pool ∧ bound.stamp = group.stamp pool) ∧ inv session) fun _ => inv := by
  refine (group.create_ensures accepting label pool bytes grid fun binding _ =>
    binding.resolve_refers label pool bytes grid).mono (fun bound session done => ?_) fun _ _ => id
  obtain ⟨⟨-, stamp, refers⟩, held⟩ := done
  exact ⟨⟨⟨pool, .refl pool, stamp, refers⟩, stamp⟩, held⟩

/-- The group of an argument block that a pass gets is the one that the session binds from then on. -/
theorem Session.blockGroup_binds (seen : view.pool = setting.pool) (place : Nat) :
    Effect.Ensures (Onward leaves setting start) (Session.blockGroup (σ := σ) place view.pool)
      (fun group session => session.Binds (.shared place) group ∧ Onward leaves setting start session)
      fun _ => Onward leaves setting start := by
  refine blockGroup_rule place view.pool (fun _ held _ => held) ?_ ?_
  · intro session block bound held found stored fresh
    rw [seen.trans held.seen.symm] at fresh
    exact ⟨held.bindsBlock found stored fresh, held⟩
  · intro session block held found stale
    rw [seen.trans held.seen.symm] at stale ⊢
    -- the groups of the blocks are still those that were looked at when the new one is stored
    let inv (s : Session σ) : Prop :=
      (s.blockGroups = session.blockGroups ∧ s.setting = session.setting) ∧ Onward leaves setting start s
    have accepting : Session.Accepting (Command.Given leaves start) inv :=
      (Onward.accepting leaves setting start).beside fun _ _ => id
    have weaken (_ : PassError) (s : Session σ) (held : inv s) : Onward leaves setting start s := held.2
    have here (s : Session σ) (same : s = session) : inv s := same ▸ ⟨⟨rfl, rfl⟩, held⟩
    refine ⟨inv, .pre here ((accepting.note _ _ _).mono (fun _ _ => id) weaken), ?_⟩
    refine (block.group.create_tracks accepting block.name session.pool [] none).mono (fun bound s done => ?_) weaken
    obtain ⟨made, ⟨groups, setting⟩, onward⟩ := done
    have compiled : s.compiled = session.compiled := congrArg Setting.compiled setting
    have pool : s.pool = session.pool := congrArg Setting.pool setting
    rw [← compiled] at found
    rw [← groups, ← pool] at stale
    rw [← pool] at made
    have stored := onward.store found stale made.1
    have inside : place < s.blockGroups.length := by
      rw [onward.tracked.sized]
      exact (List.getElem?_eq_some_iff.mp found).1
    exact ⟨stored.bindsBlock found (List.getElem?_set_self inside) made.2, stored⟩

namespace Bindings

variable {groups : List GroupBinding}

theorem ownGroup_refers (seen : view.pool = setting.pool) {place : Nat} {spec : GroupSpec}
    (listed : groups[place]? = some (.own spec)) :
    PartEffect.Ensures (fun bindings session => bindings.Tracked groups setting.pool ∧ Onward leaves setting start session)
      (ownGroup (σ := σ) place spec view)
      (fun group bindings session => List.Forall₂ (BindingSpec.Refers setting.pool) spec group.resources ∧
        bindings.Tracked groups setting.pool ∧ Onward leaves setting start session)
      fun _ bindings session => bindings.Tracked groups setting.pool ∧ Onward leaves setting start session := by
  let made (_ : Bindings) (bound : BoundGroup) : Prop :=
    bound.Tracks spec setting.pool ∧ bound.stamp = spec.stamp setting.pool
  refine ownGroup_ensures (Onward.accepting leaves setting start) made place spec view ?_ ?_ ?_
  · intro bindings bound tracked stored fresh
    exact (tracked.own place spec bound listed stored).refers (seen ▸ fresh)
  · rw [seen]
    exact fun bindings _ => spec.create_tracks (Onward.accepting leaves setting start) bindings.label setting.pool _ _
  · exact fun bindings bound tracked made => ⟨tracked.store listed made.1, made.1.refers made.2⟩

theorem resolveGroup_binds (seen : view.pool = setting.pool) {group : GroupBinding × Nat}
    (listed : group ∈ groups.zipIdx) :
    PartEffect.Ensures (fun bindings session => bindings.Tracked groups setting.pool ∧ Onward leaves setting start session)
      (resolveGroup (σ := σ) view group)
      (fun created bindings session => session.Binds group.1 created ∧
        bindings.Tracked groups setting.pool ∧ Onward leaves setting start session)
      fun _ bindings session => bindings.Tracked groups setting.pool ∧ Onward leaves setting start session := by
  obtain ⟨spec | block, place⟩ := group
  · refine (ownGroup_refers seen (List.mem_zipIdx_iff_getElem?.mp listed)).mono (fun group _ _ done => ?_)
      fun _ _ _ => id
    exact ⟨⟨done.2.2.seen.symm ▸ done.1, nofun⟩, done.2⟩
  · exact .around fun bindings => .given fun tracked => (Session.blockGroup_binds seen block).mono
      (fun _ _ done => ⟨done.1, tracked, done.2⟩) fun _ _ onward => ⟨tracked, onward⟩

/-- A refresh that succeeds has all groups up to date: what the session binds for one it goes on to bind while the
others are looked after. -/
theorem refresh_upToDate (seen : view.pool = setting.pool) :
    PartEffect.Ensures (fun bindings session => bindings.Tracked groups setting.pool ∧ Onward leaves setting start session)
      (refresh (σ := σ) view)
      (fun _ bindings session => (bindings.Tracked groups setting.pool ∧ bindings.UpToDate session) ∧
        Onward leaves setting start session)
      fun _ bindings session => bindings.Tracked groups setting.pool ∧ Onward leaves setting start session := by
  refine .ofGet fun bindings session held => ?_
  rw [held.1.groups_eq]
  let inv (seen : List (GroupBinding × Nat)) (out : List BindGroup) (b : Bindings) (s : Session σ) : Prop :=
    List.Forall₂ s.Binds (seen.map (·.1)) out ∧ b.Tracked groups setting.pool ∧ Onward leaves setting start s
  refine .pre ?_ (.bind (.mapM inv fun done out group found => .ofState fun b s here => ?_) fun resolved => .ofModify ?_)
  · rintro _ _ ⟨rfl, rfl⟩
    exact ⟨.nil, held⟩
  · obtain ⟨bound, tracked, onward⟩ := here
    have again : ∀ b' s', b' = b ∧ s' = s → Tracked groups setting.pool b' ∧ Onward leaves setting s s' := by
      rintro _ _ ⟨rfl, rfl⟩
      exact ⟨tracked, onward.again⟩
    refine .pre again ((resolveGroup_binds seen found).mono ?_ ?_)
    · rintro created b' s' ⟨binds, tracked, later⟩
      refine ⟨?_, tracked, onward.trans later⟩
      rw [List.map_append, List.map_singleton]
      exact List.rel_append (bound.imp fun _ _ => later.toRetains.binds) (.cons binds .nil)
    · exact fun _ _ _ failed => ⟨failed.1, onward.trans failed.2⟩
  · rintro b s ⟨bound, tracked, onward⟩
    rw [List.zipIdx_map_fst] at bound
    refine ⟨⟨⟨tracked.groups_eq, tracked.own⟩, ?_⟩, onward⟩
    rw [UpToDate, tracked.groups_eq]
    exact bound

theorem setup_tracked (seen : view.pool = setting.pool) :
    PartEffect.Keeps (fun bindings session => bindings.Tracked groups setting.pool ∧ Onward leaves setting start session)
      (setup (σ := σ) view) :=
  setup_keeps (Onward.accepting leaves setting start) view
    (fun _ _ groups_eq own _ tracked => ⟨groups_eq.trans tracked.groups_eq, own ▸ tracked.own⟩)
    ((refresh_upToDate seen).mono (fun _ _ _ done => ⟨done.1.1, done.2⟩) fun _ _ _ => id)

omit [LawfulDevice σ] [Device σ] in
/-- What a pass binds is what it resolved. -/
theorem UpToDate.bound_comes {bindings : Bindings} {pool : Pool} {session : Session σ}
    (upToDate : bindings.UpToDate session) (tracked : bindings.Tracked groups pool) :
    Comes (List.Forall₂ session.Binds groups) (fun _ => True) bindings.bound := by
  rw [UpToDate, tracked.groups_eq] at upToDate
  unfold bound
  split
  · exact upToDate
  · trivial

end Bindings

namespace DispatchPass

variable {label : String} {compiled : CompiledDispatch}

omit [LawfulDevice σ] in
theorem bindings_tracked {action : PassM Bindings σ Unit} {made : Bindings → Session σ → Prop}
    (ensured : PartEffect.Ensures
      (fun bindings session => bindings.Tracked compiled.groups setting.pool ∧ Onward leaves setting start session) action
      (fun _ bindings session => (bindings.Tracked compiled.groups setting.pool ∧ made bindings session) ∧
        Onward leaves setting start session)
      fun _ bindings session => bindings.Tracked compiled.groups setting.pool ∧ Onward leaves setting start session) :
    PartEffect.Ensures (fun pass session => pass.Tracked label compiled setting.pool ∧ Onward leaves setting start session)
      (action.inPart bindingsLens)
      (fun _ pass session => (pass.Tracked label compiled setting.pool ∧ made pass.bindings session) ∧
        Onward leaves setting start session)
      fun _ pass session => pass.Tracked label compiled setting.pool ∧ Onward leaves setting start session := by
  refine .inPart fun pass => ?_
  rintro _ session ⟨rfl, tracked, onward⟩
  refine (ensured.mono ?_ ?_) pass.bindings session ⟨tracked.bindings, onward⟩
  · exact fun _ _ _ done => ⟨⟨{ tracked with bindings := done.1.1 }, done.1.2⟩, done.2⟩
  · exact fun _ _ _ failed => ⟨{ tracked with bindings := failed.1 }, failed.2⟩

theorem setup_tracked (seen : view.pool = setting.pool) :
    PartEffect.Keeps (fun pass session => pass.Tracked label compiled setting.pool ∧ Onward leaves setting start session)
      (setup (σ := σ) view) := by
  refine setup_keeps view (fun _ => (Onward.accepting leaves setting start).beside fun _ _ => id)
    (fun pass session pipeline held entry _ => ⟨{ held.1 with pipeline := ?_ }, held.2⟩) ?_
  · rintro _ ⟨⟩
    exact entry.trans held.1.entry_eq
  · exact (bindings_tracked ((Bindings.setup_tracked seen).mono (fun _ _ _ done => ⟨⟨done.1, trivial⟩, done.2⟩)
      fun _ _ _ => id)).mono (fun _ _ _ done => ⟨done.1.1, done.2⟩) fun _ _ _ => id

/-- A prepared kernel pass is up to date. -/
theorem prepare_upToDate (seen : view.pool = setting.pool) :
    PartEffect.Ensures (fun pass session => pass.Tracked label compiled setting.pool ∧ Onward leaves setting start session)
      (prepare (σ := σ) view)
      (fun _ pass session => (pass.Tracked label compiled setting.pool ∧ pass.bindings.UpToDate session) ∧
        Onward leaves setting start session)
      fun _ pass session => pass.Tracked label compiled setting.pool ∧ Onward leaves setting start session := by
  have accepting (pass : DispatchPass) : Session.Accepting (Command.Given leaves start) fun session : Session σ =>
      (pass.Tracked label compiled setting.pool ∧ pass.bindings.UpToDate session) ∧
        Onward leaves setting start session :=
    (Onward.accepting leaves setting start).beside fun session host held =>
      ⟨held.1, (Session.Retains.rehost session host).upToDate held.2⟩
  exact prepare_ensures view accepting (fun _ _ _ held => ⟨⟨{ held.1.1 with }, held.1.2⟩, held.2⟩)
    (fun _ _ held => ⟨held.1.1, held.2⟩) (bindings_tracked (Bindings.refresh_upToDate seen))

omit [LawfulDevice σ] [Device σ] in
theorem Tracked.command_comes {pass : DispatchPass} {pool : Pool} {session : Session σ}
    (tracked : pass.Tracked label compiled pool) (upToDate : pass.bindings.UpToDate session) :
    Comes (fun command => command.label = label ∧ command.pipeline.entry = compiled.entry ∧
      List.Forall₂ session.Binds compiled.groups command.groups) (fun _ => True) pass.command := by
  refine .ofNeed (fun pipeline made => ?_) fun _ => trivial
  exact (upToDate.bound_comes tracked.bindings).bind fun groups bound =>
    ⟨tracked.label_eq, tracked.pipeline pipeline made, bound⟩

end DispatchPass

namespace DrawPass

variable {label : String} {compiled : CompiledDraw}

omit [LawfulDevice σ] in
theorem bindings_tracked {action : PassM Bindings σ Unit} {made : Bindings → Session σ → Prop}
    (ensured : PartEffect.Ensures
      (fun bindings session => bindings.Tracked compiled.groups setting.pool ∧ Onward leaves setting start session) action
      (fun _ bindings session => (bindings.Tracked compiled.groups setting.pool ∧ made bindings session) ∧
        Onward leaves setting start session)
      fun _ bindings session => bindings.Tracked compiled.groups setting.pool ∧ Onward leaves setting start session) :
    PartEffect.Ensures (fun pass session => pass.Tracked label compiled setting.pool ∧ Onward leaves setting start session)
      (action.inPart bindingsLens)
      (fun _ pass session => (pass.Tracked label compiled setting.pool ∧ made pass.bindings session) ∧
        Onward leaves setting start session)
      fun _ pass session => pass.Tracked label compiled setting.pool ∧ Onward leaves setting start session := by
  refine .inPart fun pass => ?_
  rintro _ session ⟨rfl, tracked, onward⟩
  refine (ensured.mono ?_ ?_) pass.bindings session ⟨tracked.bindings, onward⟩
  · exact fun _ _ _ done => ⟨⟨{ tracked with bindings := done.1.1 }, done.1.2⟩, done.2⟩
  · exact fun _ _ _ failed => ⟨{ tracked with bindings := failed.1 }, failed.2⟩

theorem buildPipeline_tracked (formats : List PixelFormat) :
    PartEffect.Keeps (fun pass session => pass.Tracked label compiled setting.pool ∧ Onward leaves setting start session)
      (buildPipeline (σ := σ) formats) := by
  refine buildPipeline_keeps formats (fun _ => (Onward.accepting leaves setting start).beside fun _ _ => id)
    fun pass session pipeline held vertex fragment _ => ⟨{ held.1 with pipeline := ?_ }, held.2⟩
  rintro _ ⟨⟩
  exact ⟨vertex.trans held.1.vertexEntry_eq, fragment.trans held.1.fragmentEntry_eq⟩

theorem setup_tracked (seen : view.pool = setting.pool) :
    PartEffect.Keeps (fun pass session => pass.Tracked label compiled setting.pool ∧ Onward leaves setting start session)
      (setup (σ := σ) view) :=
  setup_keeps view buildPipeline_tracked <|
    (bindings_tracked ((Bindings.setup_tracked seen).mono (fun _ _ _ done => ⟨⟨done.1, trivial⟩, done.2⟩)
      fun _ _ _ => id)).mono (fun _ _ _ done => ⟨done.1.1, done.2⟩) fun _ _ _ => id

/-- A prepared draw is up to date. -/
theorem prepare_upToDate (seen : view.pool = setting.pool) :
    PartEffect.Ensures (fun pass session => pass.Tracked label compiled setting.pool ∧ Onward leaves setting start session)
      (prepare (σ := σ) view)
      (fun _ pass session => (pass.Tracked label compiled setting.pool ∧ pass.bindings.UpToDate session) ∧
        Onward leaves setting start session)
      fun _ pass session => pass.Tracked label compiled setting.pool ∧ Onward leaves setting start session := by
  have accepting := Onward.accepting leaves setting start
  have up (pass : DrawPass) : Session.Accepting (Command.Given leaves start) fun session : Session σ =>
      (pass.Tracked label compiled setting.pool ∧ pass.bindings.UpToDate session) ∧
        Onward leaves setting start session :=
    accepting.beside fun session host held => ⟨held.1, (Session.Retains.rehost session host).upToDate held.2⟩
  exact prepare_ensures view up (fun _ => accepting.beside fun _ _ => id) (fun _ _ held => ⟨held.1.1, held.2⟩)
    (fun _ _ => id) buildPipeline_tracked (bindings_tracked (Bindings.refresh_upToDate seen))

omit [LawfulDevice σ] [Device σ] in
theorem Tracked.command_comes {pass : DrawPass} {pool : Pool} {session : Session σ}
    (tracked : pass.Tracked label compiled pool) (upToDate : pass.bindings.UpToDate session) (view : EncodeView) :
    Comes (fun command => command.label = label ∧ command.pipeline.vertexEntry = compiled.vertexEntry ∧
      command.pipeline.fragmentEntry = compiled.fragmentEntry ∧
      List.Forall₂ session.Binds compiled.groups command.groups) (fun _ => True) (pass.command view) := by
  refine .ofNeed (fun pipeline made => ?_) fun _ => trivial
  obtain ⟨vertex, fragment⟩ := tracked.pipeline pipeline made
  refine (Comes.any _).bind fun _ _ => (Comes.any _).bind fun _ _ => (Comes.any _).bind fun _ _ => ?_
  refine (Comes.any _).bind fun _ _ => (upToDate.bound_comes tracked.bindings).bind fun groups bound => ?_
  exact ⟨tracked.label_eq, vertex, fragment, bound⟩

end DrawPass

end FrameGraph
