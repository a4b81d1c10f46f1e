import FrameGraph.Proofs.Compile.Growth
import FrameGraph.Proofs.Pass.Handover
import FrameGraph.Proofs.Pass.Proceeding

/-! # Blocks of passes

Every setup of a pass creates its uniform blocks anew, and every frame uploads to the blocks of the last setup. But a
bind group of the pass is created anew only when a resource of the pool behind it was replaced, so a group from an
attempt that failed keeps the blocks of that attempt. On a recorder the numbers tell: a group that was created since the
last setup began binds the blocks that the pass has now, and an older group binds older ones.
-/

namespace FrameGraph

/-- A group of this number has this block behind a source of which the pass now has another, perhaps. -/
structure BindingSource.FedBy (source : BindingSource) (slots since id : Nat) (now : Option Buffer) (block : Buffer) :
    Prop where
  listed : ∀ slot, source = .bytes slot → slot < slots
  current : since ≤ id → now = some block
  former : id < since → block.id < since

namespace Bindings

/-- The block that the pass has for a binding that it feeds. -/
def block? (bindings : Bindings) : BindingSource → Option Buffer
  | .bytes slot => bindings.bytesBuffers[slot]?
  | .gridExtent => bindings.gridBuffer
  | .buffer _ | .texture _ => none

/-- A group from `since` on binds the blocks that the pass has now, and an older group older ones. -/
def Binds (bindings : Bindings) (since : Nat) (spec : GroupSpec) (group : BindGroup) : Prop :=
  List.Forall₂ (fun binding resource => binding.source.isFed → ∃ block, resource = .buffer block ∧
    binding.source.FedBy bindings.bytes.length since group.id (bindings.block? binding.source) block) spec group.resources

/-- All groups of the pass's own are so. -/
structure Fed (since : Nat) (bindings : Bindings) : Prop where
  sized : bindings.bytesBuffers.length ≤ bindings.bytes.length
  own : ∀ (place : Nat) (spec : GroupSpec) (bound : BoundGroup), bindings.groups[place]? = some (.own spec) →
    bindings.own[place]? = some (some bound) → bindings.Binds since spec bound.group

/-- Everything that the pass has created has a number below `next`. -/
structure Below (next : Nat) (bindings : Bindings) : Prop where
  groups : ∀ (place : Nat) (bound : BoundGroup), bindings.own[place]? = some (some bound) → bound.group.id < next
  blocks : ∀ source block, bindings.block? source = some block → block.id < next

/-- The pass has all its blocks, and they are from `since` on. -/
structure Stocked (since : Nat) (bindings : Bindings) : Prop where
  bytes : bindings.bytesBuffers.length = bindings.bytes.length
  grid : bindings.wantsGrid → bindings.gridBuffer.isSome
  recent : ∀ source block, (source = .gridExtent → bindings.wantsGrid) → bindings.block? source = some block →
    since ≤ block.id

theorem Stocked.regroup {since : Nat} {bindings : Bindings} (stocked : bindings.Stocked since)
    (own : List (Option BoundGroup)) (resolved : List BindGroup) : Stocked since { bindings with own, resolved } :=
  ⟨stocked.bytes, stocked.grid, stocked.recent⟩

theorem Below.mono {next later : Nat} {bindings : Bindings} (below : bindings.Below next) (more : next ≤ later) :
    bindings.Below later where
  groups place bound stored := Nat.lt_of_lt_of_le (below.groups place bound stored) more
  blocks source block has := Nat.lt_of_lt_of_le (below.blocks source block has) more

/-- Seen from the next setup on, all that a pass has created is older. -/
theorem Fed.renew {since next : Nat} {bindings : Bindings} (fed : bindings.Fed since) (below : bindings.Below next)
    (more : since ≤ next) : bindings.Fed next where
  sized := fed.sized
  own place spec bound listed stored := by
    have older := below.groups place bound stored
    refine (fed.own place spec bound listed stored).imp fun binding resource feeds isFed => ?_
    obtain ⟨block, same, feeds⟩ := feeds isFed
    refine ⟨block, same, feeds.listed, fun younger => absurd younger (Nat.not_le.mpr older), fun _ => ?_⟩
    by_cases recent : since ≤ bound.group.id
    · exact below.blocks binding.source block (feeds.current recent)
    · have former := feeds.former (Nat.not_le.mp recent)
      omega

/-- Groups that are all older do not depend on the blocks that the pass has now. -/
theorem Fed.restock {since : Nat} {bindings : Bindings} (fed : bindings.Fed since)
    (older : ∀ (place : Nat) (bound : BoundGroup), bindings.own[place]? = some (some bound) → bound.group.id < since)
    (bytesBuffers : List Buffer) (gridBuffer : Option Buffer) (sized : bytesBuffers.length ≤ bindings.bytes.length) :
    Fed since { bindings with bytesBuffers, gridBuffer } where
  sized := sized
  own place spec bound listed stored := by
    have old := older place bound stored
    refine (fed.own place spec bound listed stored).imp fun binding resource feeds isFed => ?_
    obtain ⟨block, same, feeds⟩ := feeds isFed
    exact ⟨block, same, feeds.listed, fun younger => absurd younger (Nat.not_le.mpr old), feeds.former⟩

/-- A group that binds what it should may be stored. -/
theorem Fed.store {since : Nat} {bindings : Bindings} (fed : bindings.Fed since) {place : Nat} {spec : GroupSpec}
    {bound : BoundGroup} (listed : bindings.groups[place]? = some (.own spec))
    (binds : bindings.Binds since spec bound.group) :
    Fed since { bindings with own := bindings.own.set place (some bound) } where
  sized := fed.sized
  own other spec' bound' listed' stored := by
    rw [List.getElem?_set] at stored
    split at stored
    · rename_i same
      subst same
      cases listed.symm.trans listed'
      split at stored <;> cases stored
      exact binds
    · exact fed.own other spec' bound' listed' stored

theorem Below.store {next : Nat} {bindings : Bindings} (below : bindings.Below next) {place : Nat} {bound : BoundGroup}
    (numbered : bound.group.id < next) : Below next { bindings with own := bindings.own.set place (some bound) } where
  groups other bound' stored := by
    rw [List.getElem?_set] at stored
    split at stored
    · split at stored <;> cases stored
      exact numbered
    · exact below.groups other bound' stored
  blocks := below.blocks

end Bindings

/-- What becomes of a session on a recorder while the caller does nothing: the shared values are the same, and the
recorder has gone on from a number. -/
structure Session.Counts (since : Nat) (start session : Session Recorder) : Prop where
  shared_eq : session.shared = start.shared
  device : start.host.device.Advances session.host.device
  since : since ≤ start.host.device.nextId

namespace Session.Counts

variable {since : Nat} {start middle session : Session Recorder}

theorem refl {session : Session Recorder} (reached : since ≤ session.host.device.nextId) : Counts since session session :=
  ⟨rfl, .refl _, reached⟩

theorem again (counts : Counts since start session) : Counts since session session :=
  .refl (Nat.le_trans counts.since counts.device.nextId)

theorem trans (one : Counts since start middle) (two : Counts since middle session) : Counts since start session :=
  ⟨two.shared_eq.trans one.shared_eq, one.device.trans two.device, one.since⟩

theorem accepting (since : Nat) (start : Session Recorder) : Session.Accepting (fun _ => True) (Counts since start) := by
  intro session
  have split (host : Host Recorder) : Counts since start { session with host } ↔
      (session.shared = start.shared ∧ since ≤ start.host.device.nextId) ∧ start.host.device.Advances host.device :=
    ⟨fun counts => ⟨⟨counts.shared_eq, counts.since⟩, counts.device⟩, fun held => ⟨held.1.1, held.2, held.1.2⟩⟩
  rw [funext fun host => propext (split host)]
  exact (Recorder.Advances.accepts _ _).beside _

theorem stored (session : Session Recorder) (blockGroups : List (Option BoundGroup)) (counts : Counts since start session) :
    Counts since start { session with blockGroups } := ⟨counts.shared_eq, counts.device, counts.since⟩

/-- What an operation gives on a recorder, a pass gets from it. -/
theorem perform {α : Type} {operation : DeviceM Recorder α} {described : α → Recorder → Prop} (label : String)
    (gives : Effect.Ensures start.host.device.Advances operation
      (fun a recorder => described a recorder ∧ start.host.device.Advances recorder)
      fun _ => start.host.device.Advances) :
    Effect.Ensures (Counts since start) (Session.perform label operation)
      (fun a session => described a session.host.device ∧ Counts since start session) fun _ => Counts since start := by
  refine .mapError (.inside fun session counts => .inside fun host here => ?_)
  subst here
  refine .pre ?_ (gives.mono ?_ ?_)
  · rintro _ rfl
    exact counts.device
  · intro _ _ done
    exact ⟨done.1, counts.shared_eq, done.2, counts.since⟩
  · intro _ _ failed
    exact ⟨counts.shared_eq, failed, counts.since⟩

end Session.Counts

open Session (Counts)

variable {since : Nat} {start : Session Recorder} {view : PassView}

/-- The number of a new object is neither below that of the start nor one that is still to be given. -/
abbrev Session.Numbers (start : Session Recorder) (id : Nat) (recorder : Recorder) : Prop :=
  start.host.device.nextId ≤ id ∧ id < recorder.nextId

/-- A binding that the pass feeds is resolved to the block of the pass. -/
theorem BindingSpec.resolve_isFed {label : String} {pool : Pool} {bindings : Bindings} {binding : BindingSpec}
    {resource : BoundResource}
    (resolved : binding.resolve label pool bindings.bytesBuffers bindings.gridBuffer = .ok resource)
    (isFed : binding.source.isFed) : ∃ block, resource = .buffer block ∧ bindings.block? binding.source = some block := by
  unfold resolve at resolved
  cases source : binding.source with
  | buffer handle => simp [source, BindingSource.isFed] at isFed
  | texture handle => simp [source, BindingSource.isFed] at isFed
  | bytes slot =>
    rw [source] at resolved
    obtain ⟨block, has, resolved⟩ := bind_eq_ok resolved
    cases resolved
    exact ⟨block, rfl, need_eq_ok has⟩
  | gridExtent =>
    rw [source] at resolved
    obtain ⟨block, has, resolved⟩ := bind_eq_ok resolved
    cases resolved
    exact ⟨block, rfl, need_eq_ok has⟩

/-- A new bind group has a new number and binds the blocks that the pass has. -/
theorem GroupSpec.create_binds (label : String) (group : GroupSpec) (pool : Pool) {bindings : Bindings}
    (sized : bindings.bytesBuffers.length ≤ bindings.bytes.length) :
    Effect.Ensures (Counts since start)
      (group.create (σ := Recorder) label pool bindings.bytesBuffers bindings.gridBuffer)
      (fun bound session => (bindings.Binds since group bound.group ∧
        start.Numbers bound.group.id session.host.device) ∧ Counts since start session)
      fun _ => Counts since start := by
  refine .ofExcept (fun resources found => ?_) fun _ _ _ => id
  have resolved : List.Forall₂ (fun binding resource =>
      binding.resolve label pool bindings.bytesBuffers bindings.gridBuffer = .ok resource) group resources := by
    exact (Comes.mapM fun binding _ => Comes.itself (binding.resolve label pool _ _)).result found
  refine .bind (Counts.perform label (Recorder.Advances.createBindGroup_gives label group.layout resources)) fun created =>
    .ofPure fun session done => ?_
  obtain ⟨⟨least, below, same⟩, counts⟩ := done
  refine ⟨⟨?_, least, below⟩, counts⟩
  have recent := Nat.le_trans counts.since least
  rw [Bindings.Binds, same]
  refine resolved.imp fun binding resource here isFed => ?_
  obtain ⟨block, is, has⟩ := BindingSpec.resolve_isFed here isFed
  refine ⟨block, is, fun slot source => ?_, fun _ => has, fun older => absurd recent (Nat.not_le.mpr older)⟩
  rw [source] at has
  have inside := (List.getElem?_eq_some_iff.mp has).1
  omega

namespace Bindings

/-- A group number of the pass's own gets a group that binds what it should. -/
theorem ownGroup_binds {place : Nat} {spec : GroupSpec} {groups : List GroupBinding}
    (listed : groups[place]? = some (.own spec)) :
    PartEffect.Ensures (fun bindings session => (bindings.Fed since ∧ bindings.groups = groups) ∧ Counts since start session)
      (ownGroup (σ := Recorder) place spec view)
      (fun group bindings session => bindings.Binds since spec group ∧ (bindings.Fed since ∧ bindings.groups = groups) ∧
        Counts since start session)
      fun _ bindings session => (bindings.Fed since ∧ bindings.groups = groups) ∧ Counts since start session := by
  refine ownGroup_ensures (Counts.accepting since start) (fun bindings bound => bindings.Binds since spec bound.group) place spec view ?_ ?_ ?_
  · rintro bindings bound ⟨fed, rfl⟩ stored _
    exact fed.own place spec bound listed stored
  · rintro bindings ⟨fed, -⟩
    exact (spec.create_binds bindings.label view.pool fed.sized).mono (fun _ _ done => ⟨done.1.1, done.2⟩) fun _ _ => id
  · rintro bindings bound ⟨fed, rfl⟩ binds
    exact ⟨⟨fed.store listed binds, rfl⟩, binds⟩

/-- The groups that a pass resolved bind what they should. -/
def Resolved (since : Nat) (bindings : Bindings) : Prop :=
  List.Forall₂ (fun binding group => ∀ spec, binding = .own spec → bindings.Binds since spec group) bindings.groups
    bindings.resolved

/-- A refresh that succeeds has groups that bind what they should. -/
theorem refresh_resolved (known : Bindings → Prop)
    (same : ∀ bindings own resolved, known bindings → known { bindings with own, resolved }) :
    PartEffect.Ensures (fun bindings session => (known bindings ∧ bindings.Fed since) ∧ Counts since start session)
      (refresh (σ := Recorder) view)
      (fun _ bindings session => (known bindings ∧ bindings.Fed since ∧ bindings.Resolved since) ∧ Counts since start session)
      fun _ bindings session => (known bindings ∧ bindings.Fed since) ∧ Counts since start session := by
  refine .ofGet fun bindings session held => ?_
  let resolves (seen : List (GroupBinding × Nat)) (out : List BindGroup) (b : Bindings) : Prop :=
    List.Forall₂ (fun group created => ∀ spec, group.1 = .own spec → b.Binds since spec created) seen out
  let inv (seen : List (GroupBinding × Nat)) (out : List BindGroup) (b : Bindings) (s : Session Recorder) : Prop :=
    (resolves seen out b ∧ known b) ∧ (b.Fed since ∧ b.groups = bindings.groups) ∧ Counts since start s
  refine .pre ?_ (.bind (.mapM inv fun seen out group found => ?_) fun resolved => .ofModify ?_)
  · rintro _ _ ⟨rfl, rfl⟩
    exact ⟨⟨.nil, held.1.1⟩, ⟨held.1.2, rfl⟩, held.2⟩
  · -- the groups that were resolved so far bind the same blocks, which no group number changes
    have spared := resolveGroup_spares (σ := Recorder) (fun b => resolves seen out b ∧ known b)
      (fun b own here => ⟨here.1, same b own b.resolved here.2⟩) view group
    have resolved : PartEffect.Ensures
        (fun b s => (b.Fed since ∧ b.groups = bindings.groups) ∧ Counts since start s) (resolveGroup view group)
        (fun created b s => (∀ spec, group.1 = .own spec → b.Binds since spec created) ∧
          (b.Fed since ∧ b.groups = bindings.groups) ∧ Counts since start s)
        fun _ b s => (b.Fed since ∧ b.groups = bindings.groups) ∧ Counts since start s := by
      obtain ⟨spec | block, place⟩ := group
      · refine (ownGroup_binds (List.mem_zipIdx_iff_getElem?.mp found)).mono (fun created b s done => ?_) fun _ _ _ => id
        refine ⟨?_, done.2⟩
        rintro _ ⟨⟩
        exact done.1
      · refine .around fun b => .given fun here => ?_
        refine (blockGroup_keeps (Counts.accepting since start) Counts.stored block view.pool).mono ?_ ?_
        · exact fun _ _ counts => ⟨nofun, here, counts⟩
        · exact fun _ _ counts => ⟨here, counts⟩
    refine (spared.and resolved).mono ?_ ?_
    · rintro created b s ⟨⟨before, here⟩, binds, rest⟩
      exact ⟨⟨List.rel_append before (.cons binds .nil), here⟩, rest⟩
    · exact fun _ _ _ failed => ⟨⟨failed.1.2, failed.2.1.1⟩, failed.2.2⟩
  · rintro b s ⟨⟨all, here⟩, ⟨fed, groups⟩, counts⟩
    refine ⟨⟨same b b.own resolved here, ⟨fed.sized, fed.own⟩, ?_⟩, counts⟩
    have listed : List.Forall₂ (fun binding created => ∀ spec, binding = .own spec → b.Binds since spec created)
        (bindings.groups.zipIdx.map (·.1)) resolved := List.forall₂_map_left_iff.mpr all
    rw [List.zipIdx_map_fst, ← groups] at listed
    exact listed

/-- Everything that the pass has created was numbered before what is created next. -/
structure Numbered (bindings : Bindings) (session : Session Recorder) : Prop
    extends bindings.Below session.host.device.nextId where
  sized : bindings.bytesBuffers.length ≤ bindings.bytes.length

theorem Numbered.count {bindings : Bindings} {session : Session Recorder} (numbered : bindings.Numbered start)
    (counts : Counts since start session) : bindings.Numbered session :=
  ⟨numbered.toBelow.mono counts.device.nextId, numbered.sized⟩

/-- What happens beside a pass takes no number back. -/
theorem around_numbered {α : Type} {effect : SessionM Recorder α}
    (keeps : ∀ first, Effect.Keeps (Counts 0 first) effect) : PartEffect.Keeps Numbered (PartEffect.around effect) := by
  refine .around fun bindings => .ofEach fun session numbered => ?_
  refine .pre ?_ ((keeps session).mono (fun _ _ => numbered.count) fun _ _ => numbered.count)
  rintro _ rfl
  exact .refl (Nat.zero_le _)

theorem ownGroup_numbered (place : Nat) (spec : GroupSpec) :
    PartEffect.Keeps Numbered (ownGroup (σ := Recorder) place spec view) := by
  refine ownGroup_rule place spec view (fun _ _ _ numbered _ _ => numbered) fun bindings session numbered => ?_
  refine ⟨fun bound now => bound.group.id < now.host.device.nextId ∧ bindings.Numbered now, ?_, fun bound text => ?_,
    fun bound now held => ?_⟩
  · have binds : Effect.Ensures (Counts 0 session) _ _ _ := spec.create_binds bindings.label view.pool numbered.sized
    refine .pre ?_ (binds.mono ?_ ?_)
    · rintro _ rfl
      exact .refl (Nat.zero_le _)
    · exact fun _ _ done => ⟨done.1.2.2, numbered.count done.2⟩
    · exact fun _ _ => numbered.count
  · exact .ofModify fun now held => ⟨held.1, ⟨held.2.groups, held.2.blocks⟩, held.2.sized⟩
  · exact ⟨held.2.toBelow.store held.1, held.2.sized⟩

theorem refresh_numbered : PartEffect.Keeps Numbered (refresh (σ := Recorder) view) := by
  refine .ofGet fun bindings session numbered => ?_
  refine .pre ?_ (.bind (.mapM (fun _ _ => Numbered) fun _ _ group _ => ?_) fun resolved => .ofModify fun b s held => ?_)
  · rintro _ _ ⟨rfl, rfl⟩
    exact numbered
  · obtain ⟨spec | block, place⟩ := group
    · exact ownGroup_numbered place spec
    · exact around_numbered fun first => blockGroup_keeps (Counts.accepting 0 first) Counts.stored block view.pool
  · exact ⟨⟨held.groups, held.blocks⟩, held.sized⟩

/-! ### Setting up -/

/-- Everything that the pass has created is older than `next`. -/
structure Former (next : Nat) (bindings : Bindings) : Prop extends bindings.Fed next, bindings.Below next

/-- The pass has all its blocks from a setup that began at `since`, and its groups bind those or older ones. -/
structure Supplied (since : Nat) (bindings : Bindings) : Prop extends bindings.Stocked since, bindings.Fed since

theorem Fed.former {since : Nat} {bindings : Bindings} {session : Session Recorder} (fed : bindings.Fed since)
    (numbered : bindings.Numbered session) (counts : Counts since start session) :
    bindings.Former session.host.device.nextId :=
  ⟨fed.renew numbered.toBelow (Nat.le_trans counts.since counts.device.nextId), numbered.toBelow⟩

/-- While the blocks are created, all groups of the pass's own are still older. -/
structure Stocking (since : Nat) (listed : List GroupBinding) (slots : List BytesSlot) (bindings : Bindings)
    (session : Session Recorder) : Prop extends bindings.Numbered session where
  groups_eq : bindings.groups = listed
  bytes_eq : bindings.bytes = slots
  fed : bindings.Fed since
  older : ∀ (place : Nat) (bound : BoundGroup), bindings.own[place]? = some (some bound) → bound.group.id < since
  recent : ∀ block ∈ bindings.bytesBuffers, since ≤ block.id

variable {listed : List GroupBinding} {slots : List BytesSlot}

/-- A block that is created has a new number. -/
theorem createBlock_stocking (label name : String) (size : Nat) :
    PartEffect.Ensures
      (fun (bindings : Bindings) session => bindings.Stocking since listed slots session ∧ Counts since start session)
      (PartEffect.around (createBlock (σ := Recorder) label name size))
      (fun block bindings session => (since ≤ block.id ∧ block.id < session.host.device.nextId) ∧
        bindings.Stocking since listed slots session ∧ Counts since start session)
      fun _ bindings session => bindings.Stocking since listed slots session ∧ Counts since start session := by
  refine .around fun bindings => .ofEach fun session held => ?_
  obtain ⟨stocking, counts⟩ := held
  have later {s : Session Recorder} (more : Counts since session s) : bindings.Stocking since listed slots s :=
    { stocking with toNumbered := stocking.toNumbered.count more }
  have created : Effect.Ensures (Counts since session) (createBlock (σ := Recorder) label name size) _ _ :=
    Counts.perform label (Recorder.Advances.createBuffer_gives _)
  refine .pre ?_ (created.mono ?_ ?_)
  · rintro _ rfl
    exact counts.again
  · rintro block s ⟨⟨least, below⟩, more⟩
    exact ⟨⟨Nat.le_trans more.since least, below⟩, later more, counts.trans more⟩
  · exact fun _ s more => ⟨later more, counts.trans more⟩

/-- One more block for bytes. -/
theorem Stocking.push {bindings : Bindings} {session : Session Recorder}
    (stocking : bindings.Stocking since listed slots session) {block : Buffer} (recent : since ≤ block.id)
    (below : block.id < session.host.device.nextId) (room : bindings.bytesBuffers.length < bindings.bytes.length) :
    Stocking since listed slots { bindings with bytesBuffers := bindings.bytesBuffers ++ [block] } session := by
  have sized : (bindings.bytesBuffers ++ [block]).length ≤ bindings.bytes.length := by
    simpa [Nat.succ_le_iff] using room
  refine ⟨⟨⟨stocking.groups, ?_⟩, sized⟩, stocking.groups_eq, stocking.bytes_eq,
    stocking.fed.restock stocking.older _ _ sized, stocking.older, ?_⟩
  · intro source other has
    cases source with
    | bytes slot =>
      obtain old | new := List.mem_append.mp (List.mem_of_getElem? has)
      · obtain ⟨place, inside⟩ := List.getElem?_of_mem old
        exact stocking.blocks (.bytes place) other inside
      · rw [List.mem_singleton.mp new]
        exact below
    | gridExtent => exact stocking.blocks .gridExtent other has
    | buffer handle => cases has
    | texture handle => cases has
  · rw [List.forall_mem_append, List.forall_mem_singleton]
    exact ⟨stocking.recent, recent⟩

/-- The block for the extent of the grid. -/
theorem Stocking.putGrid {bindings : Bindings} {session : Session Recorder}
    (stocking : bindings.Stocking since listed slots session) {block : Buffer}
    (below : block.id < session.host.device.nextId) :
    Stocking since listed slots { bindings with gridBuffer := some block } session := by
  refine ⟨⟨⟨stocking.groups, ?_⟩, stocking.sized⟩, stocking.groups_eq, stocking.bytes_eq,
    stocking.fed.restock stocking.older _ _ stocking.sized, stocking.older, stocking.recent⟩
  intro source other has
  cases source with
  | bytes slot => exact stocking.blocks (.bytes slot) other has
  | gridExtent =>
    cases has
    exact below
  | buffer handle => cases has
  | texture handle => cases has

/-- A block is created for every slot that is left. -/
theorem createBytesBlocks_stocking (label : String) (left : List BytesSlot) :
    PartEffect.Ensures (fun bindings session => bindings.bytesBuffers.length + left.length = slots.length ∧
        bindings.Stocking since listed slots session ∧ Counts since start session)
      (left.forM (createBytesBlock (σ := Recorder) label))
      (fun _ bindings session => bindings.bytesBuffers.length = slots.length ∧
        bindings.Stocking since listed slots session ∧ Counts since start session)
      fun _ bindings session => bindings.Stocking since listed slots session ∧ Counts since start session := by
  induction left with
  | nil => exact .ofPure fun _ _ held => held
  | cons slot left ih =>
    refine .bind ?_ fun _ => ih
    have created : PartEffect.Ensures
        (fun (bindings : Bindings) session => bindings.Stocking since listed slots session ∧ Counts since start session)
        _ _ _ := createBlock_stocking label slot.name slot.size
    have counted : PartEffect.Ensures
        (fun (bindings : Bindings) _ => bindings.bytesBuffers.length + (slot :: left).length = slots.length)
        (PartEffect.around (createBlock (σ := Recorder) label slot.name slot.size))
        (fun _ bindings _ => bindings.bytesBuffers.length + (slot :: left).length = slots.length)
        fun _ bindings _ => bindings.bytesBuffers.length + (slot :: left).length = slots.length := .apart _
    refine .bind ((counted.and created).mono (fun _ _ _ => id) fun _ _ _ => And.right) fun block => .ofModify ?_
    rintro bindings session ⟨count, ⟨recent, below⟩, stocking, counts⟩
    have room : bindings.bytesBuffers.length < bindings.bytes.length := by
      rw [stocking.bytes_eq]
      simp only [List.length_cons] at count
      omega
    refine ⟨?_, stocking.push recent below room, counts⟩
    simp only [List.length_append, List.length_cons, List.length_nil] at count ⊢
    omega

/-- Before the first block is created, the pass has no block for its bytes and all that it has created is older. -/
theorem Former.stocking {bindings : Bindings} {session : Session Recorder} (former : bindings.Former since)
    (counts : Counts since start session) :
    Stocking since bindings.groups bindings.bytes { bindings with bytesBuffers := [] } session := by
  have below := former.toBelow.mono (Nat.le_trans counts.since counts.device.nextId)
  have emptied := former.toFed.restock former.groups [] bindings.gridBuffer (Nat.zero_le _)
  refine ⟨⟨⟨below.groups, ?_⟩, Nat.zero_le _⟩, rfl, rfl, emptied, former.groups, List.forall_mem_nil _⟩
  intro source block has
  cases source with
  | gridExtent => exact below.blocks .gridExtent block has
  | bytes slot => cases has
  | buffer handle => cases has
  | texture handle => cases has

/-- When there is a block for every slot, and a new one for the grid if that is wanted, the pass is stocked. -/
theorem Stocking.stocked {bindings : Bindings} {session : Session Recorder}
    (stocking : bindings.Stocking since listed slots session) (count : bindings.bytesBuffers.length = slots.length)
    (grid : bindings.wantsGrid → ∃ block, bindings.gridBuffer = some block ∧ since ≤ block.id) :
    bindings.Stocked since where
  bytes := count.trans (congrArg List.length stocking.bytes_eq).symm
  grid wanted := by
    obtain ⟨block, has, -⟩ := grid wanted
    rw [has]
    rfl
  recent source block only has := by
    cases source with
    | gridExtent =>
      obtain ⟨other, has', recent⟩ := grid (only rfl)
      cases has'.symm.trans has
      exact recent
    | bytes slot => exact stocking.recent block (List.mem_of_getElem? has)
    | buffer handle => cases has
    | texture handle => cases has

/-- What fails while blocks are created leaves everything older than what comes next. -/
theorem stocking_fails {α : Type} {action : PassM Bindings Recorder α} {before : Bindings → Session Recorder → Prop}
    {ok : α → Bindings → Session Recorder → Prop}
    (ensured : PartEffect.Ensures before action ok
      fun _ b s => b.Stocking since listed slots s ∧ Counts since start s) :
    PartEffect.Ensures before action ok fun _ b s => b.Former s.host.device.nextId ∧ Counts since start s :=
  ensured.mono (fun _ _ _ => id) fun _ _ _ failed => ⟨failed.1.fed.former failed.1.toNumbered failed.2, failed.2⟩

/-- The groups are refreshed once the blocks are there. -/
theorem refresh_stocking (listed : List GroupBinding) (slots : List BytesSlot) :
    PartEffect.Ensures
      (fun b s => (b.Stocked since ∧ b.Stocking since listed slots s) ∧ Counts since start s)
      (refresh (σ := Recorder) view)
      (fun _ b s => (b.Supplied since ∧ b.Former s.host.device.nextId) ∧ Counts since start s)
      fun _ b s => b.Former s.host.device.nextId ∧ Counts since start s := by
  have resolved : PartEffect.Ensures (fun b s => (b.Stocked since ∧ b.Fed since) ∧ Counts since start s)
      (refresh (σ := Recorder) view) _ _ :=
    refresh_resolved (Stocked since) fun _ own resolved stocked => stocked.regroup own resolved
  refine .pre ?_ ((resolved.and refresh_numbered).mono ?_ ?_)
  · rintro b s ⟨⟨stocked, stocking⟩, counts⟩
    exact ⟨⟨⟨stocked, stocking.fed⟩, counts⟩, stocking.toNumbered⟩
  · rintro _ b s ⟨⟨⟨stocked, fed, -⟩, counts⟩, numbered⟩
    exact ⟨⟨⟨stocked, fed⟩, fed.former numbered counts⟩, counts⟩
  · rintro _ b s ⟨⟨⟨-, fed⟩, counts⟩, numbered⟩
    exact ⟨fed.former numbered counts, counts⟩

/-- A setup that succeeds has new blocks, and the groups that it creates bind those. -/
theorem setup_supplied :
    PartEffect.Ensures (fun bindings session => bindings.Former since ∧ Counts since start session)
      (setup (σ := Recorder) view)
      (fun _ bindings session => (bindings.Supplied since ∧ bindings.Former session.host.device.nextId) ∧
        Counts since start session)
      fun _ bindings session => bindings.Former session.host.device.nextId ∧ Counts since start session := by
  refine .ofGet fun bindings session held => ?_
  obtain ⟨former, counts⟩ := held
  have stocked : PartEffect.Ensures (fun (b : Bindings) s => b.bytesBuffers.length + bindings.bytes.length =
        bindings.bytes.length ∧ b.Stocking since bindings.groups bindings.bytes s ∧ Counts since start s) _ _ _ :=
    createBytesBlocks_stocking bindings.label bindings.bytes
  refine .bind (.ofSet ?_) fun _ => .bind (stocking_fails stocked) fun _ => ?_
  · rintro _ _ ⟨-, rfl⟩
    exact ⟨Nat.zero_add _, former.stocking counts, counts⟩
  · have wants (b : Bindings) (groups : b.groups = bindings.groups) : b.wantsGrid = bindings.wantsGrid := by
      rw [wantsGrid, groups]
      rfl
    refine .ofIf (fun wanted => ?_) fun unwanted => .pre (fun b s held => ?_)
      (refresh_stocking bindings.groups bindings.bytes)
    · have created : PartEffect.Ensures
          (fun (b : Bindings) s => b.bytesBuffers.length = bindings.bytes.length ∧
            b.Stocking since bindings.groups bindings.bytes s ∧ Counts since start s)
          (PartEffect.around (createBlock (σ := Recorder) bindings.label "grid" 16))
          (fun block b s => b.bytesBuffers.length = bindings.bytes.length ∧
            (since ≤ block.id ∧ block.id < s.host.device.nextId) ∧
              b.Stocking since bindings.groups bindings.bytes s ∧ Counts since start s)
          fun _ b s => b.bytesBuffers.length = bindings.bytes.length ∧
            b.Stocking since bindings.groups bindings.bytes s ∧ Counts since start s :=
        (PartEffect.Ensures.apart _).and (createBlock_stocking bindings.label "grid" 16)
      refine .bind (stocking_fails (created.mono (fun _ _ _ => id) fun _ _ _ => And.right)) fun grid =>
        .bind (.ofModify ?_) fun _ => refresh_stocking bindings.groups bindings.bytes
      rintro b s ⟨count, ⟨recent, below⟩, stocking, counts⟩
      have put := stocking.putGrid below
      exact ⟨⟨put.stocked count fun _ => ⟨grid, rfl, recent⟩, put⟩, counts⟩
    · obtain ⟨count, stocking, counts⟩ := held
      have not : ¬b.wantsGrid := by rwa [wants b stocking.groups_eq]
      exact ⟨⟨stocking.stocked count fun wanted => absurd wanted not, stocking⟩, counts⟩

end Bindings

end FrameGraph
