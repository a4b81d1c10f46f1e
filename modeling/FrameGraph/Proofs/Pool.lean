import FrameGraph.Proofs.Allocation
import FrameGraph.Proofs.Device

/-! # What the pool's operations do

A creation puts what the declaration comes to at the surface, or fails and puts nothing. Following a surface changes an
allocation only to one that fits that surface, whether or not every creation succeeds. After a successful
materialization every used resource has an allocation; after a successful resize to a surface that was not the recorded
one, every used resource that depends on it fits.
-/

namespace FrameGraph

namespace ResourceUse

def handle : ResourceUse → ResourceHandle
  | .texture handle _ => .texture handle
  | .buffer handle _ => .buffer handle

/-- The program uses the resource so. -/
def ListedIn (usage : ResourceUsage) : ResourceUse → Prop
  | .texture handle flags => (handle, flags) ∈ usage.textures
  | .buffer handle flags => (handle, flags) ∈ usage.buffers

theorem ListedIn.uses {usage : ResourceUsage} {use : ResourceUse} (listed : use.ListedIn usage) :
    usage.Uses use.handle := by
  cases use <;> exact ⟨_, listed⟩

end ResourceUse

namespace ResourceUsage

/-- The allocation was created for the uses of the resource; a buffer may be uploaded to besides. -/
def Gives (usage : ResourceUsage) : ResourceHandle → Allocation → Prop
  | .texture handle, .inl slot => (handle, slot.texture.usage) ∈ usage.textures
  | .buffer handle, .inr slot =>
    ∃ flags, (handle, flags) ∈ usage.buffers ∧ slot.buffer.usage = flags.union { copyDestination := true }
  | .texture _, .inr _ | .buffer _, .inl _ => False

theorem Gives.uses {usage : ResourceUsage} {handle : ResourceHandle} {slot : Allocation}
    (gives : usage.Gives handle slot) : usage.Uses handle := by
  cases handle <;> cases slot
  · exact ⟨_, gives⟩
  · exact gives.elim
  · exact gives.elim
  · obtain ⟨flags, entry, -⟩ := gives
    exact ⟨flags, entry⟩

end ResourceUsage

namespace ResourceTable

/-- The declaration of the resource depends on the surface. -/
def Follows (table : ResourceTable) : ResourceHandle → Prop
  | .texture handle => ∃ decl, table.texture? handle = some decl ∧ decl.followsSurface
  | .buffer handle => ∃ decl, table.buffer? handle = some decl ∧ decl.followsSurface

/-- The resource depends on the surface, and comes to another extent, format or size there. -/
def Outdated (table : ResourceTable) (surface : Surface) : ResourceHandle → Allocation → Prop
  | .texture handle, .inl slot =>
    ∃ decl, table.texture? handle = some decl ∧ decl.followsSurface ∧ ¬slot.Fits decl surface
  | .buffer handle, .inr slot =>
    ∃ decl, table.buffer? handle = some decl ∧ decl.followsSurface ∧ ¬slot.Fits decl surface
  | .texture _, .inr _ | .buffer _, .inl _ => False

/-- The allocation is what the declaration comes to at the surface. -/
def Made (table : ResourceTable) (surface : Surface) : ResourceHandle → Allocation → Prop
  | .texture handle, .inl slot => ∃ decl, table.texture? handle = some decl ∧ slot.Fits decl surface
  | .buffer handle, .inr slot => ∃ decl, table.buffer? handle = some decl ∧ slot.Fits decl surface ∧
    slot.elements = decl.elementCount surface.extent
  | .texture _, .inr _ | .buffer _, .inl _ => False

variable {table : ResourceTable} {surface : Surface} {handle : ResourceHandle} {slot : Allocation}

theorem Outdated.follows (outdated : table.Outdated surface handle slot) : table.Follows handle := by
  cases handle <;> cases slot
  · obtain ⟨decl, declared, follows, -⟩ := outdated
    exact ⟨decl, declared, follows⟩
  · exact outdated.elim
  · exact outdated.elim
  · obtain ⟨decl, declared, follows, -⟩ := outdated
    exact ⟨decl, declared, follows⟩

theorem Made.fits (made : table.Made surface handle slot) : table.Fits surface handle slot := by
  cases handle <;> cases slot
  · exact made
  · exact made.elim
  · exact made.elim
  · obtain ⟨decl, declared, fits, -⟩ := made
    exact ⟨decl, declared, fits⟩

end ResourceTable

namespace Pool

variable {pool : Pool} {surface : Surface} {handle : ResourceHandle} {generation : Nat}

/-- A creation of this generation is due: there is no allocation, or an outdated one of the generation before. -/
def Due (pool : Pool) (surface : Surface) (handle : ResourceHandle) (generation : Nat) : Prop :=
  pool.allocation? handle = none ∧ generation = 0 ∨
    ∃ prev : Allocation, pool.allocation? handle = some prev ∧ pool.table.Outdated surface handle prev ∧
      generation = prev.generation + 1

theorem Due.newer (due : pool.Due surface handle generation) (old : Allocation)
    (there : pool.allocation? handle = some old) : old.generation < generation := by
  obtain ⟨none, -⟩ | ⟨found, filled, -, next⟩ := due
  · cases none.symm.trans there
  · cases filled.symm.trans there
    rw [next]
    exact Nat.lt_succ_self _

/-- The generation of the replacement when a resource no longer fits the surface. -/
def stale? (pool : Pool) (surface : Surface) : ResourceHandle → Option Nat
  | .texture handle => pool.staleTexture? surface handle
  | .buffer handle => pool.staleBuffer? surface handle

theorem due_of_stale? (stale : pool.stale? surface handle = some generation) : pool.Due surface handle generation := by
  cases handle <;>
    obtain ⟨decl, declared, stale⟩ := Option.bind_eq_some_iff.mp stale <;>
    obtain ⟨follows, stale⟩ := Option.ite_none_right_eq_some.mp stale <;>
    split at stale
  · rename_i empty
    cases stale
    exact .inl ⟨by rw [allocation?, empty, Option.map_none], rfl⟩
  · rename_i slot filled
    obtain ⟨unfit, same⟩ := Option.ite_none_left_eq_some.mp stale
    cases same
    exact .inr ⟨.inl slot, by rw [allocation?, filled, Option.map_some], ⟨decl, declared, follows, unfit⟩, rfl⟩
  · rename_i empty
    cases stale
    exact .inl ⟨by rw [allocation?, empty, Option.map_none], rfl⟩
  · rename_i slot filled
    obtain ⟨unfit, same⟩ := Option.ite_none_left_eq_some.mp stale
    cases same
    exact .inr ⟨.inr slot, by rw [allocation?, filled, Option.map_some], ⟨decl, declared, follows, unfit⟩, rfl⟩

theorem coherentAt_of_not_stale (fresh : pool.stale? surface handle = none) : pool.CoherentAt surface handle := by
  cases handle with
  | texture handle =>
    intro decl declared follows
    simp only [stale?, staleTexture?, declared, Option.bind_eq_bind, Option.bind_some, follows, if_true] at fresh
    split at fresh
    · cases fresh
    · rename_i slot filled
      simp only [ite_eq_left_iff, reduceCtorEq, imp_false, not_not] at fresh
      exact ⟨slot, filled, fresh⟩
  | buffer handle =>
    intro decl declared follows
    simp only [stale?, staleBuffer?, declared, Option.bind_eq_bind, Option.bind_some, follows, if_true] at fresh
    split at fresh
    · cases fresh
    · rename_i slot filled
      simp only [ite_eq_left_iff, reduceCtorEq, imp_false, not_not] at fresh
      exact ⟨slot, filled, fresh⟩

/-- A creation is due where there is no allocation. -/
def vacant? (pool : Pool) (handle : ResourceHandle) : Option Nat :=
  if (pool.allocation? handle).isSome then none else some 0

/-- How a call decides on a creation: one that it makes is due, and `done` holds of a resource that has none to be made
or had one made, from then on. -/
structure Checks (surface : Surface) (check : Pool → ResourceHandle → Option Nat)
    (done : ResourceHandle → Pool → Prop) : Prop where
  idle : ∀ pool handle, check pool handle = none → done handle pool
  due : ∀ pool handle generation, check pool handle = some generation → pool.Due surface handle generation
  put : ∀ pool handle, pool.allocation? handle ≠ none → pool.CoherentAt surface handle → done handle pool
  lasts : ∀ pool other handle, Follows surface pool other → done handle pool → done handle other

theorem vacant_checks (surface : Surface) :
    Checks surface vacant? fun handle pool => pool.allocation? handle ≠ none where
  idle pool handle idle none := by
    rw [vacant?, none] at idle
    cases idle
  due pool handle generation due := by
    obtain ⟨vacant, first⟩ := Option.ite_none_left_eq_some.mp due
    exact .inl ⟨Option.not_isSome_iff_eq_none.mp vacant, (Option.some.inj first).symm⟩
  put _ _ filled _ := filled
  lasts _ _ _ follows := follows.allocation_ne_none

theorem stale_checks (surface : Surface) :
    Checks surface (fun pool => pool.stale? surface) fun handle pool => pool.CoherentAt surface handle where
  idle _ _ := coherentAt_of_not_stale
  due _ _ _ := due_of_stale?
  put _ _ _ coherent := coherent
  lasts _ _ _ follows := follows.coherentAt

variable {σ : Type} [Device σ]

open PartEffect (Ensures Keeps)

/-! ### Turns -/

/-- Create what the program uses. -/
def create (surface : Surface) : ResourceUse → Nat → PoolM σ Unit
  | .texture handle flags => createTexture handle flags surface
  | .buffer handle flags => createBuffer handle flags surface

/-- Create what is used if the check says so; the result counts creations. -/
def turn (check : Pool → ResourceHandle → Option Nat) (surface : Surface) (use : ResourceUse) : PoolM σ Nat := do
  match check (← get) use.handle with
  | none => return 0
  | some generation =>
    create surface use generation
    return 1

theorem materializeTexture_eq (surface : Surface) :
    materializeTexture (σ := σ) surface = fun entry => turn vacant? surface (.texture entry.1 entry.2) := by
  funext entry
  refine bind_congr fun pool => ?_
  rw [vacant?, ResourceUse.handle, allocation?, Option.isSome_map]
  cases (pool.textureSlot? entry.1).isSome <;> rfl

theorem materializeBuffer_eq (surface : Surface) :
    materializeBuffer (σ := σ) surface = fun entry => turn vacant? surface (.buffer entry.1 entry.2) := by
  funext entry
  refine bind_congr fun pool => ?_
  rw [vacant?, ResourceUse.handle, allocation?, Option.isSome_map]
  cases (pool.bufferSlot? entry.1).isSome <;> rfl

/-- Turns for all that is used, textures first, and what comes after them. -/
def turns {β : Type} (check : Pool → ResourceHandle → Option Nat) (surface : Surface) (usage : ResourceUsage)
    (next : List Nat → List Nat → PoolM σ β) : PoolM σ β := do
  let textures ← usage.textures.mapM fun entry => turn check surface (.texture entry.1 entry.2)
  let buffers ← usage.buffers.mapM fun entry => turn check surface (.buffer entry.1 entry.2)
  next textures buffers

/-- What a materialization does after its turns. -/
def materialized (surface : Surface) (textures buffers : List Nat) : PoolM σ Nat := do
  let created := (textures ++ buffers).foldl (· + ·) 0
  modify fun pool => pool.record surface
  note s!"materialized {created} resources"
  return created

theorem materialize_eq (surface : Surface) :
    materialize (σ := σ) surface = get >>= fun pool => turns vacant? surface pool.usage (materialized surface) := by
  rw [materialize, materializeTexture_eq, materializeBuffer_eq]
  rfl

/-- What a resize does after its turns. -/
def resized (surface : Surface) (textures buffers : List Nat) : PoolM σ Nat := do
  let replaced := (textures ++ buffers).foldl (· + ·) 0
  modify fun pool => pool.record surface
  if 0 < replaced then note s!"resize to {surface.sizeText}: recreated {replaced} resources"
  return replaced

theorem resize_eq (surface : Surface) :
    resize (σ := σ) surface = get >>= fun pool => if pool.surface = some surface then pure 0 else
      turns (fun pool => pool.stale? surface) surface pool.usage (resized surface) :=
  rfl

/-- Turns keep what each of them keeps. -/
theorem turns_rule {β : Type} {inv : Pool → Host σ → Prop} {check : Pool → ResourceHandle → Option Nat}
    {usage : ResourceUsage} {next : List Nat → List Nat → PoolM σ β} {ok : β → Pool → Host σ → Prop}
    (each : ∀ use : ResourceUse, use.ListedIn usage → Keeps inv (turn check surface use))
    (rest : ∀ textures buffers, Ensures inv (next textures buffers) ok fun _ => inv) :
    Ensures inv (turns check surface usage next) ok fun _ => inv := by
  refine .bind (.mapM (fun _ _ => inv) fun _ _ entry used => ?_) fun textures =>
    .bind (.mapM (fun _ _ => inv) fun _ _ entry used => ?_) fun buffers => rest textures buffers
  · exact each (.texture entry.1 entry.2) used
  · exact each (.buffer entry.1 entry.2) used

/-! ### Creations -/

/-- The device makes what it is asked for; of the numbers that it gives this much is known while `inv` lasts. -/
structure Creates (inv : Host σ → Prop) (numbered : Nat → Host σ → Prop) : Prop where
  log : ∀ id host log, numbered id host → numbered id { host with log }
  texture : ∀ spec, Effect.Ensures inv (Host.perform (Device.createTexture spec))
    (fun texture host => texture.toTextureSpec = spec ∧ numbered texture.id host) fun _ => inv
  buffer : ∀ spec, Effect.Ensures inv (Host.perform (Device.createBuffer spec))
    (fun buffer host => buffer.toBufferSpec = spec ∧ numbered buffer.id host) fun _ => inv

namespace Creates

variable {inv : Host σ → Prop} {numbered : Nat → Host σ → Prop}

/-- A creation that succeeds puts what the declaration comes to at the surface, for this usage; one that fails puts
nothing. -/
theorem createTexture (creates : Creates inv numbered) (pool : Pool) (handle : TextureHandle) (usage : TextureUsage)
    (surface : Surface) (generation : Nat) :
    Ensures (fun p host => p = pool ∧ inv host) (createTexture handle usage surface generation)
      (fun _ p host => ∃ made : Allocation, made.generation = generation ∧
        pool.table.Made surface (.texture handle) made ∧
        (∀ all : ResourceUsage, (handle, usage) ∈ all.textures → all.Gives (.texture handle) made) ∧
        numbered made.number host ∧ p = pool.put (.texture handle) made)
      fun _ p host => p = pool ∧ inv host := by
  refine .ofGet fun p host held => ?_
  obtain ⟨rfl, held⟩ := held
  cases declared : p.table.texture? handle with
  | none => exact .ofThrow fun _ _ here => ⟨here.1, here.2 ▸ held⟩
  | some decl =>
    let spec := textureSpec decl usage surface
    have asked : Ensures (fun q host => q = p ∧ inv host) (PartEffect.around (Host.perform (Device.createTexture spec)))
        (fun texture q host => q = p ∧ texture.toTextureSpec = spec ∧ numbered texture.id host)
        fun _ q host => q = p ∧ inv host :=
      .around fun q => .given fun same => (creates.texture spec).mono (fun _ _ => .intro same) fun _ _ => .intro same
    refine .bind (.pre ?_ asked) fun texture => ?_
    · rintro _ _ ⟨rfl, rfl⟩
      exact ⟨rfl, held⟩
    · refine .bind (.around fun q => Host.note_ensures _ _ _ ?_) fun _ => .ofModify ?_
      · exact fun host log made => ⟨made.1, made.2.1, creates.log _ host log made.2.2⟩
      · rintro _ host ⟨rfl, same, number⟩
        have fits : TextureSlot.Fits ⟨texture, generation⟩ decl surface :=
          ⟨congrArg TextureSpec.extent same, congrArg TextureSpec.format same⟩
        have gives (all : ResourceUsage) (entry : (handle, usage) ∈ all.textures) :
            all.Gives (.texture handle) (.inl ⟨texture, generation⟩) := by
          rw [ResourceUsage.Gives, show texture.usage = usage from congrArg TextureSpec.usage same]
          exact entry
        exact ⟨.inl ⟨texture, generation⟩, rfl, ⟨decl, declared, fits⟩, gives, number, rfl⟩

theorem createBuffer (creates : Creates inv numbered) (pool : Pool) (handle : BufferHandle) (usage : BufferUsage)
    (surface : Surface) (generation : Nat) :
    Ensures (fun p host => p = pool ∧ inv host) (createBuffer handle usage surface generation)
      (fun _ p host => ∃ made : Allocation, made.generation = generation ∧
        pool.table.Made surface (.buffer handle) made ∧
        (∀ all : ResourceUsage, (handle, usage) ∈ all.buffers → all.Gives (.buffer handle) made) ∧
        numbered made.number host ∧ p = pool.put (.buffer handle) made)
      fun _ p host => p = pool ∧ inv host := by
  refine .ofGet fun p host held => ?_
  obtain ⟨rfl, held⟩ := held
  cases declared : p.table.buffer? handle with
  | none => exact .ofThrow fun _ _ here => ⟨here.1, here.2 ▸ held⟩
  | some decl =>
    let spec := bufferSpec decl usage surface
    have asked : Ensures (fun q host => q = p ∧ inv host) (PartEffect.around (Host.perform (Device.createBuffer spec)))
        (fun buffer q host => q = p ∧ buffer.toBufferSpec = spec ∧ numbered buffer.id host)
        fun _ q host => q = p ∧ inv host :=
      .around fun q => .given fun same => (creates.buffer spec).mono (fun _ _ => .intro same) fun _ _ => .intro same
    refine .bind (.pre ?_ asked) fun buffer => ?_
    · rintro _ _ ⟨rfl, rfl⟩
      exact ⟨rfl, held⟩
    · refine .bind (.around fun q => Host.note_ensures _ _ _ ?_) fun _ => .ofModify ?_
      · exact fun host log made => ⟨made.1, made.2.1, creates.log _ host log made.2.2⟩
      · rintro _ host ⟨rfl, same, number⟩
        have fits : BufferSlot.Fits ⟨buffer, decl.elementCount surface.extent, generation⟩ decl surface :=
          congrArg BufferSpec.size same
        have made : buffer.usage = usage.union { copyDestination := true } := congrArg BufferSpec.usage same
        exact ⟨.inr ⟨buffer, _, generation⟩, rfl, ⟨decl, declared, fits, rfl⟩, fun _ entry => ⟨usage, entry, made⟩,
          number, rfl⟩

/-- So it is with whatever is used. -/
theorem create (creates : Creates inv numbered) (pool : Pool) {all : ResourceUsage} {use : ResourceUse}
    (listed : use.ListedIn all) (surface : Surface) (generation : Nat) :
    Ensures (fun p host => p = pool ∧ inv host) (create surface use generation)
      (fun _ p host => ∃ made : Allocation, made.generation = generation ∧ pool.table.Made surface use.handle made ∧
        all.Gives use.handle made ∧ numbered made.number host ∧ p = pool.put use.handle made)
      fun _ p host => p = pool ∧ inv host := by
  cases use with
  | texture handle flags =>
    refine (creates.createTexture pool handle flags surface generation).mono ?_ fun _ _ _ => id
    rintro _ _ host ⟨made, same, fits, gives, number, put⟩
    exact ⟨made, same, fits, gives all listed, number, put⟩
  | buffer handle flags =>
    refine (creates.createBuffer pool handle flags surface generation).mono ?_ fun _ _ _ => id
    rintro _ _ host ⟨made, same, fits, gives, number, put⟩
    exact ⟨made, same, fits, gives all listed, number, put⟩

/-- Of numbers nothing is known on a lawful device. -/
theorem ofLawful [LawfulDevice σ] : Creates (fun _ : Host σ => True) fun _ _ => True where
  log _ _ _ := id
  texture spec := (Host.perform_ensures (LawfulDevice.createTexture spec) fun _ _ => id).mono
    (fun _ _ made => ⟨made.2, trivial⟩) fun _ _ => id
  buffer spec := (Host.perform_ensures (LawfulDevice.createBuffer spec) fun _ _ => id).mono
    (fun _ _ made => ⟨made.2, trivial⟩) fun _ _ => id

end Creates

/-! ### Following a surface -/

/-- The allocation that was due is put in its place, and follows the surface. -/
theorem put_follows {made : Allocation} (sized : pool.Sized) (used : pool.usage.Uses handle)
    (due : pool.Due surface handle made.generation) (fits : pool.table.Fits surface handle made) :
    Follows surface pool (pool.put handle made) ∧ (pool.put handle made).allocation? handle ≠ none ∧
      (pool.put handle made).CoherentAt surface handle := by
  have filled := allocation?_put_self sized fits
  refine ⟨⟨.put used fits due.newer, surface_put pool handle made⟩, ?_, .ofFits filled ?_⟩
  · rw [filled]
    exact Option.some_ne_none made
  · rw [table_put]
    exact fits

variable [LawfulDevice σ]

/-- A turn follows the surface, and what it is to achieve is done when it succeeds. -/
theorem turn_follows {check : Pool → ResourceHandle → Option Nat} {done : ResourceHandle → Pool → Prop}
    (checks : Checks surface check done) (sized : pool.Sized) {use : ResourceUse} (listed : use.ListedIn pool.usage) :
    Ensures (fun p (_ : Host σ) => p = pool) (turn check surface use)
      (fun _ p _ => Follows surface pool p ∧ done use.handle p) fun _ p _ => Follows surface pool p := by
  refine .ofRead fun p here => ?_
  subst here
  cases asked : check p use.handle with
  | none =>
    refine .ofPure ?_
    rintro q _ rfl
    exact ⟨.refl surface q, checks.idle q _ asked⟩
  | some generation =>
    have created := (Creates.ofLawful (σ := σ)).create p listed surface generation
    refine .bind ((created.pre fun _ _ same => ⟨same, trivial⟩).mono ?_ ?_) fun _ => .ofPure fun _ _ => id
    · rintro _ _ _ ⟨made, rfl, fits, -, -, rfl⟩
      obtain ⟨follows, filled, coherent⟩ := put_follows sized listed.uses (checks.due p _ _ asked) fits.fits
      exact ⟨follows, checks.put _ _ filled coherent⟩
    · rintro _ _ _ ⟨rfl, -⟩
      exact .refl surface _

/-- A loop of turns follows the surface, and what a turn achieves lasts. -/
theorem loop_follows {γ : Type} (use : γ → ResourceUse) {check : Pool → ResourceHandle → Option Nat}
    {done : ResourceHandle → Pool → Prop} (checks : Checks surface check done) (pool : Pool) (sized : pool.Sized)
    {entries : List γ} (listed : ∀ entry ∈ entries, (use entry).ListedIn pool.usage) :
    Ensures (fun p (_ : Host σ) => p = pool) (entries.mapM fun entry => turn check surface (use entry))
      (fun _ p _ => Follows surface pool p ∧ ∀ entry ∈ entries, done (use entry).handle p)
      fun _ p _ => Follows surface pool p := by
  refine .pre ?_ <| .mapM (fun seen _ p _ => Follows surface pool p ∧ ∀ entry ∈ seen, done (use entry).handle p)
    fun seen _ entry found => .ofEach fun p held => ?_
  · rintro p _ rfl
    exact ⟨.refl surface p, nofun⟩
  · have here : (use entry).ListedIn p.usage := held.1.usage_eq ▸ listed entry found
    refine (turn_follows checks (held.1.sized sized) here).mono ?_ fun _ q _ follows => held.1.trans follows
    rintro _ q _ ⟨follows, this⟩
    refine ⟨held.1.trans follows, List.forall_mem_append.mpr ⟨?_, List.forall_mem_singleton.mpr this⟩⟩
    exact fun other found => checks.lasts p q _ follows (held.2 other found)

/-- When all turns succeed, everything that is used is done; what comes after them starts there. -/
theorem turns_follow {β : Type} {check : Pool → ResourceHandle → Option Nat} {done : ResourceHandle → Pool → Prop}
    (checks : Checks surface check done) (pool : Pool) (sized : pool.Sized) {next : List Nat → List Nat → PoolM σ β}
    {ok : β → Pool → Host σ → Prop}
    (rest : ∀ textures buffers, Ensures
      (fun p (_ : Host σ) => Follows surface pool p ∧ ∀ handle, p.usage.Uses handle → done handle p)
      (next textures buffers) ok fun _ p _ => Follows surface pool p) :
    Ensures (fun p (_ : Host σ) => p = pool) (turns check surface pool.usage next) ok
      fun _ p _ => Follows surface pool p := by
  let texture (entry : TextureHandle × TextureUsage) : ResourceUse := .texture entry.1 entry.2
  let buffer (entry : BufferHandle × BufferUsage) : ResourceUse := .buffer entry.1 entry.2
  refine .bind (loop_follows texture checks pool sized fun _ => id) fun textures => .ofEach fun p held => ?_
  have buffers := loop_follows (σ := σ) buffer checks p (held.1.sized sized)
    fun entry (found : entry ∈ pool.usage.buffers) => held.1.usage_eq ▸ found
  refine .bind (buffers.mono (fun _ _ _ => id) fun _ _ _ => held.1.trans) fun buffers => .pre ?_ (rest textures buffers)
  rintro q _ ⟨follows, now⟩
  have since := held.1.trans follows
  rw [since.usage_eq]
  refine ⟨since, ?_⟩
  rintro (handle | handle) ⟨use, used⟩
  · exact checks.lasts p q _ follows (held.2 (handle, use) used)
  · exact now (handle, use) used

/-- A materialization that succeeds records the surface and has every used slot filled. -/
theorem materialize_follows (pool : Pool) (sized : pool.Sized) (surface : Surface) :
    Ensures (fun p (_ : Host σ) => p = pool) (materialize surface)
      (fun _ p _ => Refits surface pool p ∧ p.Filled ∧ p.surface = some surface)
      fun _ p _ => Follows surface pool p := by
  rw [materialize_eq]
  refine .ofRead fun p here => ?_
  subst here
  refine turns_follow (vacant_checks surface) p sized fun _ _ => (Ensures.ofChange _).bind fun _ => ?_
  refine .bind (.around fun _ => Host.note_ensures _ _ _ fun _ _ h => h) fun _ => .ofPure ?_
  rintro _ _ ⟨middle, ⟨follows, filled⟩, rfl⟩
  exact ⟨follows.record surface, filled, rfl⟩

/-- A resize to the recorded surface does nothing. Any other one that succeeds records the surface and
leaves every used resource fitting; one that fails has followed the surface some of the way. -/
theorem resize_follows (pool : Pool) (sized : pool.Sized) (surface : Surface) :
    Ensures (fun p (_ : Host σ) => p = pool) (resize surface)
      (fun _ p _ => pool.surface = some surface ∧ p = pool ∨
        pool.surface ≠ some surface ∧ Refits surface pool p ∧ p.Coherent surface ∧ p.surface = some surface)
      fun _ p _ => pool.surface ≠ some surface ∧ Follows surface pool p := by
  rw [resize_eq]
  refine .ofRead fun p here => ?_
  subst here
  refine .ofIf (fun recorded => .ofPure fun _ _ here => .inl ⟨recorded, here⟩) fun changed => ?_
  refine Ensures.mono (?_ : Ensures _ _ (fun _ q _ => Refits surface p q ∧ q.Coherent surface ∧
    q.surface = some surface) fun _ q _ => Follows surface p q)
    (fun _ _ _ done => .inr ⟨changed, done⟩) fun _ _ _ follows => ⟨changed, follows⟩
  refine turns_follow (stale_checks surface) p sized fun _ _ => ?_
  refine .bind (.mono (.ofChange _) (fun _ q _ => ?_) fun _ _ _ => id) fun _ =>
    .ofIf (fun _ => .bind (.around fun _ => Host.note_ensures _ _ _ fun _ _ h => h) fun _ =>
      .ofPure fun _ _ => id) fun _ => .ofPure fun _ _ => id
  rintro ⟨middle, ⟨follows, coherent⟩, rfl⟩
  exact ⟨follows.record surface, coherent_iff.mpr coherent, rfl⟩

/-- What is known of the host lasts through log lines and through creations of textures and buffers. -/
structure Spares (inv : Host σ → Prop) : Prop where
  log : ∀ host log, inv host → inv { host with log }
  createTexture : ∀ spec, Effect.Keeps inv (Host.perform (Device.createTexture spec))
  createBuffer : ∀ spec, Effect.Keeps inv (Host.perform (Device.createBuffer spec))

namespace Spares

variable {inv : Host σ → Prop}

omit [LawfulDevice σ]

omit [Device σ] in
theorem around_keeps {α : Type} {action : HostM σ α} (kept : Effect.Keeps inv action) :
    Keeps (fun (_ : Pool) => inv) (PartEffect.around action) := .around fun _ => kept

theorem note_keeps (spares : Spares inv) (text : String) : Keeps (fun _ => inv) (note text : PoolM σ Unit) :=
  around_keeps (Host.note_ensures _ _ _ spares.log)

theorem create_keeps (spares : Spares inv) (surface : Surface) (use : ResourceUse) (generation : Nat) :
    Keeps (fun _ => inv) (create surface use generation) := by
  cases use with
  | texture handle flags =>
    refine .ofReading fun pool => ?_
    cases pool.table.texture? handle with
    | none => exact .ofThrow fun _ _ => id
    | some decl =>
      refine (around_keeps (spares.createTexture _)).bind fun _ => (spares.note_keeps _).bind fun _ => ?_
      exact .ofModify fun _ _ => id
  | buffer handle flags =>
    refine .ofReading fun pool => ?_
    cases pool.table.buffer? handle with
    | none => exact .ofThrow fun _ _ => id
    | some decl =>
      refine (around_keeps (spares.createBuffer _)).bind fun _ => (spares.note_keeps _).bind fun _ => ?_
      exact .ofModify fun _ _ => id

theorem turn_keeps (spares : Spares inv) (check : Pool → ResourceHandle → Option Nat) (surface : Surface)
    (use : ResourceUse) : Keeps (fun _ => inv) (turn check surface use) := by
  refine .ofReading fun pool => ?_
  cases check pool use.handle with
  | none => exact .ofPure fun _ _ => id
  | some generation => exact (spares.create_keeps surface use generation).bind fun _ => .ofPure fun _ _ => id

theorem materialize_keeps (spares : Spares inv) (surface : Surface) :
    Keeps (fun _ => inv) (materialize surface : PoolM σ Nat) := by
  rw [materialize_eq]
  refine .ofReading fun pool => turns_rule (fun use _ => spares.turn_keeps _ surface use) fun _ _ => ?_
  exact PartEffect.Ensures.bind (.ofModify fun _ _ => id) fun _ =>
    (spares.note_keeps _).bind fun _ => .ofPure fun _ _ => id

theorem resize_keeps (spares : Spares inv) (surface : Surface) :
    Keeps (fun _ => inv) (resize surface : PoolM σ Nat) := by
  rw [resize_eq]
  refine .ofReading fun pool => .ofIf (fun _ => .ofPure fun _ _ => id) fun _ => ?_
  refine turns_rule (fun use _ => spares.turn_keeps _ surface use) fun _ _ => ?_
  refine PartEffect.Ensures.bind (.ofModify fun _ _ => id) fun _ => .ofIf (fun _ => ?_) fun _ => .ofPure fun _ _ => id
  exact (spares.note_keeps _).bind fun _ => .ofPure fun _ _ => id

end Spares

end Pool

end FrameGraph
