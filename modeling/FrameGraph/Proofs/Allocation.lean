import FrameGraph.Pool
import FrameGraph.Proofs.Compile.Usage
import Mathlib.Data.Sum.Basic

/-! # Allocations

Textures and buffers alike: what is allocated for a resource of the caller, whether the program uses it and whether it
fits a surface. Following a surface changes an allocation only to one that fits that surface and is of a later generation.
-/

namespace FrameGraph

/-- The allocation is what the declaration comes to at the surface. -/
def TextureSlot.Fits (slot : TextureSlot) (decl : TextureDecl) (surface : Surface) : Prop :=
  slot.texture.extent = decl.extent surface.extent ∧
    slot.texture.format = decl.format.resolve surface.format

/-- The allocation is as long as the declaration asks for at the surface. -/
def BufferSlot.Fits (slot : BufferSlot) (decl : BufferDecl) (surface : Surface) : Prop :=
  slot.buffer.size = decl.byteSize surface.extent

/-- What is allocated for a resource. -/
abbrev Allocation := TextureSlot ⊕ BufferSlot

namespace Allocation

def generation : Allocation → Nat
  | .inl slot => slot.generation
  | .inr slot => slot.generation

/-- The number that the device gave to the object. -/
def number : Allocation → Nat
  | .inl slot => slot.texture.id
  | .inr slot => slot.buffer.id

end Allocation

namespace ResourceTable

/-- A resource that depends on the surface comes to the same allocation at both surfaces. -/
def Alike (table : ResourceTable) (one two : Surface) : ResourceHandle → Prop
  | .texture handle => ∀ decl, table.texture? handle = some decl → decl.followsSurface →
    decl.extent one.extent = decl.extent two.extent ∧
      decl.format.resolve one.format = decl.format.resolve two.format
  | .buffer handle => ∀ decl, table.buffer? handle = some decl → decl.followsSurface →
    decl.byteSize one.extent = decl.byteSize two.extent

/-- The allocation is what the declaration of the resource comes to at the surface. -/
def Fits (table : ResourceTable) (surface : Surface) : ResourceHandle → Allocation → Prop
  | .texture handle, .inl slot => ∃ decl, table.texture? handle = some decl ∧ slot.Fits decl surface
  | .buffer handle, .inr slot => ∃ decl, table.buffer? handle = some decl ∧ slot.Fits decl surface
  | .texture _, .inr _ | .buffer _, .inl _ => False

end ResourceTable

namespace Pool

variable {pool other : Pool} {surface : Surface} {handle : ResourceHandle} {slot : Allocation}

/-- There is one slot for every declaration. -/
structure Sized (pool : Pool) : Prop where
  textures : pool.textures.length = pool.table.textures.length
  buffers : pool.buffers.length = pool.table.buffers.length

theorem sized_empty (table : ResourceTable) (usage : ResourceUsage) : (empty table usage).Sized :=
  ⟨List.length_map _, List.length_map _⟩

/-- What is allocated for a resource. -/
def allocation? (pool : Pool) : ResourceHandle → Option Allocation
  | .texture handle => (pool.textureSlot? handle).map .inl
  | .buffer handle => (pool.bufferSlot? handle).map .inr

theorem texture?_eq_none {handle : TextureHandle} :
    pool.texture? handle = none ↔ pool.allocation? (.texture handle) = none := by
  simp only [texture?, allocation?, Option.map_eq_none_iff]

theorem buffer?_eq_none {handle : BufferHandle} :
    pool.buffer? handle = none ↔ pool.allocation? (.buffer handle) = none := by
  simp only [buffer?, allocation?, Option.map_eq_none_iff]

theorem allocation?_empty (table : ResourceTable) (usage : ResourceUsage) (handle : ResourceHandle) :
    (empty table usage).allocation? handle = none := by
  cases handle <;>
    simp only [allocation?, textureSlot?, bufferSlot?, empty, List.getElem?_map, Option.map_eq_none_iff,
      Option.join_eq_none_iff, Option.map_eq_some_iff]
  · exact (Option.eq_none_or_eq_some _).imp id (Exists.imp fun _ found => ⟨found, trivial⟩)
  · exact (Option.eq_none_or_eq_some _).imp id (Exists.imp fun _ found => ⟨found, trivial⟩)

/-! ### Another allocation -/

def putTexture (pool : Pool) (handle : TextureHandle) (slot : TextureSlot) : Pool :=
  { pool with textures := pool.textures.set handle.index (some slot) }

def putBuffer (pool : Pool) (handle : BufferHandle) (slot : BufferSlot) : Pool :=
  { pool with buffers := pool.buffers.set handle.index (some slot) }

/-- The pool with another allocation for a resource. -/
def put (pool : Pool) : ResourceHandle → Allocation → Pool
  | .texture handle, .inl slot => pool.putTexture handle slot
  | .buffer handle, .inr slot => pool.putBuffer handle slot
  | .texture _, .inr _ | .buffer _, .inl _ => pool

theorem textureSlot?_putTexture (pool : Pool) (handle other : TextureHandle) (slot : TextureSlot) :
    (pool.putTexture handle slot).textureSlot? other =
      if other = handle ∧ handle.index < pool.textures.length then some slot else pool.textureSlot? other := by
  obtain ⟨i⟩ := handle
  obtain ⟨j⟩ := other
  simp only [textureSlot?, putTexture, List.getElem?_set, TextureHandle.mk.injEq]
  by_cases same : j = i
  · subst same
    by_cases bound : j < pool.textures.length <;> simp [bound]
  · simp [same, Ne.symm same]

theorem bufferSlot?_putBuffer (pool : Pool) (handle other : BufferHandle) (slot : BufferSlot) :
    (pool.putBuffer handle slot).bufferSlot? other =
      if other = handle ∧ handle.index < pool.buffers.length then some slot else pool.bufferSlot? other := by
  obtain ⟨i⟩ := handle
  obtain ⟨j⟩ := other
  simp only [bufferSlot?, putBuffer, List.getElem?_set, BufferHandle.mk.injEq]
  by_cases same : j = i
  · subst same
    by_cases bound : j < pool.buffers.length <;> simp [bound]
  · simp [same, Ne.symm same]

theorem allocation?_put (pool : Pool) (handle other : ResourceHandle) (slot : Allocation) :
    (pool.put handle slot).allocation? other = pool.allocation? other ∨
      other = handle ∧ (pool.put handle slot).allocation? other = some slot := by
  cases handle with
  | texture handle =>
    cases slot with
    | inr slot => exact .inl rfl
    | inl slot =>
      cases other with
      | buffer other => exact .inl rfl
      | texture other =>
        rw [put, allocation?, textureSlot?_putTexture]
        split
        · rename_i here
          exact .inr ⟨congrArg _ here.1, rfl⟩
        · exact .inl rfl
  | buffer handle =>
    cases slot with
    | inl slot => exact .inl rfl
    | inr slot =>
      cases other with
      | texture other => exact .inl rfl
      | buffer other =>
        rw [put, allocation?, bufferSlot?_putBuffer]
        split
        · rename_i here
          exact .inr ⟨congrArg _ here.1, rfl⟩
        · exact .inl rfl

/-- What fits a declared resource is put in its place. -/
theorem allocation?_put_self (sized : pool.Sized) (fits : pool.table.Fits surface handle slot) :
    (pool.put handle slot).allocation? handle = some slot := by
  cases handle <;> cases slot
  · obtain ⟨decl, declared, -⟩ := fits
    have bound := (List.getElem?_eq_some_iff.mp declared).1
    rw [put, allocation?, textureSlot?_putTexture, if_pos ⟨rfl, sized.textures ▸ bound⟩, Option.map_some]
  · exact fits.elim
  · exact fits.elim
  · obtain ⟨decl, declared, -⟩ := fits
    have bound := (List.getElem?_eq_some_iff.mp declared).1
    rw [put, allocation?, bufferSlot?_putBuffer, if_pos ⟨rfl, sized.buffers ▸ bound⟩, Option.map_some]

theorem table_put (pool : Pool) (handle : ResourceHandle) (slot : Allocation) :
    (pool.put handle slot).table = pool.table := by
  cases handle <;> cases slot <;> rfl

theorem usage_put (pool : Pool) (handle : ResourceHandle) (slot : Allocation) :
    (pool.put handle slot).usage = pool.usage := by
  cases handle <;> cases slot <;> rfl

theorem surface_put (pool : Pool) (handle : ResourceHandle) (slot : Allocation) :
    (pool.put handle slot).surface = pool.surface := by
  cases handle <;> cases slot <;> rfl

theorem Sized.put (sized : pool.Sized) (handle : ResourceHandle) (slot : Allocation) : (pool.put handle slot).Sized := by
  cases handle <;> cases slot
  · exact ⟨List.length_set.trans sized.textures, sized.buffers⟩
  · exact sized
  · exact sized
  · exact ⟨sized.textures, List.length_set.trans sized.buffers⟩

/-! ### Allocations that fit -/

/-- A texture that depends on the surface has an allocation that fits it. -/
def TextureCoherent (surface : Surface) (pool : Pool) (handle : TextureHandle) : Prop :=
  ∀ decl, pool.table.texture? handle = some decl → decl.followsSurface →
    ∃ slot, pool.textureSlot? handle = some slot ∧ slot.Fits decl surface

/-- A buffer that depends on the surface has an allocation that is as long as it should be. -/
def BufferCoherent (surface : Surface) (pool : Pool) (handle : BufferHandle) : Prop :=
  ∀ decl, pool.table.buffer? handle = some decl → decl.followsSurface →
    ∃ slot, pool.bufferSlot? handle = some slot ∧ slot.Fits decl surface

/-- Every used resource that depends on the surface fits it. -/
structure Coherent (surface : Surface) (pool : Pool) : Prop where
  textures : ∀ entry ∈ pool.usage.textures, pool.TextureCoherent surface entry.1
  buffers : ∀ entry ∈ pool.usage.buffers, pool.BufferCoherent surface entry.1

/-- A resource that depends on the surface has an allocation that fits it. -/
def CoherentAt (surface : Surface) (pool : Pool) : ResourceHandle → Prop
  | .texture handle => pool.TextureCoherent surface handle
  | .buffer handle => pool.BufferCoherent surface handle

theorem coherent_iff : pool.Coherent surface ↔ ∀ handle, pool.usage.Uses handle → pool.CoherentAt surface handle := by
  constructor
  · rintro coherent (handle | handle) ⟨use, used⟩
    · exact coherent.textures (handle, use) used
    · exact coherent.buffers (handle, use) used
  · exact fun all => ⟨fun entry used => all (.texture entry.1) ⟨entry.2, used⟩,
      fun entry used => all (.buffer entry.1) ⟨entry.2, used⟩⟩

theorem CoherentAt.ofFits (filled : pool.allocation? handle = some slot) (fits : pool.table.Fits surface handle slot) :
    pool.CoherentAt surface handle := by
  cases handle <;> cases slot
  · obtain ⟨decl, declared, fits⟩ := fits
    obtain ⟨_, found, ⟨⟩⟩ := Option.map_eq_some_iff.mp filled
    intro decl' declared' _
    cases declared.symm.trans declared'
    exact ⟨_, found, fits⟩
  · exact fits.elim
  · exact fits.elim
  · obtain ⟨decl, declared, fits⟩ := fits
    obtain ⟨_, found, ⟨⟩⟩ := Option.map_eq_some_iff.mp filled
    intro decl' declared' _
    cases declared.symm.trans declared'
    exact ⟨_, found, fits⟩

/-- An allocation that stays fits as before. -/
theorem CoherentAt.stay (coherent : pool.CoherentAt surface handle) (table : other.table = pool.table)
    (same : other.allocation? handle = pool.allocation? handle) : other.CoherentAt surface handle := by
  cases handle with
  | texture handle =>
    have slot : other.textureSlot? handle = pool.textureSlot? handle :=
      Option.map_injective Sum.inl_injective same
    rw [CoherentAt, TextureCoherent, table, slot]
    exact coherent
  | buffer handle =>
    have slot : other.bufferSlot? handle = pool.bufferSlot? handle :=
      Option.map_injective Sum.inr_injective same
    rw [CoherentAt, BufferCoherent, table, slot]
    exact coherent

/-- What fits one surface fits another exactly when both ask for the same. -/
theorem CoherentAt.alike {second : Surface} (coherent : pool.CoherentAt surface handle) :
    pool.CoherentAt second handle ↔ pool.table.Alike surface second handle := by
  cases handle with
  | texture handle =>
    constructor
    · intro fits decl declared follows
      obtain ⟨slot, filled, one⟩ := coherent decl declared follows
      obtain ⟨_, again, two⟩ := fits decl declared follows
      cases filled.symm.trans again
      exact ⟨one.1.symm.trans two.1, one.2.symm.trans two.2⟩
    · intro alike decl declared follows
      obtain ⟨slot, filled, one⟩ := coherent decl declared follows
      obtain ⟨extent, format⟩ := alike decl declared follows
      exact ⟨slot, filled, one.1.trans extent, one.2.trans format⟩
  | buffer handle =>
    constructor
    · intro fits decl declared follows
      obtain ⟨slot, filled, one⟩ := coherent decl declared follows
      obtain ⟨_, again, two⟩ := fits decl declared follows
      cases filled.symm.trans again
      exact one.symm.trans two
    · intro alike decl declared follows
      obtain ⟨slot, filled, one⟩ := coherent decl declared follows
      exact ⟨slot, filled, one.trans (alike decl declared follows)⟩

/-! ### Used resources -/

/-- Every used resource has an allocation. -/
def Filled (pool : Pool) : Prop := ∀ handle, pool.usage.Uses handle → pool.allocation? handle ≠ none

/-- Only what the program uses is allocated. -/
def Tight (pool : Pool) : Prop := ∀ handle, pool.allocation? handle ≠ none → pool.usage.Uses handle

theorem tight_empty (table : ResourceTable) (usage : ResourceUsage) : (empty table usage).Tight :=
  fun handle allocated => absurd (allocation?_empty table usage handle) allocated

/-- A filled pool has allocations for what is used and for nothing else. -/
theorem Filled.absent_iff (filled : pool.Filled) (tight : pool.Tight) :
    pool.allocation? handle = none ↔ ¬pool.usage.Uses handle :=
  ⟨fun none used => filled handle used none, fun unused => Classical.not_not.mp fun some => unused (tight handle some)⟩

/-! ### Changes of a pool -/

/-- What a pool may become at a surface: an allocation stays as it is or, when the program uses the resource, is one
that fits, of a generation after the one it replaces. -/
structure Refits (surface : Surface) (before after : Pool) : Prop where
  table_eq : after.table = before.table
  usage_eq : after.usage = before.usage
  sized : before.Sized → after.Sized
  resource : ∀ handle, after.allocation? handle = before.allocation? handle ∨
    before.usage.Uses handle ∧ ∃ slot : Allocation, after.allocation? handle = some slot ∧
      before.table.Fits surface handle slot ∧
      ∀ old : Allocation, before.allocation? handle = some old → old.generation < slot.generation

/-- What a pool may become at all: an allocation stays or is replaced by one of a later generation. -/
def Evolves (past now : Pool) : Prop :=
  ∀ handle (old : Allocation), past.allocation? handle = some old →
    ∃ slot : Allocation, now.allocation? handle = some slot ∧ (slot = old ∨ old.generation < slot.generation)

namespace Refits

variable {first middle last : Pool}

theorem refl (surface : Surface) (pool : Pool) : Refits surface pool pool := ⟨rfl, rfl, id, fun _ => .inl rfl⟩

theorem trans (one : Refits surface first middle) (two : Refits surface middle last) : Refits surface first last where
  table_eq := two.table_eq.trans one.table_eq
  usage_eq := two.usage_eq.trans one.usage_eq
  sized held := two.sized (one.sized held)
  resource handle := by
    obtain same | ⟨used, slot, filled, fits, newer⟩ := two.resource handle
    · rw [same]
      exact one.resource handle
    · refine .inr ⟨one.usage_eq ▸ used, slot, filled, one.table_eq ▸ fits, fun old there => ?_⟩
      obtain same | ⟨-, between, now, -, later⟩ := one.resource handle
      · exact newer old (same.trans there)
      · exact Nat.lt_trans (later old there) (newer between now)

theorem put (used : pool.usage.Uses handle) (fits : pool.table.Fits surface handle slot)
    (newer : ∀ old : Allocation, pool.allocation? handle = some old → old.generation < slot.generation) :
    Refits surface pool (pool.put handle slot) where
  table_eq := table_put pool handle slot
  usage_eq := usage_put pool handle slot
  sized held := held.put handle slot
  resource other := by
    obtain same | ⟨rfl, filled⟩ := allocation?_put pool handle other slot
    · exact .inl same
    · exact .inr ⟨used, slot, filled, fits, newer⟩

/-- A change of the pool at a surface keeps an allocation, or makes one that fits for a used resource. -/
theorem allocation (step : Refits surface pool other) (handle : ResourceHandle) :
    other.allocation? handle = pool.allocation? handle ∨
      pool.usage.Uses handle ∧ other.CoherentAt surface handle := by
  obtain same | ⟨used, slot, filled, fits, -⟩ := step.resource handle
  · exact .inl same
  · exact .inr ⟨used, .ofFits filled (step.table_eq ▸ fits)⟩

/-- What is allocated is never released. -/
theorem allocation_ne_none (step : Refits surface pool other) (filled : pool.allocation? handle ≠ none) :
    other.allocation? handle ≠ none := by
  obtain same | ⟨-, slot, now, -⟩ := step.resource handle
  · rwa [same]
  · rw [now]
    exact Option.some_ne_none slot

theorem coherentAt (step : Refits surface pool other) (coherent : pool.CoherentAt surface handle) :
    other.CoherentAt surface handle := by
  obtain same | ⟨-, fits⟩ := step.allocation handle
  · exact coherent.stay step.table_eq same
  · exact fits

theorem filled (step : Refits surface pool other) (filled : pool.Filled) : other.Filled := by
  intro handle used
  rw [step.usage_eq] at used
  exact step.allocation_ne_none (filled handle used)

theorem tight (step : Refits surface pool other) (tight : pool.Tight) : other.Tight := by
  intro handle allocated
  rw [step.usage_eq]
  obtain same | ⟨used, -⟩ := step.allocation handle
  · exact tight handle (same ▸ allocated)
  · exact used

/-- Following a surface is one way to evolve. -/
theorem evolves (step : Refits surface pool other) : pool.Evolves other := by
  intro handle old there
  obtain same | ⟨-, slot, filled, -, newer⟩ := step.resource handle
  · exact ⟨old, same.trans there, .inl rfl⟩
  · exact ⟨slot, filled, .inr (newer old there)⟩

end Refits

namespace Evolves

theorem refl (pool : Pool) : Evolves pool pool := fun _ old there => ⟨old, there, .inl rfl⟩

theorem trans {first middle last : Pool} (one : Evolves first middle) (two : Evolves middle last) :
    Evolves first last := by
  intro handle old there
  obtain ⟨between, now, first⟩ := one handle old there
  obtain ⟨slot, filled, second⟩ := two handle between now
  refine ⟨slot, filled, ?_⟩
  rcases first with rfl | first <;> rcases second with rfl | second
  · exact .inl rfl
  · exact .inr second
  · exact .inr first
  · exact .inr (Nat.lt_trans first second)

/-- A generation tells the allocation. -/
theorem allocation_eq {past now : Pool} (evolves : Evolves past now) {old : Allocation}
    (there : past.allocation? handle = some old)
    (same : (now.allocation? handle).map Allocation.generation = some old.generation) :
    now.allocation? handle = some old := by
  obtain ⟨slot, filled, rfl | newer⟩ := evolves handle old there
  · exact filled
  · rw [filled, Option.map_some, Option.some_inj] at same
    exact absurd same (Nat.ne_of_gt newer)

end Evolves

/-- A pool that follows a surface and has not taken note of it yet. -/
structure Follows (surface : Surface) (before after : Pool) : Prop extends Refits surface before after where
  surface_eq : after.surface = before.surface

namespace Follows

variable {first middle last : Pool}

theorem refl (surface : Surface) (pool : Pool) : Follows surface pool pool := ⟨.refl surface pool, rfl⟩

theorem trans (one : Follows surface first middle) (two : Follows surface middle last) :
    Follows surface first last :=
  ⟨one.toRefits.trans two.toRefits, two.surface_eq.trans one.surface_eq⟩

end Follows

/-- The pool has taken note of a surface. -/
def record (pool : Pool) (surface : Surface) : Pool := { pool with surface := some surface }

theorem Follows.record {first last : Pool} (step : Follows surface first last) (noted : Surface) :
    Refits surface first (last.record noted) := ⟨step.table_eq, step.usage_eq, fun held =>
  ⟨(step.sized held).textures, (step.sized held).buffers⟩, step.resource⟩

end Pool

end FrameGraph
