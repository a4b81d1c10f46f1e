import FrameGraph.Proofs.Pool

/-! # Renewed allocations

A call on a pool makes allocations for used resources that have none, and replaces those that are outdated at the
surface. `Pool.Renews` says so of two pools. It holds of a single creation, and is carried on through the loops of a
call, whether the call succeeds or not, and from one call to the next.
-/

namespace FrameGraph

namespace Pool

variable {pool first middle last : Pool} {surface : Surface} {handle : ResourceHandle}

/-- What fits is not outdated. -/
theorem CoherentAt.not_outdated (coherent : pool.CoherentAt surface handle) {slot : Allocation}
    (filled : pool.allocation? handle = some slot) : ¬pool.table.Outdated surface handle slot := by
  intro outdated
  cases handle with
  | texture handle =>
    obtain ⟨own, found, rfl⟩ := Option.map_eq_some_iff.mp filled
    obtain ⟨decl, declared, follows, unfit⟩ := outdated
    obtain ⟨other, found', fits⟩ := coherent decl declared follows
    cases found.symm.trans found'
    exact unfit fits
  | buffer handle =>
    obtain ⟨own, found, rfl⟩ := Option.map_eq_some_iff.mp filled
    obtain ⟨decl, declared, follows, unfit⟩ := outdated
    obtain ⟨other, found', fits⟩ := coherent decl declared follows
    cases found.symm.trans found'
    exact unfit fits

/-- Allocations of `old` may have been replaced, and what was made is of `new`. -/
structure Renewed (old new : ResourceHandle → Allocation → Prop) (before : Pool) (handle : ResourceHandle)
    (made : Allocation) : Prop where
  used : before.usage.Uses handle
  new : new handle made
  first : ¬before.table.Follows handle → made.generation = 0
  replaces : ∀ prev : Allocation, before.allocation? handle = some prev →
    old handle prev ∧ prev.generation < made.generation

/-- Every allocation stays or is renewed. -/
structure Renews (old new : ResourceHandle → Allocation → Prop) (before after : Pool) : Prop where
  table_eq : after.table = before.table
  usage_eq : after.usage = before.usage
  sized : before.Sized → after.Sized
  allocation : ∀ handle, after.allocation? handle = before.allocation? handle ∨
    ∃ made, after.allocation? handle = some made ∧ before.Renewed old new handle made

namespace Renews

variable {old new : ResourceHandle → Allocation → Prop}

theorem refl (pool : Pool) : Renews old new pool pool := ⟨rfl, rfl, id, fun _ => .inl rfl⟩

theorem trans (one : Renews old new first middle) (two : Renews old new middle last) : Renews old new first last where
  table_eq := two.table_eq.trans one.table_eq
  usage_eq := two.usage_eq.trans one.usage_eq
  sized held := two.sized (one.sized held)
  allocation handle := by
    rcases two.allocation handle with same | ⟨made, filled, renewed⟩
    · rw [same]
      exact one.allocation handle
    · refine .inr ⟨made, filled, one.usage_eq ▸ renewed.used, renewed.new, one.table_eq ▸ renewed.first, ?_⟩
      intro prev there
      rcases one.allocation handle with same | ⟨between, now, earlier⟩
      · exact renewed.replaces prev (same.trans there)
      · obtain ⟨may, newer⟩ := earlier.replaces prev there
        exact ⟨may, Nat.lt_trans newer (renewed.replaces between now).2⟩

theorem mono {old' new' : ResourceHandle → Allocation → Prop} (renews : Renews old new first last)
    (fewer : ∀ handle slot, old handle slot → old' handle slot)
    (more : ∀ handle slot, new handle slot → new' handle slot) : Renews old' new' first last where
  table_eq := renews.table_eq
  usage_eq := renews.usage_eq
  sized := renews.sized
  allocation handle := by
    rcases renews.allocation handle with same | ⟨made, filled, renewed⟩
    · exact .inl same
    · exact .inr ⟨made, filled, renewed.used, more handle made renewed.new, renewed.first,
        fun prev there => ⟨fewer handle prev (renewed.replaces prev there).1, (renewed.replaces prev there).2⟩⟩

theorem put {made : Allocation} (renewed : pool.Renewed old new handle made) :
    Renews old new pool (pool.put handle made) where
  table_eq := table_put pool handle made
  usage_eq := usage_put pool handle made
  sized held := held.put handle made
  allocation other := by
    rcases allocation?_put pool handle other made with same | ⟨rfl, filled⟩
    · exact .inl same
    · exact .inr ⟨made, filled, renewed⟩

theorem record (renews : Renews old new first last) (surface : Surface) : Renews old new first (last.record surface) :=
  ⟨renews.table_eq, renews.usage_eq, fun held => ⟨(renews.sized held).textures, (renews.sized held).buffers⟩,
    renews.allocation⟩

end Renews

theorem Due.renewed {new : ResourceHandle → Allocation → Prop} {made : Allocation}
    (due : pool.Due surface handle made.generation) (used : pool.usage.Uses handle) (fits : new handle made) :
    pool.Renewed (pool.table.Outdated surface) new handle made where
  used := used
  new := fits
  first unfollowing := by
    rcases due with ⟨-, first⟩ | ⟨prev, -, outdated, -⟩
    · exact first
    · exact absurd outdated.follows unfollowing
  replaces prev there := by
    refine ⟨?_, due.newer prev there⟩
    rcases due with ⟨none, -⟩ | ⟨found, filled, outdated, -⟩
    · cases none.symm.trans there
    · cases filled.symm.trans there
      exact outdated

variable {σ : Type} [Device σ]

open PartEffect (Ensures Keeps)

/-! ### Calls -/

/-- What is known of a pool and the host around it lasts through the creations that are due at a surface. -/
structure Lasts (usage : ResourceUsage) (surface : Surface) (inv : Pool → Host σ → Prop) : Prop where
  usage_eq : ∀ pool host, inv pool host → pool.usage = usage
  log : ∀ pool host log, inv pool host → inv pool { host with log }
  record : ∀ pool host, inv pool host → inv (pool.record surface) host
  create : ∀ pool host, inv pool host → ∃ known numbered, Creates known numbered ∧ known host ∧
    (∀ after, known after → inv pool after) ∧
    ∀ after handle (made : Allocation), usage.Gives handle made → pool.Due surface handle made.generation →
      pool.table.Made surface handle made → numbered made.number after → inv (pool.put handle made) after

namespace Lasts

variable {usage : ResourceUsage} {inv : Pool → Host σ → Prop} {host : Host σ}

theorem note (lasts : Lasts usage surface inv) (text : String) : Keeps inv (note text : PoolM σ Unit) :=
  .around fun pool => Host.note_ensures _ _ _ fun host log => lasts.log pool host log

theorem creation (lasts : Lasts usage surface inv) (held : inv pool host) {use : ResourceUse}
    (listed : use.ListedIn usage) {generation : Nat} (due : pool.Due surface use.handle generation) :
    Ensures (fun p h => p = pool ∧ h = host) (Pool.create surface use generation) (fun _ => inv) fun _ => inv := by
  obtain ⟨known, numbered, creates, here, stays, puts⟩ := lasts.create pool host held
  refine .mono (.pre ?_ (creates.create pool listed surface generation)) ?_ ?_
  · rintro _ _ ⟨rfl, rfl⟩
    exact ⟨rfl, here⟩
  · rintro _ _ after ⟨made, rfl, fits, gives, number, rfl⟩
    exact puts after _ made gives due fits number
  · rintro _ _ after ⟨rfl, there⟩
    exact stays after there

omit [Device σ] in
theorem fixed (held : inv pool host) (p : Pool) (h : Host σ) (here : p = pool ∧ h = host) : inv p h := by
  rw [here.1, here.2]
  exact held

theorem turn {check : Pool → ResourceHandle → Option Nat} {done : ResourceHandle → Pool → Prop}
    (lasts : Lasts usage surface inv) (checks : Checks surface check done) (use : ResourceUse)
    (listed : use.ListedIn usage) : Keeps inv (turn check surface use : PoolM σ Nat) := by
  refine .ofGet fun pool host held => ?_
  cases asked : check pool use.handle with
  | none => exact .ofPure (fixed held)
  | some generation =>
    exact (lasts.creation held listed (checks.due _ _ _ asked)).bind fun _ => .ofPure fun _ _ => id

theorem materialize (lasts : Lasts usage surface inv) : Keeps inv (materialize surface : PoolM σ Nat) := by
  rw [materialize_eq]
  refine .ofGet fun pool host held => .pre (fixed held) ?_
  rw [lasts.usage_eq pool host held]
  refine turns_rule (lasts.turn (vacant_checks surface)) fun _ _ => ?_
  exact .bind (.ofModify lasts.record) fun _ => (lasts.note _).bind fun _ => .ofPure fun _ _ => id

theorem resize (lasts : Lasts usage surface inv) : Keeps inv (resize surface : PoolM σ Nat) := by
  rw [resize_eq]
  refine .ofGet fun pool host held => .ofIf (fun _ => .ofPure (fixed held)) fun _ => .pre (fixed held) ?_
  rw [lasts.usage_eq pool host held]
  refine turns_rule (lasts.turn (stale_checks surface)) fun _ _ => ?_
  refine .bind (.ofModify lasts.record) fun _ => .ofIf (fun _ => ?_) fun _ => .ofPure fun _ _ => id
  exact (lasts.note _).bind fun _ => .ofPure fun _ _ => id

end Lasts

/-- What a creation at a surface puts carries on what was renewed before. -/
theorem Renews.create {start : Pool} {new : ResourceHandle → Allocation → Prop} {made : Allocation}
    (renews : Renews (start.table.Outdated surface) new start pool) (used : start.usage.Uses handle)
    (due : pool.Due surface handle made.generation) (fits : new handle made) :
    Renews (start.table.Outdated surface) new start (pool.put handle made) := by
  refine renews.trans (.put ?_)
  rw [← renews.table_eq]
  exact due.renewed (renews.usage_eq ▸ used) fits

/-- A call on a pool renews allocations of the pool, whether it succeeds or not. -/
theorem lasts_renews [LawfulDevice σ] (pool : Pool) (surface : Surface) : Lasts pool.usage surface
    fun p (_ : Host σ) => Renews (pool.table.Outdated surface) (pool.table.Made surface) pool p where
  usage_eq _ _ renews := renews.usage_eq
  log _ _ _ := id
  record _ _ renews := renews.record surface
  create p host renews := by
    refine ⟨fun _ => True, fun _ _ => True, .ofLawful, trivial, fun _ _ => renews, ?_⟩
    intro _ handle made gives due fits _
    exact renews.create gives.uses due (renews.table_eq ▸ fits)

/-- What it puts was created for the uses that the pool knows of. -/
theorem lasts_gives [LawfulDevice σ] (pool : Pool) (surface : Surface) : Lasts pool.usage surface
    fun p (_ : Host σ) => Renews (pool.table.Outdated surface) pool.usage.Gives pool p where
  usage_eq _ _ renews := renews.usage_eq
  log _ _ _ := id
  record _ _ renews := renews.record surface
  create p host renews := by
    refine ⟨fun _ => True, fun _ _ => True, .ofLawful, trivial, fun _ _ => renews, ?_⟩
    intro _ handle made gives due _ _
    exact renews.create gives.uses due gives

/-- All allocations were created for the uses of their resources. -/
structure MadeFor (usage : ResourceUsage) (pool : Pool) : Prop where
  usage_eq : pool.usage = usage
  allocation : ∀ handle (slot : Allocation), pool.allocation? handle = some slot → usage.Gives handle slot

namespace MadeFor

variable {usage : ResourceUsage}

omit [Device σ] in
theorem ofEmpty (table : ResourceTable) (usage : ResourceUsage) : (empty table usage).MadeFor usage where
  usage_eq := rfl
  allocation handle slot filled := by cases (allocation?_empty table usage handle).symm.trans filled

omit [Device σ] in
/-- What stays was so created before, and what is renewed is anew. -/
theorem renew {old : ResourceHandle → Allocation → Prop} (made : first.MadeFor usage)
    (renews : Renews old first.usage.Gives first last) : last.MadeFor usage where
  usage_eq := renews.usage_eq.trans made.usage_eq
  allocation handle slot filled := by
    rcases renews.allocation handle with same | ⟨new, there, renewed⟩
    · exact made.allocation handle slot (same.symm.trans filled)
    · cases there.symm.trans filled
      exact made.usage_eq ▸ renewed.new

end MadeFor

end Pool

end FrameGraph
