import FrameGraph.Proofs.Renewal
import Mathlib.Data.List.Induction

/-! # Element counts of buffers

A buffer is made again when its size in bytes is another one, and sizes are rounded to sixteen. The element count that
the pool keeps beside the buffer is that of the surface at which the buffer was made.
-/

namespace FrameGraph

namespace BufferDecl

variable {decl : BufferDecl}

/-- The surface at which a buffer was made that was made at one surface and has followed another: it is made again when
its size is another one there. -/
def remadeAt (decl : BufferDecl) (made surface : Surface) : Surface :=
  if decl.byteSize surface.extent = decl.byteSize made.extent then made else surface

/-- The surface at which a buffer was made that has followed these surfaces. -/
def madeAt (decl : BufferDecl) (first : Surface) (surfaces : List Surface) : Surface :=
  surfaces.foldl decl.remadeAt first

/-- At the last surface a buffer has the size that it was made of. -/
theorem byteSize_madeAt (decl : BufferDecl) (first : Surface) (surfaces : List Surface) :
    decl.byteSize (decl.madeAt first surfaces).extent = decl.byteSize (surfaces.getLastD first).extent := by
  induction surfaces using List.reverseRecOn with
  | nil => rfl
  | append_singleton surfaces last ih =>
    rw [madeAt, List.foldl_concat, List.getLastD_concat, remadeAt]
    split
    · rename_i same
      exact same.symm
    · rfl

/-- A size that does not depend on the surface is the same at all of them. -/
theorem byteSize_eq_of_fixed (fixed : ¬decl.followsSurface) (one two : Extent) :
    decl.byteSize one = decl.byteSize two := by
  rw [followsSurface] at fixed
  split at fixed
  · exact absurd rfl fixed
  · rename_i count counted
    rw [byteSize, byteSize, elementCount, elementCount, counted]

end BufferDecl

namespace Pool

variable {σ : Type} [Device σ]

/-- Materialize at a surface and follow others from there. -/
def followed (first : Surface) (surfaces : List Surface) : PoolM σ Unit := do
  let _ ← materialize first
  surfaces.forM fun surface => do
    let _ ← resize surface

open PartEffect (Ensures)

/-- A used buffer that was made at this surface is what the declaration comes to there, and has the right size at the
recorded surface. -/
structure BufferMade (decl : BufferDecl) (handle : BufferHandle) (made : Surface) (pool : Pool) : Prop where
  sized : pool.Sized
  used : pool.usage.Uses (.buffer handle)
  declared : pool.table.buffer? handle = some decl
  filled : ∃ slot, pool.bufferSlot? handle = some slot ∧ slot.Fits decl made ∧
    slot.elements = decl.elementCount made.extent
  recorded : ∃ surface, pool.surface = some surface ∧ decl.byteSize surface.extent = decl.byteSize made.extent

variable {pool after : Pool} {decl : BufferDecl} {handle : BufferHandle} {made surface : Surface}

/-- A buffer that was just made is made at the surface. -/
theorem BufferMade.ofRenewed {old : ResourceHandle → Allocation → Prop} (sized : after.Sized)
    (table_eq : after.table = pool.table) (usage_eq : after.usage = pool.usage)
    (declared : pool.table.buffer? handle = some decl) {slot : Allocation}
    (filled : after.allocation? (.buffer handle) = some slot)
    (renewed : pool.Renewed old (pool.table.Made surface) (.buffer handle) slot)
    (recorded : after.surface = some surface) : BufferMade decl handle surface after := by
  cases slot with
  | inl slot => exact renewed.new.elim
  | inr slot =>
    obtain ⟨_, found, ⟨⟩⟩ := Option.map_eq_some_iff.mp filled
    obtain ⟨other, declared', fits, elements⟩ := renewed.new
    cases declared.symm.trans declared'
    exact ⟨sized, usage_eq ▸ renewed.used, table_eq ▸ declared, ⟨slot, found, fits, elements⟩, surface, recorded, rfl⟩

/-- A resize that succeeds keeps a buffer whose size stays, and makes one anew whose size changes. -/
theorem BufferMade.resized (held : BufferMade decl handle made pool) (changed : Refits surface pool after)
    (coherent : after.Coherent surface) (recorded : after.surface = some surface)
    (renews : Renews (pool.table.Outdated surface) (pool.table.Made surface) pool after) :
    BufferMade decl handle (decl.remadeAt made surface) after := by
  obtain ⟨slot, found, fits, elements⟩ := held.filled
  have there : pool.allocation? (.buffer handle) = some (.inr slot) := by rw [allocation?, found, Option.map_some]
  rcases renews.allocation (.buffer handle) with same | ⟨other, filled, renewed⟩
  · -- The slot has stayed, and fits the surface if it depends on it.
    have stays : after.bufferSlot? handle = some slot :=
      (Option.map_injective Sum.inr_injective same).trans found
    have size_eq : decl.byteSize surface.extent = decl.byteSize made.extent := by
      by_cases follows : decl.followsSurface
      · obtain ⟨use, used⟩ := held.used
        obtain ⟨again, found', fits'⟩ :=
          coherent.buffers (handle, use) (changed.usage_eq ▸ used) decl (changed.table_eq ▸ held.declared) follows
        cases stays.symm.trans found'
        exact fits'.symm.trans fits
      · exact BufferDecl.byteSize_eq_of_fixed follows _ _
    rw [BufferDecl.remadeAt, if_pos size_eq]
    exact ⟨renews.sized held.sized, renews.usage_eq ▸ held.used, renews.table_eq ▸ held.declared,
      ⟨slot, stays, fits, elements⟩, surface, recorded, size_eq⟩
  · -- The slot was outdated, so that the size is another one.
    obtain ⟨decl', declared, -, unfit⟩ := (renewed.replaces _ there).1
    cases held.declared.symm.trans declared
    have size_ne : decl.byteSize surface.extent ≠ decl.byteSize made.extent :=
      fun same => unfit (fits.trans same.symm)
    rw [BufferDecl.remadeAt, if_neg size_ne]
    exact .ofRenewed (renews.sized held.sized) renews.table_eq renews.usage_eq held.declared filled renewed recorded

variable [LawfulDevice σ]

theorem resize_bufferMade (decl : BufferDecl) (handle : BufferHandle) (made surface : Surface) :
    Ensures (fun p (_ : Host σ) => BufferMade decl handle made p) (resize surface)
      (fun _ p _ => BufferMade decl handle (decl.remadeAt made surface) p) fun _ _ _ => True := by
  refine .ofEach fun pool held => ?_
  refine .mono (.pre ?_ ((resize_follows pool held.sized surface).and (lasts_renews pool surface).resize)) ?_
    fun _ _ _ _ => trivial
  · rintro p _ rfl
    exact ⟨rfl, .refl p⟩
  · rintro _ p _ ⟨⟨recorded, rfl⟩ | ⟨-, changed, coherent, recorded⟩, renews⟩
    · obtain ⟨last, found, size_eq⟩ := held.recorded
      cases recorded.symm.trans found
      rw [BufferDecl.remadeAt, if_pos size_eq]
      exact held
    · exact held.resized changed coherent recorded renews

theorem forM_resize_bufferMade (decl : BufferDecl) (handle : BufferHandle) (made : Surface) (surfaces : List Surface) :
    Ensures (fun p (_ : Host σ) => BufferMade decl handle made p)
      (surfaces.forM fun surface => do let _ ← resize surface)
      (fun _ p _ => BufferMade decl handle (decl.madeAt made surfaces) p) fun _ _ _ => True := by
  induction surfaces generalizing made with
  | nil => exact .ofPure fun _ _ => id
  | cons surface rest ih =>
    exact .bind (.bind (resize_bufferMade decl handle made surface) fun _ => .ofPure fun _ _ => id) fun _ => ih _

/-- A materialization that succeeds makes all used buffers at its surface. -/
theorem materialize_bufferMade (table : ResourceTable) (usage : ResourceUsage) (surface : Surface) :
    Ensures (fun p (_ : Host σ) => p = empty table usage) (materialize surface)
      (fun _ p _ => ∀ handle, usage.Uses (.buffer handle) →
        ∃ decl, table.buffer? handle = some decl ∧ BufferMade decl handle surface p)
      fun _ _ _ => True := by
  have both := (materialize_follows (σ := σ) _ (sized_empty table usage) surface).and
    (lasts_renews (empty table usage) surface).materialize
  refine .mono (.pre ?_ both) ?_ fun _ _ _ _ => trivial
  · rintro p _ rfl
    exact ⟨rfl, .refl _⟩
  · rintro _ p _ ⟨⟨changed, filled, recorded⟩, renews⟩ handle used
    rcases renews.allocation (.buffer handle) with same | ⟨made, found, renewed⟩
    · exact absurd (same.trans (allocation?_empty _ _ _)) (filled _ (changed.usage_eq ▸ used))
    · cases made with
      | inl slot => exact renewed.new.elim
      | inr slot =>
        obtain ⟨decl, declared, -⟩ := renewed.new
        exact ⟨decl, declared, .ofRenewed (renews.sized (sized_empty table usage)) renews.table_eq renews.usage_eq
          declared found renewed recorded⟩

/-- When a materialization and all resizes after it succeed, each used buffer has the size of the last surface, and
the element count of the surface at which it was made. -/
theorem followed_length {table : ResourceTable} {usage : ResourceUsage} {first : Surface} {surfaces : List Surface}
    {host after : Host σ} {pool : Pool}
    (run : (followed first surfaces).apply (empty table usage) host = ((.ok (), pool), after)) {handle : BufferHandle}
    (used : usage.Uses (.buffer handle)) :
    ∃ decl, table.buffer? handle = some decl ∧
      pool.bufferLength? handle = some (decl.elementCount (decl.madeAt first surfaces).extent) ∧
      (pool.buffer? handle).map (·.size) = some (decl.byteSize (surfaces.getLastD first).extent) := by
  have made : Ensures (fun p (_ : Host σ) => p = empty table usage) (followed first surfaces)
      (fun _ p _ => ∃ decl, table.buffer? handle = some decl ∧ BufferMade decl handle (decl.madeAt first surfaces) p)
      fun _ _ _ => True := by
    refine .bind (materialize_bufferMade table usage first) fun _ => .ofEach fun p held => ?_
    obtain ⟨decl, declared, made⟩ := held handle used
    refine .mono (.pre ?_ (forM_resize_bufferMade decl handle first surfaces)) ?_ fun _ _ _ => id
    · rintro _ _ rfl
      exact made
    · exact fun _ _ _ last => ⟨decl, declared, last⟩
  obtain ⟨decl, declared, last⟩ := (made _).result rfl run
  obtain ⟨slot, found, fits, elements⟩ := last.filled
  refine ⟨decl, declared, ?_, ?_⟩
  · rw [bufferLength?, found, Option.map_some, elements]
  · rw [buffer?, found, Option.map_some, Option.map_some, ← decl.byteSize_madeAt]
    exact congrArg some fits

/-- A number for every pixel, in a buffer that is used. -/
def pixelNumbers : Pool := empty { buffers := [.ofHost "x" (.scalar .u32) (.perPixel 1)] } { buffers := [(⟨0⟩, {})] }

/-- Sixteen bytes hold one number and hold two, so that the count of a surface of one pixel stays at one of two. -/
theorem followed_length_rounded : ∃ pool after,
    (followed ⟨⟨1, 1, 1⟩, .bgra8UnormSrgb⟩ [⟨⟨2, 1, 1⟩, .bgra8UnormSrgb⟩]).apply pixelNumbers
        (⟨{}, []⟩ : Host Recorder) = ((.ok (), pool), after) ∧
      pool.bufferLength? ⟨0⟩ = some 1 ∧
      (pixelNumbers.table.buffer? ⟨0⟩).map (·.elementCount ⟨2, 1, 1⟩) = some 2 := by
  let result := (followed ⟨⟨1, 1, 1⟩, .bgra8UnormSrgb⟩ [⟨⟨2, 1, 1⟩, .bgra8UnormSrgb⟩]).apply pixelNumbers
    (⟨{}, []⟩ : Host Recorder)
  have run : result = ((.ok (), result.1.2), result.2) := rfl
  obtain ⟨decl, declared, length, -⟩ := followed_length run ⟨{}, List.mem_singleton.mpr rfl⟩
  cases declared
  exact ⟨_, _, run, length, rfl⟩

end Pool

end FrameGraph
