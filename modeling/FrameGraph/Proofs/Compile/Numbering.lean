import FrameGraph.Proofs.Compile.Sharing

/-! # Numbers of block members

The members of an argument block keep the numbers that they are pinned to, and no two buffers and no two textures are
pinned to the same one. But all of them are numbered in the space of the buffers, where the pins of textures are not
claimed: a texture may have the number of a buffer.
-/

namespace FrameGraph

variable {table : ResourceTable} {caps : DeviceCaps}

theorem memberUse?_eq {member : Argument} {binding : Nat} {use : MemberUse}
    (listed : memberUse? table member binding = some use) : use.name = member.name ∧ use.binding = binding := by
  unfold memberUse? at listed
  split at listed
  · obtain ⟨decl, -, listed⟩ := Option.bind_eq_some_iff.mp listed
    obtain ⟨type, -, rfl⟩ := Option.map_eq_some_iff.mp listed
    exact ⟨rfl, rfl⟩
  · obtain ⟨decl, -, rfl⟩ := Option.map_eq_some_iff.mp listed
    exact ⟨rfl, rfl⟩
  · cases listed
  · cases listed

/-- Members are listed by name under their numbers. -/
theorem memberUses?_eq {members : List Argument} {numbers : List Nat} {uses : List MemberUse}
    (listed : memberUses? table members numbers = some uses) :
    uses.map (fun use => (use.name, use.binding)) = (members.map (·.name)).zip numbers := by
  induction members generalizing numbers uses with
  | nil =>
    cases listed
    rfl
  | cons member rest ih =>
    cases numbers with
    | nil =>
      cases listed
      rfl
    | cons number numbers =>
      rw [memberUses?, List.zip_cons_cons, List.mapM_cons] at listed
      obtain ⟨first, one, listed⟩ := Option.bind_eq_some_iff.mp listed
      obtain ⟨others, more, listed⟩ := Option.bind_eq_some_iff.mp listed
      cases listed
      obtain ⟨name, binding⟩ := memberUse?_eq one
      rw [List.map_cons, ih more, List.map_cons, List.zip_cons_cons, name, binding]

open IndexPool (pins)

/-- How the members that a use lists are numbered in a bind group. -/
structure BlockUse.Numbered (use : BlockUse) (group : GroupSpec) : Prop where
  length_eq : use.numbers.length = use.members.length
  perm : (group.map fun binding => (binding.name, binding.entry.binding)).Perm
    ((use.members.map (·.name)).zip use.numbers)
  pinned : ∀ entry ∈ use.members.zip use.numbers, ∀ pin ∈ entry.1.index, entry.2 = pin
  pins_nodup : ∀ space, (pins space use.members).Nodup
  nodup_iff : (group.map (·.entry.binding)).Nodup ↔ ∀ pin ∈ pins .textures use.members,
    pin ∉ pins .buffers use.members ∧
      (use.members.map (·.index)).count none ≤ freeBelow (pins .buffers use.members) pin

theorem BlockUse.Fits.numbered {use : BlockUse} (fits : use.Fits) {members : List BoundVariable}
    (listed : use.listing? table = some (members.map (·.use))) :
    use.Numbered (GroupSpec.sorted (members.map (·.spec))) := by
  obtain ⟨⟨pool, reserves⟩, spaced⟩ := fits
  have numbers_eq : use.numbers = pool.numbers .buffers (use.members.map (·.index)) := by
    rw [BlockUse.numbers, reserves]
  have length_eq : use.numbers.length = use.members.length := by
    rw [numbers_eq, IndexPool.numbers_length, List.length_map]
  have perm : ((GroupSpec.sorted (members.map (·.spec))).map fun binding => (binding.name, binding.entry.binding)).Perm
      ((use.members.map (·.name)).zip use.numbers) := by
    refine ((GroupSpec.sorted_perm _).map _).trans (.of_eq ?_)
    rw [← memberUses?_eq listed, List.map_map, List.map_map]
    rfl
  refine ⟨length_eq, perm, ?_, fun space => (IndexPool.reserve_ok reserves space).2, ?_⟩
  · intro entry found
    have listed : (entry.1.index, entry.2) ∈ (use.members.map (·.index)).zip
        (pool.numbers .buffers (use.members.map (·.index))) := by
      rw [← numbers_eq, List.zip_map_left]
      exact List.mem_map_of_mem found
    exact IndexPool.numbers_pinned pool _ _ listed
  · have numbers : ((GroupSpec.sorted (members.map (·.spec))).map (·.entry.binding)).Perm use.numbers := by
      have second := perm.map Prod.snd
      rwa [List.map_map, List.map_snd_zip (by simp [length_eq])] at second
    rw [numbers.nodup_iff, numbers_eq]
    exact IndexPool.numbers_nodup_iff reserves spaced

/-- Every argument block of a compiled program comes from uses of its name, and each of these tells how its members are
numbered: they have different numbers exactly when no texture is pinned to a number that a buffer is pinned to or that
is given to another member. -/
theorem Program.block_numbered {source : Program} {program : CompiledProgram} {log : List LogLine}
    (compiled : source.compile table caps = .ok (program, log)) {block : ArgumentBlock} (listed : block ∈ program.blocks) :
    (∃ use ∈ source.blockUses, use.block = block.name) ∧
      ∀ use ∈ source.blockUses, use.block = block.name → use.Numbered block.group := by
  obtain ⟨state, sane, shares, blocks_eq, -⟩ := source.compile_shares compiled
  constructor
  · apply (BlockUse.mem_names source.blockUses).mp
    rw [← shares.blocks_names, ← blocks_eq]
    exact List.mem_map_of_mem listed
  · rw [blocks_eq] at listed
    obtain ⟨registered, known, rfl⟩ := List.mem_map.mp listed
    intro use used named
    rw [sane.group_eq registered known]
    exact (shares.fits use used).numbered ((shares.used registered known).listing use used named)

/-- A kernel that takes a block of a buffer and of a texture that is pinned to the number which the buffer gets. -/
def pinnedTexture : Program where
  library := ""
  root := [.leaf (.dispatch {
    label := "k"
    source := "@compute fn k() { x[gid.x] = 1u; }"
    function := "k"
    arguments := [⟨"cells", none, none, .block "cells" [
      ⟨"x", none, none, .buffer ⟨0⟩ (.storage false)⟩, ⟨"t", some 0, none, .texture ⟨0⟩ .sample⟩]⟩]
    fits := [.fixed ⟨4, 1, 1⟩] })]

/-- The program compiles, and both members of its block have one number. -/
theorem Program.block_numbered_twice :
    ∃ program log block,
      pinnedTexture.compile ⟨[⟨"t", .viewport, .fixed .rgba8Unorm, .d2, 1⟩], [⟨"x", .scalar .u32, 4, .fixed 4⟩]⟩ {} =
        .ok (program, log) ∧ block ∈ program.blocks ∧ ¬(block.group.map (·.entry.binding)).Nodup := by
  have run : (match pinnedTexture.compile
      ⟨[⟨"t", .viewport, .fixed .rgba8Unorm, .d2, 1⟩], [⟨"x", .scalar .u32, 4, .fixed 4⟩]⟩ {} with
    | .ok (program, _) => program.blocks.map (·.name) == ["cells"]
    | .error _ => false) = true := by decide +kernel
  cases compiled : pinnedTexture.compile
      ⟨[⟨"t", .viewport, .fixed .rgba8Unorm, .d2, 1⟩], [⟨"x", .scalar .u32, 4, .fixed 4⟩]⟩ {} with
  | error _ =>
    rw [compiled] at run
    cases run
  | ok result =>
    obtain ⟨program, log⟩ := result
    rw [compiled] at run
    obtain ⟨block, listed, named⟩ := List.mem_map.mp ((beq_iff_eq.mp run).symm ▸ List.mem_singleton_self "cells")
    refine ⟨program, log, block, rfl, listed, ?_⟩
    obtain ⟨-, numbered⟩ := pinnedTexture.block_numbered compiled listed
    rw [(numbered _ (.head _) named.symm).nodup_iff]
    intro apart
    exact absurd (apart 0 (.head _)).2 (by decide)

end FrameGraph
