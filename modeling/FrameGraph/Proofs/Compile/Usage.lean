import FrameGraph.Compile.Usage
import Mathlib.Data.List.Nodup
import Mathlib.Data.List.Perm.Basic

/-! # Used resources

A use that is merged in adds its resource and forgets none. Uses that are merged one after the other come to one entry
for every resource, and its flags are those of all uses of the resource, in whatever order they were merged.
-/

namespace FrameGraph

/-- A texture or a buffer of the caller. -/
inductive ResourceHandle where
  | texture (handle : TextureHandle)
  | buffer (handle : BufferHandle)

/-- The program uses the resource. -/
def ResourceUsage.Uses (usage : ResourceUsage) : ResourceHandle → Prop
  | .texture handle => ∃ use, (handle, use) ∈ usage.textures
  | .buffer handle => ∃ use, (handle, use) ∈ usage.buffers

/-- A use of a resource: the flags that it needs. -/
inductive ResourceUse where
  | texture (handle : TextureHandle) (flags : TextureUsage)
  | buffer (handle : BufferHandle) (flags : BufferUsage)

namespace ResourceUse

def texture? : ResourceUse → Option (TextureHandle × TextureUsage)
  | .texture handle flags => some (handle, flags)
  | .buffer .. => none

def buffer? : ResourceUse → Option (BufferHandle × BufferUsage)
  | .texture .. => none
  | .buffer handle flags => some (handle, flags)

end ResourceUse

namespace TextureUsage

instance : Std.Associative union := ⟨fun _ _ _ => by simp [union, Bool.or_assoc]⟩

instance : Std.Commutative union := ⟨fun _ _ => by simp [union, Bool.or_comm]⟩

instance : Std.IdempotentOp union := ⟨fun _ => by simp [union]⟩

instance : Std.LawfulLeftIdentity union {} where
  left_id _ := by simp [union]

end TextureUsage

namespace BufferUsage

instance : Std.Associative union := ⟨fun _ _ _ => by simp [union, Bool.or_assoc]⟩

instance : Std.Commutative union := ⟨fun _ _ => by simp [union, Bool.or_comm]⟩

instance : Std.IdempotentOp union := ⟨fun _ => by simp [union]⟩

instance : Std.LawfulLeftIdentity union {} where
  left_id _ := by simp [union]

theorem subset_union {flags total : BufferUsage} (within : flags.subset total) (more : BufferUsage) :
    flags.subset (total.union more) := by
  have assoc : (flags.union total).union more = flags.union (total.union more) := Std.Associative.assoc _ _ _
  rw [subset, ← assoc, within]

theorem subset_union_right (flags more : BufferUsage) : flags.subset (more.union flags) := by
  have comm : more.union flags = flags.union more := Std.Commutative.comm _ _
  have twice : flags.union flags = flags := Std.IdempotentOp.idempotent _
  rw [comm]
  exact subset_union twice more

end BufferUsage

namespace ResourceUsage

variable {α β : Type} [DecidableEq α]

/-- The flags that the uses of a resource need, in order. -/
def flagsFor (key : α) (uses : List (α × β)) : List β := (uses.filter (·.1 = key)).map (·.2)

theorem flagsFor_concat (key other : α) (flags : β) (uses : List (α × β)) :
    flagsFor other (uses ++ [(key, flags)]) = flagsFor other uses ++ if key = other then [flags] else [] := by
  by_cases same : key = other <;> simp [flagsFor, same]

theorem mem_flagsFor {key : α} {flags : β} {uses : List (α × β)} :
    flags ∈ flagsFor key uses ↔ (key, flags) ∈ uses := by
  simp [flagsFor]

/-- There is one entry for every resource that is used, with the flags of all its uses and no others. -/
structure Merges (union : β → β → β) (none : β) (entries uses : List (α × β)) : Prop where
  nodup : (entries.map (·.1)).Nodup
  mem_iff : ∀ key total, (key, total) ∈ entries ↔
    flagsFor key uses ≠ [] ∧ total = (flagsFor key uses).foldl union none

section

variable {union : β → β → β} {none : β} {entries uses : List (α × β)}

/-- The keys stay in order; a new one comes last. -/
theorem keys_merge (key : α) (flags : β) (entries : List (α × β)) :
    (merge union key flags entries).map (·.1) =
      entries.map (·.1) ++ if key ∈ entries.map (·.1) then [] else [key] := by
  induction entries with
  | nil => simp [merge]
  | cons entry rest ih =>
    rw [merge]
    by_cases same : entry.1 = key
    · simp [same]
    · simp only [if_neg same, List.map_cons, ih, List.mem_cons, Ne.symm same, false_or, List.cons_append]

theorem mem_merge (key other : α) (flags : β) (entries : List (α × β)) :
    (∃ found, (other, found) ∈ merge union key flags entries) ↔ other = key ∨ ∃ found, (other, found) ∈ entries := by
  have keys (list : List (α × β)) : (∃ found, (other, found) ∈ list) ↔ other ∈ list.map (·.1) := by simp
  rw [keys, keys, keys_merge, List.mem_append]
  split
  · rename_i known
    constructor
    · exact fun found => .inr (found.resolve_right List.not_mem_nil)
    · rintro (rfl | found)
      · exact .inl known
      · exact .inl found
  · rw [List.mem_singleton]
    exact or_comm

theorem mem_merge_iff {key other : α} {flags total : β} (nodup : (entries.map (·.1)).Nodup) :
    (other, total) ∈ merge union key flags entries ↔
      if key = other then
        (∃ old, (key, old) ∈ entries ∧ total = union old flags) ∨ (key ∉ entries.map (·.1) ∧ total = flags)
      else (other, total) ∈ entries := by
  induction entries with
  | nil =>
    by_cases same : key = other
    · simp [merge, same]
    · simp [merge, same, Ne.symm same]
  | cons entry rest ih =>
    obtain ⟨first, old⟩ := entry
    obtain ⟨apart, nodup⟩ := List.nodup_cons.mp nodup
    by_cases here : first = key
    · subst here
      have absent (flags : β) : (first, flags) ∉ rest := fun found => apart (List.mem_map.mpr ⟨_, found, rfl⟩)
      by_cases same : first = other
      · subst same
        simp [merge, absent]
      · simp [merge, same, Ne.symm same]
    · rw [merge, if_neg here, List.mem_cons, ih nodup]
      by_cases same : key = other
      · subst same
        simp [Ne.symm here]
      · simp [same]

theorem Merges.nil : Merges union none ([] : List (α × β)) [] := ⟨.nil, by simp [flagsFor]⟩

/-- One more use is merged into the entry of its resource, or adds it. -/
theorem Merges.concat [Std.LawfulLeftIdentity union none] (merges : Merges union none entries uses) (key : α)
    (flags : β) : Merges union none (merge union key flags entries) (uses ++ [(key, flags)]) where
  nodup := by
    rw [keys_merge]
    split
    · rw [List.append_nil]
      exact merges.nodup
    · rename_i fresh
      rw [List.nodup_append]
      refine ⟨merges.nodup, List.nodup_singleton _, ?_⟩
      intro old found new there same
      rw [same, List.mem_singleton.mp there] at found
      exact fresh found
  mem_iff other total := by
    rw [mem_merge_iff merges.nodup, flagsFor_concat]
    split
    · rename_i same
      subst same
      have known : key ∈ entries.map (·.1) ↔ flagsFor key uses ≠ [] := by
        simp [merges.mem_iff]
      rw [known]
      by_cases used : flagsFor key uses = []
      · simp [merges.mem_iff, used, Std.LawfulLeftIdentity.left_id]
      · simp [merges.mem_iff, used]
    · rw [List.append_nil]
      exact merges.mem_iff other total

/-- The order of the uses does not matter. -/
theorem Merges.perm [Std.Associative union] [Std.Commutative union] (merges : Merges union none entries uses)
    {others : List (α × β)} (same : uses.Perm others) : Merges union none entries others where
  nodup := merges.nodup
  mem_iff key total := by
    have flags : (flagsFor key uses).Perm (flagsFor key others) := (same.filter _).map _
    rw [merges.mem_iff, flags.foldl_op_eq, Ne, ← List.length_eq_zero_iff, flags.length_eq, List.length_eq_zero_iff]

/-- What is in a union stays in it. -/
theorem union_foldl [Std.Associative union] [Std.Commutative union] {flags start : β} (list : List β)
    (covered : union flags start = start) : union flags (list.foldl union start) = list.foldl union start := by
  have outside : list.foldl union (union flags start) = union flags (list.foldl union start) := List.foldl_assoc
  rw [← outside, covered]

/-- The flags of each use are in the union. -/
theorem union_foldl_of_mem [Std.Associative union] [Std.Commutative union] [Std.IdempotentOp union] {flags : β}
    {list : List β} (found : flags ∈ list) (start : β) :
    union flags (list.foldl union start) = list.foldl union start := by
  induction list generalizing start with
  | nil => cases found
  | cons first rest ih =>
    rw [List.foldl_cons]
    cases found with
    | head =>
      apply union_foldl
      have comm : union start flags = union flags start := Std.Commutative.comm _ _
      have assoc : union (union flags flags) start = union flags (union flags start) := Std.Associative.assoc _ _ _
      have twice : union flags flags = flags := Std.IdempotentOp.idempotent _
      rw [comm, ← assoc, twice]
    | tail _ found => exact ih found _

end

theorem uses_texture (usage : ResourceUsage) (handle : TextureHandle) (use : TextureUsage)
    (other : ResourceHandle) :
    (usage.texture handle use).Uses other ↔ other = .texture handle ∨ usage.Uses other := by
  cases other with
  | texture other => simpa only [Uses, texture, ResourceHandle.texture.injEq] using mem_merge _ _ _ _
  | buffer other => simp [Uses, texture]

theorem uses_buffer (usage : ResourceUsage) (handle : BufferHandle) (use : BufferUsage)
    (other : ResourceHandle) :
    (usage.buffer handle use).Uses other ↔ other = .buffer handle ∨ usage.Uses other := by
  cases other with
  | texture other => simp [Uses, buffer]
  | buffer other => simpa only [Uses, buffer, ResourceHandle.buffer.injEq] using mem_merge _ _ _ _

/-- Merge one more use. -/
def add (usage : ResourceUsage) : ResourceUse → ResourceUsage
  | .texture handle flags => usage.texture handle flags
  | .buffer handle flags => usage.buffer handle flags

/-- Merge uses, one after the other. -/
def addAll (usage : ResourceUsage) (uses : List ResourceUse) : ResourceUsage := uses.foldl add usage

/-- The usage has one entry for every resource that is used, with the flags of all its uses and no others. -/
structure Unites (usage : ResourceUsage) (uses : List ResourceUse) : Prop where
  textures : Merges .union {} usage.textures (uses.filterMap (·.texture?))
  buffers : Merges .union {} usage.buffers (uses.filterMap (·.buffer?))

namespace Unites

variable {usage : ResourceUsage} {uses : List ResourceUse}

theorem nil : Unites {} [] := ⟨.nil, .nil⟩

theorem concat (unites : usage.Unites uses) (use : ResourceUse) : (usage.add use).Unites (uses ++ [use]) := by
  cases use with
  | texture handle flags =>
    constructor
    · rw [List.filterMap_append]
      exact unites.textures.concat handle flags
    · rw [List.filterMap_append]
      exact (List.append_nil _).symm ▸ unites.buffers
  | buffer handle flags =>
    constructor
    · rw [List.filterMap_append]
      exact (List.append_nil _).symm ▸ unites.textures
    · rw [List.filterMap_append]
      exact unites.buffers.concat handle flags

theorem addAll (unites : usage.Unites uses) (more : List ResourceUse) : (usage.addAll more).Unites (uses ++ more) := by
  induction more generalizing usage uses with
  | nil => simpa [ResourceUsage.addAll] using unites
  | cons use rest ih => simpa [ResourceUsage.addAll] using ih (unites.concat use)

theorem perm (unites : usage.Unites uses) {others : List ResourceUse} (same : uses.Perm others) : usage.Unites others :=
  ⟨unites.textures.perm (same.filterMap _), unites.buffers.perm (same.filterMap _)⟩

/-- The entry of a resource has the flags of each of its uses. -/
theorem texture_subset (unites : usage.Unites uses) {handle : TextureHandle} {flags total : TextureUsage}
    (used : .texture handle flags ∈ uses) (entry : (handle, total) ∈ usage.textures) : flags.subset total := by
  obtain ⟨-, rfl⟩ := (unites.textures.mem_iff handle total).mp entry
  exact union_foldl_of_mem (mem_flagsFor.mpr (List.mem_filterMap.mpr ⟨_, used, rfl⟩)) _

theorem buffer_subset (unites : usage.Unites uses) {handle : BufferHandle} {flags total : BufferUsage}
    (used : .buffer handle flags ∈ uses) (entry : (handle, total) ∈ usage.buffers) : flags.subset total := by
  obtain ⟨-, rfl⟩ := (unites.buffers.mem_iff handle total).mp entry
  exact union_foldl_of_mem (mem_flagsFor.mpr (List.mem_filterMap.mpr ⟨_, used, rfl⟩)) _

end Unites

end ResourceUsage

end FrameGraph
