import FrameGraph.Proofs.Compile.Arguments
import Mathlib.Data.List.Nodup

/-! # Registered blocks

A block keeps its place, its name and its variables from its first use on. Every use gives back what is
registered under its name.
-/

namespace FrameGraph

namespace CompileState

variable {before after state : CompileState}

/-- The place of the block of a name. -/
def place (state : CompileState) (name : String) : Nat := (state.blocks.map (·.name)).idxOf name

/-- The variables of the block at a place, whatever stages see them. -/
def membersAt (state : CompileState) (place : Nat) : List BoundVariable :=
  ((state.blocks[place]?.map (·.members)).getD []).map (·.unseen)

/-- A block of this name with members of these names is registered at a place. -/
structure Registered (state : CompileState) (place : Nat) (name : String) (members : List String) : Prop where
  name_eq : state.blocks[place]?.map (·.name) = some name
  members_eq : (state.membersAt place).map (·.spec.name) = members

theorem Registered.mem_names {place : Nat} {name : String} {members : List String}
    (registered : state.Registered place name members) : name ∈ state.blocks.map (·.name) := by
  obtain ⟨block, found, named⟩ := Option.map_eq_some_iff.mp registered.name_eq
  exact List.mem_map.mpr ⟨block, List.mem_of_getElem? found, named⟩

/-- Different blocks have different names. -/
theorem Registered.place_eq {place : Nat} {name : String} {members : List String}
    (registered : state.Registered place name members) (sane : state.Sane) : state.place name = place := by
  have named : (state.blocks.map (·.name))[place]? = some name := by
    rw [List.getElem?_map, registered.name_eq]
  obtain ⟨inside, rfl⟩ := List.getElem?_eq_some_iff.mp named
  exact sane.names.idxOf_getElem place inside

theorem Evolves.names_prefix (evolves : Evolves before after) :
    before.blocks.map (·.name) <+: after.blocks.map (·.name) := by
  rw [List.prefix_iff_getElem?]
  intro place inside
  rw [List.length_map] at inside
  obtain ⟨later, found, same⟩ := evolves.block place _ (List.getElem?_eq_getElem inside)
  simp only [List.getElem?_map, found, Option.map_some, List.getElem_map, same.name_eq]

theorem Evolves.place_eq (evolves : Evolves before after) {name : String}
    (known : name ∈ before.blocks.map (·.name)) : after.place name = before.place name := by
  obtain ⟨more, names⟩ := evolves.names_prefix
  rw [place, ← names, List.idxOf_append_of_mem known, place]

theorem Evolves.membersAt_eq (evolves : Evolves before after) {place : Nat}
    (inside : place < before.blocks.length) : after.membersAt place = before.membersAt place := by
  obtain ⟨later, found, same⟩ := evolves.block place _ (List.getElem?_eq_getElem inside)
  simp only [membersAt, found, List.getElem?_eq_getElem inside, Option.map_some, Option.getD_some, same.members_eq]

theorem Evolves.length_le (evolves : Evolves before after) : before.blocks.length ≤ after.blocks.length := by
  simpa using evolves.names_prefix.length_le

theorem Registered.inside {place : Nat} {name : String} {members : List String}
    (registered : state.Registered place name members) : place < state.blocks.length := by
  obtain ⟨block, found, -⟩ := Option.map_eq_some_iff.mp registered.name_eq
  exact (List.getElem?_eq_some_iff.mp found).choose

theorem Registered.mono {place : Nat} {name : String} {members : List String}
    (registered : before.Registered place name members) (evolves : Evolves before after) :
    after.Registered place name members := by
  obtain ⟨block, found, named⟩ := Option.map_eq_some_iff.mp registered.name_eq
  obtain ⟨later, there, same⟩ := evolves.block place block found
  refine ⟨by rw [there, Option.map_some, same.name_eq, named], ?_⟩
  rw [evolves.membersAt_eq registered.inside, registered.members_eq]

end CompileState

namespace GroupSpec

theorem insert_perm (binding : BindingSpec) (group : GroupSpec) : (insert binding group).Perm (binding :: group) := by
  induction group with
  | nil => exact .refl _
  | cons other rest ih =>
    unfold insert
    split
    · exact .refl _
    · exact (ih.cons other).trans (.swap binding other rest)

theorem sorted_perm (group : GroupSpec) : group.sorted.Perm group := by
  induction group with
  | nil => exact .refl _
  | cons binding rest ih => exact (insert_perm binding (sorted rest)).trans (ih.cons binding)

variable {f : BindingSpec → BindingSpec} (same : ∀ spec, (f spec).entry.binding = spec.entry.binding)

include same

theorem insert_map (binding : BindingSpec) (group : GroupSpec) :
    insert (f binding) (group.map f) = (insert binding group).map f := by
  induction group with
  | nil => rfl
  | cons other rest ih =>
    simp only [insert, List.map_cons, same, ih]
    split <;> rfl

/-- More stages do not change the order. -/
theorem sorted_map (group : GroupSpec) : GroupSpec.sorted (group.map f) = group.sorted.map f := by
  induction group with
  | nil => rfl
  | cons binding rest ih =>
    calc insert (f binding) (GroupSpec.sorted (rest.map f))
      _ = insert (f binding) ((GroupSpec.sorted rest).map f) := by rw [ih]
      _ = (insert binding (GroupSpec.sorted rest)).map f := insert_map same binding _

end GroupSpec

namespace Compile

variable {state after : CompileState} {table : ResourceTable} {unit : Nat}

open CompileState (Grows)

/-- The member as one more stage sees it. -/
def seenBy (stage : Stage) (member : BoundVariable) : BoundVariable :=
  { member with spec := addStage stage member.spec }

theorem unseen_seenBy (stage : Stage) (member : BoundVariable) : (seenBy stage member).unseen = member.unseen := rfl

/-- The block as one more stage sees it. -/
def blockSeenBy (stage : Stage) (block : RegisteredBlock) : RegisteredBlock :=
  ⟨block.name, block.group.map (addStage stage), block.members.map (seenBy stage)⟩

theorem group_blockSeenBy {block : RegisteredBlock}
    (group_eq : block.group = GroupSpec.sorted (block.members.map (·.spec))) (stage : Stage) :
    (blockSeenBy stage block).group = GroupSpec.sorted ((blockSeenBy stage block).members.map (·.spec)) :=
  calc (blockSeenBy stage block).group
    _ = (GroupSpec.sorted (block.members.map (·.spec))).map (addStage stage) := by rw [← group_eq]; rfl
    _ = GroupSpec.sorted ((block.members.map (·.spec)).map (addStage stage)) :=
      (GroupSpec.sorted_map (f := addStage stage) (fun _ => rfl) _).symm
    _ = GroupSpec.sorted ((blockSeenBy stage block).members.map (·.spec)) := by
      simp [blockSeenBy, seenBy, Function.comp_def]

/-- A block that is referred to again is seen by one more stage. -/
theorem again_grows {place : Nat} {block : RegisteredBlock} (found : state.blocks[place]? = some block)
    (stage : Stage) :
    Grows state { state with blocks := state.blocks.set place (blockSeenBy stage block) } where
  usage _ := id
  block other old there := by
    simp only [List.getElem?_set]
    split
    · rename_i equal
      subst equal
      cases found.symm.trans there
      exact ⟨blockSeenBy stage block, if_pos (List.getElem?_eq_some_iff.mp found).choose, rfl,
        by simp [blockSeenBy, Function.comp_def, unseen_seenBy]⟩
    · exact ⟨old, there, rfl, rfl⟩
  entries _ unit there := ⟨unit, there, List.Subset.refl _, rfl, rfl⟩
  units := rfl
  sane held := by
    have each {P : RegisteredBlock → Prop} (others : ∀ b ∈ state.blocks, P b)
        (changed : P (blockSeenBy stage block)) :
        ∀ b ∈ state.blocks.set place (blockSeenBy stage block), P b := fun b inside =>
      (List.mem_or_eq_of_mem_set inside).elim (others b) fun equal => equal ▸ changed
    have known := List.mem_of_getElem? found
    refine ⟨?_, each held.group_eq (group_blockSeenBy (held.group_eq block known) stage), each held.members ?_,
      each held.unfed ?_⟩
    · obtain ⟨inside, named⟩ : ∃ inside : place < (state.blocks.map (·.name)).length,
          (state.blocks.map (·.name))[place] = (blockSeenBy stage block).name := by
        obtain ⟨inside, rfl⟩ := List.getElem?_eq_some_iff.mp found
        exact ⟨by simpa using inside, by simp [blockSeenBy]⟩
      rw [List.map_set, ← named, List.set_getElem_self]
      exact held.names
    · rw [blockSeenBy, List.forall_mem_map]
      intro member has
      exact ⟨(held.members block known member has).var_eq, (held.members block known member has).recorded⟩
    · rw [blockSeenBy, List.forall_mem_map]
      exact held.unfed block known
  texts_eq := rfl

/-- A new block is registered behind the others. -/
theorem first_grows {name : String} {bound : List BoundVariable} (fresh : name ∉ state.blocks.map (·.name))
    (sane : ∀ b ∈ bound, b.Sane state.usage) (unfed : ∀ b ∈ bound, ¬b.spec.source.isFed) :
    Grows state { state with
      blocks := state.blocks ++ [⟨name, GroupSpec.sorted (bound.map (·.spec)), bound⟩] } where
  usage _ := id
  block place block there :=
    ⟨block, by rw [List.getElem?_append_left (List.getElem?_eq_some_iff.mp there).choose, there], rfl, rfl⟩
  entries _ unit there := ⟨unit, there, List.Subset.refl _, rfl, rfl⟩
  units := rfl
  sane held := by
    refine ⟨?_, ?_, ?_, ?_⟩
    · rw [List.map_append, List.map_singleton, List.nodup_append]
      refine ⟨held.names, List.nodup_singleton _, ?_⟩
      intro one old other new same
      rw [same, List.mem_singleton.mp new] at old
      exact fresh old
    · simpa only [List.forall_mem_append, List.forall_mem_singleton] using ⟨held.group_eq, trivial⟩
    · simpa only [List.forall_mem_append, List.forall_mem_singleton] using ⟨held.members, sane⟩
    · simpa only [List.forall_mem_append, List.forall_mem_singleton] using ⟨held.unfed, unfed⟩
  texts_eq := rfl

theorem modify_eq_set {α : Type} {xs : List α} {i : Nat} {x : α} (found : xs[i]? = some x) (change : α → α) :
    xs.modify i change = xs.set i (change x) := by
  refine List.ext_getElem? fun j => ?_
  simp only [List.getElem?_modify, List.getElem?_set]
  split
  · rename_i same
    subst same
    rw [if_pos (List.getElem?_eq_some_iff.mp found).choose, found]
    rfl
  · simp

/-- A use that fits lists the members by their names. -/
theorem names_of_sameMember {registered bound : List BoundVariable} (length : registered.length = bound.length)
    (same : (registered.zip bound).all fun (a, b) => sameMember a b) :
    registered.map (·.spec.name) = bound.map (·.spec.name) := by
  refine List.ext_getElem (by simpa using length) fun i first second => ?_
  rw [List.length_map] at first second
  have matched := List.all_eq_true.mp same (registered[i], bound[i])
    (List.mem_iff_getElem.mpr ⟨i, by simpa only [List.length_zip, Nat.lt_min] using And.intro first second, List.getElem_zip⟩)
  simp only [sameMember, Bool.and_eq_true, beq_iff_eq] at matched
  simpa only [List.getElem_map] using matched.1.1.1.1

theorem findIdx?_name_none {name : String} {blocks : List RegisteredBlock}
    (absent : blocks.findIdx? (·.name == name) = none) : name ∉ blocks.map (·.name) := by
  rintro known
  obtain ⟨block, found, rfl⟩ := List.mem_map.mp known
  simpa using List.findIdx?_eq_none_iff.mp absent block found

/-- A use of a block gives back what is registered under its name. -/
theorem bindBlock_ok {function block : String} {members : List Argument} {stage : Stage} {place : Nat}
    {seen : List BoundVariable}
    (run : (bindBlock table unit function block members stage).run state = .ok ((place, seen), after)) :
    Grows state after ∧ after.Registered place block (members.map (·.name)) ∧
      after.membersAt place = seen.map (·.unseen) := by
  unfold bindBlock at run
  dsimp only at run
  split at run
  case h_2 => exact (fail_ok run).elim
  obtain ⟨bound, middle, made, run⟩ := bind_ok (pure_bind_ok run)
  obtain ⟨grown, names, sane, unfed⟩ := bindMembers_ok made
  have run := get_bind_ok run
  split at run
  · rename_i found
    split at run
    · rename_i fits
      obtain ⟨_, _, changed, run⟩ := bind_ok run
      cases set_ok changed
      obtain ⟨⟨⟩, rfl⟩ := pure_ok run
      obtain ⟨inside, matched, -⟩ := List.findIdx?_eq_some_iff_getElem.mp found
      have there := List.getElem?_eq_getElem inside
      rw [there, Option.map_some, Option.getD_some, Bool.and_eq_true, beq_iff_eq] at fits
      simp only [there, Option.map_some, Option.getD_some, modify_eq_set there]
      refine ⟨grown.trans (again_grows there stage), ⟨?_, ?_⟩, ?_⟩
      · simpa [inside] using matched
      · simp [CompileState.membersAt, inside, Function.comp_def, addStage, BoundVariable.name_unseen,
          names_of_sameMember fits.1 fits.2, names]
      · simp [CompileState.membersAt, inside]
    · exact (fail_ok run).elim
  · rename_i absent
    obtain ⟨_, logged, noted, run⟩ := bind_ok run
    cases modify_ok noted
    obtain ⟨_, _, changed, run⟩ := bind_ok run
    cases modify_ok changed
    obtain ⟨⟨⟩, rfl⟩ := pure_ok run
    have fresh := findIdx?_name_none absent
    refine ⟨(grown.trans (.ofLog _)).trans (first_grows fresh sane unfed), ⟨?_, ?_⟩, ?_⟩
    · simp
    · simp [CompileState.membersAt, ← names, Function.comp_def, BoundVariable.name_unseen]
    · simp [CompileState.membersAt]

/-- The members that a use of a block gives back have the names that it lists. -/
theorem bindBlock_names {function block : String} {members : List Argument} {stage : Stage} {place : Nat}
    {seen : List BoundVariable}
    (run : (bindBlock table unit function block members stage).run state = .ok ((place, seen), after)) :
    seen.map (·.spec.name) = members.map (·.name) := by
  obtain ⟨-, registered, seen_eq⟩ := bindBlock_ok run
  rw [← registered.members_eq, seen_eq, List.map_map]
  rfl

end Compile

end FrameGraph
