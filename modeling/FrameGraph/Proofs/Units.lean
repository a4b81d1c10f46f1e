import FrameGraph.Proofs.Flatten

/-! # Units of a component tree

The units of a tree are its main unit and one for every isolated group, in pre-order. The leaves of an isolated group stand
together, and they and their units are those of the group's own program, numbered from the group's unit on.
-/

namespace FrameGraph

open Flattened (pathBelow)

/-- An isolated group in a tree. -/
structure IsolatedGroup where
  path : String
  library : String
  children : List Component

/-- The group's own program. -/
def IsolatedGroup.program (group : IsolatedGroup) : Program := ⟨group.library, group.children⟩

def IsolatedGroup.unit (group : IsolatedGroup) : UnitDecl := ⟨group.path, group.library⟩

mutual

/-- The isolated groups of a component below `parent`, in pre-order. -/
def Component.isolated (parent : String) : Component → List IsolatedGroup
  | .leaf _ => []
  | .group options children =>
    let path := pathBelow parent options.label
    match options.isolated with
    | some library => ⟨path, library, children⟩ :: Component.isolatedAll path children
    | none => Component.isolatedAll path children
  | .offFrame coordinator children => Component.isolatedAll (pathBelow parent coordinator) children

/-- The isolated groups of components, in order. -/
def Component.isolatedAll (parent : String) : List Component → List IsolatedGroup
  | [] => []
  | component :: rest => component.isolated parent ++ Component.isolatedAll parent rest

end

/-- The isolated groups of a program. -/
def Program.isolated (program : Program) : List IsolatedGroup := Component.isolatedAll "" program.root

/-- The isolated groups within an isolated group. -/
def IsolatedGroup.inner (group : IsolatedGroup) : List IsolatedGroup := Component.isolatedAll group.path group.children

mutual

/-- The leaves of a component with their units: the component belongs to `unit`, and its isolated groups open the units
from `next` on. -/
def Component.placed (unit next : Nat) : Component → List (Nat × Leaf)
  | .leaf node => [(unit, node)]
  | .group options children =>
    match options.isolated with
    | some _ => Component.placedAll next (next + 1) children
    | none => Component.placedAll unit next children
  | .offFrame _ children => Component.placedAll unit next children

/-- The leaves of components with their units. -/
def Component.placedAll (unit next : Nat) : List Component → List (Nat × Leaf)
  | [] => []
  | component :: rest =>
    component.placed unit next ++ Component.placedAll unit (next + (component.isolated "").length) rest

end

namespace Component

/-! ### Isolated groups -/

mutual

theorem isolated_programs (parent other : String) : ∀ component : Component,
    (component.isolated parent).map (·.program) = (component.isolated other).map (·.program)
  | .leaf _ => rfl
  | .group options children => by
    rw [isolated, isolated]
    split
    · exact congrArg (_ :: ·) (isolatedAll_programs _ _ children)
    · exact isolatedAll_programs _ _ children
  | .offFrame _ children => by
    rw [isolated, isolated]
    exact isolatedAll_programs _ _ children

/-- Only the paths of the groups depend on where the components stand. -/
theorem isolatedAll_programs (parent other : String) : ∀ components : List Component,
    (isolatedAll parent components).map (·.program) = (isolatedAll other components).map (·.program)
  | [] => rfl
  | component :: rest => by
    rw [isolatedAll, isolatedAll, List.map_append, List.map_append, isolated_programs parent other component,
      isolatedAll_programs parent other rest]

end

theorem isolated_length (parent : String) (component : Component) :
    (component.isolated "").length = (component.isolated parent).length := by
  simpa using congrArg List.length (isolated_programs "" parent component)

theorem isolatedAll_length (parent : String) (components : List Component) :
    (isolatedAll "" components).length = (isolatedAll parent components).length := by
  simpa using congrArg List.length (isolatedAll_programs "" parent components)

theorem isolatedAll_libraries (parent other : String) (components : List Component) :
    (isolatedAll parent components).map (·.library) = (isolatedAll other components).map (·.library) := by
  have same := congrArg (List.map Program.library) (isolatedAll_programs parent other components)
  rw [List.map_map, List.map_map] at same
  exact same

/-! ### Leaves with their units -/

mutual

theorem placed_shift (shift unit next : Nat) : ∀ component : Component,
    component.placed (shift + unit) (shift + next) = (component.placed unit next).map fun leaf => (shift + leaf.1, leaf.2)
  | .leaf _ => rfl
  | .group options children => by
    rw [placed, placed]
    split
    · exact placedAll_shift shift next (next + 1) children
    · exact placedAll_shift shift unit next children
  | .offFrame _ children => by
    rw [placed, placed]
    exact placedAll_shift shift unit next children

/-- Units count from wherever they begin. -/
theorem placedAll_shift (shift unit next : Nat) : ∀ components : List Component,
    placedAll (shift + unit) (shift + next) components =
      (placedAll unit next components).map fun leaf => (shift + leaf.1, leaf.2)
  | [] => rfl
  | component :: rest => by
    rw [placedAll, placedAll, List.map_append, placed_shift shift unit next component, Nat.add_assoc,
      placedAll_shift shift unit _ rest]

end

mutual

theorem placed_units (unit next : Nat) : ∀ component : Component, ∀ x ∈ component.placed unit next,
    x.1 = unit ∨ next ≤ x.1 ∧ x.1 < next + (component.isolated "").length
  | .leaf _, x, found => .inl (by rw [List.mem_singleton.mp found])
  | .group options children, x, found => by
    rw [placed] at found
    rw [isolated]
    split at found
    · have inside := placedAll_units next (next + 1) children x found
      rw [isolatedAll_length (pathBelow "" options.label)] at inside
      rw [List.length_cons]
      omega
    · rw [← isolatedAll_length]
      exact placedAll_units unit next children x found
  | .offFrame coordinator children, x, found => by
    rw [placed] at found
    rw [isolated, ← isolatedAll_length]
    exact placedAll_units unit next children x found

/-- A leaf belongs to the unit of the components or to one of those that their isolated groups open. -/
theorem placedAll_units (unit next : Nat) : ∀ components : List Component, ∀ x ∈ placedAll unit next components,
    x.1 = unit ∨ next ≤ x.1 ∧ x.1 < next + (isolatedAll "" components).length
  | [], x, found => absurd found List.not_mem_nil
  | component :: rest, x, found => by
    rw [placedAll, List.mem_append] at found
    rw [isolatedAll, List.length_append]
    obtain first | later := found
    · have inside := placed_units unit next component x first
      omega
    · have inside := placedAll_units unit _ rest x later
      omega

end

end Component

namespace IsolatedGroup

open Component

/-- The leaves of the group when its unit has this number. -/
def placed (unit : Nat) (group : IsolatedGroup) : List (Nat × Leaf) := placedAll unit (unit + 1) group.children

/-- A leaf that belongs to none of the units from the group's on. -/
def Apart (unit : Nat) (group : IsolatedGroup) (leaf : Nat × Leaf) : Prop :=
  leaf.1 < unit ∨ unit + 1 + group.inner.length ≤ leaf.1

/-- A group opens the unit at a place among these groups and has a run of these leaves for itself. -/
structure Among (next place : Nat) (groups : List IsolatedGroup) (leaves : List (Nat × Leaf)) (group : IsolatedGroup) :
    Prop where
  inner_prefix : group.inner <+: groups.drop (place + 1)
  leaves_eq : ∃ before after, leaves = before ++ group.placed (next + place) ++ after ∧
    ∀ leaf ∈ before ++ after, group.Apart (next + place) leaf

namespace Among

variable {unit next place : Nat} {groups more : List IsolatedGroup} {leaves others : List (Nat × Leaf)}
  {group : IsolatedGroup}

theorem length_le (among : Among next place groups leaves group) (inside : place < groups.length) :
    place + 1 + group.inner.length ≤ groups.length := by
  have short := among.inner_prefix.length_le
  rw [List.length_drop] at short
  omega

/-- Components that come later. -/
theorem before (among : Among next place groups leaves group) (inside : place < groups.length)
    (apart : ∀ x ∈ others, x.1 < next ∨ next + groups.length ≤ x.1) :
    Among next place (groups ++ more) (leaves ++ others) group where
  inner_prefix := by
    rw [List.drop_append_of_le_length inside]
    exact among.inner_prefix.trans (List.prefix_append _ _)
  leaves_eq := by
    obtain ⟨early, late, rfl, away⟩ := among.leaves_eq
    refine ⟨early, late ++ others, List.append_assoc .., fun x found => ?_⟩
    rw [← List.append_assoc, List.mem_append] at found
    obtain old | new := found
    · exact away x old
    · have short := among.length_le inside
      have other := apart x new
      rw [Apart]
      omega

/-- Components that come first. -/
theorem after (among : Among (next + more.length) place groups leaves group)
    (apart : ∀ x ∈ others, x.1 < next + more.length) :
    Among next (more.length + place) (more ++ groups) (others ++ leaves) group where
  inner_prefix := by
    rw [Nat.add_assoc, List.drop_length_add_append]
    exact among.inner_prefix
  leaves_eq := by
    obtain ⟨early, late, rfl, away⟩ := among.leaves_eq
    rw [Nat.add_assoc] at away
    refine ⟨others ++ early, late, ?_, fun x found => ?_⟩
    · rw [Nat.add_assoc]
      simp only [List.append_assoc]
    · rw [List.append_assoc, List.mem_append] at found
      obtain new | old := found
      · have other := apart x new
        exact .inl (by omega)
      · exact away x old

/-- The group itself. -/
theorem here (next : Nat) (group : IsolatedGroup) :
    Among next 0 (group :: group.inner) (group.placed next) group where
  inner_prefix := List.prefix_rfl
  leaves_eq := ⟨[], [], (List.append_nil _).symm, List.forall_mem_nil _⟩

/-- A group within an isolated group. -/
theorem within {outer : IsolatedGroup} (among : Among (next + 1) place groups leaves group) :
    Among next (place + 1) (outer :: groups) leaves group where
  inner_prefix := among.inner_prefix
  leaves_eq := by
    rw [show next + (place + 1) = next + 1 + place by omega]
    exact among.leaves_eq

end Among

mutual

theorem among_component (unit next place : Nat) (parent : String) (inside : unit < next) {group : IsolatedGroup} :
    ∀ component : Component, (component.isolated parent)[place]? = some group →
      Among next place (component.isolated parent) (component.placed unit next) group
  | .leaf _, found => by simp [isolated] at found
  | .group options children, found => by
    rw [isolated] at found ⊢
    rw [Component.placed]
    cases isolates : options.isolated with
    | none =>
      simp only [isolates] at found ⊢
      exact among_components unit next place _ inside children found
    | some library =>
      simp only [isolates] at found ⊢
      cases place with
      | zero =>
        cases found
        exact .here next _
      | succ place => exact .within (among_components next (next + 1) place _ (Nat.lt_succ_self _) children found)
  | .offFrame coordinator children, found => by
    rw [isolated] at found ⊢
    rw [Component.placed]
    exact among_components unit next place _ inside children found

/-- Every isolated group has its own units and leaves. -/
theorem among_components (unit next place : Nat) (parent : String) (inside : unit < next) {group : IsolatedGroup} :
    ∀ components : List Component, (isolatedAll parent components)[place]? = some group →
      Among next place (isolatedAll parent components) (placedAll unit next components) group
  | [], found => by simp [isolatedAll] at found
  | component :: rest, found => by
    rw [isolatedAll] at found ⊢
    rw [placedAll, isolated_length parent]
    by_cases first : place < (component.isolated parent).length
    · rw [List.getElem?_append_left first] at found
      refine (among_component unit next place parent inside component found).before first fun x there => ?_
      have later := placedAll_units unit _ rest x there
      omega
    · obtain ⟨place, rfl⟩ := Nat.exists_eq_add_of_le (Nat.le_of_not_lt first)
      rw [List.getElem?_append_right (Nat.le_add_right ..), Nat.add_sub_cancel_left] at found
      refine (among_components unit _ place parent ?_ rest found).after fun x there => ?_
      · exact Nat.lt_add_right _ inside
      · have earlier := placed_units unit next component x there
        rw [isolated_length parent] at earlier
        omega

end

end IsolatedGroup

namespace Flattened

/-- A tree that is laid out behind another one. -/
structure Appends (before after : Flattened) (groups : List IsolatedGroup) (leaves : List (Nat × Leaf)) : Prop where
  units_eq : after.units = before.units ++ groups.map (·.unit)
  leaves_eq : after.leaves.map (fun flat => (flat.unit, flat.node)) =
    before.leaves.map (fun flat => (flat.unit, flat.node)) ++ leaves

mutual

theorem addComponent_appends (unit : Nat) (parent : String) (flat : Flattened) : ∀ component : Component,
    Appends flat (addComponent unit parent flat component) (component.isolated parent)
      (component.placed unit flat.units.length)
  | .leaf node => by
    rw [addComponent, Component.isolated, Component.placed]
    exact ⟨(List.append_nil _).symm, by simp [addLeaf]⟩
  | .group options children => by
    rw [addComponent, Component.isolated, Component.placed]
    cases options.isolated with
    | none => exact addComponents_appends unit _ flat children
    | some library =>
      have all := addComponents_appends flat.units.length (pathBelow parent options.label)
        (flat.addUnit ⟨pathBelow parent options.label, library⟩) children
      refine ⟨?_, ?_⟩
      · rw [all.units_eq, addUnit, List.map_cons, List.append_assoc]
        rfl
      · rw [all.leaves_eq, addUnit, List.length_append]
        rfl
  | .offFrame coordinator children => by
    rw [addComponent, Component.isolated, Component.placed]
    exact addComponents_appends unit _ flat children

theorem addComponents_appends (unit : Nat) (parent : String) (flat : Flattened) : ∀ components : List Component,
    Appends flat (addComponents unit parent flat components) (Component.isolatedAll parent components)
      (Component.placedAll unit flat.units.length components)
  | [] => by
    rw [addComponents, Component.isolatedAll, Component.placedAll]
    exact ⟨(List.append_nil _).symm, (List.append_nil _).symm⟩
  | component :: rest => by
    rw [addComponents, Component.isolatedAll, Component.placedAll]
    have first := addComponent_appends unit parent flat component
    have others := addComponents_appends unit parent (addComponent unit parent flat component) rest
    have length_eq : (addComponent unit parent flat component).units.length =
        flat.units.length + (component.isolated "").length := by
      rw [first.units_eq, List.length_append, List.length_map, Component.isolated_length parent]
    refine ⟨?_, ?_⟩
    · rw [others.units_eq, first.units_eq, List.map_append, List.append_assoc]
    · rw [others.leaves_eq, first.leaves_eq, length_eq, List.append_assoc]

end

theorem ofProgram_appends (program : Program) :
    Appends ⟨[⟨"main", program.library⟩], []⟩ (ofProgram program) program.isolated (Component.placedAll 0 1 program.root) :=
  addComponents_appends 0 "" ⟨[⟨"main", program.library⟩], []⟩ program.root

theorem ofProgram_units (program : Program) :
    (ofProgram program).units = ⟨"main", program.library⟩ :: program.isolated.map (·.unit) :=
  (ofProgram_appends program).units_eq

theorem ofProgram_leaves (program : Program) :
    (ofProgram program).leaves.map (fun flat => (flat.unit, flat.node)) = Component.placedAll 0 1 program.root :=
  (ofProgram_appends program).leaves_eq

end Flattened

/-- Where an isolated group of a program is found in the flat tree: its own program, laid out flat, with its units counted
from `first` on, has the same libraries and leaves; nothing else belongs to these units. -/
structure IsolatedGroup.Flat (program : Program) (first : Nat) (group : IsolatedGroup) : Prop where
  unit_eq : (Flattened.ofProgram program).units[first]? = some group.unit
  libraries : ∀ place < (Flattened.ofProgram group.program).units.length,
    (Flattened.ofProgram program).units[first + place]?.map (·.library) =
      (Flattened.ofProgram group.program).units[place]?.map (·.library)
  leaves : ∃ before own after, (Flattened.ofProgram program).leaves = before ++ own ++ after ∧
    List.Forall₂ (fun flat alone => flat.node = alone.node ∧ flat.unit = first + alone.unit) own
      (Flattened.ofProgram group.program).leaves ∧
    ∀ flat ∈ before ++ after, flat.unit < first ∨ first + (Flattened.ofProgram group.program).units.length ≤ flat.unit

namespace IsolatedGroup

theorem length_units (group : IsolatedGroup) :
    (Flattened.ofProgram group.program).units.length = 1 + group.inner.length := by
  rw [Flattened.ofProgram_units, List.length_cons, List.length_map, Program.isolated, Nat.add_comm]
  exact congrArg (1 + ·) (Component.isolatedAll_length group.path group.children)

/-- The leaves of the group are those of its own program. -/
theorem placed_eq (unit : Nat) (group : IsolatedGroup) :
    group.placed unit = (Flattened.ofProgram group.program).leaves.map fun flat => (unit + flat.unit, flat.node) := by
  have shifted := Component.placedAll_shift unit 0 1 group.children
  rw [Nat.add_zero] at shifted
  have alone : _ = Component.placedAll 0 1 group.children := Flattened.ofProgram_leaves group.program
  rw [placed, shifted, ← alone, List.map_map]
  rfl

/-- The units of the groups within are those of its own program. -/
theorem library_eq (group : IsolatedGroup) (place : Nat) :
    (Flattened.ofProgram group.program).units[place + 1]?.map (·.library) = group.inner[place]?.map (·.library) := by
  have same := congrArg (·[place]?) (Component.isolatedAll_libraries "" group.path group.children)
  rw [List.getElem?_map, List.getElem?_map] at same
  rw [Flattened.ofProgram_units, List.getElem?_cons_succ, List.getElem?_map, Option.map_map]
  exact same

theorem Among.inner_getElem? {next place other : Nat} {groups : List IsolatedGroup} {leaves : List (Nat × Leaf)}
    {group : IsolatedGroup} (among : Among next place groups leaves group) (inside : other < group.inner.length) :
    groups[place + 1 + other]? = group.inner[other]? := by
  obtain ⟨rest, inner_eq⟩ := among.inner_prefix
  rw [← List.getElem?_drop, ← inner_eq, List.getElem?_append_left inside]

end IsolatedGroup

/-- The isolated groups open their units in pre-order, behind the main unit. -/
theorem Program.isolated_flat {program : Program} {place : Nat} {group : IsolatedGroup}
    (found : program.isolated[place]? = some group) : group.Flat program (place + 1) := by
  have among := IsolatedGroup.among_components 0 1 place "" Nat.one_pos program.root found
  have unit_eq : (Flattened.ofProgram program).units[place + 1]? = some group.unit := by
    rw [Flattened.ofProgram_units, List.getElem?_cons_succ, List.getElem?_map, found]
    rfl
  refine ⟨unit_eq, fun other inside => ?_, ?_⟩
  · rw [group.length_units] at inside
    cases other with
    | zero =>
      rw [Nat.add_zero, unit_eq, Flattened.ofProgram_units]
      rfl
    | succ other =>
      have there : program.isolated[place + 1 + other]? = group.inner[other]? := among.inner_getElem? (by omega)
      rw [group.library_eq, Flattened.ofProgram_units, ← Nat.add_assoc, List.getElem?_cons_succ, List.getElem?_map, there,
        Option.map_map]
      rfl
  · obtain ⟨before, after, leaves_eq, away⟩ := among.leaves_eq
    rw [← Flattened.ofProgram_leaves, List.map_eq_append_iff] at leaves_eq
    obtain ⟨early, last, all, early_eq, rfl⟩ := leaves_eq
    obtain ⟨first, own, rfl, rfl, own_eq⟩ := List.map_eq_append_iff.mp early_eq
    rw [Nat.add_comm] at own_eq away
    refine ⟨first, own, last, all, ?_, fun flat has => ?_⟩
    · rw [group.placed_eq, ← List.forall₂_eq_eq_eq, List.forall₂_map_left_iff, List.forall₂_map_right_iff] at own_eq
      exact own_eq.imp fun _ _ same => ⟨congrArg Prod.snd same, congrArg Prod.fst same⟩
    · rw [group.length_units, ← Nat.add_assoc]
      apply away (flat.unit, flat.node)
      rw [← List.map_append]
      exact List.mem_map_of_mem has

end FrameGraph
