import FrameGraph.Flatten
import FrameGraph.Proofs.Compile.Growth
import FrameGraph.Proofs.Pass.Tree
import Mathlib.Data.List.Forall2

/-! # Leaves of a component tree

Compiling and building walk the tree in the same order: the flat leaves, the compiled leaves and the leaves of
the built passes stand at the same places.
-/

namespace FrameGraph

mutual

/-- The leaves below a component, in pre-order. -/
def Component.nodes : Component → List Leaf
  | .leaf node => [node]
  | .group _ children => Component.nodesAll children
  | .offFrame _ children => Component.nodesAll children

/-- The leaves of components, in order. -/
def Component.nodesAll : List Component → List Leaf
  | [] => []
  | component :: rest => component.nodes ++ Component.nodesAll rest

end

namespace Flattened

/-- Every leaf lies in one of the units. -/
def InUnits (flat : Flattened) : Prop := ∀ leaf ∈ flat.leaves, leaf.unit < flat.units.length

/-- The flat tree with more leaves and perhaps more units. -/
structure Extends (before after : Flattened) (nodes : List Leaf) : Prop where
  nodes_eq : after.leaves.map (·.node) = before.leaves.map (·.node) ++ nodes
  units_le : before.units.length ≤ after.units.length
  inUnits : before.InUnits → after.InUnits

namespace Extends

variable {first middle last : Flattened} {nodes more : List Leaf}

theorem refl (flat : Flattened) : Extends flat flat [] := ⟨(List.append_nil _).symm, Nat.le_refl _, id⟩

theorem trans (one : Extends first middle nodes) (two : Extends middle last more) :
    Extends first last (nodes ++ more) where
  nodes_eq := by rw [two.nodes_eq, one.nodes_eq, List.append_assoc]
  units_le := Nat.le_trans one.units_le two.units_le
  inUnits held := two.inUnits (one.inUnits held)

theorem addUnit (flat : Flattened) (unit : UnitDecl) : Extends flat (flat.addUnit unit) [] where
  nodes_eq := (List.append_nil _).symm
  units_le := by simp [Flattened.addUnit]
  inUnits held leaf found := by
    rw [Flattened.addUnit, List.length_append]
    exact Nat.lt_add_right _ (held leaf found)

theorem addLeaf (flat : Flattened) {leaf : FlatLeaf} (inside : leaf.unit < flat.units.length) :
    Extends flat (flat.addLeaf leaf) [leaf.node] where
  nodes_eq := by simp [Flattened.addLeaf]
  units_le := Nat.le_refl _
  inUnits held := by
    simp only [InUnits, Flattened.addLeaf, List.forall_mem_append, List.forall_mem_singleton]
    exact ⟨held, inside⟩

end Extends

mutual

theorem addComponent_extends (unit : Nat) (parent : String) (flat : Flattened)
    (inside : unit < flat.units.length) :
    ∀ component, Extends flat (addComponent unit parent flat component) component.nodes
  | .leaf node => by
    rw [addComponent, Component.nodes]
    exact .addLeaf flat inside
  | .group options children => by
    rw [addComponent, Component.nodes]
    split
    · refine (Extends.addUnit flat _).trans (addComponents_extends _ _ _ ?_ children)
      simp [addUnit]
    · exact addComponents_extends unit _ flat inside children
  | .offFrame coordinator children => by
    rw [addComponent, Component.nodes]
    exact addComponents_extends unit _ flat inside children

theorem addComponents_extends (unit : Nat) (parent : String) (flat : Flattened)
    (inside : unit < flat.units.length) :
    ∀ components, Extends flat (addComponents unit parent flat components) (Component.nodesAll components)
  | [] => by
    rw [addComponents, Component.nodesAll]
    exact .refl flat
  | component :: rest => by
    rw [addComponents, Component.nodesAll]
    have first := addComponent_extends unit parent flat inside component
    exact first.trans (addComponents_extends unit parent _ (Nat.lt_of_lt_of_le inside first.units_le) rest)

end

theorem ofProgram_extends (program : Program) :
    Extends ⟨[⟨"main", program.library⟩], []⟩ (ofProgram program) (Component.nodesAll program.root) :=
  addComponents_extends 0 "" ⟨[⟨"main", program.library⟩], []⟩ Nat.one_pos program.root

theorem ofProgram_nodes (program : Program) :
    (ofProgram program).leaves.map (·.node) = Component.nodesAll program.root := (ofProgram_extends program).nodes_eq

theorem ofProgram_inUnits (program : Program) : (ofProgram program).InUnits :=
  (ofProgram_extends program).inUnits (List.forall_mem_nil _)

end Flattened

namespace Pass

variable {table : ResourceTable} {leaves : List CompiledLeaf}

/-- The pass of a leaf is a leaf itself. -/
theorem leaves_ofLeaf? {node : Leaf} {compiled : CompiledLeaf} {pass : Pass}
    (made : ofLeaf? table node compiled = some pass) : pass.leaves = [pass] := by
  unfold ofLeaf? at made
  split at made <;> cases made <;> rfl

/-- The pass at a place is made of the node and the compiled leaf there. -/
def MadeAt (table : ResourceTable) (leaves : List CompiledLeaf) (node : Leaf × Nat) (pass : Pass) : Prop :=
  ∃ compiled, leaves[node.2]? = some compiled ∧ ofLeaf? table node.1 compiled = some pass

/-- Building a leaf takes the compiled leaf at its place. -/
theorem takeLeaf_ok {node : Leaf} {place after : Nat} {pass : Pass}
    (run : (takeLeaf table leaves node).run place = .ok (pass, after)) :
    after = place + 1 ∧ MadeAt table leaves (node, place) pass := by
  cases made : leaves[place]?.bind (ofLeaf? table node) with
  | none =>
    simp only [takeLeaf, StateT.run, made] at run
    cases run
  | some built =>
    simp only [takeLeaf, StateT.run, made] at run
    cases run
    exact ⟨rfl, Option.bind_eq_some_iff.mp made⟩

mutual

theorem ofComponent_leaves : ∀ (component : Component) {place after : Nat} {pass : Pass},
    (ofComponent table leaves component).run place = .ok (pass, after) →
      after = place + component.nodes.length ∧
        List.Forall₂ (MadeAt table leaves) (component.nodes.zipIdx place) pass.leaves
  | .leaf node, place, after, pass, run => by
    rw [ofComponent] at run
    obtain ⟨after_eq, made⟩ := takeLeaf_ok run
    obtain ⟨_, _, same⟩ := id made
    rw [leaves_ofLeaf? same]
    exact ⟨after_eq, .cons made .nil⟩
  | .group options children, place, after, pass, run => by
    rw [ofComponent] at run
    obtain ⟨passes, middle, done, run⟩ := Compile.bind_ok run
    cases run
    exact ofComponents_leaves children done
  | .offFrame coordinator children, place, after, pass, run => by
    rw [ofComponent] at run
    obtain ⟨passes, middle, done, run⟩ := Compile.bind_ok run
    cases run
    exact ofComponents_leaves children done

/-- Building walks the leaves in pre-order. -/
theorem ofComponents_leaves : ∀ (components : List Component) {place after : Nat} {passes : List Pass},
    (ofComponents table leaves components).run place = .ok (passes, after) →
      after = place + (Component.nodesAll components).length ∧
        List.Forall₂ (MadeAt table leaves) ((Component.nodesAll components).zipIdx place) (leavesAll passes)
  | [], place, after, passes, run => by
    rw [ofComponents] at run
    cases run
    exact ⟨rfl, .nil⟩
  | component :: rest, place, after, passes, run => by
    rw [ofComponents] at run
    obtain ⟨pass, middle, first, run⟩ := Compile.bind_ok run
    obtain ⟨others, last, more, run⟩ := Compile.bind_ok run
    cases run
    obtain ⟨middle_eq, one⟩ := ofComponent_leaves component first
    obtain ⟨last_eq, all⟩ := ofComponents_leaves rest more
    subst middle_eq
    rw [Component.nodesAll, leavesAll, List.zipIdx_append]
    refine ⟨?_, List.rel_append one all⟩
    rw [last_eq, List.length_append, Nat.add_assoc]

end

mutual

theorem ofComponent_ok : ∀ (component : Component) (place : Nat),
    (∀ node ∈ component.nodes.zipIdx place, ∃ pass, MadeAt table leaves node pass) →
      ∃ pass, (ofComponent table leaves component).run place = .ok (pass, place + component.nodes.length)
  | .leaf node, place, fits => by
    obtain ⟨pass, compiled, there, made⟩ := fits (node, place) (.head _)
    refine ⟨pass, ?_⟩
    simp only [ofComponent, takeLeaf, StateT.run, there, Option.bind_some, made]
    rfl
  | .group options children, place, fits => by
    obtain ⟨passes, done⟩ := ofComponents_ok children place fits
    refine ⟨.group options 0 passes, ?_⟩
    rw [ofComponent, StateT.run_bind, done]
    rfl
  | .offFrame coordinator children, place, fits => by
    obtain ⟨passes, done⟩ := ofComponents_ok children place fits
    refine ⟨.offFrame coordinator true passes, ?_⟩
    rw [ofComponent, StateT.run_bind, done]
    rfl

/-- Building succeeds when there is a fitting compiled leaf at every place. -/
theorem ofComponents_ok : ∀ (components : List Component) (place : Nat),
    (∀ node ∈ (Component.nodesAll components).zipIdx place, ∃ pass, MadeAt table leaves node pass) →
      ∃ passes, (ofComponents table leaves components).run place =
        .ok (passes, place + (Component.nodesAll components).length)
  | [], place, _ => ⟨[], rfl⟩
  | component :: rest, place, fits => by
    rw [Component.nodesAll, List.zipIdx_append, List.forall_mem_append] at fits
    obtain ⟨pass, first⟩ := ofComponent_ok component place fits.1
    obtain ⟨passes, more⟩ := ofComponents_ok rest _ fits.2
    refine ⟨pass :: passes, ?_⟩
    rw [ofComponents, StateT.run_bind, first]
    change (do
      let others ← (ofComponents table leaves rest).run (place + component.nodes.length)
      pure (pass :: others.1, others.2)) = _
    rw [more, Component.nodesAll, List.length_append, Nat.add_assoc]
    rfl

end

end Pass

end FrameGraph
