import FrameGraph.Grid.Plan
import Mathlib.Algebra.Order.Floor.Div

/-! # Covering a grid

A launch covers a grid with whole workgroups, so threads may lie outside the grid. The range check turns threads
away that are outside along the axes of the grid; along the other axes, a kernel relies on its workgroup.
-/

namespace FrameGraph

inductive Axis where
  | x | y | z
deriving DecidableEq, Repr

/-- The component of a vector for the axis. -/
def Axis.letter : Axis → String
  | .x => "x"
  | .y => "y"
  | .z => "z"

namespace Axes

variable {axes other : Axes} {axis : Axis}

def get (axes : Axes) : Axis → Nat
  | .x => axes.x
  | .y => axes.y
  | .z => axes.z

def ofGet (length : Axis → Nat) : Axes := ⟨length .x, length .y, length .z⟩

@[simp] theorem get_ofGet (length : Axis → Nat) (axis : Axis) : (ofGet length).get axis = length axis := by
  cases axis <;> rfl

theorem ext_get (same : ∀ axis, axes.get axis = other.get axis) : axes = other := by
  obtain ⟨x, y, z⟩ := axes
  obtain ⟨x', y', z'⟩ := other
  have hx := same .x
  have hy := same .y
  have hz := same .z
  simp only [get] at hx hy hz
  rw [hx, hy, hz]

theorem get_pos (full : axes.hasZero = false) (axis : Axis) : 0 < axes.get axis := by
  simp only [hasZero, Bool.or_eq_false_iff, beq_eq_false_iff_ne] at full
  obtain ⟨⟨x, y⟩, z⟩ := full
  cases axis <;> simp only [get] <;> omega

/-- The cell is one of the grid. -/
def Inside (cell grid : Axes) : Prop := ∀ axis, cell.get axis < grid.get axis

end Axes

theorem groupsToCover_eq_ceilDiv {length size : Nat} (some : 0 < size) : groupsToCover length size = length ⌈/⌉ size := by
  rw [groupsToCover, Nat.max_eq_left some, Nat.ceilDiv_eq_add_pred_div]

theorem div_lt_groupsToCover {length size place : Nat} (some : 0 < size) (inside : place < length) :
    place / size < groupsToCover length size := by
  rw [groupsToCover_eq_ceilDiv some, ← Nat.not_le, ceilDiv_le_iff_le_mul some, Nat.not_le]
  calc size * (place / size)
    _ ≤ place := Nat.mul_div_le place size
    _ < length := inside

namespace GridDims

/-- The axes that a grid has. -/
def axes : GridDims → List Axis
  | .one => [.x]
  | .two => [.x, .y]
  | .three => [.x, .y, .z]

/-- The grid's length along an axis: the uniform itself for a grid of one axis, else one of its components. -/
def operand (dims : GridDims) (grid : String) (axis : Axis) : String :=
  match dims with
  | .one => grid
  | .two | .three => s!"{grid}.{axis.letter}"

/-- The comparison that finds a thread outside the grid along an axis. -/
def comparison (dims : GridDims) (gid grid : String) (axis : Axis) : String :=
  s!"{gid}.{axis.letter} >= {dims.operand grid axis}"

/-- The range check returns when one of the comparisons along the grid's axes holds. -/
theorem boundsCheckText_eq (dims : GridDims) (gid grid : String) :
    boundsCheckText dims gid grid =
      "\n    if (" ++ String.intercalate " || " (dims.axes.map (dims.comparison gid grid)) ++ ") \x7b return; \x7d" := by
  rw [← String.toList_inj]
  cases dims <;> simp [boundsCheckText, axes, comparison, operand, Axis.letter, toString]

theorem defaultWorkgroup_get_beyond {dims : GridDims} {axis : Axis} (beyond : axis ∉ dims.axes) :
    dims.defaultWorkgroup.get axis = 1 := by
  cases dims <;> cases axis <;> simp_all [axes, defaultWorkgroup, Axes.get]

/-- No comparison holds at the thread's position, so it passes the range check. -/
def Passes (dims : GridDims) (grid position : Axes) : Prop := ∀ axis ∈ dims.axes, ¬grid.get axis ≤ position.get axis

end GridDims

/-- A thread of a launch: its group, and its place in the group. -/
structure Thread where
  group : Axes
  place : Axes

/-- The global id of the thread. -/
def Thread.position (thread : Thread) (workgroup : Axes) : Axes :=
  .ofGet fun axis => thread.group.get axis * workgroup.get axis + thread.place.get axis

namespace GridPlan

variable {plan : GridPlan} {grid : Axes}

/-- The thread is one of those that are launched for a grid. -/
def Launches (plan : GridPlan) (grid : Axes) (thread : Thread) : Prop :=
  thread.group.Inside (plan.workgroups grid) ∧ thread.place.Inside plan.workgroup

theorem workgroups_get (plan : GridPlan) (grid : Axes) (axis : Axis) :
    (plan.workgroups grid).get axis = groupsToCover (grid.get axis) (plan.workgroup.get axis) := by
  cases axis <;> rfl

/-- A grid has length one along the axes that are not its own. -/
theorem extent_get_beyond (plan : GridPlan) (source : Extent) {axis : Axis} (beyond : axis ∉ plan.dims.axes) :
    (plan.extent source).get axis = 1 := by
  cases dims : plan.dims <;> cases axis <;> simp_all [GridDims.axes, extent, Axes.get, GridDims.count]

/-- Every cell is the position of exactly one thread. -/
theorem existsUnique_thread (full : plan.workgroup.hasZero = false) {cell : Axes} (inside : cell.Inside grid) :
    ∃! thread, plan.Launches grid thread ∧ thread.position plan.workgroup = cell := by
  have pos := Axes.get_pos full
  refine ⟨⟨.ofGet fun axis => cell.get axis / plan.workgroup.get axis,
    .ofGet fun axis => cell.get axis % plan.workgroup.get axis⟩, ⟨⟨?_, ?_⟩, ?_⟩, ?_⟩
  · intro axis
    rw [Axes.get_ofGet, workgroups_get]
    exact div_lt_groupsToCover (pos axis) (inside axis)
  · intro axis
    rw [Axes.get_ofGet]
    exact Nat.mod_lt _ (pos axis)
  · refine Axes.ext_get fun axis => ?_
    simp only [Thread.position, Axes.get_ofGet]
    exact Nat.div_add_mod' _ _
  · rintro ⟨group, place⟩ ⟨⟨-, placed⟩, rfl⟩
    have same (axis : Axis) :
        (group.get axis * plan.workgroup.get axis + place.get axis) / plan.workgroup.get axis = group.get axis ∧
          (group.get axis * plan.workgroup.get axis + place.get axis) % plan.workgroup.get axis = place.get axis :=
      (Nat.div_mod_unique (pos axis)).mpr ⟨by rw [Nat.add_comm, Nat.mul_comm], placed axis⟩
    simp only [Thread.position, Axes.get_ofGet, same]
    rfl

/-- Only threads inside the grid pass exactly when the workgroup has length one along the axes that are not the
grid's. -/
theorem passes_inside_iff (full : plan.workgroup.hasZero = false) (some : grid.hasZero = false)
    (flat : ∀ axis ∉ plan.dims.axes, grid.get axis = 1) :
    (∀ thread, plan.Launches grid thread → plan.dims.Passes grid (thread.position plan.workgroup) →
      (thread.position plan.workgroup).Inside grid) ↔
      ∀ axis ∉ plan.dims.axes, plan.workgroup.get axis = 1 := by
  have pos := Axes.get_pos full
  constructor
  · intro only axis beyond
    by_contra long
    -- the second thread of the first group along this axis
    let second : Thread := ⟨.ofGet fun _ => 0, .ofGet fun other => if other = axis then 1 else 0⟩
    have position (other : Axis) : (second.position plan.workgroup).get other = if other = axis then 1 else 0 := by
      simp [second, Thread.position]
    have launched : plan.Launches grid second := by
      refine ⟨fun other => ?_, fun other => ?_⟩
      · rw [Axes.get_ofGet, workgroups_get]
        exact Nat.zero_div (plan.workgroup.get other) ▸ div_lt_groupsToCover (pos other) (Axes.get_pos some other)
      · rw [Axes.get_ofGet]
        have length := pos other
        split
        · rename_i same
          subst same
          omega
        · exact length
    have passes : plan.dims.Passes grid (second.position plan.workgroup) := by
      intro other own
      have apart : other ≠ axis := fun same => beyond (same ▸ own)
      rw [position, if_neg apart, Nat.not_le]
      exact Axes.get_pos some other
    have inside := only second launched passes axis
    rw [position, if_pos rfl, flat axis beyond] at inside
    exact absurd inside (Nat.lt_irrefl 1)
  · intro thin thread launched passes axis
    by_cases own : axis ∈ plan.dims.axes
    · exact Nat.not_le.mp (passes axis own)
    · have group := launched.1 axis
      have place := launched.2 axis
      rw [workgroups_get, flat axis own, thin axis own] at group
      rw [thin axis own] at place
      have one : groupsToCover 1 1 = 1 := rfl
      rw [flat axis own, Thread.position, Axes.get_ofGet, thin axis own]
      omega

end GridPlan

end FrameGraph
