import FrameGraph.Proofs.Compile.AlignedLeaves
import FrameGraph.Proofs.Compile.Program
import FrameGraph.Proofs.Units

/-! # Isolated groups compile alone

The unit of an isolated group is the main unit of the group's own program. Nothing that the rest of the tree does shows in
it: not the records and entry names of other units, and not the argument blocks that others have registered.
-/

namespace FrameGraph

namespace Compile

variable {table : ResourceTable} {caps : DeviceCaps}

/-- The state in which a program begins to compile. -/
def startState (program : Program) : CompileState := { units := (Flattened.ofProgram program).units.map UnitState.start }

/-- The leaves of a program compile, one after the other. -/
def runLeaves (table : ResourceTable) (caps : DeviceCaps) (program : Program) :
    Except CompileError (List CompiledLeaf × CompileState) :=
  ((Flattened.ofProgram program).leaves.mapM (flatLeaf table caps)).run (startState program)

theorem startState_sane (program : Program) : (startState program).Sane :=
  ⟨.nil, List.forall_mem_nil _, List.forall_mem_nil _, List.forall_mem_nil _⟩

theorem startState_inUnits (program : Program) :
    ∀ flat ∈ (Flattened.ofProgram program).leaves, flat.unit < (startState program).units.length := by
  rw [startState, List.length_map]
  exact Flattened.ofProgram_inUnits program

theorem startState_unlabelled (program : Program) (place : Nat) :
    (startState program).units[place]?.map UnitState.unlabelled =
      ((Flattened.ofProgram program).units[place]?.map (·.library)).map fun library => ⟨"", library, .empty, [], []⟩ := by
  rw [startState, List.getElem?_map, Option.map_map, Option.map_map]
  rfl

/-! ### Finished units -/

/-- The label does not show in the text. -/
theorem finish_unlabelled {u v : UnitState} {finished : CompiledUnit} (same : u.unlabelled = v.unlabelled)
    (done : u.finish = .ok finished) : v.finish = .ok { finished with label := v.label } := by
  obtain ⟨library, symbols, leaves, entries⟩ := UnitState.unlabelled_eq_iff.mp same
  have source_eq : v.source = u.source := by
    rw [UnitState.source, UnitState.source, library, symbols, leaves]
  obtain ⟨source, text, done⟩ := bind_eq_ok done
  cases done
  rw [UnitState.finish, source_eq, text, ← symbols, ← entries, ← leaves]
  rfl

/-- A unit is finished at its place. -/
theorem finishUnits_at {units : List UnitState} {finished : List CompiledUnit} (done : finishUnits units = .ok finished)
    {place : Nat} {unit : UnitState} (found : units[place]? = some unit) :
    ∃ compiled, finished[place]? = some compiled ∧ unit.finish = .ok compiled := by
  induction units generalizing finished place with
  | nil => simp at found
  | cons first rest ih =>
    rw [finishUnits] at done
    split at done
    · cases done
    · rename_i one
      obtain ⟨others, more, done⟩ := bind_eq_ok done
      cases done
      cases place with
      | zero =>
        cases found
        exact ⟨_, rfl, one⟩
      | succ place => exact ih more found

theorem finish_label {unit : UnitState} {compiled : CompiledUnit} (done : unit.finish = .ok compiled) :
    compiled.label = unit.label := by
  obtain ⟨_, _, done⟩ := bind_eq_ok done
  cases done
  rfl

/-- The units finish when each of them does. -/
theorem finishUnits_of {units : List UnitState} (each : ∀ unit ∈ units, ∃ compiled, unit.finish = .ok compiled) :
    ∃ finished, finishUnits units = .ok finished := by
  induction units with
  | nil => exact ⟨[], rfl⟩
  | cons unit rest ih =>
    rw [List.forall_mem_cons] at each
    obtain ⟨first, finish⟩ := each.1
    obtain ⟨others, more⟩ := ih each.2
    refine ⟨first :: others, ?_⟩
    rw [finishUnits, finish, more]
    rfl

/-- A program compiles when its leaves do and its units finish. -/
theorem compile_of {program : Program} {leaves : List CompiledLeaf} {state : CompileState} {units : List CompiledUnit}
    (run : runLeaves table caps program = .ok (leaves, state)) (finished : finishUnits state.units = .ok units) :
    program.compile table caps =
      .ok (⟨units, leaves, state.usage, state.blocks.map fun block => ⟨block.name, block.group⟩⟩,
        state.log ++ units.map unitLine) := by
  change (runLeaves table caps program >>= _) = _
  rw [run]
  change (finishUnits state.units >>= _) = _
  rw [finished]
  rfl

/-! ### The run of the group's own program -/

/-- The units keep their labels and libraries. -/
theorem runLeaves_unit {program : Program} {leaves : List CompiledLeaf} {state : CompileState}
    (run : runLeaves table caps program = .ok (leaves, state)) {place : Nat} {decl : UnitDecl}
    (declared : (Flattened.ofProgram program).units[place]? = some decl) :
    ∃ unit, state.units[place]? = some unit ∧ unit.label = decl.label ∧ unit.library = decl.library := by
  have started : (startState program).units[place]? = some (.start decl) := by
    rw [startState, List.getElem?_map, declared]
    rfl
  have evolves := (leaves_apart (startState_sane program) (startState_inUnits program) run).1
  obtain ⟨unit, found, -, kept⟩ := evolves.entries place _ started
  exact ⟨unit, found, kept⟩

theorem runLeaves_label {program : Program} {leaves : List CompiledLeaf} {state : CompileState}
    (run : runLeaves table caps program = .ok (leaves, state)) {place : Nat} {decl : UnitDecl}
    (declared : (Flattened.ofProgram program).units[place]? = some decl) :
    ∃ unit, state.units[place]? = some unit ∧ unit.label = decl.label := by
  obtain ⟨unit, found, label, -⟩ := runLeaves_unit run declared
  exact ⟨unit, found, label⟩

variable {program : Program} {group : IsolatedGroup} {first : Nat}

/-- As long as the group's units are as at the start, its own program can begin. -/
theorem startState_aligned (flat : group.Flat program first) {state : CompileState} (sane : state.Sane)
    (kept : ∀ place < (Flattened.ofProgram group.program).units.length,
      state.units[first + place]? = (startState program).units[first + place]?) :
    Aligned first (Flattened.ofProgram group.program).units.length state state (startState group.program) where
  length_eq := List.length_map _
  units place inside := by
    rw [kept place inside, startState_unlabelled, startState_unlabelled, flat.libraries place inside]
  outside _ _ := rfl
  blocks _ _ found := nomatch found
  sane := sane
  sane' := startState_sane group.program

/-- Where a run of the whole program ends, a run of the group's own program ends with the same units. -/
theorem runLeaves_isolated (flat : group.Flat program first) {leaves : List CompiledLeaf} {state : CompileState}
    (run : runLeaves table caps program = .ok (leaves, state)) :
    ∃ leaves' state', runLeaves table caps group.program = .ok (leaves', state') ∧
      state'.units.length = (Flattened.ofProgram group.program).units.length ∧
      ∀ place < (Flattened.ofProgram group.program).units.length,
        state.units[first + place]?.map UnitState.unlabelled = state'.units[place]?.map UnitState.unlabelled := by
  obtain ⟨before, own, after, leaves_eq, same, away⟩ := flat.leaves
  have inside := startState_inUnits program
  rw [leaves_eq, List.forall_mem_append, List.forall_mem_append] at inside
  rw [List.forall_mem_append] at away
  rw [runLeaves, leaves_eq, List.mapM_append, List.mapM_append] at run
  obtain ⟨_, w₂, front, run⟩ := bind_ok run
  obtain ⟨_, _, last, run⟩ := bind_ok run
  obtain ⟨-, rfl⟩ := pure_ok run
  obtain ⟨_, w₁, early, run⟩ := bind_ok front
  obtain ⟨_, _, middle, run⟩ := bind_ok run
  obtain ⟨-, rfl⟩ := pure_ok run
  -- the leaves before the group leave its units as they were at the start
  obtain ⟨evolves, kept⟩ := leaves_apart (startState_sane program) inside.1.1 early
  have aligned := startState_aligned flat (evolves.sane (startState_sane program)) fun place _ =>
    kept (first + place) fun flat found => by
      have apart := away.1 flat found
      omega
  -- its own leaves do the same as alone
  have inUnits := Flattened.ofProgram_inUnits group.program
  obtain ⟨leaves', state', ran, done⟩ := leaves_mirrors same inUnits _ _ aligned _ _ middle
  obtain ⟨evolves', -⟩ := leaves_apart aligned.sane (evolves.units ▸ inside.1.2) middle
  -- the leaves after the group leave its units alone
  have units := (evolves.trans evolves').units
  obtain ⟨-, kept'⟩ := leaves_apart done.sane (units ▸ inside.2) last
  refine ⟨leaves', state', ran, done.length_eq, fun place within => ?_⟩
  have elsewhere : ∀ flat ∈ after, flat.unit ≠ first + place := by
    intro flat found
    have apart := away.2 flat found
    omega
  rw [kept' _ elsewhere]
  exact done.units place within

end Compile

/-- A program that compiles has every isolated group of it compile alone: the group's unit is, but for its label, the main
unit of the group's own program. -/
theorem Program.isolated_alone {source : Program} {table : ResourceTable} {caps : DeviceCaps} {program : CompiledProgram}
    {log : List LogLine} (compiled : source.compile table caps = .ok (program, log)) {place : Nat} {group : IsolatedGroup}
    (found : source.isolated[place]? = some group) :
    ∃ alone aloneLog unit, group.program.compile table caps = .ok (alone, aloneLog) ∧
      program.units[place + 1]? = some unit ∧ unit.label = group.path ∧
      alone.units[0]? = some { unit with label := "main" } := by
  obtain ⟨leaves, state, units, run, finished, rfl⟩ := Program.compile_eq_ok compiled
  have flat := source.isolated_flat found
  obtain ⟨leaves', state', ran, length_eq, same⟩ := Compile.runLeaves_isolated flat run
  -- what the whole program finishes, the group's own program finishes, too
  obtain ⟨units', finished'⟩ : ∃ units', Compile.finishUnits state'.units = .ok units' := by
    refine Compile.finishUnits_of fun unit known => ?_
    obtain ⟨other, inside, rfl⟩ := List.mem_iff_getElem.mp known
    have equal := same other (length_eq ▸ inside)
    rw [List.getElem?_eq_getElem inside, Option.map_some] at equal
    obtain ⟨u, there, equal⟩ := Option.map_eq_some_iff.mp equal
    obtain ⟨done, -, finish⟩ := Compile.finishUnits_at finished there
    exact ⟨_, Compile.finish_unlabelled equal finish⟩
  obtain ⟨unit, there, label⟩ := Compile.runLeaves_label run flat.unit_eq
  have main : (Flattened.ofProgram group.program).units[0]? = some ⟨"main", group.library⟩ := by
    rw [Flattened.ofProgram_units]
    rfl
  obtain ⟨own, own_there, own_label⟩ := Compile.runLeaves_label ran main
  obtain ⟨done, done_there, finish⟩ := Compile.finishUnits_at finished there
  obtain ⟨done', done_there', finish'⟩ := Compile.finishUnits_at finished' own_there
  have equal : unit.unlabelled = own.unlabelled := by
    have equal := same 0 (List.getElem?_eq_some_iff.mp main).choose
    rw [Nat.add_zero, there, own_there] at equal
    exact Option.some.inj equal
  have done_eq : done' = { done with label := "main" } := by
    have both := (Compile.finish_unlabelled equal finish).symm.trans finish'
    rw [own_label] at both
    exact (Except.ok.inj both).symm
  exact ⟨_, _, done, Compile.compile_of ran finished', done_there, (Compile.finish_label finish).trans label,
    done_eq ▸ done_there'⟩

/-- A kernel that takes an argument block. -/
def blockKernel : Component :=
  .leaf (.dispatch {
    label := "k"
    source := "@compute fn k() { x[gid.x] = 1u; }"
    function := "k"
    arguments := [⟨"cells", none, none, .block "cells" [⟨"x", none, none, .buffer ⟨0⟩ (.storage false)⟩]⟩]
    fits := [.fixed ⟨4, 1, 1⟩] })

/-- The kernel in the main unit and in an isolated group below an off-frame group. -/
def blockKernels : Program where
  library := ""
  root := [blockKernel, .offFrame "job" [.group { label := "fx", isolated := some "const n = 1;" } [blockKernel]]]

/-- The group has the block from the main unit, and alone it registers the block itself. -/
theorem Program.isolated_alone_block :
    ∃ program log alone aloneLog unit,
      blockKernels.compile { buffers := [⟨"x", .scalar .u32, 4, .fixed 4⟩] } {} = .ok (program, log) ∧
      program.blocks.length = 1 ∧
      Program.compile ⟨"const n = 1;", [blockKernel]⟩ { buffers := [⟨"x", .scalar .u32, 4, .fixed 4⟩] } {} =
        .ok (alone, aloneLog) ∧
      program.units[1]? = some unit ∧ unit.label = "job/fx" ∧ alone.units[0]? = some { unit with label := "main" } := by
  have run : (blockKernels.compile { buffers := [⟨"x", .scalar .u32, 4, .fixed 4⟩] } {}).toOption.map
      (fun result => result.1.blocks.length) = some 1 := by decide +kernel
  have found : blockKernels.isolated[0]? = some ⟨"job/fx", "const n = 1;", [blockKernel]⟩ := rfl
  cases compiled : blockKernels.compile { buffers := [⟨"x", .scalar .u32, 4, .fixed 4⟩] } {} with
  | error _ =>
    rw [compiled] at run
    cases run
  | ok result =>
    obtain ⟨program, log⟩ := result
    rw [compiled] at run
    obtain ⟨alone, aloneLog, unit, done, there, label, same⟩ := blockKernels.isolated_alone compiled found
    exact ⟨program, log, alone, aloneLog, unit, rfl, Option.some.inj run, done, there, label, same⟩

end FrameGraph
