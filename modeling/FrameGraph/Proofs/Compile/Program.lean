import FrameGraph.Compile.Program
import FrameGraph.Proofs.Compile.Leaves
import FrameGraph.Proofs.Flatten

/-! # Compiled programs

A program that compiles has recorded every resource that a pass of it binds, copies or reads its grid from,
and the text of every unit is the text of its leaves, in order, behind records and library.
-/

namespace FrameGraph

namespace CompileState

variable {state after : CompileState} {done : List (FlatLeaf × CompiledLeaf)}

/-- What a compile has made of the leaves so far. -/
structure Holds (state : CompileState) (done : List (FlatLeaf × CompiledLeaf)) : Prop where
  sane : state.Sane
  has : ∀ leaf ∈ done, state.Has leaf.1.unit leaf.1.node leaf.2
  texts : ∀ unit, List.Forall₂ (fun leaf text => text.Tells state.argumentBlocks leaf.1.node leaf.2)
    (done.filter (·.2.unit? = some unit)) (state.texts unit)

namespace Holds

/-- Texts that are there go on telling what the groups of their leaves ask for. -/
theorem stay (holds : state.Holds done) (evolves : Evolves state after) (unit : Nat) :
    List.Forall₂ (fun leaf text => text.Tells after.argumentBlocks leaf.1.node leaf.2)
      (done.filter (·.2.unit? = some unit)) (state.texts unit) := by
  refine (List.forall₂_iff_zip.mpr ⟨(holds.texts unit).length_eq, fun {leaf text} found => ?_⟩)
  have tells := (List.forall₂_iff_zip.mp (holds.texts unit)).2 found
  have has := holds.has leaf (List.mem_of_mem_filter (List.of_mem_zip found).1)
  exact ⟨tells.label_eq, tells.entries_eq, evolves.groupLines_eq holds.sane has.groups _ ▸ tells.lines_perm⟩

theorem grow (holds : state.Holds done) (grown : Grows state after) : after.Holds done where
  sane := grown.sane holds.sane
  has leaf found := (holds.has leaf found).mono grown.toEvolves
  texts unit := grown.texts_eq ▸ holds.stay grown.toEvolves unit

theorem add (holds : state.Holds done) {flat : FlatLeaf} {compiled : CompiledLeaf}
    (adds : Adds state after flat.unit flat.node compiled) : after.Holds (done ++ [(flat, compiled)]) where
  sane := adds.sane holds.sane
  has := by
    rw [List.forall_mem_append, List.forall_mem_singleton]
    exact ⟨fun leaf found => (holds.has leaf found).mono adds.toEvolves, adds.has⟩
  texts unit := by
    obtain ⟨added, texts_eq, tells⟩ := adds.texts unit
    rw [texts_eq, List.filter_append]
    refine List.rel_append (holds.stay adds.toEvolves unit) ?_
    by_cases here : compiled.unit? = some unit
    · simp only [List.filter_singleton, here, decide_true, cond_true] at tells ⊢
      obtain ⟨text, rfl⟩ := List.length_eq_one_iff.mp tells.length_eq.symm
      exact .cons (List.forall₂_cons.mp tells).1 .nil
    · simp only [List.filter_singleton, here, decide_false, cond_false] at tells ⊢
      cases tells
      exact .nil

theorem start (units : List UnitDecl) : Holds ⟨{}, [], units.map UnitState.start, []⟩ [] where
  sane := ⟨.nil, List.forall_mem_nil _, List.forall_mem_nil _, List.forall_mem_nil _⟩
  has := List.forall_mem_nil _
  texts unit := by
    have none : CompileState.texts ⟨{}, [], units.map UnitState.start, []⟩ unit = [] := by
      cases found : units[unit]? <;> simp [CompileState.texts, found, UnitState.start]
    rw [none]
    exact .nil

end Holds

end CompileState

namespace Compile

variable {state after : CompileState} {table : ResourceTable} {caps : DeviceCaps}

/-- Every leaf is compiled in turn. -/
theorem mapM_ok {leaves : List FlatLeaf} {compiled : List CompiledLeaf} {done : List (FlatLeaf × CompiledLeaf)}
    (holds : state.Holds done) (inside : ∀ flat ∈ leaves, flat.unit < state.units.length)
    (run : (leaves.mapM (flatLeaf table caps)).run state = .ok (compiled, after)) :
    compiled.length = leaves.length ∧ after.units.length = state.units.length ∧
      after.Holds (done ++ leaves.zip compiled) := by
  induction leaves generalizing state compiled done with
  | nil =>
    rw [List.mapM_nil] at run
    obtain ⟨rfl, rfl⟩ := pure_ok run
    exact ⟨rfl, rfl, by simpa using holds⟩
  | cons flat rest ih =>
    rw [List.mapM_cons] at run
    obtain ⟨first, next, one, run⟩ := bind_ok run
    obtain ⟨others, last, more, run⟩ := bind_ok run
    obtain ⟨rfl, rfl⟩ := pure_ok run
    obtain ⟨made, middle, leafed, one⟩ := bind_ok one
    obtain ⟨_, _, traced, one⟩ := bind_ok one
    obtain ⟨rfl, rfl⟩ := pure_ok one
    rw [List.forall_mem_cons] at inside
    have adds := leaf_ok holds.sane inside.1 leafed
    have grown := log_ok traced
    have units := grown.units.trans adds.units
    obtain ⟨length, same, all⟩ := ih ((holds.add adds).grow grown) (units ▸ inside.2) more
    exact ⟨congrArg (· + 1) length, same.trans units, by simpa using all⟩

/-- A finished unit has the texts of its leaves behind everything else. -/
structure Finishes (unit : UnitState) (finished : CompiledUnit) : Prop where
  leaves_eq : finished.leaves = unit.leaves
  source_eq : ∃ head, finished.source = head ++ String.join (finished.leaves.map LeafText.text)

theorem finish_ok {unit : UnitState} {finished : CompiledUnit} (done : unit.finish = .ok finished) :
    Finishes unit finished := by
  obtain ⟨source, text, done⟩ := bind_eq_ok done
  cases done
  obtain ⟨records, _, text⟩ := bind_eq_ok text
  cases text
  exact ⟨rfl, _, rfl⟩

theorem finishUnits_ok {units : List UnitState} {finished : List CompiledUnit}
    (done : finishUnits units = .ok finished) : List.Forall₂ Finishes units finished := by
  induction units generalizing finished with
  | nil =>
    cases done
    exact .nil
  | cons unit rest ih =>
    rw [finishUnits] at done
    split at done
    · cases done
    · rename_i first
      obtain ⟨others, more, done⟩ := bind_eq_ok done
      cases done
      exact .cons (finish_ok first) (ih more)

/-- Finishing the units leaves their texts alone. -/
theorem finishUnits_texts {finished : List CompiledUnit} {place : Nat} {unit : CompiledUnit}
    (all : List.Forall₂ Finishes state.units finished) (found : finished[place]? = some unit) :
    state.texts place = unit.leaves := by
  obtain ⟨here, rfl⟩ := List.getElem?_eq_some_iff.mp found
  have there : place < state.units.length := all.length_eq ▸ here
  have done := (List.forall₂_iff_get.mp all).2 place there here
  rw [CompileState.texts, List.getElem?_eq_getElem there]
  exact done.leaves_eq.symm

end Compile

/-- The leaves of a program, each with what it was compiled to, in pre-order. -/
def Program.compiledLeaves (source : Program) (program : CompiledProgram) : List (FlatLeaf × CompiledLeaf) :=
  (Flattened.ofProgram source).leaves.zip program.leaves

/-- What a compiled program has of its source. -/
structure CompiledProgram.Of (source : Program) (program : CompiledProgram) : Prop where
  length_eq : program.leaves.length = (Flattened.ofProgram source).leaves.length
  becomes : ∀ leaf ∈ source.compiledLeaves program,
    leaf.1.node.BecomesIn leaf.1.unit leaf.2 ∧ leaf.1.unit < program.units.length
  texts : ∀ (place : Nat) unit, program.units[place]? = some unit →
    List.Forall₂ (fun leaf text => text.Tells program.blocks leaf.1.node leaf.2)
      ((source.compiledLeaves program).filter (·.2.unit? = some place)) unit.leaves
  sources : ∀ unit ∈ program.units,
    ∃ head, unit.source = head ++ String.join (unit.leaves.map LeafText.text)
  bound : ∀ leaf ∈ source.compiledLeaves program, ∀ group ∈ leaf.2.groups,
    ∀ binding ∈ program.groupSpec group, binding.source.RecordedIn program.usage
  handles : ∀ leaf ∈ source.compiledLeaves program, ∀ handle ∈ leaf.1.node.handles leaf.2,
    program.usage.Uses handle
  unfed : ∀ block ∈ program.blocks, ∀ binding ∈ block.group, ¬binding.source.isFed

/-- A compile that succeeds has compiled the leaves one after the other, and has put all units together then. -/
theorem Program.compile_eq_ok {source : Program} {table : ResourceTable} {caps : DeviceCaps}
    {program : CompiledProgram} {log : List LogLine} (compiled : source.compile table caps = .ok (program, log)) :
    ∃ leaves state units,
      ((Flattened.ofProgram source).leaves.mapM (Compile.flatLeaf table caps)).run
        { units := (Flattened.ofProgram source).units.map UnitState.start } = .ok (leaves, state) ∧
      Compile.finishUnits state.units = .ok units ∧
      program = ⟨units, leaves, state.usage, state.blocks.map fun block => ⟨block.name, block.group⟩⟩ := by
  obtain ⟨⟨leaves, state⟩, run, compiled⟩ := bind_eq_ok compiled
  obtain ⟨units, finished, compiled⟩ := bind_eq_ok compiled
  cases compiled
  exact ⟨leaves, state, units, run, finished, rfl⟩

/-- What is compiled has all that its source asks for. -/
theorem Program.compile_ok {source : Program} {table : ResourceTable} {caps : DeviceCaps}
    {program : CompiledProgram} {log : List LogLine} (compiled : source.compile table caps = .ok (program, log)) :
    program.Of source := by
  obtain ⟨leaves, state, units, run, finished, rfl⟩ := Program.compile_eq_ok compiled
  have inside : ∀ flat ∈ (Flattened.ofProgram source).leaves,
      flat.unit < ((Flattened.ofProgram source).units.map UnitState.start).length := by
    rw [List.length_map]
    exact Flattened.ofProgram_inUnits source
  obtain ⟨length, same, holds⟩ := Compile.mapM_ok (.start _) inside run
  have finished := Compile.finishUnits_ok finished
  rw [List.nil_append] at holds
  refine {
    length_eq := length
    becomes := fun leaf found => ⟨(holds.has leaf found).becomes, ?_⟩
    texts := fun place unit found => ?_
    sources := fun unit found => ?_
    bound := fun leaf found group listed => ?_
    handles := fun leaf found => (holds.has leaf found).handles
    unfed := List.forall_mem_map.mpr fun block found binding inside => ?_ }
  · rw [← finished.length_eq, same]
    exact inside leaf.1 (List.of_mem_zip found).1
  · exact Compile.finishUnits_texts finished found ▸ holds.texts place
  · obtain ⟨place, here, rfl⟩ := List.mem_iff_getElem.mp found
    exact ((List.forall₂_iff_get.mp finished).2 place (finished.length_eq ▸ here) here).source_eq
  · have known := (holds.has leaf found).groups group listed
    cases group with
    | own spec => exact known
    | shared place =>
      have there := List.getElem?_eq_getElem (show place < state.blocks.length from known)
      have block := List.getElem_mem (show place < state.blocks.length from known)
      simp only [CompiledProgram.groupSpec, List.getElem?_map, there, Option.map_some, Option.getD_some]
      intro binding inside
      rw [holds.sane.group_eq _ block, (GroupSpec.sorted_perm _).mem_iff] at inside
      obtain ⟨member, has, rfl⟩ := List.mem_map.mp inside
      exact (holds.sane.members _ block member has).recorded
  · rw [holds.sane.group_eq block found, (GroupSpec.sorted_perm _).mem_iff] at inside
    obtain ⟨member, has, rfl⟩ := List.mem_map.mp inside
    exact holds.sane.unfed block found member has

end FrameGraph
