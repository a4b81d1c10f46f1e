import FrameGraph.Proofs.Compile.Program

/-! # Emitted texts

Every text of a compiled unit was emitted when its leaf was compiled. So what is to be known of a text can be read
off the steps of that one compile; and no two entry points of a unit have the same name, since each got one that
the unit did not have before.
-/

namespace FrameGraph

open CompileState (Evolves Grows)

variable {table : ResourceTable} {caps : DeviceCaps} {state after last : CompileState}
  {done : List (FlatLeaf × CompiledLeaf)}

/-- The names of the entry points of a text. -/
def LeafText.entryNames (text : LeafText) : List String := text.entries.map (·.entry)

namespace CompileState

/-- The names that a unit has given out. -/
def entries (state : CompileState) (unit : Nat) : List String := (state.units[unit]?.map (·.entries)).getD []

theorem Evolves.entries_subset (evolves : Evolves state after) (unit : Nat) :
    state.entries unit ⊆ after.entries unit := by
  intro name found
  cases has : state.units[unit]? with
  | none => simp [CompileState.entries, has] at found
  | some early =>
    obtain ⟨later, there, subset, -⟩ := evolves.entries unit early has
    simp only [CompileState.entries, has, there, Option.map_some, Option.getD_some] at found ⊢
    exact subset found

end CompileState

namespace Compile

variable {unit : Nat}

/-- A name that is given was not given before, and is from then on. -/
theorem giveEntry_fresh {name entry : String} (inside : unit < state.units.length)
    (run : (giveEntry unit name).run state = .ok (entry, after)) :
    entry ∉ state.entries unit ∧ entry ∈ after.entries unit := by
  have found := List.getElem?_eq_getElem inside
  obtain ⟨-, fresh⟩ := giveEntry_ok run
  obtain ⟨new, later, there, has⟩ := fresh _ found
  refine ⟨?_, ?_⟩
  · simpa [CompileState.entries, found] using new
  · simpa [CompileState.entries, there] using has

namespace KernelRun

variable {node : Dispatch} (made : KernelRun table caps unit node state)

theorem grows (sane : state.Sane) : Grows state made.bound := by
  have started := (giveEntry_ok made.names).1.trans made.notes
  exact started.trans (bindArguments_ok (started.sane sane) (.start made.noted) made.binds).1

theorem fresh (sane : state.Sane) (inside : unit < state.units.length) :
    made.entry ∉ state.entries unit ∧ made.entry ∈ made.bound.entries unit := by
  obtain ⟨new, has⟩ := giveEntry_fresh inside made.names
  have named := (giveEntry_ok made.names).1
  have binds := (bindArguments_ok ((named.trans made.notes).sane sane) (.start made.noted) made.binds).1
  exact ⟨new, (made.notes.trans binds).entries_subset unit has⟩

end KernelRun

namespace EntryRun

variable {job : EntryJob} {pool : IndexPool} {bindings : LeafBindings} {functions : List LeafFunction}
  (made : EntryRun table unit job pool bindings state)

theorem fresh (sane : state.Sane) (covers : bindings.Covers state functions) (inside : unit < state.units.length) :
    made.entry ∉ state.entries unit ∧ made.entry ∈ made.after.entries unit := by
  obtain ⟨new, has⟩ := giveEntry_fresh inside made.names
  have named := (giveEntry_ok made.names).1
  have binds := (bindArguments_ok (named.sane sane) (covers.mono named.toEvolves sane) made.binds).1
  exact ⟨new, binds.entries_subset unit has⟩

end EntryRun

namespace DrawRun

variable {node : Draw} (made : DrawRun table unit node state)

theorem grows (sane : state.Sane) : Grows state made.used := by
  obtain ⟨first, covers, -⟩ := made.first.ok sane (.start state)
  obtain ⟨second, -, -⟩ := made.second.ok (first.sane sane) covers
  exact (first.trans second).trans (drawResources_ok (.draw made.compiled) made.uses).1

theorem fresh (sane : state.Sane) (inside : unit < state.units.length) :
    made.first.entry ≠ made.second.entry ∧ (∀ name ∈ [made.first.entry, made.second.entry],
      name ∉ state.entries unit ∧ name ∈ made.used.entries unit) := by
  obtain ⟨first, covers, -⟩ := made.first.ok sane (.start state)
  obtain ⟨second, -, -⟩ := made.second.ok (first.sane sane) covers
  obtain ⟨last, -⟩ := drawResources_ok (.draw made.compiled) made.uses
  obtain ⟨new, has⟩ := made.first.fresh sane (.start state) inside
  obtain ⟨new', has'⟩ := made.second.fresh (first.sane sane) covers (first.units ▸ inside)
  refine ⟨fun same => new' (same ▸ has), List.forall_mem_cons.mpr ⟨⟨new, ?_⟩, List.forall_mem_singleton.mpr ⟨?_, ?_⟩⟩⟩
  · exact (second.trans last).entries_subset unit has
  · exact fun old => new' (first.entries_subset unit old)
  · exact last.entries_subset unit has'

end DrawRun

/-- A leaf that has text was compiled in these steps. -/
inductive LeafRun (table : ResourceTable) (caps : DeviceCaps) (unit : Nat) (before : CompileState) :
    Leaf → CompiledLeaf → LeafText → CompileState → Prop
  | kernel {node : Dispatch} (made : KernelRun table caps unit node before) :
    LeafRun table caps unit before (.dispatch node) (.dispatch made.compiled) made.text
      (made.bound.withText unit made.text)
  | draw {node : Draw} (made : DrawRun table unit node before) :
    LeafRun table caps unit before (.draw node) (.draw made.compiled) made.text (made.used.withText unit made.text)

/-- Every leaf either has its text emitted or leaves all texts alone. -/
theorem leaf_run {node : Leaf} {compiled : CompiledLeaf}
    (run : (leaf table caps unit node).run state = .ok (compiled, after)) :
    (compiled.unit? = some unit ∧ ∃ text, LeafRun table caps unit state node compiled text after) ∨
      (compiled.unit? = none ∧ Grows state after) := by
  cases node with
  | dispatch node =>
    obtain ⟨_, _, done, run⟩ := bind_ok run
    obtain ⟨rfl, rfl⟩ := pure_ok run
    obtain ⟨made, rfl, rfl⟩ := dispatch_run done
    exact .inl ⟨rfl, _, .kernel made⟩
  | draw node =>
    obtain ⟨_, _, done, run⟩ := bind_ok run
    obtain ⟨rfl, rfl⟩ := pure_ok run
    obtain ⟨made, rfl, rfl⟩ := draw_run done
    exact .inl ⟨rfl, _, .draw made⟩
  | blit node =>
    obtain ⟨_, _, done, run⟩ := bind_ok run
    obtain ⟨rfl, rfl⟩ := pure_ok run
    exact .inr ⟨rfl, (blit_ok done).1⟩
  | filter node =>
    obtain ⟨_, _, done, run⟩ := bind_ok run
    obtain ⟨rfl, rfl⟩ := pure_ok run
    exact .inr ⟨rfl, (filter_ok done).1⟩
  | callback node =>
    obtain ⟨rfl, rfl⟩ := pure_ok run
    exact .inr ⟨rfl, .refl _⟩

namespace LeafRun

variable {node : Leaf} {compiled : CompiledLeaf} {text : LeafText}

/-- The text is put behind those of its unit. -/
theorem texts_eq (run : LeafRun table caps unit state node compiled text after) (sane : state.Sane)
    (inside : unit < state.units.length) (other : Nat) :
    after.texts other = state.texts other ++ if other = unit then [text] else [] := by
  cases run with
  | kernel made =>
    have grows := made.grows sane
    rw [CompileState.texts_withText (grows.units ▸ inside), grows.texts_eq]
  | draw made =>
    have grows := made.grows sane
    rw [CompileState.texts_withText (grows.units ▸ inside), grows.texts_eq]

/-- Its entry points have new names, and the unit has given them out. -/
theorem fresh (run : LeafRun table caps unit state node compiled text after) (sane : state.Sane)
    (inside : unit < state.units.length) :
    text.entryNames.Nodup ∧
      ∀ name ∈ text.entryNames, name ∉ state.entries unit ∧ name ∈ after.entries unit := by
  have entries_eq (middle : CompileState) (text : LeafText) :
      (middle.withText unit text).entries unit = middle.entries unit := by
    cases found : middle.units[unit]? <;> simp [CompileState.entries, CompileState.withText, found]
  cases run with
  | kernel made =>
    rw [entries_eq]
    exact ⟨List.nodup_singleton _, List.forall_mem_singleton.mpr (made.fresh sane inside)⟩
  | draw made =>
    rw [entries_eq]
    obtain ⟨apart, fresh⟩ := made.fresh sane inside
    exact ⟨by simpa [LeafText.entryNames, DrawRun.text, leafText] using apart, fresh⟩

end LeafRun

end Compile

namespace CompileState

open Compile (LeafRun)

/-- The text was emitted when the leaf was compiled, on the way to a state. -/
def Emits (table : ResourceTable) (caps : DeviceCaps) (last : CompileState) (leaf : FlatLeaf × CompiledLeaf)
    (text : LeafText) : Prop :=
  ∃ before after, before.Sane ∧ leaf.1.unit < before.units.length ∧
    LeafRun table caps leaf.1.unit before leaf.1.node leaf.2 text after ∧ Evolves after last

theorem Emits.mono {leaf : FlatLeaf × CompiledLeaf} {text : LeafText} (emits : Emits table caps state leaf text)
    (evolves : Evolves state after) : Emits table caps after leaf text := by
  obtain ⟨before, next, sane, inside, run, rest⟩ := emits
  exact ⟨before, next, sane, inside, run, rest.trans evolves⟩

/-- All texts so far were emitted when their leaves were compiled, and no name was given twice. -/
structure Emitted (table : ResourceTable) (caps : DeviceCaps) (state : CompileState)
    (done : List (FlatLeaf × CompiledLeaf)) : Prop where
  sane : state.Sane
  emits : ∀ unit, List.Forall₂ (state.Emits table caps) (done.filter (·.2.unit? = some unit)) (state.texts unit)
  distinct : ∀ unit, ((state.texts unit).flatMap LeafText.entryNames).Nodup
  given : ∀ unit, ∀ name ∈ (state.texts unit).flatMap LeafText.entryNames, name ∈ state.entries unit

namespace Emitted

theorem start (units : List UnitDecl) : Emitted table caps ⟨{}, [], units.map UnitState.start, []⟩ [] := by
  have none (unit : Nat) : CompileState.texts ⟨{}, [], units.map UnitState.start, []⟩ unit = [] :=
    List.forall₂_nil_left_iff.mp ((Holds.start units).texts unit)
  refine ⟨(Holds.start units).sane, ?_, ?_, ?_⟩ <;> intro unit <;> rw [none]
  · exact .nil
  · exact .nil
  · exact List.forall_mem_nil _

theorem grow (emitted : Emitted table caps state done) (grown : Grows state after) :
    Emitted table caps after done where
  sane := grown.sane emitted.sane
  emits unit := grown.texts_eq ▸ (emitted.emits unit).imp fun _ _ emits => emits.mono grown.toEvolves
  distinct unit := grown.texts_eq ▸ emitted.distinct unit
  given unit := by
    rw [grown.texts_eq]
    exact fun name found => grown.entries_subset unit (emitted.given unit name found)

theorem add (emitted : Emitted table caps state done) {flat : FlatLeaf} {compiled : CompiledLeaf}
    (inside : flat.unit < state.units.length)
    (run : (Compile.leaf table caps flat.unit flat.node).run state = .ok (compiled, after)) :
    Emitted table caps after (done ++ [(flat, compiled)]) := by
  have adds := Compile.leaf_ok emitted.sane inside run
  obtain ⟨unit_eq, text, leafed⟩ | ⟨none, grown⟩ := Compile.leaf_run run
  · have texts_eq := leafed.texts_eq emitted.sane inside
    obtain ⟨distinct, fresh⟩ := leafed.fresh emitted.sane inside
    refine ⟨adds.sane emitted.sane, fun unit => ?_, fun unit => ?_, fun unit => ?_⟩
    · rw [List.filter_append, texts_eq]
      refine List.rel_append ((emitted.emits unit).imp fun _ _ emits => emits.mono adds.toEvolves) ?_
      by_cases same : unit = flat.unit
      · subst same
        have emits : after.Emits table caps (flat, compiled) text :=
          ⟨state, after, emitted.sane, inside, leafed, .refl after⟩
        simpa [unit_eq] using emits
      · simp [unit_eq, same, Ne.symm same]
    · rw [texts_eq]
      by_cases same : unit = flat.unit
      · subst same
        rw [if_pos rfl, List.flatMap_append, List.flatMap_singleton, List.nodup_append]
        refine ⟨emitted.distinct _, distinct, ?_⟩
        intro old before new here equal
        exact (fresh new here).1 (equal ▸ emitted.given _ old before)
      · simpa [same] using emitted.distinct unit
    · intro name found
      rw [texts_eq, List.flatMap_append, List.mem_append] at found
      obtain old | new := found
      · exact adds.entries_subset unit (emitted.given unit name old)
      · by_cases same : unit = flat.unit
        · subst same
          rw [if_pos rfl, List.flatMap_singleton] at new
          exact (fresh name new).2
        · simp [same] at new
  · have grown := emitted.grow grown
    refine ⟨grown.sane, fun unit => ?_, grown.distinct, grown.given⟩
    simpa [List.filter_append, none] using grown.emits unit

end Emitted

end CompileState

namespace Compile

open CompileState (Emitted)

theorem mapM_emitted {leaves : List FlatLeaf} {compiled : List CompiledLeaf}
    (emitted : Emitted table caps state done) (inside : ∀ flat ∈ leaves, flat.unit < state.units.length)
    (run : (leaves.mapM (flatLeaf table caps)).run state = .ok (compiled, after)) :
    Emitted table caps after (done ++ leaves.zip compiled) := by
  induction leaves generalizing state compiled done with
  | nil =>
    rw [List.mapM_nil] at run
    obtain ⟨rfl, rfl⟩ := pure_ok run
    simpa using emitted
  | cons flat rest ih =>
    rw [List.mapM_cons] at run
    obtain ⟨first, next, one, run⟩ := bind_ok run
    obtain ⟨others, last, more, run⟩ := bind_ok run
    obtain ⟨rfl, rfl⟩ := pure_ok run
    obtain ⟨made, middle, leafed, one⟩ := bind_ok one
    obtain ⟨_, _, traced, one⟩ := bind_ok one
    obtain ⟨rfl, rfl⟩ := pure_ok one
    rw [List.forall_mem_cons] at inside
    have adds := leaf_ok emitted.sane inside.1 leafed
    have grown := log_ok traced
    have units := grown.units.trans adds.units
    have all := ih ((emitted.add inside.1 leafed).grow grown) (units ▸ inside.2) more
    simpa using all

end Compile

/-- The texts of every unit of a compiled program were emitted when their leaves were compiled, and the entry
points of the unit have different names. -/
theorem Program.compile_emitted {source : Program} {program : CompiledProgram} {log : List LogLine}
    (compiled : source.compile table caps = .ok (program, log)) {place : Nat} {unit : CompiledUnit}
    (found : program.units[place]? = some unit) :
    (∃ last, List.Forall₂ (CompileState.Emits table caps last)
      ((source.compiledLeaves program).filter (·.2.unit? = some place)) unit.leaves) ∧
      (unit.leaves.flatMap LeafText.entryNames).Nodup := by
  obtain ⟨leaves, state, units, run, finished, rfl⟩ := Program.compile_eq_ok compiled
  have inside : ∀ flat ∈ (Flattened.ofProgram source).leaves,
      flat.unit < ((Flattened.ofProgram source).units.map UnitState.start).length := by
    rw [List.length_map]
    exact Flattened.ofProgram_inUnits source
  have emitted := Compile.mapM_emitted (.start _) inside run
  rw [List.nil_append] at emitted
  have texts := Compile.finishUnits_texts (Compile.finishUnits_ok finished) found
  exact ⟨⟨state, texts ▸ emitted.emits place⟩, texts ▸ emitted.distinct place⟩

/-- Every leaf that has text has it in its unit. -/
theorem Program.leaf_emitted {source : Program} {program : CompiledProgram} {log : List LogLine}
    (compiled : source.compile table caps = .ok (program, log)) {leaf : FlatLeaf × CompiledLeaf}
    (listed : leaf ∈ source.compiledLeaves program) {place : Nat} (has : leaf.2.unit? = some place) :
    ∃ unit, program.units[place]? = some unit ∧ ∃ text ∈ unit.leaves, ∃ last, CompileState.Emits table caps last leaf text := by
  obtain ⟨becomes, inside⟩ := (source.compile_ok compiled).becomes leaf listed
  obtain rfl := becomes.unit_eq has
  refine ⟨_, List.getElem?_eq_getElem inside, ?_⟩
  obtain ⟨⟨last, emits⟩, -⟩ := source.compile_emitted compiled (List.getElem?_eq_getElem inside)
  obtain ⟨text, found, emitted⟩ := emits.exists_right (List.mem_filter.mpr ⟨listed, decide_eq_true has⟩)
  exact ⟨text, found, last, emitted⟩

end FrameGraph
