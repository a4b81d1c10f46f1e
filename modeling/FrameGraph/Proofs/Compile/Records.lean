import FrameGraph.Proofs.Compile.Isolation
import FrameGraph.Proofs.Compile.Variables
import FrameGraph.Proofs.Symbols

/-! # Records of a unit

The types that are spelled for the arguments of a leaf are declared in the leaf's own unit, in order, whether an argument
stands alone or in a block, and whether or not the block is registered already. So a unit has the records inside the
types of its own leaves and no others, and its text starts with them.
-/

namespace FrameGraph

/-- The type that an argument which is no block is spelled with when the caller gives none. -/
def ArgumentKind.spelled? (table : ResourceTable) : ArgumentKind → Option ShaderType
  | .buffer handle _ => (table.buffer? handle).map (·.element)
  | .bytes source => some source.type
  | .texture .. | .block .. => none

/-- The types that are spelled for arguments which are no blocks. -/
def Argument.ownTypes (table : ResourceTable) (argument : Argument) : List ShaderType :=
  if argument.type.isSome then [] else (argument.kind.spelled? table).toList

/-- The types that are spelled for an argument. -/
def Argument.types (table : ResourceTable) (argument : Argument) : List ShaderType :=
  argument.parts.flatMap (Argument.ownTypes table)

/-- The arguments of all entry points of a leaf, in order. -/
def Leaf.arguments : Leaf → List Argument
  | .dispatch node => node.arguments
  | .draw node => node.vertexArguments ++ node.fragmentArguments
  | .blit _ | .filter _ | .callback _ => []

/-- The types that are spelled for a leaf. -/
def Leaf.types (table : ResourceTable) (node : Leaf) : List ShaderType :=
  node.arguments.flatMap (Argument.types table)

/-- The types that are spelled for the leaves of a unit, in pre-order. -/
def Program.unitTypes (program : Program) (table : ResourceTable) (unit : Nat) : List ShaderType :=
  ((Flattened.ofProgram program).leaves.filter (·.unit = unit)).flatMap (·.node.types table)

namespace CompileState

/-- The records that a unit has so far. -/
def symbols (state : CompileState) (unit : Nat) : SymbolTable := (state.units[unit]?.map (·.symbols)).getD .empty

/-- The records of a unit, and how many units there are. -/
def tableOf (unit : Nat) (state : CompileState) : SymbolTable × Nat := (state.symbols unit, state.units.length)

theorem symbols_modify {state : CompileState} {unit : Nat} (inside : unit < state.units.length)
    (change : UnitState → UnitState) :
    symbols { state with units := state.units.modify unit change } unit = (change state.units[unit]).symbols := by
  simp [symbols, List.getElem?_eq_getElem inside]

theorem tableOf_modify {state : CompileState} {unit : Nat} {change : UnitState → UnitState}
    (same : ∀ early, (change early).symbols = early.symbols) :
    tableOf unit { state with units := state.units.modify unit change } = state.tableOf unit := by
  cases found : state.units[unit]? <;> simp [tableOf, symbols, found, same]

/-- A step that declares these types in a unit; all of them have names. -/
structure Spells (unit : Nat) (before : CompileState) (types : List ShaderType) (after : CompileState) : Prop where
  declares : SymbolTable.Declares (before.symbols unit) types (after.symbols unit)
  named : ∀ type ∈ types, ∃ name, type.name = .ok name
  units : after.units.length = before.units.length

namespace Spells

variable {unit : Nat} {first middle last : CompileState} {types more : List ShaderType}

theorem ofSame (same : last.tableOf unit = first.tableOf unit) : Spells unit first [] last where
  declares := (Prod.mk.inj same).1 ▸ .nil _
  named := List.forall_mem_nil _
  units := (Prod.mk.inj same).2

theorem trans (one : Spells unit first types middle) (two : Spells unit middle more last) :
    Spells unit first (types ++ more) last where
  declares := one.declares.append two.declares
  named := List.forall_mem_append.mpr ⟨one.named, two.named⟩
  units := two.units.trans one.units

/-- What follows declares nothing. -/
theorem still (one : Spells unit first types middle) (same : last.tableOf unit = middle.tableOf unit) :
    Spells unit first types last := by
  simpa using one.trans (.ofSame same)

/-- What comes before declares nothing. -/
theorem after (same : middle.tableOf unit = first.tableOf unit) (two : Spells unit middle types last) :
    Spells unit first types last := (ofSame same).trans two

end Spells

end CompileState

namespace Compile

open CompileState (Spells)

variable {state after : CompileState} {table : ResourceTable} {caps : DeviceCaps} {unit : Nat}

theorem table_aside (unit : Nat) : Aside (CompileState.tableOf unit) := ⟨fun _ _ => rfl, fun _ _ => rfl⟩

theorem giveEntry_spares (unit : Nat) (name : String) : Spares (CompileState.tableOf unit) (giveEntry unit name) := by
  intro state entry after run
  have run := get_bind_ok run
  split at run
  · rw [(pure_ok run).2]
  · rename_i u found
    obtain ⟨_, middle, changed, run⟩ := bind_ok run
    rw [← (pure_ok run).2, modify_ok changed]
    simp [CompileState.tableOf, CompileState.symbols, found]

/-! ### Arguments -/

/-- A type that is spelled is declared. -/
theorem typeName_declares {type : ShaderType} {name : String} (inside : unit < state.units.length)
    (run : (typeName unit type).run state = .ok (name, after)) : Spells unit state [type] after := by
  have length_eq := (typeName_ok run).units
  have spelled := typeName_spells run
  obtain ⟨_, declared, changed, run⟩ := bind_ok (get_bind_ok run)
  obtain ⟨_, logged, traced, run⟩ := bind_ok run
  have noted : logged.tableOf unit = declared.tableOf unit :=
    Spares.forM (fun _ => .log (table_aside unit) _ _ _) _ traced
  have symbols_eq : logged.symbols unit = ((state.symbols unit).declare type).1 := by
    rw [(Prod.mk.inj noted).1, modify_ok changed, CompileState.symbols_modify inside]
    rfl
  have accepted : ((state.symbols unit).declare type).2 = .ok () ∧ after = logged := by
    split at run
    · exact (fail_ok run).elim
    · exact (fail_ok run).elim
    · rename_i done _
      exact ⟨done, (pure_ok run).2.symm⟩
  obtain ⟨done, rfl⟩ := accepted
  refine ⟨.cons (Prod.ext rfl done) ?_, List.forall_mem_singleton.mpr ⟨name, spelled⟩, length_eq⟩
  rw [symbols_eq]
  exact .nil _

/-- A type that the caller gives is not declared. -/
theorem spelled_declares {β : Type} {given : Option String} {type : ShaderType} {next : String → Compile β} {b : β}
    (inside : unit < state.units.length)
    (run : (match given with
      | some _ => do
        let element ← pure ""
        next element
      | none => do
        let element ← typeName unit type
        next element).run state = .ok (b, after)) :
    ∃ element middle, Spells unit state (if given.isSome then [] else [type]) middle ∧
      (next element).run middle = .ok (b, after) := by
  cases given with
  | some _ => exact ⟨"", state, .ofSame rfl, run⟩
  | none =>
    obtain ⟨element, middle, named, run⟩ := bind_ok run
    exact ⟨element, middle, typeName_declares inside named, run⟩

theorem bindPlain_declares {function : String} {argument : Argument} {binding : Nat} {stage : Stage}
    {bytes more : List BytesSlot} {bound : BoundVariable} (inside : unit < state.units.length)
    (run : (bindPlain table unit function argument binding stage bytes).run state = .ok ((bound, more), after)) :
    Spells unit state (argument.ownTypes table) after := by
  unfold bindPlain at run
  dsimp only at run
  rw [Argument.ownTypes]
  split at run
  · rename_i handle space kind
    obtain ⟨decl, middle, declared, run⟩ := bind_ok run
    have found := bufferDecl_found declared
    cases bufferDecl_ok declared
    obtain ⟨element, middle, spells, run⟩ := spelled_declares inside run
    have types_eq : (argument.kind.spelled? table).toList = [decl.element] := by
      simp [kind, ArgumentKind.spelled?, found]
    rw [types_eq]
    apply spells.still
    split at run
    · exact ((Spares.useBuffer (table_aside unit) _ _).bind fun _ => .ofPure _) run
    · exact ((Spares.useBuffer (table_aside unit) _ _).bind fun _ => .ofPure _) run
  · rename_i source kind
    obtain ⟨element, middle, spells, run⟩ := spelled_declares inside run
    rw [kind]
    exact spells.still (Spares.ofPure _ run)
  · rename_i handle access kind
    have none : (if argument.type.isSome then [] else (argument.kind.spelled? table).toList) = [] := by
      simp [kind, ArgumentKind.spelled?]
    rw [none]
    apply Spells.ofSame
    exact ((Spares.textureBinding _ _ _).bind fun _ =>
      (Spares.useTexture (table_aside unit) _ _).bind fun _ => .ofPure _) run
  · exact (fail_ok run).elim

theorem bindMembers_declares {block : String} {stage : Stage} {pool : IndexPool} {members : List Argument}
    {bound : List BoundVariable} (inside : unit < state.units.length)
    (run : (bindMembers table unit block stage pool members).run state = .ok (bound, after)) :
    Spells unit state (members.flatMap (Argument.ownTypes table)) after := by
  induction members generalizing pool state bound with
  | nil =>
    rw [bindMembers] at run
    exact .ofSame (Spares.ofPure _ run)
  | cons member rest ih =>
    rw [bindMembers] at run
    split at run
    · exact (fail_ok run).elim
    · exact (fail_ok run).elim
    all_goals
      obtain ⟨⟨first, _⟩, middle, one, run⟩ := bind_ok run
      obtain ⟨others, _, more, run⟩ := bind_ok run
      obtain ⟨rfl, rfl⟩ := pure_ok run
      have spells := bindPlain_declares inside one
      exact spells.trans (ih (spells.units ▸ inside) more)

/-- A block has the types of its members declared, registered or not. -/
theorem bindBlock_declares {function block : String} {members : List Argument} {stage : Stage} {place : Nat}
    {seen : List BoundVariable} (inside : unit < state.units.length)
    (run : (bindBlock table unit function block members stage).run state = .ok ((place, seen), after)) :
    Spells unit state (members.flatMap (Argument.ownTypes table)) after := by
  obtain ⟨_, _, middle, made, -, units, -⟩ := (bindBlock_run ⟨stage, block, members⟩ run).binds
  apply (bindMembers_declares inside made).still
  rw [CompileState.tableOf, CompileState.symbols, units]
  rfl

theorem bindArgument_declares {job : EntryJob} {entry : String} {argument : Argument} {scan result : ArgumentScan}
    (inside : unit < state.units.length)
    (run : (bindArgument table unit job entry scan argument).run state = .ok (result, after)) :
    Spells unit state (argument.types table) after := by
  unfold bindArgument at run
  dsimp only at run
  rw [Argument.types]
  split at run
  · rename_i name members kind
    obtain ⟨⟨place, seen⟩, middle, bound, run⟩ := bind_ok run
    obtain ⟨rfl, rfl⟩ := pure_ok run
    rw [Argument.parts, kind]
    exact bindBlock_declares inside bound
  · rename_i plain
    obtain ⟨⟨bound, bytes⟩, middle, made, run⟩ := bind_ok run
    obtain ⟨rfl, rfl⟩ := pure_ok run
    rw [Argument.parts_plain plain, List.flatMap_singleton]
    exact bindPlain_declares inside made

/-- Binding the arguments of an entry point declares their types in order. -/
theorem bindArguments_declares {job : EntryJob} {entry : String} {scan result : ArgumentScan}
    (inside : unit < state.units.length)
    (run : (bindArguments table unit job entry scan).run state = .ok (result, after)) :
    Spells unit state (job.arguments.flatMap (Argument.types table)) after := by
  unfold bindArguments at run
  generalize job.arguments = rest at run
  induction rest generalizing scan state with
  | nil => exact .ofSame (Spares.ofPure _ run)
  | cons argument rest ih =>
    rw [List.foldlM_cons] at run
    obtain ⟨next, middle, bound, run⟩ := bind_ok run
    have spells := bindArgument_declares inside bound
    exact spells.trans (ih (spells.units ▸ inside) run)

/-! ### Leaves -/

theorem EntryRun.declares {job : EntryJob} {pool : IndexPool} {bindings : LeafBindings}
    (made : EntryRun table unit job pool bindings state) (inside : unit < state.units.length) :
    Spells unit state (job.arguments.flatMap (Argument.types table)) made.after := by
  have named := giveEntry_spares unit _ made.names
  have length_eq : made.named.units.length = state.units.length := (Prod.mk.inj named).2
  exact .after named (bindArguments_declares (length_eq ▸ inside) made.binds)

theorem tableOf_withText (state : CompileState) (unit : Nat) (text : LeafText) :
    (state.withText unit text).tableOf unit = state.tableOf unit :=
  CompileState.tableOf_modify fun _ => rfl

/-- A leaf has its types declared in its unit. -/
theorem leaf_declares {node : Leaf} {compiled : CompiledLeaf} (inside : unit < state.units.length)
    (run : (leaf table caps unit node).run state = .ok (compiled, after)) :
    Spells unit state (node.types table) after := by
  rw [Leaf.types]
  cases node with
  | dispatch node =>
    obtain ⟨_, _, ran, run⟩ := bind_ok run
    obtain ⟨rfl, rfl⟩ := pure_ok run
    obtain ⟨made, rfl, rfl⟩ := dispatch_run ran
    have named : made.noted.tableOf unit = state.tableOf unit := by
      rw [← giveEntry_spares unit _ made.names, CompileState.tableOf, CompileState.symbols, made.unaltered]
      rfl
    have length_eq : made.noted.units.length = state.units.length := (Prod.mk.inj named).2
    have spells := bindArguments_declares (length_eq ▸ inside) made.binds
    rw [(locate_ok made.located).1] at spells
    exact (Spells.after named spells).still (tableOf_withText _ _ _)
  | draw node =>
    obtain ⟨_, _, ran, run⟩ := bind_ok run
    obtain ⟨rfl, rfl⟩ := pure_ok run
    obtain ⟨made, rfl, rfl⟩ := draw_run ran
    have first := made.first.declares inside
    have second := made.second.declares (first.units ▸ inside)
    rw [(locate_ok made.vertexLocated).1] at first
    rw [(locate_ok made.fragmentLocated).1] at second
    have both := (first.trans second).still (Spares.drawResources (table_aside unit) node made.uses)
    rw [← List.flatMap_append] at both
    exact both.still (tableOf_withText _ _ _)
  | blit node =>
    obtain ⟨_, _, ran, run⟩ := bind_ok run
    obtain ⟨rfl, rfl⟩ := pure_ok run
    exact .ofSame (Spares.blit (table_aside unit) node ran)
  | filter node =>
    obtain ⟨_, _, ran, run⟩ := bind_ok run
    obtain ⟨rfl, rfl⟩ := pure_ok run
    exact .ofSame (Spares.filter (table_aside unit) node ran)
  | callback node => exact .ofSame (Spares.ofPure _ run)

/-- A unit has the types of its own leaves declared, whatever leaves of other units come in between. -/
theorem mapM_declares {leaves : List FlatLeaf} {compiled : List CompiledLeaf} (sane : state.Sane)
    (inside : ∀ flat ∈ leaves, flat.unit < state.units.length)
    (run : (leaves.mapM (flatLeaf table caps)).run state = .ok (compiled, after)) :
    Spells unit state ((leaves.filter (·.unit = unit)).flatMap (·.node.types table)) after := by
  induction leaves generalizing state compiled with
  | nil =>
    rw [List.mapM_nil] at run
    exact .ofSame (Spares.ofPure _ run)
  | cons flat rest ih =>
    rw [List.mapM_cons] at run
    obtain ⟨first, next, one, run⟩ := bind_ok run
    obtain ⟨others, last, more, run⟩ := bind_ok run
    obtain ⟨rfl, rfl⟩ := pure_ok run
    rw [List.forall_mem_cons] at inside
    obtain ⟨evolves, apart⟩ := flatLeaf_apart sane inside.1 one
    have later := ih (evolves.sane sane) (evolves.units ▸ inside.2) more
    by_cases here : flat.unit = unit
    · obtain ⟨made, middle, leafed, one⟩ := bind_ok one
      obtain ⟨_, _, traced, one⟩ := bind_ok one
      obtain ⟨rfl, rfl⟩ := pure_ok one
      subst here
      have spells := (leaf_declares inside.1 leafed).still (Spares.log (table_aside _) _ _ _ traced)
      simpa using spells.trans later
    · have same : next.tableOf unit = state.tableOf unit := by
        rw [CompileState.tableOf, CompileState.symbols, apart unit (Ne.symm here), evolves.units]
        rfl
      simpa [here] using Spells.after same later

theorem startState_symbols (program : Program) (unit : Nat) : (startState program).symbols unit = .empty := by
  cases found : (Flattened.ofProgram program).units[unit]? <;>
    simp [startState, CompileState.symbols, found, UnitState.start]

end Compile

/-! ### The text of a unit -/

/-- The line of a record that a member stands on. -/
def FieldOf.written (field : Field) : String := "    " ++ field.name ++ ": " ++ field.type.name.toOption.getD "" ++ ",\n"

/-- The text that declares a record. -/
def RecordOf.written (record : Record) : String :=
  "struct " ++ record.name ++ " \x7b\n" ++ String.join (record.fields.map FieldOf.written) ++ "\x7d\n"

/-- The types of all members have names. -/
def RecordOf.Spelled (record : Record) : Prop := ∀ field ∈ record.fields, ∃ name, field.type.name = .ok name

/-- The text of a unit: its records with an empty line behind each, its trimmed library unless that is empty, and the
texts of its leaves. -/
def CompiledUnit.written (unit : CompiledUnit) (library : String) : String :=
  let trimmed := Text.trim library.toList
  String.join (unit.records.map fun record => record.written ++ "\n") ++
    (if trimmed = [] then "" else String.ofList trimmed ++ "\n\n") ++ String.join (unit.leaves.map LeafText.written)

theorem RecordOf.memberLines_ok {fields : List Field} {text : String} (run : memberLines fields = .ok text) :
    (∀ field ∈ fields, ∃ name, field.type.name = .ok name) ∧ text = String.join (fields.map FieldOf.written) := by
  induction fields generalizing text with
  | nil =>
    cases run
    exact ⟨List.forall_mem_nil _, rfl⟩
  | cons field rest ih =>
    obtain ⟨type, spelled, run⟩ := bind_eq_ok run
    obtain ⟨lines, more, run⟩ := bind_eq_ok run
    cases run
    obtain ⟨named, rfl⟩ := ih more
    refine ⟨List.forall_mem_cons.mpr ⟨⟨type, spelled⟩, named⟩, ?_⟩
    rw [List.map_cons, String.join_cons, FieldOf.written, spelled]
    rfl

theorem RecordOf.declaration_ok {record : Record} {text : String} (run : record.declaration = .ok text) :
    record.Spelled ∧ text = record.written := by
  obtain ⟨lines, spelled, run⟩ := bind_eq_ok run
  cases run
  obtain ⟨named, rfl⟩ := memberLines_ok spelled
  exact ⟨named, rfl⟩

theorem SymbolTable.declarationLines_ok {records : List Record} {text : String}
    (run : declarationLines records = .ok text) :
    (∀ record ∈ records, record.Spelled) ∧ text = String.join (records.map fun record => record.written ++ "\n") := by
  induction records generalizing text with
  | nil =>
    cases run
    exact ⟨List.forall_mem_nil _, rfl⟩
  | cons record rest ih =>
    obtain ⟨first, declared, run⟩ := bind_eq_ok run
    obtain ⟨lines, more, run⟩ := bind_eq_ok run
    cases run
    obtain ⟨spelled, rfl⟩ := RecordOf.declaration_ok declared
    obtain ⟨named, rfl⟩ := ih more
    refine ⟨List.forall_mem_cons.mpr ⟨spelled, named⟩, ?_⟩
    rw [List.map_cons, String.join_cons]

/-- A finished unit has its records, whose members have types with names, and its text. -/
theorem UnitState.finish_written {unit : UnitState} {finished : CompiledUnit} (done : unit.finish = .ok finished) :
    finished.records = unit.symbols.records ∧ (∀ record ∈ finished.records, record.Spelled) ∧
      finished.source = finished.written unit.library := by
  obtain ⟨source, written, done⟩ := bind_eq_ok done
  cases done
  obtain ⟨text, declared, written⟩ := bind_eq_ok written
  cases written
  obtain ⟨spelled, rfl⟩ := SymbolTable.declarationLines_ok declared
  refine ⟨rfl, spelled, ?_⟩
  simp only [CompiledUnit.written, ← funext LeafText.text_eq, List.isEmpty_iff]

/-- The records of a unit are those inside these types. Its text starts with their declarations, and a record stands
behind those inside it. -/
structure CompiledUnit.Declares (types : List ShaderType) (unit : CompiledUnit) : Prop where
  mem_iff : ∀ record, record ∈ unit.records ↔ ∃ type ∈ types, type.Contains record
  names_nodup : (unit.records.map (·.name)).Nodup
  inner_first : ∀ front outer rest, unit.records = front ++ outer :: rest →
    ∀ inner, outer.Contains inner → inner ∈ front
  /-- Records of one name are one record. -/
  eq_of_name : ∀ one ∈ types, ∀ other ∈ types, ∀ a b, one.Contains a → other.Contains b → a.name = b.name → a = b
  spelled : ∀ record ∈ unit.records, record.Spelled
  written : ∃ rest, unit.source = String.join (unit.records.map fun record => record.written ++ "\n") ++ rest

/-- The types that are spelled for a unit of a compiled program have names, its table has the records inside them, and
its text reads as its records, its library and its leaves. -/
theorem Program.compile_symbols {source : Program} {table : ResourceTable} {caps : DeviceCaps} {program : CompiledProgram}
    {log : List LogLine} (compiled : source.compile table caps = .ok (program, log)) {place : Nat} {unit : CompiledUnit}
    (found : program.units[place]? = some unit) :
    ∃ symbols : SymbolTable, symbols.WellFormed ∧ unit.records = symbols.records ∧
      (∀ type ∈ source.unitTypes table place, ∃ name, type.name = .ok name) ∧
      (∀ record, record ∈ symbols.records ↔ ∃ type ∈ source.unitTypes table place, type.Contains record) ∧
      (∀ record ∈ unit.records, record.Spelled) ∧
      ∃ decl, (Flattened.ofProgram source).units[place]? = some decl ∧ unit.source = unit.written decl.library := by
  obtain ⟨leaves, state, units, run, finished, rfl⟩ := Program.compile_eq_ok compiled
  have run : Compile.runLeaves table caps source = .ok (leaves, state) := run
  have spells : CompileState.Spells place _ _ state :=
    Compile.mapM_declares (Compile.startState_sane source) (Compile.startState_inUnits source) run
  have declares := spells.declares
  rw [Compile.startState_symbols] at declares
  obtain ⟨wellFormed, mem_iff⟩ := declares.adds .empty
  obtain ⟨inside, -⟩ := List.getElem?_eq_some_iff.mp found
  have there : place < state.units.length := (Compile.finishUnits_ok finished).length_eq ▸ inside
  obtain ⟨done, same, finish⟩ := Compile.finishUnits_at finished (List.getElem?_eq_getElem there)
  cases found.symm.trans same
  have kept : state.units.length = (Flattened.ofProgram source).units.length := spells.units.trans (List.length_map _)
  have declared := List.getElem?_eq_getElem (kept ▸ there)
  obtain ⟨early, stands, -, library⟩ := Compile.runLeaves_unit run declared
  rw [List.getElem?_eq_getElem there] at stands
  cases stands
  have symbols_eq : state.symbols place = state.units[place].symbols := by
    simp [CompileState.symbols, List.getElem?_eq_getElem there]
  rw [symbols_eq] at wellFormed mem_iff
  obtain ⟨records_eq, spelled, written⟩ := UnitState.finish_written finish
  refine ⟨_, wellFormed, records_eq, spells.named, fun record => ?_, spelled, _, declared, library ▸ written⟩
  rw [mem_iff]
  simp [SymbolTable.empty, Program.unitTypes]

/-- Every unit of a compiled program declares the records inside the types that are spelled for its own leaves. -/
theorem Program.records_declared {source : Program} {table : ResourceTable} {caps : DeviceCaps}
    {program : CompiledProgram} {log : List LogLine} (compiled : source.compile table caps = .ok (program, log))
    {place : Nat} {unit : CompiledUnit} (found : program.units[place]? = some unit) :
    unit.Declares (source.unitTypes table place) := by
  obtain ⟨symbols, wellFormed, records_eq, -, mem_iff, spelled, decl, -, written⟩ := source.compile_symbols compiled found
  constructor
  · rw [records_eq]
    exact mem_iff
  · rw [records_eq]
    exact wellFormed.names_nodup
  · rw [records_eq]
    exact wellFormed.inner_first
  · intro one known other known' a b inside inside' same
    exact wellFormed.eq_of_name ((mem_iff a).mpr ⟨one, known, inside⟩) ((mem_iff b).mpr ⟨other, known', inside'⟩) same
  · exact spelled
  · exact ⟨_, written.trans (String.append_assoc ..)⟩

/-- A record of four records. -/
def nestedBuffer : BufferDecl :=
  ⟨"x", .record ⟨"Outer", [⟨"items", .array (.record ⟨"Inner", [⟨"a", .scalar .f32, 0⟩], 4⟩) 4, 0⟩], 16⟩, 16, .fixed 4⟩

/-- The unit of an isolated group declares the records of a block that the main unit has registered. -/
theorem Program.records_declared_nested :
    ∃ program log unit, blockKernels.compile { buffers := [nestedBuffer] } {} = .ok (program, log) ∧
      program.units[1]? = some unit ∧ unit.Declares (blockKernels.unitTypes { buffers := [nestedBuffer] } 1) ∧
      unit.records.map (·.name) = ["Inner", "Outer"] := by
  have run : (blockKernels.compile { buffers := [nestedBuffer] } {}).toOption.bind
      (fun result => result.1.units[1]?.map fun unit => unit.records.map (·.name)) = some ["Inner", "Outer"] := by
    decide +kernel
  obtain ⟨⟨program, log⟩, read, names⟩ := Option.bind_eq_some_iff.mp run
  obtain ⟨unit, found, names⟩ := Option.map_eq_some_iff.mp names
  have compiled := ok_of_toOption read
  exact ⟨program, log, unit, compiled, found, blockKernels.records_declared compiled found, names⟩

end FrameGraph
