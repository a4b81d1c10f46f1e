import FrameGraph.Proofs.Compile.Variables
import Mathlib.Data.List.Pairwise

/-! # Names in a unit

A variable is declared under the name of its entry point and its own, joined by two underscores. Entry points of a
unit have different names, and so have the arguments of each; but a joined name can be read in more than one way,
and the variable for the grid's extent takes a name that an argument may have.
-/

namespace FrameGraph

variable {table : ResourceTable} {caps : DeviceCaps} {state after : CompileState}

namespace Naming

theorem global_eq (entry name : String) : global entry name = entry ++ "__" ++ name := rfl

theorem toList_global (entry name : String) : (global entry name).toList = entry.toList ++ '_' :: '_' :: name.toList := by
  rw [global_eq, String.toList_append, String.toList_append, List.append_assoc]
  rfl

/-- The variables of an entry point that continues the name of another may be taken for those of the other. -/
def Continues (entry name other rest : String) : Prop :=
  (other = entry ++ "_" ∧ name = "_" ++ rest) ∨ ∃ between, other = global entry between ∧ name = global between rest

theorem continues_iff (entry name other rest : String) :
    Continues entry name other rest ↔ ∃ more, more ≠ [] ∧ other.toList = entry.toList ++ more ∧
      '_' :: '_' :: name.toList = more ++ '_' :: '_' :: rest.toList := by
  simp only [Continues, ← String.toList_inj, String.toList_append, toList_global]
  constructor
  · rintro (⟨same, rfl_name⟩ | ⟨between, same, rfl_name⟩)
    · exact ⟨['_'], List.cons_ne_nil _ _, same, by rw [rfl_name]; rfl⟩
    · exact ⟨'_' :: '_' :: between.toList, List.cons_ne_nil _ _, same, by rw [rfl_name]; rfl⟩
  · rintro ⟨more, some, same, joined⟩
    match more with
    | [] => exact absurd rfl some
    | [first] =>
      simp only [List.cons_append, List.nil_append, List.cons.injEq] at joined
      obtain ⟨rfl, -, joined⟩ := joined
      exact .inl ⟨same, joined⟩
    | first :: second :: between =>
      simp only [List.cons_append, List.cons.injEq] at joined
      obtain ⟨rfl, rfl, joined⟩ := joined
      exact .inr ⟨.ofList between, by simpa using same, by simpa using joined⟩

/-- Two joined names are the same only if they are joined of the same parts, or one of the entry points continues
the name of the other. -/
theorem global_eq_global_iff (entry name other rest : String) :
    global entry name = global other rest ↔
      (entry = other ∧ name = rest) ∨ Continues entry name other rest ∨ Continues other rest entry name := by
  rw [continues_iff, continues_iff, ← String.toList_inj, toList_global, toList_global, List.append_eq_append_iff]
  constructor
  · rintro (⟨more, same, joined⟩ | ⟨more, same, joined⟩)
    · by_cases none : more = []
      · subst none
        have equal : entry = other := String.toList_inj.mp (by simpa using same.symm)
        exact .inl ⟨equal, String.toList_inj.mp (by simpa using joined)⟩
      · exact .inr (.inl ⟨more, none, same, joined⟩)
    · by_cases none : more = []
      · subst none
        have equal : entry = other := String.toList_inj.mp (by simpa using same)
        exact .inl ⟨equal, String.toList_inj.mp (by simpa using joined.symm)⟩
      · exact .inr (.inr ⟨more, none, same, joined⟩)
  · rintro (⟨rfl, rfl⟩ | ⟨more, -, same, joined⟩ | ⟨more, -, same, joined⟩)
    · exact .inl ⟨[], (List.append_nil _).symm, rfl⟩
    · exact .inl ⟨more, same, joined⟩
    · exact .inr ⟨more, same, joined⟩

theorem Continues.ne {entry name other rest : String} (continues : Continues entry name other rest) : entry ≠ other := by
  rintro rfl
  obtain ⟨more, some, same, -⟩ := (continues_iff entry name entry rest).mp continues
  exact some (List.self_eq_append_right.mp same)

theorem global_injective (entry : String) : Function.Injective (global entry) := by
  intro name rest same
  obtain ⟨-, equal⟩ | continues | continues := (global_eq_global_iff entry name entry rest).mp same
  · exact equal
  · exact absurd rfl continues.ne
  · exact absurd rfl continues.ne

/-- A joined name is longer than the name of its entry point. -/
theorem global_ne (entry name : String) : global entry name ≠ entry := by
  intro same
  have length := congrArg (List.length ∘ String.toList) same
  simp only [Function.comp_apply, toList_global, List.length_append, List.length_cons] at length
  omega

end Naming

/-- The name of the grid's extent inside a kernel that binds it. -/
def gridNames (binds : Bool) : List String := if binds then [gridSizeName] else []

/-- An entry point of a unit with the names that are declared for it. -/
structure EntryScope where
  entry : String
  arguments : List String
  /-- Its leaf binds the extent of its grid. -/
  grid : Bool
deriving DecidableEq

namespace EntryScope

def names (scope : EntryScope) : List String := scope.arguments ++ gridNames scope.grid

/-- The variables that are declared for the entry point. -/
def globals (scope : EntryScope) : List String := scope.names.map (Naming.global scope.entry)

/-- A variable of the entry point has the name of another entry point or of a variable of one that continues its
name. -/
def Clashes (scope other : EntryScope) : Prop :=
  ∃ name ∈ scope.names, other.entry = Naming.global scope.entry name ∨
    ∃ rest ∈ other.names, Naming.Continues scope.entry name other.entry rest

theorem Clashes.ne {scope other : EntryScope} (clashes : scope.Clashes other) : scope.entry ≠ other.entry := by
  obtain ⟨name, -, same | ⟨rest, -, continues⟩⟩ := clashes
  · rw [same]
    exact (Naming.global_ne _ _).symm
  · exact continues.ne

/-- Entry points of different names share no name exactly when neither clashes with the other. -/
theorem disjoint_iff {scope other : EntryScope} (apart : scope.entry ≠ other.entry) :
    (scope.entry :: scope.globals).Disjoint (other.entry :: other.globals) ↔
      ¬scope.Clashes other ∧ ¬other.Clashes scope := by
  constructor
  · intro disjoint
    refine ⟨?_, ?_⟩
    · rintro ⟨name, found, same | ⟨rest, has, continues⟩⟩
      · exact disjoint (.tail _ (List.mem_map_of_mem found)) (same ▸ .head _)
      · have same := (Naming.global_eq_global_iff _ name _ rest).mpr (.inr (.inl continues))
        exact disjoint (.tail _ (List.mem_map_of_mem found)) (same ▸ .tail _ (List.mem_map_of_mem has))
    · rintro ⟨name, found, same | ⟨rest, has, continues⟩⟩
      · exact disjoint (same ▸ .head _) (.tail _ (List.mem_map_of_mem found))
      · have same := (Naming.global_eq_global_iff _ rest _ name).mpr (.inr (.inr continues))
        exact disjoint (.tail _ (List.mem_map_of_mem has)) (same ▸ .tail _ (List.mem_map_of_mem found))
  · rintro ⟨one, two⟩ text left right
    obtain rfl | left := List.mem_cons.mp left
    · obtain same | right := List.mem_cons.mp right
      · exact apart same
      · obtain ⟨name, found, same⟩ := List.mem_map.mp right
        exact two ⟨name, found, .inl same.symm⟩
    · obtain ⟨name, found, rfl⟩ := List.mem_map.mp left
      obtain same | right := List.mem_cons.mp right
      · exact one ⟨name, found, .inl same.symm⟩
      · obtain ⟨rest, has, same⟩ := List.mem_map.mp right
        obtain ⟨equal, -⟩ | continues | continues := (Naming.global_eq_global_iff _ _ _ _).mp same
        · exact apart equal.symm
        · exact two ⟨rest, has, .inr ⟨name, found, continues⟩⟩
        · exact one ⟨name, found, .inr ⟨rest, has, continues⟩⟩

/-- The names of one entry point are different exactly when no argument takes the name of the grid's extent. -/
theorem nodup_iff {scope : EntryScope} (arguments : scope.arguments.Nodup) :
    (scope.entry :: scope.globals).Nodup ↔ (scope.grid → gridSizeName ∉ scope.arguments) := by
  have apart : scope.entry ∉ scope.globals := by
    intro found
    obtain ⟨name, -, same⟩ := List.mem_map.mp found
    exact Naming.global_ne scope.entry name same
  rw [List.nodup_cons, and_iff_right apart, globals, List.nodup_map_iff (Naming.global_injective scope.entry), names,
    gridNames]
  cases scope.grid with
  | false => simpa using arguments
  | true =>
    rw [if_pos rfl, List.nodup_append]
    constructor
    · intro held _ found
      exact held.2.2 gridSizeName found gridSizeName (.head _) rfl
    · intro free
      refine ⟨arguments, List.nodup_singleton _, ?_⟩
      rintro name found other has rfl
      exact free rfl (List.mem_singleton.mp has ▸ found)

/-- What the names of several entry points come to. -/
theorem flatMap_nodup_iff {scopes : List EntryScope} (entries : (scopes.map (·.entry)).Nodup)
    (arguments : ∀ scope ∈ scopes, scope.arguments.Nodup) :
    (scopes.flatMap fun scope => scope.entry :: scope.globals).Nodup ↔
      (∀ scope ∈ scopes, scope.grid → gridSizeName ∉ scope.arguments) ∧
        ∀ scope ∈ scopes, ∀ other ∈ scopes, ¬scope.Clashes other := by
  have apart : scopes.Pairwise fun scope other => scope.entry ≠ other.entry := List.pairwise_map.mp entries
  rw [List.nodup_flatMap]
  refine and_congr (forall₂_congr fun scope found => nodup_iff (arguments scope found)) ?_
  constructor
  · intro disjoint scope found other has clashes
    have different : scope ≠ other := fun same => clashes.ne (congrArg entry same)
    have symmetric : Std.Symm (Function.onFun List.Disjoint fun scope : EntryScope => scope.entry :: scope.globals) :=
      ⟨fun _ _ apart _ left right => apart right left⟩
    exact ((disjoint_iff clashes.ne).mp (disjoint.forall found has different)).1 clashes
  · intro none
    refine apart.imp_of_mem fun {scope other} found has different => ?_
    exact (disjoint_iff different).mpr ⟨none scope found other has, none other has scope found⟩

end EntryScope

/-- The entry points of a leaf. -/
def Leaf.scopes (node : Leaf) (compiled : CompiledLeaf) : List EntryScope :=
  (node.functions compiled).map fun function =>
    ⟨function.entry, function.arguments.flatMap EntryJob.argumentNames, compiled.groups.any GroupBinding.bindsGrid⟩

/-- The text of an entry point declares the variables of its scope. -/
structure EntryText.Declares (scope : EntryScope) (text : EntryText) : Prop where
  entry_eq : text.entry = scope.entry
  perm : (text.declarations.map (·.name)).Perm scope.globals

/-- The names of an entry point's variables are joined of its own name and those of its arguments. -/
theorem LeafFunction.spellings_names (table : ResourceTable) (function : LeafFunction) :
    (function.spellings table).map (·.1) =
      (function.arguments.flatMap EntryJob.argumentNames).map (Naming.global function.entry) := by
  rw [LeafFunction.spellings, List.map_flatMap, List.map_flatMap]
  refine List.flatMap_congr fun argument _ => ?_
  rw [Argument.spellings, ← argument.parts_names, List.map_map, List.map_map]
  rfl

theorem CompiledDispatch.extents_names (leaf : CompiledDispatch) : (CompiledLeaf.dispatch leaf).extents.map (·.1) =
    (gridNames (leaf.groups.any GroupBinding.bindsGrid)).map (Naming.global leaf.entry) := by
  rw [CompiledLeaf.extents, gridNames]
  cases leaf.groups.any GroupBinding.bindsGrid <;> rfl

namespace Compile.LeafRun

variable {unit : Nat} {node : Leaf} {compiled : CompiledLeaf} {text : LeafText}

/-- The variable for the grid's extent is that of the entry point. -/
theorem extents_names (run : LeafRun table caps unit state node compiled text after) :
    ∀ function ∈ node.functions compiled, compiled.extents.map (·.1) =
      (gridNames (compiled.groups.any GroupBinding.bindsGrid)).map (Naming.global function.entry) := by
  cases run with
  | kernel made => exact List.forall_mem_singleton.mpr made.compiled.extents_names
  | draw made =>
    have unread : (CompiledLeaf.draw made.compiled).groups.any GroupBinding.bindsGrid = false := made.gathers.unread
    intro function _
    rw [unread]
    rfl

/-- The names of the arguments of an entry point are different. -/
theorem arguments_nodup (run : LeafRun table caps unit state node compiled text after) :
    ∀ scope ∈ node.scopes compiled, scope.arguments.Nodup := by
  cases run with
  | kernel made => exact List.forall_mem_singleton.mpr (locate_ok made.located).2
  | draw made =>
    exact List.forall_mem_cons.mpr ⟨(locate_ok made.vertexLocated).2,
      List.forall_mem_singleton.mpr (locate_ok made.fragmentLocated).2⟩

/-- An emitted text declares the variables of its leaf's entry points. -/
theorem declares (run : LeafRun table caps unit state node compiled text after) (sane : state.Sane)
    (inside : unit < state.units.length) : List.Forall₂ EntryText.Declares (node.scopes compiled) text.entries := by
  rw [Leaf.scopes, List.forall₂_map_left_iff]
  have spells := run.spells sane inside
  refine List.forall₂_iff_zip.mpr ⟨spells.length_eq, fun {function entry} found => ?_⟩
  obtain ⟨entry_eq, perm⟩ := (List.forall₂_iff_zip.mp spells).2 found
  refine ⟨entry_eq, ?_⟩
  have names := perm.map Prod.fst
  rw [List.map_map, List.map_append, function.spellings_names, run.extents_names function (List.of_mem_zip found).1,
    ← List.map_append] at names
  exact names

end Compile.LeafRun

/-- The names of everything that is declared in a unit by its leaves. -/
def CompiledUnit.names (unit : CompiledUnit) : List String :=
  unit.leaves.flatMap fun text => text.entries.flatMap fun entry => entry.entry :: entry.declarations.map (·.name)

/-- The entry points of a unit. -/
def Program.scopes (source : Program) (program : CompiledProgram) (unit : Nat) : List EntryScope :=
  ((source.compiledLeaves program).filter (·.2.unit? = some unit)).flatMap fun leaf => leaf.1.node.scopes leaf.2

/-- The entry points of a unit are those of its texts, and their arguments have different names. -/
theorem Program.scopes_declares {source : Program} {program : CompiledProgram} {log : List LogLine}
    (compiled : source.compile table caps = .ok (program, log)) {place : Nat} {unit : CompiledUnit}
    (found : program.units[place]? = some unit) :
    List.Forall₂ EntryText.Declares (source.scopes program place) (unit.leaves.flatMap (·.entries)) ∧
      ((source.scopes program place).map (·.entry)).Nodup ∧
      ∀ scope ∈ source.scopes program place, scope.arguments.Nodup := by
  obtain ⟨⟨last, emits⟩, distinct⟩ := Program.compile_emitted compiled found
  have each : ∀ leaf text, last.Emits table caps leaf text →
      List.Forall₂ EntryText.Declares (leaf.1.node.scopes leaf.2) text.entries ∧
        ∀ scope ∈ leaf.1.node.scopes leaf.2, scope.arguments.Nodup := by
    rintro leaf text ⟨before, after, sane, inside, run, -⟩
    exact ⟨run.declares sane inside, run.arguments_nodup⟩
  have all : List.Forall₂ EntryText.Declares (source.scopes program place) (unit.leaves.flatMap (·.entries)) :=
    List.rel_flatMap emits fun _ _ emits => (each _ _ emits).1
  refine ⟨all, ?_, fun scope found => ?_⟩
  · have entries : (source.scopes program place).map (·.entry) = (unit.leaves.flatMap (·.entries)).map (·.entry) := by
      rw [← List.forall₂_eq_eq_eq, List.forall₂_map_left_iff, List.forall₂_map_right_iff]
      exact all.imp fun _ _ declares => declares.entry_eq.symm
    rw [entries, List.map_flatMap]
    exact distinct
  · obtain ⟨leaf, listed, found⟩ := List.mem_flatMap.mp found
    have emits := (List.forall₂_and_left _ _).mp (emits.imp fun leaf text emits => ⟨(each leaf text emits).2, emits⟩)
    exact emits.1 leaf listed scope found

/-- The names that are declared in a unit are all different exactly when no kernel that binds the extent of its grid
has an argument of that name, and no variable clashes with another entry point or its variables. -/
theorem Program.unit_names_nodup_iff {source : Program} {program : CompiledProgram} {log : List LogLine}
    (compiled : source.compile table caps = .ok (program, log)) {place : Nat} {unit : CompiledUnit}
    (found : program.units[place]? = some unit) :
    unit.names.Nodup ↔
      (∀ scope ∈ source.scopes program place, scope.grid → gridSizeName ∉ scope.arguments) ∧
        ∀ scope ∈ source.scopes program place, ∀ other ∈ source.scopes program place, ¬scope.Clashes other := by
  obtain ⟨declares, entries, arguments⟩ := source.scopes_declares compiled found
  have perm : ((source.scopes program place).flatMap fun scope => scope.entry :: scope.globals).Perm unit.names := by
    rw [CompiledUnit.names, ← List.flatMap_assoc]
    refine List.flatMap_perm_of_forall₂ (fun scope text declares => ?_) declares
    rw [declares.entry_eq]
    exact declares.perm.symm.cons _
  rw [← perm.nodup_iff]
  exact EntryScope.flatMap_nodup_iff entries arguments

/-- A draw has no grid, so none of its groups binds the extent of one. -/
theorem Program.draw_unread {source : Program} {program : CompiledProgram} {log : List LogLine}
    (compiled : source.compile table caps = .ok (program, log)) {flat : FlatLeaf} {draw : CompiledDraw}
    (listed : (flat, .draw draw) ∈ source.compiledLeaves program) : draw.groups.any GroupBinding.bindsGrid = false := by
  obtain ⟨unit, found, text, emitted, last, before, after, sane, inside, run, -⟩ := source.leaf_emitted compiled listed rfl
  dsimp only at run
  generalize flat.node = node, is : CompiledLeaf.draw draw = leaf at run
  cases run with
  | kernel made => cases is
  | draw made =>
    obtain rfl := CompiledLeaf.draw.inj is
    exact made.gathers.unread

/-- Two kernels of one unit; the name of the second continues that of the first. -/
def continuedKernels : Program where
  library := ""
  root := [
    .leaf (.dispatch {
      label := "a"
      source := "@compute fn a() { b__c[gid.x] = 1u; }"
      function := "a"
      arguments := [⟨"b__c", none, none, .buffer ⟨0⟩ (.storage false)⟩]
      fits := [.fixed ⟨4, 1, 1⟩] }),
    .leaf (.dispatch {
      label := "a__b"
      source := "@compute fn a__b() { c[gid.x] = 1u; }"
      function := "a__b"
      arguments := [⟨"c", none, none, .buffer ⟨1⟩ (.storage false)⟩]
      fits := [.fixed ⟨4, 1, 1⟩] })]

/-- They compile, and the unit declares one variable for both. -/
theorem Program.unit_names_not_nodup :
    ∃ program log unit,
      continuedKernels.compile { buffers := [⟨"x", .scalar .u32, 4, .fixed 4⟩, ⟨"y", .scalar .u32, 4, .fixed 4⟩] } {} =
        .ok (program, log) ∧ program.units[0]? = some unit ∧ ¬unit.names.Nodup := by
  have run : (match continuedKernels.compile
      { buffers := [⟨"x", .scalar .u32, 4, .fixed 4⟩, ⟨"y", .scalar .u32, 4, .fixed 4⟩] } {} with
    | .ok (program, _) => (program.units[0]?).isSome &&
        continuedKernels.scopes program 0 == [⟨"a", ["b__c"], true⟩, ⟨"a__b", ["c"], true⟩]
    | .error _ => false) = true := by decide +kernel
  cases compiled : continuedKernels.compile
      { buffers := [⟨"x", .scalar .u32, 4, .fixed 4⟩, ⟨"y", .scalar .u32, 4, .fixed 4⟩] } {} with
  | error _ =>
    rw [compiled] at run
    cases run
  | ok result =>
    obtain ⟨program, log⟩ := result
    rw [compiled] at run
    simp only [Bool.and_eq_true, Option.isSome_iff_exists, beq_iff_eq] at run
    obtain ⟨⟨unit, found⟩, scopes⟩ := run
    refine ⟨program, log, unit, rfl, found, fun nodup => ?_⟩
    have apart := ((continuedKernels.unit_names_nodup_iff compiled found).mp nodup).2
    rw [scopes] at apart
    exact apart _ (.head _) _ (.tail _ (.head _))
      ⟨"b__c", .head _, .inr ⟨"c", .head _, .inr ⟨"b", by decide, by decide⟩⟩⟩

end FrameGraph
