import FrameGraph.Proofs.Compile.Emitted
import FrameGraph.Proofs.Compile.Listing

/-! # Variables of entry points

A text declares for each of its entry points one variable for every argument and every block member of it, joined of both
names and with the type that the argument is spelled with, and for a kernel one more when a bind group reads the extent
of its grid.
-/

namespace FrameGraph

variable {table : ResourceTable} {caps : DeviceCaps} {state after : CompileState}

/-- A variable by its name and the spelling of its type. -/
abbrev Spelling := String × Option String

/-- What an argument binds: a block binds its members. -/
def Argument.parts (argument : Argument) : List Argument :=
  match argument.kind with
  | .block _ members => members
  | _ => [argument]

theorem Argument.parts_plain {argument : Argument} (plain : ∀ name members, argument.kind ≠ .block name members) :
    argument.parts = [argument] := by
  rw [parts]
  split
  · rename_i name members kind
    exact absurd kind (plain name members)
  · rfl

theorem Argument.parts_names (argument : Argument) : argument.parts.map (·.name) = EntryJob.argumentNames argument := by
  cases is : argument.kind with
  | block name members => simp only [parts, EntryJob.argumentNames, is]
  | _ => simp only [parts, EntryJob.argumentNames, is, List.map_singleton]

/-- The type that an argument is spelled with: the caller's, or that of the host value, of the texture or of the buffer
with its element. A block has none of its own. -/
def Argument.written? (table : ResourceTable) (argument : Argument) : Option String :=
  match argument.kind with
  | .buffer handle space => (table.buffer? handle).bind fun decl =>
    argument.type <|> decl.element.name.toOption.map space.typeName
  | .bytes source => argument.type <|> source.type.name.toOption
  | .texture handle access => (table.texture? handle).map fun decl => argument.type.getD (decl.typeName access)
  | .block .. => none

/-- The variables that an argument brings into an entry point. -/
def Argument.spellings (table : ResourceTable) (entry : String) (argument : Argument) : List Spelling :=
  argument.parts.map fun part => (entry ++ "__" ++ part.name, part.written? table)

/-- The variables of an entry point, in the order of its arguments. -/
def LeafFunction.spellings (table : ResourceTable) (function : LeafFunction) : List Spelling :=
  function.arguments.flatMap (Argument.spellings table function.entry)

/-- The bind group has a binding for the grid's extent. -/
def GroupBinding.bindsGrid : GroupBinding → Bool
  | .own spec => spec.any (·.source == .gridExtent)
  | .shared _ => false

/-- The type of a grid's extent. -/
def GridDims.extentType : GridDims → String
  | .one => "u32"
  | .two => "vec2<u32>"
  | .three => "vec3<u32>"

/-- The variable for the grid's extent, in a kernel that binds it. -/
def CompiledLeaf.extents : CompiledLeaf → List Spelling
  | .dispatch leaf =>
    if leaf.groups.any GroupBinding.bindsGrid then [(leaf.entry ++ "__" ++ "grid_size", some leaf.grid.dims.extentType)]
    else []
  | .draw _ | .host => []

def Declaration.spelling (declaration : Declaration) : Spelling := (declaration.name, some declaration.type)

/-- The line that declares a variable. -/
def Declaration.written (declaration : Declaration) : String :=
  "@group(" ++ toString declaration.group ++ ") @binding(" ++ toString declaration.binding ++ ") " ++
    declaration.var ++ " " ++ declaration.name ++ ": " ++ declaration.type ++ ";\n"

/-- A comment line with the label, then for each entry point its variables, line for line, and its code. -/
def LeafText.written (text : LeafText) : String :=
  "// " ++ text.label ++ "\n" ++ String.join (text.entries.map fun entry =>
    String.join (entry.declarations.map (·.written)) ++ entry.code ++ "\n\n")

theorem LeafText.text_eq (text : LeafText) : text.text = text.written := rfl

/-- Each entry point of a text declares its variables and no others. -/
def LeafText.Spells (table : ResourceTable) (node : Leaf) (compiled : CompiledLeaf) (text : LeafText) : Prop :=
  List.Forall₂ (fun function entry =>
      entry.entry = function.entry ∧
        (entry.declarations.map (·.spelling)).Perm (function.spellings table ++ compiled.extents))
    (node.functions compiled) text.entries

/-- A variable of a leaf under its entry point. -/
def EntryVariable.spelling (v : EntryVariable) : String × Spelling :=
  (v.entry, v.bound.spec.name, some v.bound.type)

/-- A block member under the entry point that refers to it. -/
def SharedVariable.spelling (member : SharedVariable) : String × Spelling :=
  (member.entry, member.bound.spec.name, some member.bound.type)

namespace LeafBindings

/-- The variables of a leaf, each under its entry point. -/
def spellings (bindings : LeafBindings) : List (String × Spelling) :=
  (bindings.buffers ++ bindings.textures).map (·.spelling) ++ bindings.members.map (·.spelling)

theorem flatten_ownSpaces (bindings : LeafBindings) :
    bindings.ownSpaces.flatten = bindings.buffers ++ bindings.textures := by
  unfold ownSpaces
  cases bindings.buffers <;> cases bindings.textures <;> simp

theorem declarationsOf_spellings (entry : String) (space : List EntryVariable) (group : Nat) :
    (declarationsOf entry space group).map (·.spelling) =
      ((space.map (·.spelling)).filter (·.1 == entry)).map (·.2) := by
  rw [declarationsOf, List.map_map, List.filter_map, List.map_map]
  rfl

theorem zipIdx_spellings (entry : String) (spaces : List (List EntryVariable)) (first : Nat) :
    ((spaces.zipIdx first).flatMap fun place => declarationsOf entry place.1 place.2).map (·.spelling) =
      ((spaces.flatten.map (·.spelling)).filter (·.1 == entry)).map (·.2) := by
  induction spaces generalizing first with
  | nil => rfl
  | cons space rest ih =>
    rw [List.zipIdx_cons, List.flatMap_cons, List.map_append, ih, declarationsOf_spellings, List.flatten_cons,
      List.map_append, List.filter_append, List.map_append]

/-- The declarations of an entry point are those of its variables. -/
theorem declarations_spellings (bindings : LeafBindings) (entry : String) :
    (bindings.declarations entry).map (·.spelling) = (bindings.spellings.filter (·.1 == entry)).map (·.2) := by
  have shared : (bindings.members.map (·.spelling)).filter (·.1 == entry) =
      (bindings.members.filter (·.entry == entry)).map (·.spelling) := by
    rw [List.filter_map]
    rfl
  change ((bindings.ownSpaces.zipIdx.flatMap fun place => declarationsOf entry place.1 place.2) ++ _).map _ = _
  rw [List.map_append, zipIdx_spellings, flatten_ownSpaces, spellings, List.filter_append, shared]
  generalize bindings.buffers ++ bindings.textures = owned
  rw [List.map_append, List.map_map, List.map_map]
  rfl

/-- The leaf has these variables, and none of them reads the grid's extent. -/
structure Gathers (bindings : LeafBindings) (spellings : List (String × Spelling)) : Prop where
  perm : bindings.spellings.Perm spellings
  source_ne : ∀ v ∈ bindings.buffers ++ bindings.textures, v.bound.spec.source ≠ .gridExtent

theorem Gathers.start : Gathers {} [] := ⟨.nil, List.forall_mem_nil _⟩

/-- One more variable of the leaf's own. -/
theorem spellings_own {bindings more : LeafBindings} {v : EntryVariable}
    (own : (more.buffers ++ more.textures).Perm (bindings.buffers ++ bindings.textures ++ [v]))
    (members : more.members = bindings.members) : more.spellings.Perm (bindings.spellings ++ [v.spelling]) := by
  rw [spellings, spellings, members]
  apply ((own.map _).append_right _).trans
  rw [List.map_append, List.map_singleton]
  exact List.perm_middle_last _ _ _

theorem Gathers.own {bindings more : LeafBindings} {spellings : List (String × Spelling)} {v : EntryVariable}
    (gathers : bindings.Gathers spellings)
    (own : (more.buffers ++ more.textures).Perm (bindings.buffers ++ bindings.textures ++ [v]))
    (members : more.members = bindings.members) (unread : v.bound.spec.source ≠ .gridExtent) :
    more.Gathers (spellings ++ [v.spelling]) where
  perm := (spellings_own own members).trans (gathers.perm.append_right _)
  source_ne other found := by
    obtain old | new := List.mem_append.mp (own.mem_iff.mp found)
    · exact gathers.source_ne other old
    · exact List.mem_singleton.mp new ▸ unread

/-- More members of blocks. -/
theorem Gathers.shared {bindings more : LeafBindings} {spellings : List (String × Spelling)}
    {added : List SharedVariable} (gathers : bindings.Gathers spellings) (buffers : more.buffers = bindings.buffers)
    (textures : more.textures = bindings.textures) (members : more.members = bindings.members ++ added) :
    more.Gathers (spellings ++ added.map (·.spelling)) where
  perm := by
    have same : more.spellings = bindings.spellings ++ added.map (·.spelling) := by
      simp only [LeafBindings.spellings, buffers, textures, members, List.map_append, List.append_assoc]
    exact same ▸ gathers.perm.append_right _
  source_ne := by
    rw [buffers, textures]
    exact gathers.source_ne

/-- Some bind group of the leaf's own reads the grid's extent. -/
theorem any_bindsGrid (bindings : LeafBindings) :
    bindings.groups.any GroupBinding.bindsGrid =
      (bindings.buffers ++ bindings.textures).any (·.bound.spec.source == .gridExtent) := by
  have sorted (space : List EntryVariable) :
      (specs space).any (·.source == .gridExtent) = space.any (·.bound.spec.source == .gridExtent) := by
    rw [specs, (GroupSpec.sorted_perm _).any_eq, List.any_map]
    rfl
  have shared : (bindings.shared.map GroupBinding.shared).any GroupBinding.bindsGrid = false := by
    simp [List.any_map, GroupBinding.bindsGrid]
  rw [groups, List.any_append, shared, Bool.or_false, List.any_map, ← flatten_ownSpaces, List.any_flatten]
  congr 1
  funext space
  exact sorted space

theorem Gathers.unread {bindings : LeafBindings} {spellings : List (String × Spelling)}
    (gathers : bindings.Gathers spellings) : bindings.groups.any GroupBinding.bindsGrid = false := by
  rw [any_bindsGrid]
  exact List.any_eq_false.mpr fun v found => by simpa using gathers.source_ne v found

/-- A leaf whose variables are those of its entry points spells them for each. -/
theorem spells {bindings : LeafBindings} {node : Leaf} {compiled : CompiledLeaf}
    (entries : ((node.functions compiled).map (·.entry)).Nodup)
    (perm : bindings.spellings.Perm ((node.functions compiled).flatMap fun function =>
      (function.spellings table ++ compiled.extents).map (Prod.mk function.entry)))
    {codes : List (String × String)} (named : codes.map (·.1) = (node.functions compiled).map (·.entry)) :
    (Compile.leafText node.label bindings codes).Spells table node compiled := by
  have length : codes.length = (node.functions compiled).length := by simpa using congrArg List.length named
  refine List.forall₂_iff_get.mpr ⟨by simp [Compile.leafText, length], fun i first second => ?_⟩
  have inside : i < codes.length := length ▸ first
  have same : codes[i].1 = (node.functions compiled)[i].entry := by
    have at_place := congrArg (·[i]?) named
    simpa [first, inside] using at_place
  refine ⟨by simpa [Compile.leafText] using same, ?_⟩
  simp only [Compile.leafText, List.get_eq_getElem, List.getElem_map, same, declarations_spellings]
  refine .trans ((perm.filter _).map _) (.of_eq ?_)
  rw [List.filter_tagged entries _ (List.getElem_mem first), List.map_map]
  exact List.map_id _

end LeafBindings

namespace Compile

variable {job : EntryJob} {unit : Nat} {entry : String} {scan result : ArgumentScan}
  {spellings : List (String × Spelling)}

/-! ### Types of arguments -/

/-- What a member is listed with is what it is spelled with. -/
theorem memberUse?_written {member : Argument} {binding : Nat} {use : MemberUse}
    (listed : memberUse? table member binding = some use) :
    use.name = member.name ∧ member.written? table = some use.type := by
  unfold memberUse? at listed
  unfold Argument.written?
  split at listed
  · rename_i handle space kind
    obtain ⟨decl, found, listed⟩ := Option.bind_eq_some_iff.mp listed
    obtain ⟨type, spelled, rfl⟩ := Option.map_eq_some_iff.mp listed
    simp only [kind, found, Option.bind_some, spelled, and_self]
  · rename_i handle access kind
    obtain ⟨decl, found, rfl⟩ := Option.map_eq_some_iff.mp listed
    simp only [kind, found, Option.map_some, and_self]
  · cases listed
  · cases listed

theorem memberUses?_written {members : List Argument} {numbers : List Nat} {uses : List MemberUse}
    (length : numbers.length = members.length) (listed : memberUses? table members numbers = some uses) :
    uses.map (fun use => (use.name, some use.type)) = members.map fun member => (member.name, member.written? table) := by
  induction members generalizing numbers uses with
  | nil =>
    cases listed
    rfl
  | cons member rest ih =>
    cases numbers with
    | nil => cases length
    | cons number numbers =>
      rw [memberUses?, List.zip_cons_cons, List.mapM_cons] at listed
      obtain ⟨first, one, listed⟩ := Option.bind_eq_some_iff.mp listed
      obtain ⟨others, more, listed⟩ := Option.bind_eq_some_iff.mp listed
      cases listed
      obtain ⟨name, written⟩ := memberUse?_written one
      rw [List.map_cons, ih (Nat.succ.inj length) more, List.map_cons, name, written]

theorem bindPlain_written {function : String} {argument : Argument} {binding : Nat} {stage : Stage}
    {bytes more : List BytesSlot} {bound : BoundVariable}
    (run : (bindPlain table unit function argument binding stage bytes).run state = .ok ((bound, more), after)) :
    argument.written? table = some bound.type := by
  by_cases host : ∃ source, argument.kind = .bytes source
  · obtain ⟨source, kind⟩ := host
    unfold bindPlain at run
    simp only [kind] at run
    obtain ⟨element, middle, spelled, run⟩ := spelled_lists run
    obtain ⟨⟨⟩, rfl⟩ := pure_ok run
    simp only [Argument.written?, kind]
    cases given : argument.type with
    | some type => rfl
    | none => simp [spelled given, Except.toOption]
  · have lists := bindPlain_lists (fun source kind => host ⟨source, kind⟩) run
    exact (memberUse?_written lists.use_eq).2

/-- The members that a use of a block gives back are spelled as the use lists them. -/
theorem bindBlock_written {function block : String} {members : List Argument} {stage : Stage} {place : Nat}
    {seen : List BoundVariable}
    (run : (bindBlock table unit function block members stage).run state = .ok ((place, seen), after)) :
    seen.map (fun member => (member.spec.name, some member.type)) =
      members.map fun member => (member.name, member.written? table) := by
  have ran := bindBlock_run ⟨stage, block, members⟩ run
  obtain ⟨pool, reserves⟩ := ran.reserves
  have length : (BlockUse.numbers ⟨stage, block, members⟩).length = members.length := by
    rw [BlockUse.numbers, reserves, IndexPool.numbers_length, List.length_map]
  rw [← memberUses?_written length ran.listed, List.map_map]
  rfl

/-! ### Variables of a leaf -/

theorem bindArgument_gathers {argument : Argument} (gathers : scan.bindings.Gathers spellings)
    (run : (bindArgument table unit job entry scan argument).run state = .ok (result, after)) :
    result.bindings.Gathers (spellings ++ (argument.spellings table entry).map (Prod.mk entry)) := by
  rw [Argument.spellings, List.map_map]
  unfold bindArgument at run
  dsimp only at run
  split at run
  · rename_i name members kind
    obtain ⟨⟨place, seen⟩, middle, bound, run⟩ := bind_ok run
    obtain ⟨rfl, rfl⟩ := pure_ok run
    have added : (seen.map (·.sharedBy entry place)).map (·.spelling) =
        members.map fun part : Argument => (entry, entry ++ "__" ++ part.name, part.written? table) :=
      calc (seen.map (·.sharedBy entry place)).map (·.spelling)
        _ = (seen.map fun member => (member.spec.name, some member.type)).map fun spelling =>
            (entry, entry ++ "__" ++ spelling.1, spelling.2) := by
          rw [List.map_map, List.map_map]
          rfl
        _ = members.map fun part : Argument => (entry, entry ++ "__" ++ part.name, part.written? table) := by
          rw [bindBlock_written bound, List.map_map]
          rfl
    have parts_eq : argument.parts = members := by
      rw [Argument.parts, kind]
    rw [shareMember_foldl, parts_eq]
    exact added ▸ gathers.shared rfl rfl rfl
  · rename_i plain
    obtain ⟨⟨bound, bytes⟩, middle, made, run⟩ := bind_ok run
    obtain ⟨rfl, rfl⟩ := pure_ok run
    have written := bindPlain_written made
    obtain ⟨-, sane⟩ := bindPlain_ok made
    rw [Argument.parts_plain plain]
    have same : EntryVariable.spelling ⟨entry, { var := bound.var, type := bound.type, spec := {
        name := Naming.global entry argument.name, entry := bound.spec.entry, source := bound.spec.source } }⟩ =
          (entry, entry ++ "__" ++ argument.name, argument.written? table) := by
      rw [written]
      rfl
    rw [List.map_singleton, Function.comp_apply, ← same]
    cases argument.kind.space?.getD .buffers with
    | buffers => exact gathers.own (List.perm_middle_last _ _ _) rfl sane.source_ne
    | textures => exact gathers.own (.of_eq (List.append_assoc ..).symm) rfl sane.source_ne

theorem bindArguments_gathers (run : (bindArguments table unit job entry scan).run state = .ok (result, after))
    (gathers : scan.bindings.Gathers spellings) :
    result.bindings.Gathers
      (spellings ++ (LeafFunction.spellings table ⟨entry, job.arguments⟩).map (Prod.mk entry)) := by
  unfold bindArguments at run
  unfold LeafFunction.spellings
  dsimp only
  generalize job.arguments = rest at run ⊢
  induction rest generalizing scan state spellings with
  | nil =>
    obtain ⟨rfl, rfl⟩ := pure_ok run
    simpa using gathers
  | cons argument rest ih =>
    rw [List.foldlM_cons] at run
    obtain ⟨next, middle, bound, run⟩ := bind_ok run
    have all := ih (bindArgument_gathers gathers bound) run
    rwa [List.append_assoc, ← List.map_append] at all

/-- The extent of the grid takes one variable more. -/
theorem bindGrid_spellings {plan : GridPlan} (gathers : scan.bindings.Gathers spellings) :
    (bindGrid job entry plan scan).2.bindings.spellings.Perm (spellings ++
      (if (bindGrid job entry plan scan).2.bindings.groups.any GroupBinding.bindsGrid then
        [(entry ++ "__" ++ "grid_size", some (bindGrid job entry plan scan).1.dims.extentType)]
      else []).map (Prod.mk entry)) := by
  have unread := gathers.unread
  unfold bindGrid
  dsimp only
  split
  · simpa [unread] using gathers.perm
  · split
    · rw [LeafBindings.any_bindsGrid]
      have read : (scan.bindings.buffers ++ [gridVariable entry plan.dims (scan.pool.trailing .buffers).1] ++
          scan.bindings.textures).any (·.bound.spec.source == .gridExtent) = true := by
        simp [gridVariable]
      have same : (gridVariable entry plan.dims (scan.pool.trailing .buffers).1).spelling =
          (entry, entry ++ "__" ++ "grid_size", some plan.dims.extentType) := by
        cases plan.dims <;> rfl
      rw [read, if_pos rfl, List.map_singleton, ← same]
      refine .trans (@LeafBindings.spellings_own scan.bindings _ _ (List.perm_middle_last _ _ _) rfl) ?_
      exact gathers.perm.append_right _
    · simpa [unread] using gathers.perm

/-- A draw has the variables of both entry points. -/
theorem DrawRun.gathers {node : Draw} (made : DrawRun table unit node state) :
    made.second.scan.bindings.Gathers
      ((LeafFunction.spellings table ⟨made.first.entry, node.vertexArguments⟩).map (Prod.mk made.first.entry) ++
        (LeafFunction.spellings table ⟨made.second.entry, node.fragmentArguments⟩).map (Prod.mk made.second.entry)) := by
  have first : made.first.scan.bindings.Gathers _ := bindArguments_gathers made.first.binds .start
  have both := bindArguments_gathers made.second.binds first
  rwa [(locate_ok made.vertexLocated).1, (locate_ok made.fragmentLocated).1, List.nil_append] at both

namespace LeafRun

variable {node : Leaf} {compiled : CompiledLeaf} {text : LeafText}

/-- An emitted text declares the variables of its leaf's entry points. -/
theorem spells (run : LeafRun table caps unit state node compiled text after) (sane : state.Sane)
    (inside : unit < state.units.length) : text.Spells table node compiled := by
  cases run with
  | kernel made =>
    rename_i node
    have perm : made.granted.2.bindings.spellings.Perm _ := bindGrid_spellings (bindArguments_gathers made.binds .start)
    rw [(locate_ok made.located).1, List.nil_append] at perm
    have entries : ((Leaf.functions (.dispatch node) (.dispatch made.compiled)).map (·.entry)).Nodup :=
      List.nodup_singleton _
    refine LeafBindings.spells entries (perm.trans (.of_eq ?_)) rfl
    simp only [Leaf.functions, CompiledLeaf.extents, KernelRun.compiled, KernelRun.granted, List.flatMap_cons,
      List.flatMap_nil, List.append_nil, List.map_append]
    rfl
  | draw made =>
    rename_i node
    have entries : ((Leaf.functions (.draw node) (.draw made.compiled)).map (·.entry)).Nodup := by
      simpa [Leaf.functions, DrawRun.compiled] using (made.fresh sane inside).1
    refine LeafBindings.spells entries (made.gathers.perm.trans (.of_eq ?_)) rfl
    simp only [Leaf.functions, CompiledLeaf.extents, List.flatMap_cons, List.flatMap_nil, List.append_nil]
    rfl

end LeafRun

end Compile

/-- Every text of a compiled program declares the variables of its leaf's entry points. -/
theorem Program.compile_spells {source : Program} {program : CompiledProgram} {log : List LogLine}
    (compiled : source.compile table caps = .ok (program, log)) {place : Nat} {unit : CompiledUnit}
    (found : program.units[place]? = some unit) :
    List.Forall₂ (fun leaf text => text.Spells table leaf.1.node leaf.2)
      ((source.compiledLeaves program).filter (·.2.unit? = some place)) unit.leaves := by
  obtain ⟨⟨last, emits⟩, -⟩ := source.compile_emitted compiled found
  refine emits.imp fun leaf text emitted => ?_
  obtain ⟨before, after, sane, inside, run, -⟩ := emitted
  exact run.spells sane inside

end FrameGraph
