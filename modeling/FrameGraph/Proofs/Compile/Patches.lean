import FrameGraph.Proofs.Compile.Guard
import FrameGraph.Proofs.Compile.Names
import FrameGraph.Proofs.Text.Refinding

/-! # Patches as they are built

The patch of an entry point is built in steps: its new name and its workgroup size, names for its arguments and the
builtin values it uses, parameters for those that it has none for, and lines at the top of a kernel. No step puts
anything into it that could not be read back where it stands. So every entry point of a compiled program is found in
its text under the name that it was given, if its stage mark stands apart and the name is not in use in the old text.
-/

namespace FrameGraph

open Text

/-! ## The lines at the top of a kernel -/

theorem isSmooth_of_isIdentifier {name : List Char} (spelled : isIdentifier name = true) : IsSmooth name :=
  isSmooth_of_words fun _ => isWordChar_of_mem spelled

theorem isSmooth_number (n : Nat) : IsSmooth (toString n).toList :=
  isSmooth_of_words fun _ => isWordChar_number

theorem Axes.sizeLine_tidy (size : Axes) : IsTidy size.sizeLine.toList := by
  have parts : size.sizeLine = "\n    let " ++ threadsPerGroupName ++ " = vec3<u32>(" ++ toString size.x ++ "u, " ++
      toString size.y ++ "u, " ++ toString size.z ++ "u);" := rfl
  have around : IsTidy (("\n    let " ++ threadsPerGroupName ++ " = vec3<u32>(").toList ++ "u);".toList) := by
    decide +kernel
  have comma : IsSmooth "u, ".toList := by decide +kernel
  have sizes := (((isSmooth_number size.x).append comma).append (isSmooth_number size.y)).append comma
  rw [parts]
  simpa only [String.toList_append, List.append_assoc] using around.insert (sizes.append (isSmooth_number size.z))

namespace GridDims

variable {gid grid : String}

theorem comparison_smooth (dims : GridDims) (gidSmooth : IsSmooth gid.toList) (gridSmooth : IsSmooth grid.toList)
    (axis : Axis) : IsSmooth (dims.comparison gid grid axis).toList := by
  have letter : IsSmooth axis.letter.toList := by cases axis <;> decide +kernel
  have dot : IsSmooth ['.'] := by decide
  have sign : IsSmooth [' ', '>', '=', ' '] := by decide
  have thread := ((gidSmooth.append dot).append letter).append sign
  cases dims with
  | one => simpa [comparison, operand, toString] using thread.append gridSmooth
  | two | three => simpa [comparison, operand, toString] using thread.append ((gridSmooth.append dot).append letter)

theorem boundsCheckText_tidy (dims : GridDims) (gidSmooth : IsSmooth gid.toList) (gridSmooth : IsSmooth grid.toList) :
    IsTidy (boundsCheckText dims gid grid).toList := by
  rw [boundsCheckText_eq, String.toList_append, String.toList_append, List.append_assoc]
  refine IsTidy.insert (by decide +kernel) (isSmooth_intercalate (by decide +kernel) fun text member => ?_)
  obtain ⟨axis, -, rfl⟩ := List.mem_map.mp member
  exact dims.comparison_smooth gidSmooth gridSmooth axis

end GridDims

/-! ## Names -/

namespace Naming

theorem isIdentifier_fresh {name : String} (spelled : isIdentifier name.toList = true) (taken : List String) :
    isIdentifier (fresh name taken).toList = true := by
  unfold fresh
  split
  · obtain ⟨n, -, result, -⟩ := freshFrom_eq name taken 1
    have text : (numbered name n).toList = name.toList ++ '_' :: (toString n).toList := by
      simp [numbered, toString]
    rw [result, text]
    exact isIdentifier_append spelled (List.forall_mem_cons.mpr ⟨rfl, fun _ => isWordChar_number⟩)
  · exact spelled

theorem isIdentifier_global {entry name : String} (spelled : isIdentifier entry.toList = true)
    (words : ∀ c ∈ name.toList, isWordChar c = true) : isIdentifier (global entry name).toList = true := by
  rw [toList_global]
  exact isIdentifier_append spelled (List.forall_mem_cons.mpr ⟨rfl, List.forall_mem_cons.mpr ⟨rfl, words⟩⟩)

end Naming

theorem gridSizeName_words : ∀ c ∈ gridSizeName.toList, isWordChar c = true := List.all_eq_true.mp (by decide +kernel)

/-- The names that come with the arguments and those of the builtin parameters are spelled like words. -/
structure EntryJob.Spelled (job : EntryJob) : Prop where
  arguments : ∀ name ∈ job.arguments.flatMap argumentNames, ∀ c ∈ name.toList, isWordChar c = true
  builtins : ∀ builtin ∈ job.stage.builtins, ∀ name,
    declaredBuiltin? (render job.entry.params) builtin.value = some name → isIdentifier name.toList = true

namespace Compile

variable {table : ResourceTable} {caps : DeviceCaps} {state after : CompileState} {unit : Nat} {job : EntryJob}

theorem giveEntry_identifier {name entry : String} (spelled : isIdentifier name.toList = true)
    (run : (giveEntry unit name).run state = .ok (entry, after)) : isIdentifier entry.toList = true := by
  have run := get_bind_ok run
  split at run
  · obtain ⟨rfl, -⟩ := pure_ok run
    exact spelled
  · obtain ⟨_, middle, changed, run⟩ := bind_ok run
    obtain ⟨rfl, rfl⟩ := pure_ok run
    exact Naming.isIdentifier_fresh spelled _

/-- An entry point is compiled without the text around it. -/
theorem locate_found {source : String} {stage : Stage} {name : String} {arguments : List Argument}
    (located : EntryJob.locate source stage name arguments = .ok job) :
    ∃ entry, EntryPoint.find source stage name = .ok entry ∧ job = ⟨stage, name, entry.extract, arguments⟩ := by
  unfold EntryJob.locate at located
  split at located
  · cases located
  · rename_i entry found
    split at located
    · cases located
    · cases located
      exact ⟨entry, found, rfl⟩

theorem locate_identifier {source : String} {stage : Stage} {name : String} {arguments : List Argument}
    (located : EntryJob.locate source stage name arguments = .ok job) : isIdentifier job.name.toList = true := by
  obtain ⟨entry, found, rfl⟩ := locate_found located
  have first := EntryPoint.isFirst_of_find found
  exact first.name_eq ▸ (entry.legible_iff.mp (EntryPoint.legible_extract first)).2.1

end Compile

/-! ## The steps of a patch -/

/-- What a patch is built of. -/
structure Patch.Built (patch : Patch) (job : EntryJob) (entry : String) : Prop where
  identifiers : ∀ rename ∈ patch.identifiers, isIdentifier rename.2.toList = true
  parameters : ∀ parameter ∈ patch.parameters, ∃ builtin ∈ job.stage.builtins, parameter = builtin.parameter
  attr : ∀ text, patch.attr = some text → ∃ size, text = sizeAttr size
  prologue : IsTidy patch.prologue.toList
  newName_eq : patch.newName = if entry != job.name then some entry else none

theorem Compile.fixWorkgroup_attr {job : EntryJob} {plan fixed : GridPlan} {attr : Option String}
    (done : fixWorkgroup job plan = .ok (fixed, attr)) : ∀ text, attr = some text → ∃ size, text = sizeAttr size := by
  unfold fixWorkgroup at done
  rintro text rfl
  split at done
  · cases done
  · cases done
  · cases done
    exact ⟨plan.workgroup, rfl⟩

theorem Compile.built_namePatch (job : EntryJob) (entry : String) (attr : Option String)
    (size : ∀ text, attr = some text → ∃ size, text = sizeAttr size) : (namePatch job entry attr).Built job entry where
  identifiers := List.forall_mem_nil _
  parameters := List.forall_mem_nil _
  attr := size
  prologue := by
    rw [namePatch, Patch.empty, String.toList_empty]
    decide
  newName_eq := rfl

namespace Patch.Built

variable {patch : Patch} {job : EntryJob} {entry : String}

theorem renamedBy (built : patch.Built job entry) {renames : Renames}
    (spelled : ∀ rename ∈ renames, isIdentifier rename.2.toList = true) :
    (patch.renamedBy renames).Built job entry where
  __ := built
  identifiers := List.forall_mem_append.mpr ⟨spelled, built.identifiers⟩

/-- Variables of an entry point take the place of names. -/
theorem globals (built : patch.Built job entry) (spelled : isIdentifier entry.toList = true) {names : List String}
    (words : ∀ name ∈ names, ∀ c ∈ name.toList, isWordChar c = true) :
    (patch.renamedBy (Compile.globalsOf entry names)).Built job entry := by
  refine built.renamedBy fun rename member => ?_
  obtain ⟨name, listed, rfl⟩ := List.mem_map.mp (List.mem_reverse.mp member)
  exact Naming.isIdentifier_global spelled (words name listed)

theorem addParameter (built : patch.Built job entry) {builtin : Builtin} (listed : builtin ∈ job.stage.builtins) :
    (patch.addParameter builtin.parameter).Built job entry where
  __ := built
  parameters := List.forall_mem_append.mpr ⟨built.parameters, List.forall_mem_singleton.mpr ⟨builtin, listed, rfl⟩⟩

theorem addPrologue (built : patch.Built job entry) {text : String} (tidy : IsTidy text.toList) :
    (patch.addPrologue text).Built job entry where
  __ := built
  prologue := by
    rw [Patch.addPrologue, String.toList_append]
    exact built.prologue.append tidy

theorem bindBuiltins (built : patch.Built job entry) (spelled : job.Spelled) (forced : List String) :
    (job.bindBuiltins forced patch).Built job entry := by
  refine List.foldlRecOn (motive := fun patch : Patch => patch.Built job entry) _ _ built
    fun patch built builtin listed => ?_
  unfold EntryJob.bindBuiltin
  split
  · split
    · rename_i name declared
      exact built.renamedBy (List.forall_mem_singleton.mpr (spelled.builtins builtin listed name declared))
    · exact built.addParameter listed
  · exact built

theorem bindGrid {scan : ArgumentScan} (built : scan.patch.Built job entry)
    (spelled : isIdentifier entry.toList = true) (plan : GridPlan) :
    (Compile.bindGrid job entry plan scan).2.patch.Built job entry := by
  unfold Compile.bindGrid
  dsimp only
  split
  · exact built
  · split
    · exact built.globals spelled (List.forall_mem_singleton.mpr gridSizeName_words)
    · exact built

theorem gidName_identifier (built : patch.Built job entry) : isIdentifier (EntryJob.gidName patch).toList = true := by
  unfold EntryJob.gidName
  cases given : patch.identifiers.lookup "gid" with
  | none => decide +kernel
  | some name => exact spelled_of_forall built.identifiers "gid" name given

theorem kernelPrologue (built : patch.Built job entry) (spelled : isIdentifier entry.toList = true) (plan : GridPlan) :
    (Compile.kernelPrologue job entry plan patch).Built job entry := by
  have lined : (patch.addPrologue plan.workgroup.sizeLine).Built job entry :=
    built.addPrologue plan.workgroup.sizeLine_tidy
  have grid : isIdentifier (Naming.global entry gridSizeName).toList = true :=
    Naming.isIdentifier_global spelled gridSizeName_words
  have check := plan.dims.boundsCheckText_tidy (isSmooth_of_isIdentifier built.gidName_identifier)
    (isSmooth_of_isIdentifier grid)
  unfold Compile.kernelPrologue
  cases references job.code threadsPerGroupName <;> cases plan.boundsCheck
  · exact built
  · exact built.addPrologue check
  · exact lined
  · exact lined.addPrologue check

/-- Patches are built in the form in which an edited entry point is found again. -/
theorem fits (built : patch.Built job entry) (spelled : isIdentifier entry.toList = true)
    (absent : entry ≠ job.name → .word entry.toList ∉ job.entry.extract.tokens) : patch.Fits job.entry where
  identifiers := spelled_of_forall built.identifiers
  parameters parameter member := by
    have all : ∀ stage : Stage, ∀ builtin ∈ stage.builtins,
        IsPlain builtin.parameter.toList ∧ trim builtin.parameter.toList ≠ [] := by
      intro stage
      cases stage <;> decide +kernel
    obtain ⟨builtin, listed, rfl⟩ := built.parameters parameter member
    exact all _ builtin listed
  attr := built.attr
  prologue := ⟨built.prologue.isPlain, built.prologue.apart _⟩
  newName new given := by
    rw [built.newName_eq] at given
    split at given
    · rename_i other
      cases given
      exact ⟨spelled, absent (bne_iff_ne.mp other)⟩
    · cases given

theorem name_eq (built : patch.Built job entry) : patch.newName.getD job.name = entry := by
  rw [built.newName_eq]
  split
  · rfl
  · rename_i same
    exact (by simpa using same : entry = job.name).symm

end Patch.Built

/-! ## Compiled entry points are found -/

/-- Where an entry point of a leaf comes from. -/
structure EntryOrigin where
  source : String
  stage : Stage
  name : String
  arguments : List Argument

/-- Where the entry points of a leaf come from. -/
def Leaf.origins : Leaf → List EntryOrigin
  | .dispatch node => [⟨node.source, .compute, node.function, node.arguments⟩]
  | .draw node => [⟨node.source, .vertex, node.vertex, node.vertexArguments⟩,
      ⟨node.source, .fragment, node.fragment, node.fragmentArguments⟩]
  | .blit _ | .filter _ | .callback _ => []

/-- The text is the entry point of a source, edited by a patch as it is built. The entry point is found there again,
under the name that it was given and with the parameters and the body of the edit, if its stage mark stands apart and
its text does not have a new name already. -/
def EntryText.EditOf (origin : EntryOrigin) (text : EntryText) : Prop :=
  ∃ job patch, EntryJob.locate origin.source origin.stage origin.name origin.arguments = .ok job ∧
    text.code = job.entry.apply patch ∧
    (job.Spelled → patch.Built job text.entry ∧
      (job.entry.IsSpaced → (text.entry ≠ origin.name → .word text.entry.toList ∉ job.entry.tokens) →
        ∃ again, EntryPoint.find text.code origin.stage text.entry = .ok again ∧
          render again.params = job.entry.patchedParams patch ∧ render again.body = job.entry.patchedBody patch))

namespace Compile

variable {table : ResourceTable} {caps : DeviceCaps} {state after : CompileState} {unit : Nat} {job : EntryJob}

/-- An entry point that was located is found again once it is built. -/
theorem editOf_of_built {origin : EntryOrigin}
    (located : EntryJob.locate origin.source origin.stage origin.name origin.arguments = .ok job) {patch : Patch}
    {text : EntryText} (code_eq : text.code = job.entry.apply patch)
    (identifier : isIdentifier text.entry.toList = true) (built : job.Spelled → patch.Built job text.entry) :
    text.EditOf origin := by
  refine ⟨job, patch, located, code_eq, fun spelled => ⟨built spelled, fun spaced absent => ?_⟩⟩
  have built := built spelled
  obtain ⟨entry, found, rfl⟩ := locate_found located
  have first := EntryPoint.isFirst_of_find found
  have legible := EntryPoint.legible_extract first
  obtain ⟨again, before, after, declares, read, same, params, body⟩ :=
    EntryPoint.exists_edited first.extract (show Legible [] entry.extract.extract.tokens from legible) spaced
      (built.fits identifier absent)
  rw [show patch.newName.getD origin.name = text.entry from built.name_eq] at declares
  rw [code_eq]
  exact ⟨again, EntryPoint.find_alone declares before after read same.symm, params, body⟩

namespace KernelRun

variable {node : Dispatch} (made : KernelRun table caps unit node state)

theorem entry_identifier : isIdentifier made.entry.toList = true :=
  giveEntry_identifier (locate_identifier made.located) made.names

theorem built (spelled : made.job.Spelled) :
    (kernelPatch made.job made.entry made.granted.1 made.granted.2).Built made.job made.entry := by
  have start := built_namePatch made.job made.entry made.attr (fixWorkgroup_attr made.fixes)
  have bound := bindArguments_patch made.binds ▸ start.globals made.entry_identifier spelled.arguments
  have granted := bound.bindGrid made.entry_identifier made.planned
  exact (granted.bindBuiltins spelled _).kernelPrologue made.entry_identifier made.granted.1

end KernelRun

namespace EntryRun

variable {pool : IndexPool} {bindings : LeafBindings} (made : EntryRun table unit job pool bindings state)

theorem built (spelled : job.Spelled) (identifier : isIdentifier made.entry.toList = true) :
    (job.bindBuiltins [] made.scan.patch).Built job made.entry := by
  have start := built_namePatch job made.entry none (by simp)
  exact (bindArguments_patch made.binds ▸ start.globals identifier spelled.arguments).bindBuiltins spelled []

theorem editOf {origin : EntryOrigin}
    (located : EntryJob.locate origin.source origin.stage origin.name origin.arguments = .ok job)
    (declarations : List Declaration) : EntryText.EditOf origin ⟨made.entry, declarations, made.code⟩ := by
  have identifier := giveEntry_identifier (locate_identifier located) made.names
  exact editOf_of_built located rfl identifier fun spelled => made.built spelled identifier

end EntryRun

theorem LeafRun.origins {node : Leaf} {compiled : CompiledLeaf} {text : LeafText}
    (run : LeafRun table caps unit state node compiled text after) :
    List.Forall₂ EntryText.EditOf node.origins text.entries := by
  cases run with
  | kernel made => exact .cons (editOf_of_built made.located rfl made.entry_identifier made.built) .nil
  | draw made =>
    exact .cons (made.first.editOf made.vertexLocated _) (.cons (made.second.editOf made.fragmentLocated _) .nil)

end Compile

/-- The entry points in the text of a unit are those of its leaves, each edited by a patch after which it is found
again. -/
theorem Program.entries_found {table : ResourceTable} {caps : DeviceCaps} {source : Program} {program : CompiledProgram}
    {log : List LogLine} (compiled : source.compile table caps = .ok (program, log)) {place : Nat}
    {unit : CompiledUnit} (found : program.units[place]? = some unit) :
    List.Forall₂ EntryText.EditOf
      (((source.compiledLeaves program).filter (·.2.unit? = some place)).flatMap (·.1.node.origins))
      (unit.leaves.flatMap (·.entries)) := by
  obtain ⟨⟨last, emits⟩, -⟩ := Program.compile_emitted compiled found
  refine List.rel_flatMap emits ?_
  rintro leaf text ⟨before, after, -, -, run, -⟩
  exact run.origins

end FrameGraph
