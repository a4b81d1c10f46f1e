import FrameGraph.Proofs.Compile.Builtins

/-! # The variables of a range check

A range check compares what `gid` stands for in the patched kernel with the variable for the extent of its grid. The
first is the parameter with the global id exactly when no name of an argument is in the way; the second is declared
once exactly when no argument is called like it, and is the one that is meant unless the old parameters use its name.
-/

namespace FrameGraph

open Text

/-! ## The words of patched parameters -/

namespace Text

theorem freeWordsFrom_agrees {a b : Context} (agrees : a.Agrees b) (row : List Token) :
    freeWordsFrom a row = freeWordsFrom b row := by
  induction row generalizing a b with
  | nil => rfl
  | cons token row ih =>
    have later := ih (agrees.after token)
    cases token with
    | comment text => exact later
    | char c => exact later
    | word text => rw [freeWordsFrom, freeWordsFrom, agrees.isFree_eq, later]

theorem freeWordsFrom_joint {joint : List Token} (blank : ∀ token ∈ joint, token = .char ',' ∨ token = .char ' ')
    {context : Context} (agrees : context.Agrees .start) (row : List Token) :
    freeWordsFrom context (joint ++ row) = freeWordsFrom .start row := by
  induction joint generalizing context with
  | nil => exact freeWordsFrom_agrees agrees row
  | cons token joint ih =>
    rw [List.forall_mem_cons] at blank
    have later : (context.after token).Agrees .start := by
      have fresh : (Context.start.after token).Agrees .start := by
        obtain rfl | rfl := blank.1 <;> exact ⟨rfl, rfl⟩
      have same := agrees.after token
      exact ⟨same.1.trans fresh.1, same.2.trans fresh.2⟩
    rw [← ih blank.2 later]
    obtain rfl | rfl := blank.1 <;> rfl

end Text

/-- The words of a builtin parameter do not look like a variable of an entry point, and none of them is left open. -/
theorem Builtin.words_parameter {stage : Stage} {builtin : Builtin} (listed : builtin ∈ stage.builtins) :
    ((tokens builtin.parameter.toList).foldl Context.after .start).Agrees .start ∧
      ∀ word ∈ freeWords (tokens builtin.parameter.toList), ¬['_', '_'] <:+: word := by
  have all : ∀ stage : Stage, ∀ builtin ∈ stage.builtins,
      (((tokens builtin.parameter.toList).foldl Context.after .start).digit = false ∧
        ((tokens builtin.parameter.toList).foldl Context.after .start).isMarked = false) ∧
      ∀ word ∈ freeWords (tokens builtin.parameter.toList), ¬['_', '_'] <:+: word := by
    intro stage
    cases stage <;> decide +kernel
  exact all stage builtin listed

/-- Added parameters do not use the names of variables. -/
theorem mem_words_parameterRow {stage : Stage} {builtins : List Builtin}
    (listed : ∀ builtin ∈ builtins, builtin ∈ stage.builtins) {word : List Char} (wide : ['_', '_'] <:+: word)
    (row : List Token) : word ∈ freeWords (parameterRow (builtins.map Builtin.parameter) row) ↔ word ∈ freeWords row := by
  induction builtins with
  | nil => rfl
  | cons builtin rest ih =>
    rw [List.forall_mem_cons] at listed
    obtain ⟨open', narrow⟩ := Builtin.words_parameter listed.1
    have other : word ∉ freeWordsFrom .start (tokens builtin.parameter.toList) := fun member => narrow word member wide
    cases rest with
    | nil =>
      rw [List.map_singleton, parameterRow, freeWords, freeWordsFrom_append, List.mem_append, or_iff_right other,
        freeWordsFrom_agrees open', freeWords]
    | cons next rest =>
      have comma : ∀ token ∈ [Token.char ',', .char ' '], token = .char ',' ∨ token = .char ' ' := by decide
      have behind := freeWordsFrom_joint comma open' (parameterRow ((next :: rest).map Builtin.parameter) row)
      rw [← ih listed.2, List.map_cons, List.map_cons, parameterRow, freeWords, freeWordsFrom_append, List.mem_append,
        or_iff_right other]
      exact Iff.of_eq (congrArg (word ∈ ·) behind)

/-! ## The thread's global id -/

/-- The builtin value for the thread's global id. -/
def Builtin.gid : Builtin := ⟨"gid", "global_invocation_id", "vec3<u32>"⟩

namespace EntryJob

variable {job : EntryJob} {entry : String} {checked : Bool} {patch : Patch}

/-- What `gid` stands for is a patched parameter with the thread's global id. -/
def HasThread (job : EntryJob) (patch : Patch) : Prop :=
  some (gidName patch).toList ∈ builtinNames Builtin.gid.value.toList (Text.tokens (job.entry.patchedParams patch))

/-- What `gid` needs to stand for the parameter with the thread's global id: nothing in the way, or, if the parameters
use `gid`, that the one with the global id gets the name that `gid` gets. -/
def KeepsThread (job : EntryJob) (entry : String) : Prop :=
  if references job.entry.params "gid" then
    Builtin.gid.value ∉ job.names ∧ ∃ existing, job.declared? Builtin.gid = some existing ∧
      (Compile.globalsOf entry job.names).apply existing.toList = (Compile.globalsOf entry job.names).apply "gid".toList
  else job.Unhindered Builtin.gid

theorem gid_listed (kernel : job.stage = .compute) : Builtin.gid ∈ job.stage.builtins := kernel ▸ .head _

theorem toList_gidName (patch : Patch) : (gidName patch).toList = patch.identifiers.apply "gid".toList := by
  rw [gidName, Renames.apply_eq]
  cases patch.identifiers.lookup "gid" <;> rfl

theorem wants_gid : job.wants (forcedBy true) Builtin.gid = !references job.entry.params "gid" := by
  simp [wants, forcedBy, Builtin.gid]

namespace BindsBuiltins

/-- A parameter that is added for the global id has it, and `gid` stands for it unless an argument is called so. -/
theorem hasThread_added (binds : job.BindsBuiltins entry true patch) (kernel : job.stage = .compute)
    (unused : references job.entry.params "gid" = false) (undeclared : job.declared? Builtin.gid = none)
    (free : "gid" ∉ job.names) : job.HasThread patch := by
  have wanted : job.wants (forcedBy true) Builtin.gid = true := by rw [wants_gid, unused, Bool.not_false]
  have adds : job.adds (forcedBy true) Builtin.gid = true := by rw [adds, wanted, undeclared]; rfl
  have lookup : patch.identifiers.lookup "gid" = none := by
    refine (binds.lookup_eq _ (gid_listed kernel)).trans ?_
    rw [alias?, if_pos wanted, undeclared]
    exact if_neg free
  rw [HasThread, binds.declares _ (gid_listed kernel), if_pos adds, gidName, lookup]
  exact List.mem_append_left _ (.head _)

/-- Where the parameters use `gid`, no parameter is added; a declared one has to get the name that `gid` gets. -/
theorem hasThread_used (binds : job.BindsBuiltins entry true patch) (kernel : job.stage = .compute)
    (legible : Legible [] job.entry.params) (clear : Clear Builtin.gid.value.toList job.entry.params)
    (used : references job.entry.params "gid" = true) : job.HasThread patch ↔
      Builtin.gid.value ∉ job.names ∧ ∃ existing, job.declared? Builtin.gid = some existing ∧
        (Compile.globalsOf entry job.names).apply existing.toList = (Compile.globalsOf entry job.names).apply "gid".toList := by
  have unwanted : job.wants (forcedBy true) Builtin.gid = false := by rw [wants_gid, used, Bool.not_true]
  have lookup : patch.identifiers.lookup "gid" =
      if "gid" ∈ job.names then some (Naming.global entry "gid") else none := by
    refine (binds.lookup_eq _ (gid_listed kernel)).trans ?_
    rw [alias?, unwanted, if_neg Bool.false_ne_true, Option.none_or]
    rfl
  have named : (gidName patch).toList = (Compile.globalsOf entry job.names).apply "gid".toList := by
    rw [toList_gidName, Renames.apply_eq, Renames.apply_eq, Compile.lookup_globalsOf, lookup]
  have names := binds.declares _ (gid_listed kernel)
  rw [builtinNames_globals (gid_listed kernel) legible clear, adds, unwanted, Bool.false_and,
    if_neg Bool.false_ne_true, List.nil_append] at names
  rw [HasThread, names, named]
  by_cases argument : Builtin.gid.value ∈ job.names
  · simp [argument]
  · cases job.declared? Builtin.gid with
    | none => simp [argument]
    | some existing => simp [argument, eq_comm]

/-- Where the parameters do not use `gid`, the global id is at most one parameter's. -/
theorem length_thread (binds : job.BindsBuiltins entry true patch) (kernel : job.stage = .compute)
    (legible : Legible [] job.entry.params) (clear : Clear Builtin.gid.value.toList job.entry.params)
    (unused : references job.entry.params "gid" = false) :
    (builtinNames Builtin.gid.value.toList (Text.tokens (job.entry.patchedParams patch))).length ≤ 1 := by
  have wanted : job.wants (forcedBy true) Builtin.gid = true := by rw [wants_gid, unused, Bool.not_false]
  rw [binds.declares _ (gid_listed kernel), builtinNames_globals (gid_listed kernel) legible clear, adds, wanted,
    Bool.true_and]
  cases job.declared? Builtin.gid <;> by_cases argument : Builtin.gid.value ∈ job.names <;> simp [argument]

/-- Where declarations can be seen, `gid` stands for the parameter with the global id if names of arguments let it. -/
theorem hasThread_iff (binds : job.BindsBuiltins entry true patch) (kernel : job.stage = .compute)
    (legible : Legible [] job.entry.params) (clear : Clear Builtin.gid.value.toList job.entry.params) :
    job.HasThread patch ↔ job.KeepsThread entry := by
  rw [KeepsThread]
  split
  · rename_i used
    exact binds.hasThread_used kernel legible clear used
  · rename_i unused
    have unused := eq_false_of_ne_true unused
    have wanted : job.wants (forcedBy true) Builtin.gid = true := by rw [wants_gid, unused, Bool.not_false]
    have few := binds.length_thread kernel legible clear unused
    rw [← binds.once_iff _ (gid_listed kernel) wanted clear, HasThread, BindsOnce, toList_gidName]
    constructor
    · intro member
      -- a parameter with the global id is the only one with it
      obtain ⟨only, one⟩ := List.length_eq_one_iff.mp (few.antisymm (List.length_pos_of_mem member))
      rw [one, List.mem_singleton] at member
      rw [one, ← member]
      rfl
    · intro one
      rw [one]
      exact .head _

/-- The patched parameters use the name of a variable if a word of the old ones gets that name. -/
theorem references_params (binds : job.BindsBuiltins entry checked patch) (spelled : isIdentifier entry.toList = true)
    (legible : Legible [] job.entry.params) {name : String} (wide : ['_', '_'] <:+: name.toList) :
    references (Text.tokens (job.entry.patchedParams patch)) name = true ↔
      ∃ word ∈ freeWords job.entry.params, (Compile.globalsOf entry job.names).apply word = name.toList := by
  obtain ⟨joint, blank, row⟩ := binds.params_eq
  have own : ∀ added ∈ job.stage.builtins.filter (job.adds (forcedBy checked)), added ∈ job.stage.builtins :=
    fun added member => List.mem_of_mem_filter member
  have words : freeWords (joint ++ renamedRow (Compile.globalsOf entry job.names) .start job.entry.params) =
      (freeWords job.entry.params).map (Compile.globalsOf entry job.names).apply := by
    rw [freeWords, freeWordsFrom_joint blank ⟨rfl, rfl⟩, Compile.renamedRow_wordsOf legible,
      freeWordsFrom_renamedRow (Compile.globalsOf_wordsOf_spelled spelled) ⟨rfl, rfl⟩ legible]
    exact List.map_congr_left fun word member =>
      (Compile.apply_wordsOf entry job.names (identifier_of_mem legible member)).symm
  rw [references_eq_true, row, binds.added, mem_words_parameterRow own wide, words, List.mem_map]

/-- Where the parameters do not use the name of the grid's extent, they use the variable's name after the edit if they
did before and no argument has it. -/
theorem references_gridSize (binds : job.BindsBuiltins entry checked patch)
    (spelled : isIdentifier entry.toList = true) (legible : Legible [] job.entry.params)
    (unused : references job.entry.params gridSizeName = false) :
    references (Text.tokens (job.entry.patchedParams patch)) (Naming.global entry gridSizeName) = true ↔
      references job.entry.params (Naming.global entry gridSizeName) = true ∧
        Naming.global entry gridSizeName ∉ job.names := by
  have wide : ['_', '_'] <:+: (Naming.global entry gridSizeName).toList :=
    ⟨entry.toList, gridSizeName.toList, by simp [Naming.toList_global]⟩
  rw [binds.references_params spelled legible wide, references_eq_true]
  constructor
  · rintro ⟨word, member, same⟩
    have split := Compile.apply_globalsOf entry job.names (String.ofList word)
    rw [String.toList_ofList, same] at split
    split at split
    · have grid := Naming.global_injective entry (String.toList_inj.mp split)
      have used : references job.entry.params gridSizeName = true := by
        rw [references_eq_true, grid, String.toList_ofList]
        exact member
      rw [used] at unused
      cases unused
    · rename_i free
      rw [← split] at member free same
      exact ⟨member, Compile.apply_globalsOf_eq.mp same⟩
  · rintro ⟨member, free⟩
    exact ⟨_, member, Compile.apply_globalsOf_eq.mpr free⟩

end BindsBuiltins

end EntryJob

/-! ## Compiled kernels -/

/-- What the range check of a kernel compares. -/
structure CompiledDispatch.Compares (kernel : CompiledDispatch) (node : Dispatch) (job : EntryJob) (patch : Patch)
    (text : EntryText) : Prop where
  /-- The check is about what `gid` stands for and the variable for the extent of the grid. -/
  guards : kernel.Guards node job patch text
  thread_added : references job.entry.params "gid" = false → job.declared? Builtin.gid = none → "gid" ∉ job.names →
    job.HasThread patch
  thread_iff : Clear Builtin.gid.value.toList job.entry.params → (job.HasThread patch ↔ job.KeepsThread kernel.entry)
  /-- One variable has the name that is compared, unless an argument is called like the extent. -/
  extent_once : (text.declarations.map (·.name)).count (Naming.global kernel.entry gridSizeName) = 1 ↔
    gridSizeName ∉ job.names
  /-- No parameter hides the variable, unless the old ones use its name and no argument has it. -/
  extent_hidden : references (Text.tokens (job.entry.patchedParams patch)) (Naming.global kernel.entry gridSizeName) = true ↔
    references job.entry.params (Naming.global kernel.entry gridSizeName) = true ∧
      Naming.global kernel.entry gridSizeName ∉ job.names

/-- The variables of a kernel that binds the extent of its grid have the name of the extent's once. -/
theorem EntryText.Declares.count_gridSize {scope : EntryScope} {text : EntryText} (declares : text.Declares scope)
    (grid : scope.grid = true) :
    (text.declarations.map (·.name)).count (Naming.global scope.entry gridSizeName) = 1 ↔
      gridSizeName ∉ scope.arguments := by
  rw [declares.perm.count_eq, EntryScope.globals, List.count_map_of_injective _ _ (Naming.global_injective scope.entry),
    EntryScope.names, grid, gridNames, if_pos rfl, List.count_append, List.count_singleton_self, ← List.count_eq_zero]
  omega

namespace Compile

variable {table : ResourceTable} {caps : DeviceCaps} {state after : CompileState} {unit : Nat}

theorem bindGrid_unused {job : EntryJob} {entry : String} {plan : GridPlan} {scan : ArgumentScan}
    (checked : (bindGrid job entry plan scan).1.boundsCheck) : references job.entry.params gridSizeName = false := by
  unfold bindGrid at checked
  dsimp only at checked
  split at checked
  · cases checked
  · rename_i unused
    exact eq_false_of_ne_true unused

theorem KernelRun.compares {node : Dispatch} (made : KernelRun table caps unit node state) (sane : state.Sane)
    (inside : unit < state.units.length) (checked : made.compiled.grid.boundsCheck) :
    ∃ text ∈ made.text.entries, ∃ job patch, made.compiled.Compares node job patch text := by
  have guards := made.guards_kernelPatch checked
  have binds := made.bindsBuiltins
  rw [checked] at binds
  have kernel := locate_stage made.located
  have legible := locate_legible made.located
  obtain ⟨arguments_eq, -⟩ := locate_ok made.located
  refine ⟨_, List.mem_singleton.mpr rfl, made.job, _, {
    guards
    thread_added := binds.hasThread_added kernel
    thread_iff := binds.hasThread_iff kernel legible
    extent_once := ?_
    extent_hidden := binds.references_gridSize made.entry_identifier legible (bindGrid_unused checked) }⟩
  obtain _ | ⟨declares, -⟩ := LeafRun.declares (.kernel made) sane inside
  have grid : made.compiled.groups.any GroupBinding.bindsGrid = true := by
    obtain ⟨spec, group, binding, bound, extent, -⟩ := guards.bound
    refine List.any_eq_true.mpr ⟨_, List.mem_of_getElem? group, ?_⟩
    exact List.any_eq_true.mpr ⟨binding, bound, beq_iff_eq.mpr extent⟩
  rw [EntryJob.names, arguments_eq]
  exact declares.count_gridSize grid

end Compile

/-- What the range check of every kernel compares that is compiled with one. -/
theorem Program.check_compares {table : ResourceTable} {caps : DeviceCaps} {source : Program} {program : CompiledProgram}
    {log : List LogLine} (compiled : source.compile table caps = .ok (program, log)) {flat : FlatLeaf}
    {kernel : CompiledDispatch} (listed : (flat, .dispatch kernel) ∈ source.compiledLeaves program)
    (checked : kernel.grid.boundsCheck) :
    ∃ node, flat.node = .dispatch node ∧ ∃ unit, program.units[kernel.unit]? = some unit ∧
      ∃ leaf ∈ unit.leaves, ∃ text ∈ leaf.entries, ∃ job patch, kernel.Compares node job patch text := by
  obtain ⟨unit, found, leaf, emitted, last, before, after, sane, inside, run, -⟩ := source.leaf_emitted compiled listed rfl
  dsimp only at run
  generalize kind : flat.node = node, is : CompiledLeaf.dispatch kernel = leaf' at run
  cases run with
  | kernel made =>
    obtain rfl := CompiledLeaf.dispatch.inj is
    obtain ⟨text, has, compares⟩ := made.compares sane inside checked
    exact ⟨_, rfl, unit, found, _, emitted, text, has, compares⟩
  | draw made => cases is

/-- A kernel with an argument called `gid`. -/
def takenKernel : Dispatch where
  label := "k"
  source := "@compute fn k() \x7b gid[0] = 1u; \x7d"
  function := "k"
  arguments := [⟨"gid", none, none, .buffer ⟨0⟩ (.storage false)⟩]
  fits := [.fixed ⟨4, 1, 1⟩]

def takenProgram : Program := ⟨"", [.leaf (.dispatch takenKernel)]⟩

/-- Its range check does not compare the thread's global id. -/
theorem Program.check_compares_taken :
    ∃ program log flat kernel node text, ∃ (job : EntryJob) (patch : Patch),
      takenProgram.compile { buffers := [⟨"x", .scalar .u32, 4, .fixed 4⟩] } {} = .ok (program, log) ∧
      (flat, .dispatch kernel) ∈ takenProgram.compiledLeaves program ∧ kernel.grid.boundsCheck ∧
      flat.node = .dispatch node ∧ kernel.Compares node job patch text ∧ ¬job.HasThread patch := by
  have run : (takenProgram.compile { buffers := [⟨"x", .scalar .u32, 4, .fixed 4⟩] } {}).toOption.map (fun result =>
      result.1.leaves.map fun leaf => leaf.kernel?.map (·.grid.boundsCheck)) = some [some true] := by decide +kernel
  have values : (EntryJob.locate takenKernel.source .compute "k" takenKernel.arguments).toOption.map (fun job =>
      (job.entry.params, job.names)) = some ([], ["gid"]) := by decide +kernel
  obtain ⟨⟨program, log⟩, read, leaves⟩ := Option.map_eq_some_iff.mp run
  have compiled := ok_of_toOption read
  obtain ⟨leaf, leaves, one⟩ := List.map_eq_singleton_iff.mp leaves
  obtain ⟨kernel, is, checked⟩ := Option.map_eq_some_iff.mp one
  obtain rfl : leaf = .dispatch kernel := CompiledLeaf.kernel?_eq_some.mp is
  have flat : (Flattened.ofProgram takenProgram).leaves.map (·.node) = [.dispatch takenKernel] := rfl
  obtain ⟨flat, flats, kind⟩ := List.map_eq_singleton_iff.mp flat
  have listed : (flat, .dispatch kernel) ∈ takenProgram.compiledLeaves program := by
    change program.leaves = [.dispatch kernel] at leaves
    rw [Program.compiledLeaves, flats, leaves]
    exact .head _
  obtain ⟨node, same, -, -, -, -, text, -, job, patch, compares⟩ :=
    takenProgram.check_compares compiled listed checked
  obtain rfl : takenKernel = node := Leaf.dispatch.inj (kind.symm.trans same)
  have located : EntryJob.locate takenKernel.source .compute "k" takenKernel.arguments = .ok job :=
    compares.guards.located
  rw [located] at values
  obtain ⟨params, names⟩ := Prod.mk.inj (Option.some.inj values)
  have clear : Clear Builtin.gid.value.toList job.entry.params := by
    rw [params]
    exact ⟨by simp [Unquoted], fun front back split => by simp at split, Nat.zero_le _⟩
  refine ⟨program, log, flat, kernel, _, text, job, patch, compiled, listed, checked, kind, compares, ?_⟩
  have undeclared : declaredBuiltin? (render []) Builtin.gid.value = none := by decide +kernel
  have argument : Builtin.gid.ident ∈ ["gid"] := .head _
  rw [compares.thread_iff clear, EntryJob.KeepsThread, EntryJob.Unhindered, EntryJob.declared?, params, names,
    if_neg (show ¬references [] "gid" = true by decide), undeclared]
  exact not_not_intro argument

end FrameGraph
