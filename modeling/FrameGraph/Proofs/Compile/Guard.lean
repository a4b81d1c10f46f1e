import FrameGraph.Proofs.Compile.Emitted
import FrameGraph.Proofs.Grid

/-! # Range checks of kernels

A kernel that checks the range of its threads is given the extent of its grid as a uniform and compares the global
id with it at the top of its body. The comparisons are along the axes of the grid, while the workgroup may be the
kernel's own.
-/

namespace FrameGraph

variable {table : ResourceTable} {caps : DeviceCaps} {state after : CompileState}

namespace Patch

/-- More names for identifiers. -/
def renamedBy (patch : Patch) (renames : Text.Renames) : Patch :=
  { patch with identifiers := renames ++ patch.identifiers }

theorem renamedBy_renamedBy (patch : Patch) (first second : Text.Renames) :
    (patch.renamedBy first).renamedBy second = patch.renamedBy (second ++ first) := by
  simp [renamedBy]

end Patch

namespace Compile

variable {job : EntryJob} {unit : Nat} {entry : String} {scan result : ArgumentScan}

/-- The names of an entry point with the variables that take their place, the last one first. -/
def globalsOf (entry : String) (names : List String) : Text.Renames :=
  (names.map fun name => (name, Naming.global entry name)).reverse

theorem globalsOf_append (entry : String) (first second : List String) :
    globalsOf entry (first ++ second) = globalsOf entry second ++ globalsOf entry first := by
  simp [globalsOf]

theorem shareMember_foldl_patch (entry : String) (place : Nat) (bound : List BoundVariable) (scan : ArgumentScan) :
    (bound.foldl (shareMember entry place) scan).patch =
      scan.patch.renamedBy (globalsOf entry (bound.map (·.spec.name))) := by
  induction bound generalizing scan with
  | nil => rfl
  | cons member rest ih => simp [ih, shareMember, globalsOf, Patch.rename, Patch.renamedBy]

theorem bindArgument_patch {argument : Argument}
    (run : (bindArgument table unit job entry scan argument).run state = .ok (result, after)) :
    result.patch = scan.patch.renamedBy (globalsOf entry (EntryJob.argumentNames argument)) := by
  unfold bindArgument at run
  dsimp only at run
  split at run
  · rename_i name members kind
    obtain ⟨⟨place, seen⟩, middle, bound, run⟩ := bind_ok run
    obtain ⟨rfl, rfl⟩ := pure_ok run
    rw [shareMember_foldl_patch, bindBlock_names bound, EntryJob.argumentNames, kind]
  · rename_i plain
    obtain ⟨⟨bound, bytes⟩, middle, made, run⟩ := bind_ok run
    obtain ⟨rfl, rfl⟩ := pure_ok run
    rw [argumentNames_plain plain]
    rfl

/-- Binding the arguments of an entry point renames them and changes nothing else. -/
theorem bindArguments_patch (run : (bindArguments table unit job entry scan).run state = .ok (result, after)) :
    result.patch = scan.patch.renamedBy (globalsOf entry (job.arguments.flatMap EntryJob.argumentNames)) := by
  unfold bindArguments at run
  generalize job.arguments = rest at run ⊢
  induction rest generalizing scan state with
  | nil =>
    obtain ⟨rfl, rfl⟩ := pure_ok run
    rfl
  | cons argument rest ih =>
    rw [List.foldlM_cons] at run
    obtain ⟨next, middle, bound, run⟩ := bind_ok run
    rw [ih run, bindArgument_patch bound, Patch.renamedBy_renamedBy, List.flatMap_cons, globalsOf_append]

/-- A kernel that checks the range has its grid's extent bound behind its other buffers. -/
theorem bindGrid_checked {plan : GridPlan} (checked : (bindGrid job entry plan scan).1.boundsCheck) :
    ∃ binding pool, bindGrid job entry plan scan =
      (plan, ⟨pool, { scan.bindings with buffers := scan.bindings.buffers ++ [gridVariable entry plan.dims binding] },
        scan.patch.renamedBy (globalsOf entry [gridSizeName])⟩) := by
  unfold bindGrid at checked ⊢
  dsimp only at checked ⊢
  split at checked
  · cases checked
  · rename_i undeclared
    have wanted : (plan.boundsCheck || Text.references job.code gridSizeName) = true := by
      split at checked
      · assumption
      · rw [checked, Bool.true_or]
    rw [if_neg undeclared, if_pos wanted]
    exact ⟨_, _, rfl⟩

end Compile

namespace EntryJob

variable {job : EntryJob} {forced : List String} {patch : Patch}

/-- `gid` names a parameter that has the thread's global id: one that the kernel calls so, one that it declares for
the global id under another name, or one that is added. -/
def NamesThread (job : EntryJob) (patch : Patch) : Prop :=
  (gidName patch = "gid" ∧ (Text.references job.entry.params "gid" ∨
    "@builtin(global_invocation_id) gid: vec3<u32>" ∈ patch.parameters)) ∨
    declaredBuiltin? (Text.render job.entry.params) "global_invocation_id" = some (gidName patch)

/-- Binding builtins leaves the attribute and the lines at the top of the body alone. -/
theorem bindBuiltins_keeps (job : EntryJob) (forced : List String) (patch : Patch) :
    (job.bindBuiltins forced patch).attr = patch.attr ∧ (job.bindBuiltins forced patch).prologue = patch.prologue := by
  have each (builtins : List Builtin) (patch : Patch) :
      (builtins.foldl (job.bindBuiltin forced) patch).attr = patch.attr ∧
        (builtins.foldl (job.bindBuiltin forced) patch).prologue = patch.prologue := by
    induction builtins generalizing patch with
    | nil => exact ⟨rfl, rfl⟩
    | cons builtin rest ih =>
      have one : (job.bindBuiltin forced patch builtin).attr = patch.attr ∧
          (job.bindBuiltin forced patch builtin).prologue = patch.prologue := by
        unfold bindBuiltin
        split
        · split <;> exact ⟨rfl, rfl⟩
        · exact ⟨rfl, rfl⟩
      obtain ⟨attr, prologue⟩ := ih (job.bindBuiltin forced patch builtin)
      exact ⟨attr.trans one.1, prologue.trans one.2⟩
  exact each job.stage.builtins patch

/-- Binding the other builtins does not touch `gid`. -/
theorem foldl_bindBuiltin_gid (job : EntryJob) (forced : List String) (patch : Patch) {builtins : List Builtin}
    (others : ∀ builtin ∈ builtins, builtin.ident ≠ "gid") :
    gidName (builtins.foldl (job.bindBuiltin forced) patch) = gidName patch ∧
      patch.parameters ⊆ (builtins.foldl (job.bindBuiltin forced) patch).parameters := by
  induction builtins generalizing patch with
  | nil => exact ⟨rfl, List.Subset.refl _⟩
  | cons builtin rest ih =>
    rw [List.forall_mem_cons] at others
    obtain ⟨name, parameters⟩ := ih (job.bindBuiltin forced patch builtin) others.2
    have one : gidName (job.bindBuiltin forced patch builtin) = gidName patch ∧
        patch.parameters ⊆ (job.bindBuiltin forced patch builtin).parameters := by
      unfold bindBuiltin
      split
      · split
        · have apart : ("gid" == builtin.ident) = false := beq_false_of_ne others.1.symm
          refine ⟨?_, List.Subset.refl _⟩
          simp only [gidName, Patch.rename, List.lookup_cons, apart]
        · exact ⟨rfl, List.subset_append_left _ _⟩
      · exact ⟨rfl, List.Subset.refl _⟩
    exact ⟨name.trans one.1, List.Subset.trans one.2 parameters⟩

/-- When no argument is called `gid`, a kernel that needs the global id has it under the name that is used. -/
theorem bindBuiltins_namesThread (kernel : job.stage = .compute) (needed : "gid" ∈ forced)
    (free : gidName patch = "gid") : job.NamesThread (job.bindBuiltins forced patch) := by
  let gid : Builtin := ⟨"gid", "global_invocation_id", "vec3<u32>"⟩
  have builtins : ∃ others, Stage.builtins .compute = gid :: others ∧ ∀ builtin ∈ others, builtin.ident ≠ "gid" :=
    ⟨_, rfl, by decide⟩
  obtain ⟨others, listed, apart⟩ := builtins
  rw [bindBuiltins, kernel, listed, List.foldl_cons]
  obtain ⟨name, parameters⟩ := foldl_bindBuiltin_gid job forced (job.bindBuiltin forced patch gid) apart
  rw [NamesThread, name]
  by_cases own : Text.references job.entry.params "gid" = true
  · have unwanted : job.wants forced gid = false := by simp [wants, gid, own]
    rw [bindBuiltin, unwanted, if_neg Bool.false_ne_true]
    exact .inl ⟨free, .inl own⟩
  · have wanted : job.wants forced gid = true := by simp [wants, gid, own, needed]
    rw [bindBuiltin, wanted, if_pos rfl] at parameters ⊢
    cases declared : declaredBuiltin? (Text.render job.entry.params) gid.value with
    | some existing =>
      right
      have renamed : gidName (patch.rename gid.ident existing) = existing := by
        simp [gidName, Patch.rename, gid]
      exact congrArg some renamed.symm
    | none =>
      rw [declared] at parameters
      left
      refine ⟨free, .inr (parameters ?_)⟩
      exact List.mem_append_right _ (List.mem_singleton.mpr rfl)

end EntryJob

/-- The line that gives a kernel its workgroup size. -/
def Axes.sizeLine (size : Axes) : String :=
  s!"\n    let {threadsPerGroupName} = vec3<u32>({size.x}u, {size.y}u, {size.z}u);"

/-- The entry point of a kernel that checks the range of its threads: how the workgroup size, the uniform with the
grid's extent and the range check stand in its text. -/
structure CompiledDispatch.Guards (kernel : CompiledDispatch) (node : Dispatch) (job : EntryJob) (patch : Patch)
    (text : EntryText) : Prop where
  located : EntryJob.locate node.source .compute node.function node.arguments = .ok job
  code_eq : text.code = job.entry.apply patch
  /-- The workgroup is the kernel's own, or the one that fits the grid is added behind the stage mark. -/
  workgroup : (job.entry.workgroupSize = .literal kernel.grid.workgroup ∧ patch.attr = none) ∨
    (job.entry.workgroupSize = .absent ∧ kernel.grid.workgroup = kernel.grid.dims.defaultWorkgroup ∧ patch.attr = some
      s!"@workgroup_size({kernel.grid.workgroup.x}, {kernel.grid.workgroup.y}, {kernel.grid.workgroup.z})")
  /-- The extent is a uniform in the first bind group. -/
  bound : ∃ spec, kernel.groups[0]? = some (.own spec) ∧ ∃ binding ∈ spec, binding.source = .gridExtent ∧
    ⟨0, binding.entry.binding, "var<uniform>", Naming.global kernel.entry gridSizeName, kernel.grid.dims.typeName⟩ ∈
      text.declarations
  /-- The body starts with the range check; nothing but the line for the workgroup size may be in front. -/
  prologue_eq : ∃ line, (line = "" ∨ line = kernel.grid.workgroup.sizeLine) ∧
    patch.prologue = line ++ ("\n    if (" ++ String.intercalate " || " (kernel.grid.dims.axes.map
      (kernel.grid.dims.comparison (EntryJob.gidName patch) (Naming.global kernel.entry gridSizeName))) ++
      ") \x7b return; \x7d")
  /-- Unless an argument is called `gid`, the check is about the thread's global id. -/
  thread : "gid" ∉ node.arguments.flatMap EntryJob.argumentNames → job.NamesThread patch

/-- A buffer is bound in the first bind group and declared for its entry point. -/
theorem LeafBindings.buffer_bound {bindings : LeafBindings} {v : EntryVariable} (found : v ∈ bindings.buffers) :
    bindings.groups[0]? = some (.own (specs bindings.buffers)) ∧ v.bound.spec ∈ specs bindings.buffers ∧
      v.bound.declaration 0 ∈ bindings.declarations v.entry := by
  have some : bindings.buffers.isEmpty = false := List.isEmpty_eq_false_iff.mpr (List.ne_nil_of_mem found)
  have spaces : ∃ rest, bindings.ownSpaces = bindings.buffers :: rest := by
    rw [ownSpaces, List.filter_cons_of_pos (by rw [some]; rfl)]
    exact ⟨_, rfl⟩
  obtain ⟨rest, spaces⟩ := spaces
  refine ⟨?_, ?_, ?_⟩
  · rw [groups, spaces]
    rfl
  · exact (GroupSpec.sorted_perm _).mem_iff.mpr (List.mem_map_of_mem found)
  · have declared : v.bound.declaration 0 ∈ declarationsOf v.entry bindings.buffers 0 :=
      List.mem_map_of_mem (List.mem_filter.mpr ⟨found, beq_self_eq_true _⟩)
    rw [declarations, spaces]
    exact List.mem_append_left _ (List.mem_append_left _ declared)

namespace Compile

variable {unit : Nat} {job : EntryJob} {entry : String} {plan : GridPlan}

theorem resolve_workgroup {function : String} {fits : List GridSource} {scale : Scale} {arguments : List Argument}
    (resolved : GridPlan.resolve function fits scale arguments table caps = .ok plan) :
    plan.workgroup = plan.dims.defaultWorkgroup := by
  unfold GridPlan.resolve at resolved
  split at resolved
  · cases resolved
  · split at resolved
    · rename_i fit _
      cases found : GridPlan.resolveSource function fit scale arguments table with
      | error _ =>
        rw [found] at resolved
        cases resolved
      | ok planned =>
        rw [found] at resolved
        cases resolved
        rfl
    · cases resolved
  · cases resolved

theorem fixWorkgroup_ok {fixed : GridPlan} {attr : Option String} (fits : plan.workgroup = plan.dims.defaultWorkgroup)
    (done : fixWorkgroup job plan = .ok (fixed, attr)) :
    (job.entry.workgroupSize = .literal fixed.workgroup ∧ attr = none) ∨
      (job.entry.workgroupSize = .absent ∧ fixed.workgroup = fixed.dims.defaultWorkgroup ∧
        attr = some s!"@workgroup_size({fixed.workgroup.x}, {fixed.workgroup.y}, {fixed.workgroup.z})") := by
  unfold fixWorkgroup at done
  split at done
  · rename_i size
    cases done
    exact .inl ⟨size, rfl⟩
  · cases done
  · rename_i absent
    cases done
    exact .inr ⟨absent, fits, rfl⟩

/-- A range check ends what is put at the top of a kernel. -/
theorem kernelPrologue_checked (job : EntryJob) (entry : String) (checked : plan.boundsCheck) {patch : Patch}
    (clear : patch.prologue = "") :
    ∃ line, (line = "" ∨ line = plan.workgroup.sizeLine) ∧ kernelPrologue job entry plan patch = { patch with
      prologue := line ++ boundsCheckText plan.dims (EntryJob.gidName patch) (Naming.global entry gridSizeName) } := by
  unfold kernelPrologue
  dsimp only
  rw [if_pos checked]
  split
  · refine ⟨plan.workgroup.sizeLine, .inr rfl, ?_⟩
    simp only [Patch.addPrologue, clear, EntryJob.gidName, String.empty_append]
    rfl
  · exact ⟨"", .inl rfl, by simp [Patch.addPrologue, clear]⟩

namespace KernelRun

variable {node : Dispatch} (made : KernelRun table caps unit node state)

/-- The names that a kernel with a range check has variables for. -/
def checkedNames : List String := made.job.arguments.flatMap EntryJob.argumentNames ++ [gridSizeName]

/-- The patch of a kernel with a range check, up to the lines at the top of the body. -/
def boundPatch : Patch :=
  made.job.bindBuiltins ["gid"]
    ((namePatch made.job made.entry made.attr).renamedBy (globalsOf made.entry made.checkedNames))

theorem boundPatch_keeps : made.boundPatch.attr = made.attr ∧ made.boundPatch.prologue = "" :=
  made.job.bindBuiltins_keeps _ _

theorem boundPatch_namesThread (free : "gid" ∉ made.job.arguments.flatMap EntryJob.argumentNames)
    (kernel : made.job.stage = .compute) : made.job.NamesThread made.boundPatch := by
  refine EntryJob.bindBuiltins_namesThread kernel (.head _) ?_
  have unknown : "gid" ∉ made.checkedNames := by
    intro found
    obtain found | found := List.mem_append.mp found
    · exact free found
    · exact absurd (List.mem_singleton.mp found) (by decide)
  have none : (globalsOf made.entry made.checkedNames).lookup "gid" = none := by
    rw [List.lookup_eq_none_iff]
    intro pair found
    obtain ⟨name, has, rfl⟩ := List.mem_map.mp (List.mem_reverse.mp found)
    exact bne_iff_ne.mpr fun same => unknown (same ▸ has)
  simp [EntryJob.gidName, Patch.renamedBy, namePatch, Patch.empty, none]

/-- A kernel that checks the range has the grid's extent among its buffers, and the check at the top of its body. -/
theorem checked_eq (checked : made.compiled.grid.boundsCheck) :
    made.compiled.grid = made.planned ∧
      (∃ binding, made.granted.2.bindings.buffers =
        made.scan.bindings.buffers ++ [gridVariable made.entry made.planned.dims binding]) ∧
      kernelPatch made.job made.entry made.granted.1 made.granted.2 =
        kernelPrologue made.job made.entry made.planned made.boundPatch := by
  obtain ⟨binding, pool, granted⟩ := bindGrid_checked checked
  have plan_eq : made.granted.1 = made.planned := congrArg Prod.fst granted
  have checked : made.granted.1.boundsCheck = true := checked
  refine ⟨plan_eq, ⟨binding, congrArg (·.2.bindings.buffers) granted⟩, ?_⟩
  have patch_eq : made.granted.2.patch =
      (namePatch made.job made.entry made.attr).renamedBy (globalsOf made.entry made.checkedNames) := by
    refine (congrArg (·.2.patch) granted).trans ?_
    rw [bindArguments_patch made.binds, Patch.renamedBy_renamedBy, ← globalsOf_append]
    rfl
  rw [kernelPatch, if_pos checked, patch_eq, plan_eq]
  rfl

/-- The text of a kernel that is compiled with a range check. -/
theorem guards_kernelPatch (checked : made.compiled.grid.boundsCheck) :
    made.compiled.Guards node made.job (kernelPatch made.job made.entry made.granted.1 made.granted.2)
      ⟨made.entry, made.granted.2.bindings.declarations made.entry, made.code⟩ := by
  obtain ⟨plan_eq, ⟨binding, buffers_eq⟩, patch_eq⟩ := made.checked_eq checked
  obtain ⟨arguments_eq, -⟩ := locate_ok made.located
  obtain ⟨attr, clear⟩ := made.boundPatch_keeps
  obtain ⟨line, which, prologued⟩ :=
    kernelPrologue_checked made.job made.entry (plan_eq ▸ checked) clear
  rw [prologued] at patch_eq
  rw [patch_eq]
  refine {
    located := made.located
    code_eq := congrArg made.job.entry.apply patch_eq
    workgroup := ?_
    bound := ?_
    prologue_eq := ⟨line, plan_eq ▸ which, ?_⟩
    thread := ?_ }
  · rw [plan_eq, attr]
    exact fixWorkgroup_ok (resolve_workgroup made.resolves) made.fixes
  · have has : gridVariable made.entry made.planned.dims binding ∈ made.granted.2.bindings.buffers :=
      buffers_eq ▸ List.mem_append_right _ (.head _)
    obtain ⟨group, listed, declared⟩ := LeafBindings.buffer_bound has
    exact ⟨_, group, _, listed, rfl, plan_eq ▸ declared⟩
  · rw [plan_eq, ← GridDims.boundsCheckText_eq]
    rfl
  · intro free
    exact made.boundPatch_namesThread (arguments_eq ▸ free) (locate_stage made.located)

/-- A kernel that is compiled with a range check has it in its text. -/
theorem guards (checked : made.compiled.grid.boundsCheck) :
    ∃ text ∈ made.text.entries, ∃ job patch, made.compiled.Guards node job patch text :=
  ⟨_, List.mem_singleton.mpr rfl, made.job, _, made.guards_kernelPatch checked⟩

end KernelRun

end Compile

/-- What the range check of a kernel comes to. The check stands in the kernel's text, and every cell of the grid is the
position of exactly one thread that passes it. No other thread passes exactly when the workgroup has length one along
the axes that are not the grid's, as every workgroup has that is not the kernel's own. -/
theorem Program.kernel_cells {source : Program} {program : CompiledProgram} {log : List LogLine}
    (compiled : source.compile table caps = .ok (program, log)) {flat : FlatLeaf} {kernel : CompiledDispatch}
    (listed : (flat, .dispatch kernel) ∈ source.compiledLeaves program) (checked : kernel.grid.boundsCheck)
    (full : kernel.grid.workgroup.hasZero = false) :
    (∃ node, flat.node = .dispatch node ∧ ∃ unit, program.units[kernel.unit]? = some unit ∧
      ∃ leaf ∈ unit.leaves, ∃ text ∈ leaf.entries, ∃ job patch, kernel.Guards node job patch text) ∧
    ∀ extent grid, kernel.grid.extent extent = grid → grid.hasZero = false →
      (∀ cell : Axes, cell.Inside grid → ∃! thread, kernel.grid.Launches grid thread ∧
        kernel.grid.dims.Passes grid (thread.position kernel.grid.workgroup) ∧
        thread.position kernel.grid.workgroup = cell) ∧
      ((∀ thread, kernel.grid.Launches grid thread →
        kernel.grid.dims.Passes grid (thread.position kernel.grid.workgroup) →
        (thread.position kernel.grid.workgroup).Inside grid) ↔
          ∀ axis ∉ kernel.grid.dims.axes, kernel.grid.workgroup.get axis = 1) ∧
      (kernel.grid.workgroup = kernel.grid.dims.defaultWorkgroup →
        ∀ axis ∉ kernel.grid.dims.axes, kernel.grid.workgroup.get axis = 1) := by
  constructor
  · obtain ⟨unit, found, leaf, emitted, last, before, after, sane, inside, run, -⟩ :=
      source.leaf_emitted compiled listed rfl
    dsimp only at run
    generalize kind : flat.node = node, is : CompiledLeaf.dispatch kernel = leaf' at run
    cases run with
    | kernel made =>
      obtain rfl := CompiledLeaf.dispatch.inj is
      obtain ⟨text, has, guards⟩ := made.guards checked
      exact ⟨_, rfl, unit, found, _, emitted, text, has, guards⟩
    | draw made => cases is
  · rintro extent grid rfl some
    refine ⟨fun cell inside => ?_, GridPlan.passes_inside_iff full some fun axis => ?_, fun default axis beyond => ?_⟩
    · obtain ⟨thread, ⟨launched, position⟩, only⟩ := GridPlan.existsUnique_thread full inside
      have passes : kernel.grid.dims.Passes (kernel.grid.extent extent) (thread.position kernel.grid.workgroup) :=
        fun axis _ => Nat.not_le.mpr (position ▸ inside axis)
      exact ⟨thread, ⟨launched, passes, position⟩, fun other same => only other ⟨same.1, same.2.2⟩⟩
    · exact kernel.grid.extent_get_beyond extent
    · rw [default]
      exact GridDims.defaultWorkgroup_get_beyond beyond

/-- The kernel that a leaf was compiled to. -/
def CompiledLeaf.kernel? : CompiledLeaf → Option CompiledDispatch
  | .dispatch kernel => some kernel
  | .draw _ | .host => none

theorem CompiledLeaf.kernel?_eq_some {leaf : CompiledLeaf} {kernel : CompiledDispatch} :
    leaf.kernel? = some kernel ↔ leaf = .dispatch kernel := by
  cases leaf <;> simp [kernel?]

/-- A kernel for four cells with a workgroup of its own, which is a square. -/
def squareKernel : Program where
  library := ""
  root := [.leaf (.dispatch {
    label := "k"
    source := "@compute @workgroup_size(8, 8) fn k() { cells[gid.x] = 1u; }"
    function := "k"
    arguments := [⟨"cells", none, none, .buffer ⟨0⟩ (.storage false)⟩]
    fits := [.fixed ⟨4, 1, 1⟩] })]

/-- It compiles with a range check, and threads outside its grid pass the check. -/
theorem Program.kernel_cells_square :
    ∃ program log flat kernel,
      squareKernel.compile { buffers := [⟨"x", .scalar .u32, 4, .fixed 4⟩] } {} = .ok (program, log) ∧
      (flat, .dispatch kernel) ∈ squareKernel.compiledLeaves program ∧ kernel.grid.boundsCheck ∧
      kernel.grid.extent ⟨4, 1, 1⟩ = ⟨4, 1, 1⟩ ∧
      ∃ thread, kernel.grid.Launches ⟨4, 1, 1⟩ thread ∧
        kernel.grid.dims.Passes ⟨4, 1, 1⟩ (thread.position kernel.grid.workgroup) ∧
        ¬(thread.position kernel.grid.workgroup).Inside ⟨4, 1, 1⟩ := by
  have run : (squareKernel.compile { buffers := [⟨"x", .scalar .u32, 4, .fixed 4⟩] } {}).toOption.map (fun result =>
      (squareKernel.compiledLeaves result.1).map fun leaf => leaf.2.kernel?.map fun kernel =>
        (kernel.grid.boundsCheck, kernel.grid.dims, kernel.grid.workgroup, kernel.grid.extent ⟨4, 1, 1⟩)) =
      some [some (true, .one, ⟨8, 8, 1⟩, ⟨4, 1, 1⟩)] := by decide +kernel
  cases compiled : squareKernel.compile { buffers := [⟨"x", .scalar .u32, 4, .fixed 4⟩] } {} with
  | error _ =>
    rw [compiled] at run
    cases run
  | ok result =>
    obtain ⟨program, log⟩ := result
    rw [compiled] at run
    obtain ⟨⟨flat, leaf⟩, leaves, one⟩ := List.map_eq_singleton_iff.mp (Option.some.inj run)
    obtain ⟨kernel, is, values⟩ := Option.map_eq_some_iff.mp one
    obtain rfl : leaf = .dispatch kernel := CompiledLeaf.kernel?_eq_some.mp is
    obtain ⟨checked, values⟩ := Prod.mk.inj values
    obtain ⟨dims, values⟩ := Prod.mk.inj values
    obtain ⟨workgroup, extent⟩ := Prod.mk.inj values
    have listed : (flat, .dispatch kernel) ∈ squareKernel.compiledLeaves program := leaves ▸ .head _
    refine ⟨program, log, flat, kernel, rfl, listed, checked, extent, ?_⟩
    obtain ⟨-, cells⟩ := squareKernel.kernel_cells compiled listed checked (by rw [workgroup]; rfl)
    obtain ⟨-, only, -⟩ := cells ⟨4, 1, 1⟩ ⟨4, 1, 1⟩ extent rfl
    by_contra none
    have thin := only.mp fun thread launched passes => by
      by_contra outside
      exact none ⟨thread, launched, passes, outside⟩
    have long := thin .y (by rw [dims]; decide)
    rw [workgroup] at long
    cases long

end FrameGraph
