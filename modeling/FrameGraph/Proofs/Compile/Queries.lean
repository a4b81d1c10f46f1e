import FrameGraph.Proofs.Compile.Patches
import FrameGraph.Proofs.Text.Declarations

/-! # What header queries read

The queries about a header read it as plain text. With a space for each comment they would tell what the code says: the
attributes and sizes it has, and the declared builtin values with comments counted as space. With the comments they
also find what comments mention, so a kernel gets a workgroup size of its own or not by what its comments say.
-/

namespace FrameGraph

open Text

/-- What the queries about a header say, with its comments and without. -/
structure EntryPoint.Queried (entry : EntryPoint) : Prop where
  header_eq : entry.bare.header = eraseComments entry.header
  params_eq : render entry.bare.params = eraseComments (render entry.params)
  /-- Without comments an attribute is there if the code has it; with them it may also be mentioned. -/
  attributes : ∀ word : String, isIdentifier word.toList = true →
    (entry.bare.hasAttribute ("@" ++ word) ↔ HasAttribute word.toList entry.headerTokens) ∧
    (entry.hasAttribute ("@" ++ word) ↔ HasAttribute word.toList entry.headerTokens ∨
      ∃ token ∈ entry.headerTokens, token.mentions word.toList)
  /-- The first mention gives the workgroup size, in the code or in a comment. -/
  size : entry.SizeRead
  bareSize : entry.bare.workgroupSize = .absent ↔ ¬HasAttribute sizeWord entry.headerTokens
  /-- Without comments a builtin value is declared wherever comments count as space; with them, and if none of them has
  the start of a declaration in it, it is declared where only blanks do. -/
  builtin : ∀ value : String, isIdentifier value.toList = true →
    declaredBuiltin? (render entry.bare.params) value = declaredIn? Token.isSpace value entry.params ∧
    (Unquoted entry.params →
      declaredBuiltin? (render entry.params) value = declaredIn? Token.isBlank value entry.params)
  /-- What a comment quotes is found unless a declaration stands in front of it. -/
  quoted : ∀ value : String, isIdentifier value.toList = true →
    ∀ front text back, entry.params = front ++ .comment text :: back → Unquoted front →
      declaredBuiltin? (render entry.params) value =
        match firstMark? Token.isBlank value.toList front with
        | some after => nameAhead? Token.isBlank (after ++ .comment text :: back)
        | none => declaredBuiltin? (text ++ render back) value

theorem Text.not_unmentioned {word : List Char} {row : List Token} :
    ¬Unmentioned word row ↔ HasAttribute word row ∨ ∃ token ∈ row, token.mentions word := by
  simp [Unmentioned, ← or_iff_not_imp_left]

namespace EntryPoint

variable {entry : EntryPoint}

theorem hasAttribute_iff {word : String} (identifier : isIdentifier word.toList = true)
    (legible : Legible [] entry.headerTokens) :
    entry.hasAttribute ("@" ++ word) ↔ HasAttribute word.toList entry.headerTokens ∨
      ∃ token ∈ entry.headerTokens, token.mentions word.toList := by
  rw [← not_unmentioned, ← hasAttribute_eq_false identifier legible, Bool.not_eq_false]

theorem queried {source : String} {stage : Stage} {name : String} (found : find source stage name = .ok entry) :
    entry.Queried := by
  obtain ⟨legible, paramsLegible⟩ := legible_header found
  have bareLegible : Legible [] entry.bare.headerTokens := entry.bare_headerTokens ▸ legible_blanked legible
  have unmentioned {word : List Char} : Unmentioned word entry.bare.headerTokens ↔ ¬HasAttribute word entry.headerTokens := by
    rw [bare_headerTokens, unmentioned_blanked]
  refine {
    header_eq := by rw [header, bare_headerTokens, render_blanked legible, header]
    params_eq := render_blanked paramsLegible
    attributes := fun word identifier => ⟨?_, hasAttribute_iff identifier legible⟩
    size := sizeRead legible
    bareSize := (workgroupSize_eq_absent bareLegible).trans unmentioned
    builtin := fun value identifier =>
      ⟨declaredBuiltin?_blanked identifier paramsLegible, declaredBuiltin?_render identifier paramsLegible⟩
    quoted := fun value identifier front text back split unquoted =>
      split ▸ declaredBuiltin?_quoted identifier (split ▸ paramsLegible) unquoted }
  rw [hasAttribute_iff identifier bareLegible, ← not_unmentioned, unmentioned, not_not]

end EntryPoint

/-- How the workgroup size of a kernel is settled. -/
structure CompiledDispatch.Sized (kernel : CompiledDispatch) (node : Dispatch) (job : EntryJob) (patch : Patch)
    (text : EntryText) : Prop where
  located : EntryJob.locate node.source .compute node.function node.arguments = .ok job
  code_eq : text.code = job.entry.apply patch
  /-- The kernel gets the attribute and the workgroup that fit its grid if nothing in its header mentions a size, its
  comments included. -/
  derived_iff : (patch.attr = some (sizeAttr kernel.grid.dims.defaultWorkgroup) ∧
      kernel.grid.workgroup = kernel.grid.dims.defaultWorkgroup) ↔ Unmentioned sizeWord job.entry.headerTokens
  /-- Else the size that is read counts, and no attribute is added. -/
  own : ¬Unmentioned sizeWord job.entry.headerTokens →
    patch.attr = none ∧ job.entry.workgroupSize = .literal kernel.grid.workgroup

namespace Compile

variable {table : ResourceTable} {caps : DeviceCaps} {state after : CompileState} {unit : Nat} {node : Dispatch}

theorem kernelPrologue_attr (job : EntryJob) (entry : String) (plan : GridPlan) (patch : Patch) :
    (kernelPrologue job entry plan patch).attr = patch.attr := by
  unfold kernelPrologue
  dsimp only
  split <;> split <;> rfl

/-- Binding the extent of the grid changes neither the attribute nor the workgroup. -/
theorem bindGrid_keeps (job : EntryJob) (entry : String) (plan : GridPlan) (scan : ArgumentScan) :
    (bindGrid job entry plan scan).2.patch.attr = scan.patch.attr ∧
      (bindGrid job entry plan scan).1.workgroup = plan.workgroup ∧
      (bindGrid job entry plan scan).1.dims = plan.dims := by
  unfold bindGrid
  dsimp only
  split
  · exact ⟨rfl, rfl, rfl⟩
  · split <;> exact ⟨rfl, rfl, rfl⟩

theorem KernelRun.sized (made : KernelRun table caps unit node state) :
    ∃ text ∈ made.text.entries, ∃ job patch, made.compiled.Sized node job patch text := by
  obtain ⟨entry, found, job_eq⟩ := locate_found made.located
  have absent : made.job.entry.workgroupSize = .absent ↔ Unmentioned sizeWord made.job.entry.headerTokens := by
    rw [job_eq]
    exact EntryPoint.workgroupSize_eq_absent (EntryPoint.legible_header found).1
  obtain ⟨attr, workgroup, dims⟩ := bindGrid_keeps made.job made.entry made.planned made.scan
  have attr_eq : (kernelPatch made.job made.entry made.granted.1 made.granted.2).attr = made.attr := by
    rw [kernelPatch, kernelPrologue_attr, (made.job.bindBuiltins_keeps _ _).1]
    exact attr.trans (congrArg Patch.attr (bindArguments_patch made.binds))
  have grid : made.compiled.grid.workgroup = made.planned.workgroup ∧ made.compiled.grid.dims = made.planned.dims :=
    ⟨workgroup, dims⟩
  refine ⟨_, List.mem_singleton.mpr rfl, made.job, _, {
    located := made.located
    code_eq := rfl
    derived_iff := ?_
    own := ?_ }⟩
  · rw [attr_eq, grid.1, grid.2, ← absent]
    rcases fixWorkgroup_ok (resolve_workgroup made.resolves) made.fixes with ⟨size, none⟩ | ⟨none, default, derived⟩
    · rw [size, none]
      exact iff_of_false (by simp) (by simp)
    · rw [default] at derived
      exact iff_of_true ⟨derived, default⟩ none
  · rw [attr_eq, grid.1, ← absent]
    intro some
    rcases fixWorkgroup_ok (resolve_workgroup made.resolves) made.fixes with ⟨size, none⟩ | ⟨none, -⟩
    · exact ⟨none, size⟩
    · exact absurd none some

end Compile

/-- What the queries about a header read, for every entry point that is found, and how a compiled kernel gets its
workgroup size from them. -/
theorem header_queries (table : ResourceTable) (caps : DeviceCaps) :
    (∀ source stage name entry, EntryPoint.find source stage name = .ok entry → entry.Queried) ∧
    ∀ (source : Program) program log, source.compile table caps = .ok (program, log) →
      ∀ flat kernel, (flat, .dispatch kernel) ∈ source.compiledLeaves program →
        ∃ node, flat.node = .dispatch node ∧ ∃ unit, program.units[kernel.unit]? = some unit ∧
          ∃ leaf ∈ unit.leaves, ∃ text ∈ leaf.entries, ∃ job patch, kernel.Sized node job patch text := by
  refine ⟨fun source stage name entry found => EntryPoint.queried found, ?_⟩
  intro source program log compiled flat kernel listed
  obtain ⟨unit, found, leaf, emitted, last, before, after, -, -, run, -⟩ := source.leaf_emitted compiled listed rfl
  dsimp only at run
  generalize kind : flat.node = node, is : CompiledLeaf.dispatch kernel = leaf' at run
  cases run with
  | kernel made =>
    obtain rfl := CompiledLeaf.dispatch.inj is
    obtain ⟨text, has, sized⟩ := made.sized
    exact ⟨_, rfl, unit, found, _, emitted, text, has, sized⟩
  | draw made => cases is

/-- A kernel with a workgroup size in a comment, and a comment behind a declared builtin value. -/
def remarkedSource : String :=
  "@compute /* @workgroup_size(8) */ fn k(@builtin(workgroup_id) /* tile */ t: vec3<u32>) \x7b cells[t.x] = 1u; \x7d"

def remarkedKernel : Program where
  library := ""
  root := [.leaf (.dispatch {
    label := "k"
    source := remarkedSource
    function := "k"
    arguments := [⟨"cells", none, none, .buffer ⟨0⟩ (.storage false)⟩]
    fits := [.fixed ⟨4, 1, 1⟩] })]

/-- The comment gives the kernel its workgroup size, and the declared value is overlooked. -/
theorem header_queries_remarked :
    (∃ entry, EntryPoint.find remarkedSource .compute "k" = .ok entry ∧
      ¬HasAttribute sizeWord entry.headerTokens ∧ entry.hasAttribute "@workgroup_size" ∧
      declaredIn? Token.isSpace "workgroup_id" entry.params = some "t" ∧
      declaredBuiltin? (render entry.params) "workgroup_id" = none) ∧
    ∃ program log flat kernel node job patch text,
      remarkedKernel.compile { buffers := [⟨"x", .scalar .u32, 4, .fixed 4⟩] } {} = .ok (program, log) ∧
      (flat, .dispatch kernel) ∈ remarkedKernel.compiledLeaves program ∧ flat.node = .dispatch node ∧
      kernel.Sized node job patch text ∧ kernel.grid.workgroup ≠ kernel.grid.dims.defaultWorkgroup ∧
      patch.attr = none := by
  constructor
  · have values : (EntryPoint.find remarkedSource .compute "k").toOption.map (fun entry =>
        (entry.bare.workgroupSize, entry.hasAttribute "@workgroup_size",
          declaredBuiltin? (render entry.bare.params) "workgroup_id",
          declaredBuiltin? (render entry.params) "workgroup_id")) = some (.absent, true, some "t", none) := by
      decide +kernel
    obtain ⟨entry, read, values⟩ := Option.map_eq_some_iff.mp values
    have found := ok_of_toOption read
    have queried := (header_queries {} {}).1 _ _ _ entry found
    obtain ⟨size, values⟩ := Prod.mk.inj values
    obtain ⟨has, values⟩ := Prod.mk.inj values
    obtain ⟨bare, own⟩ := Prod.mk.inj values
    refine ⟨entry, found, queried.bareSize.mp size, has, ?_, own⟩
    exact (queried.builtin "workgroup_id" (by decide +kernel)).1.symm.trans bare
  · have run : (remarkedKernel.compile { buffers := [⟨"x", .scalar .u32, 4, .fixed 4⟩] } {}).toOption.map (fun result =>
        (remarkedKernel.compiledLeaves result.1).map fun leaf => leaf.2.kernel?.map fun kernel =>
          (kernel.grid.dims, kernel.grid.workgroup)) = some [some (.one, ⟨8, 1, 1⟩)] := by decide +kernel
    obtain ⟨⟨program, log⟩, read, leaves⟩ := Option.map_eq_some_iff.mp run
    have compiled := ok_of_toOption read
    obtain ⟨⟨flat, leaf⟩, leaves, one⟩ := List.map_eq_singleton_iff.mp leaves
    obtain ⟨kernel, is, values⟩ := Option.map_eq_some_iff.mp one
    obtain rfl : leaf = .dispatch kernel := CompiledLeaf.kernel?_eq_some.mp is
    obtain ⟨dims, workgroup⟩ := Prod.mk.inj values
    have listed : (flat, .dispatch kernel) ∈ remarkedKernel.compiledLeaves program := leaves ▸ .head _
    obtain ⟨node, kind, -, -, -, -, text, -, job, patch, sized⟩ :=
      (header_queries _ _).2 remarkedKernel program log compiled flat kernel listed
    have other : kernel.grid.workgroup ≠ kernel.grid.dims.defaultWorkgroup := by
      rw [dims, workgroup]
      decide
    refine ⟨program, log, flat, kernel, node, job, patch, text, compiled, listed, kind, sized, other, ?_⟩
    exact (sized.own fun none => other (sized.derived_iff.mpr none).2).1

end FrameGraph
