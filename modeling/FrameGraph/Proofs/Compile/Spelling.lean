import FrameGraph.Device.Recorder
import FrameGraph.Proofs.Compile.Patches

/-! # How entry points are spelled in the text of a unit

A device that reads no tokens looks for `fn`, one blank, the name and the opening bracket, character by character.
Patching keeps what an author writes between the three, and it splices the workgroup size in right behind the stage
mark. So an entry point whose source has just these characters there is found under the name that it is given; others
need not be.
-/

namespace FrameGraph

namespace Text

/-- Something stands behind a needle exactly where the needle is. -/
theorem isSome_afterFirst? {needle text : List Char} : (afterFirst? needle text).isSome ↔ needle <:+: text := by
  induction text with
  | nil =>
    rw [afterFirst?, List.infix_nil]
    cases needle <;> simp
  | cons c rest ih =>
    rw [afterFirst?, List.infix_cons_iff, ← List.isPrefixOf_iff_prefix, ← ih]
    split
    · rename_i here
      simp [here]
    · rename_i absent
      simp [absent]

end Text

open Text

/-- The characters in which a device looks for an entry point. -/
def entryMark (entry : String) : String := s!"fn {entry}("

theorem toList_entryMark (entry : String) : (entryMark entry).toList = ['f', 'n', ' '] ++ entry.toList ++ ['('] := by
  simp [entryMark, toString]

theorem Recorder.declares_iff {module : ShaderModule} {entry : String} :
    declares module entry ↔ (entryMark entry).toList <:+: module.source.toList := isSome_afterFirst?

namespace EntryPoint

/-- One blank stands between `fn` and the name, the parameter list follows the name at once, and something parts the
stage mark from `fn`. -/
structure IsTight (entry : EntryPoint) : Prop where
  lead : ∃ front, entry.lead = front ++ [.word ['f', 'n'], .char ' '] ∧ ∃ token ∈ front, extendsMark token = false
  gap : entry.gap = []

/-- Whatever is spliced in behind the stage mark stands in front of `fn`. -/
theorem patchedLead_ends {entry : EntryPoint} (tight : entry.IsTight) (patch : Patch) :
    ['f', 'n', ' '] <:+ entry.patchedLead patch := by
  obtain ⟨front, lead, token, member, stops⟩ := tight.lead
  have stays : ∀ rest, (front ++ rest).dropWhile extendsMark = front.dropWhile extendsMark ++ rest := by
    intro rest
    rw [List.dropWhile_append]
    split
    · rename_i none
      have all := List.dropWhile_eq_nil_iff.mp (List.isEmpty_iff.mp none) token member
      rw [stops] at all
      cases all
    · rfl
  rw [patchedLead, lead, stays, render_append]
  exact (List.suffix_append _ _).trans (List.suffix_append _ _)

/-- The edited text has the new name where a device looks for it. -/
theorem apply_infix {entry : EntryPoint} (tight : entry.IsTight) {patch : Patch} {name : String}
    (named : entry.patchedName patch = name.toList) : (entryMark name).toList <:+: (entry.apply patch).toList := by
  obtain ⟨front, lead⟩ := patchedLead_ends tight patch
  rw [toList_entryMark, apply, String.toList_ofList, ← lead, named, tight.gap]
  exact ⟨render entry.before ++ front, entry.patchedParams patch ++ ')' :: render entry.trailer ++
    '\x7b' :: entry.patchedBody patch ++ '\x7d' :: render entry.after, by simp [render]⟩

end EntryPoint

/-- The entry point of the origin is tight in its source. -/
def EntryOrigin.IsTight (origin : EntryOrigin) : Prop :=
  ∃ entry, EntryPoint.find origin.source origin.stage origin.name = .ok entry ∧ entry.IsTight

/-! ## Names of patched entry points -/

namespace Compile

variable {table : ResourceTable} {caps : DeviceCaps} {state after : CompileState} {unit : Nat} {job : EntryJob}

theorem bindBuiltins_newName (job : EntryJob) (forced : List String) (patch : Patch) :
    (job.bindBuiltins forced patch).newName = patch.newName := by
  refine List.foldlRecOn (motive := fun made : Patch => made.newName = patch.newName) _ _ rfl
    fun made same builtin _ => ?_
  unfold EntryJob.bindBuiltin
  split
  · split <;> exact same
  · exact same

theorem bindGrid_newName (job : EntryJob) (entry : String) (plan : GridPlan) (scan : ArgumentScan) :
    (bindGrid job entry plan scan).2.patch.newName = scan.patch.newName := by
  unfold bindGrid
  dsimp only
  split
  · rfl
  · split <;> rfl

theorem kernelPrologue_newName (job : EntryJob) (entry : String) (plan : GridPlan) (patch : Patch) :
    (kernelPrologue job entry plan patch).newName = patch.newName := by
  unfold kernelPrologue
  dsimp only
  split <;> split <;> rfl

/-- An entry point has the name in its text that it was given. -/
theorem patchedName_eq {source : String} {stage : Stage} {name : String} {arguments : List Argument}
    (located : EntryJob.locate source stage name arguments = .ok job) {patch : Patch} {entry : String}
    {attr : Option String} (named : patch.newName = (namePatch job entry attr).newName) :
    job.entry.patchedName patch = entry.toList := by
  obtain ⟨found, has, rfl⟩ := locate_found located
  have spelled : found.name = name.toList := (EntryPoint.isFirst_of_find has).name_eq
  rw [EntryPoint.patchedName, named, namePatch]
  dsimp only
  split
  · rename_i given other
    split at other
    · cases other
      rfl
    · cases other
  · rename_i other
    split at other
    · cases other
    · rename_i same
      have same : entry = name := by simpa using same
      rw [same, ← spelled]
      rfl

/-- A located entry point that is tight in its source is found in its edited text. -/
theorem apply_declares (attr : Option String) {origin : EntryOrigin}
    (located : EntryJob.locate origin.source origin.stage origin.name origin.arguments = .ok job) {patch : Patch}
    {entry : String} (named : patch.newName = (namePatch job entry attr).newName)
    (tight : origin.IsTight) : (entryMark entry).toList <:+: (job.entry.apply patch).toList := by
  refine EntryPoint.apply_infix ?_ (patchedName_eq located named)
  obtain ⟨found, has, tight⟩ := tight
  obtain ⟨again, has', rfl⟩ := locate_found located
  cases has.symm.trans has'
  exact ⟨tight.lead, tight.gap⟩

/-- The entry points of a leaf that are tight in their sources stand in its text under the names they were given. -/
theorem LeafRun.spelled {node : Leaf} {compiled : CompiledLeaf} {text : LeafText}
    (run : LeafRun table caps unit state node compiled text after) :
    List.Forall₂ (fun origin function => origin.IsTight → ∃ listed ∈ text.entries,
      (entryMark function.entry).toList <:+: listed.code.toList) node.origins (node.functions compiled) := by
  cases run with
  | kernel made =>
    refine .cons (fun tight => ⟨_, .head _, ?_⟩) .nil
    refine apply_declares made.attr made.located ?_ tight
    rw [kernelPatch, kernelPrologue_newName, bindBuiltins_newName, KernelRun.granted, bindGrid_newName,
      bindArguments_patch made.binds]
    rfl
  | draw made =>
    refine .cons (fun tight => ⟨_, .head _, ?_⟩) (.cons (fun tight => ⟨_, .tail _ (.head _), ?_⟩) .nil)
    · refine apply_declares none made.vertexLocated ?_ tight
      rw [bindBuiltins_newName, bindArguments_patch made.first.binds]
      rfl
    · refine apply_declares none made.fragmentLocated ?_ tight
      rw [bindBuiltins_newName, bindArguments_patch made.second.binds]
      rfl

end Compile

/-! ## Modules -/

theorem EntryText.code_infix (text : EntryText) : text.code.toList <:+: text.text.toList :=
  ⟨(String.join (text.declarations.map Declaration.text)).toList, "\n\n".toList, by simp [EntryText.text]⟩

/-- The text of every part stands in the whole. -/
theorem toList_infix_join {parts : List String} {part : String} (member : part ∈ parts) :
    part.toList <:+: (String.join parts).toList := by
  obtain ⟨front, rest, rfl⟩ := List.append_of_mem member
  exact ⟨(String.join front).toList, (String.join rest).toList, by simp⟩

/-- The code of every entry point of a leaf stands in the text of its unit. -/
theorem CompiledProgram.Of.code_infix {source : Program} {program : CompiledProgram} (of : program.Of source)
    {unit : CompiledUnit} (has : unit ∈ program.units) {leaf : LeafText} (listed : leaf ∈ unit.leaves)
    {text : EntryText} (member : text ∈ leaf.entries) : text.code.toList <:+: unit.source.toList := by
  obtain ⟨head, source_eq⟩ := of.sources unit has
  have inLeaf : text.text.toList <:+: leaf.text.toList := by
    rw [LeafText.text, String.toList_append]
    exact (toList_infix_join (List.mem_map_of_mem member)).trans (List.suffix_append _ _).isInfix
  have inUnit : leaf.text.toList <:+: unit.source.toList := by
    rw [source_eq, String.toList_append]
    exact (toList_infix_join (List.mem_map_of_mem listed)).trans (List.suffix_append _ _).isInfix
  exact text.code_infix.trans (inLeaf.trans inUnit)

/-- The module of a unit. -/
def CompiledUnit.module (unit : CompiledUnit) : ShaderModule := ⟨unit.label, unit.source⟩

def CompiledProgram.modules (program : CompiledProgram) : List ShaderModule := program.units.map CompiledUnit.module

/-- The recorder finds an entry point of a leaf in the module of the leaf's unit. -/
def CompiledLeaf.FoundIn (modules : List ShaderModule) (leaf : CompiledLeaf) (entry : String) : Prop :=
  ∃ place module, leaf.unit? = some place ∧ modules[place]? = some module ∧ Recorder.declares module entry

/-- The recorder finds every entry point of a compiled program that is tight in its source, under the name that it was
given. -/
theorem Program.compile_finds {table : ResourceTable} {caps : DeviceCaps} {source : Program} {program : CompiledProgram}
    {log : List LogLine} (compiled : source.compile table caps = .ok (program, log)) {leaf : FlatLeaf × CompiledLeaf}
    (listed : leaf ∈ source.compiledLeaves program) :
    List.Forall₂ (fun origin function => origin.IsTight → leaf.2.FoundIn program.modules function.entry)
      leaf.1.node.origins (leaf.1.node.functions leaf.2) := by
  have of := source.compile_ok compiled
  cases has : leaf.2.unit? with
  | none =>
    obtain ⟨becomes, -⟩ := of.becomes leaf listed
    obtain ⟨⟨_, _, node⟩, made⟩ := leaf
    dsimp only at becomes has ⊢
    cases made with
    | host =>
      cases node with
      | blit | filter | callback => exact .nil
      | dispatch | draw => exact becomes.elim
    | dispatch | draw => cases has
  | some place =>
    obtain ⟨unit, found, text, inside, last, before, after, -, -, run, -⟩ := source.leaf_emitted compiled listed has
    refine run.spelled.imp fun origin function spelled tight => ?_
    obtain ⟨entry, member, here⟩ := spelled tight
    have code := of.code_infix (List.mem_of_getElem? found) inside member
    refine ⟨place, unit.module, has, ?_, Recorder.declares_iff.mpr (here.trans code)⟩
    rw [CompiledProgram.modules, List.getElem?_map, found, Option.map_some]

end FrameGraph
