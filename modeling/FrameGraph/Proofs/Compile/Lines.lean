import FrameGraph.Proofs.Compile.Bindings
import FrameGraph.Proofs.List

/-! # Declared lines and bind groups

The declarations of a leaf are rendered from its variables, its bind groups are put together from the same
bindings sorted by number. Line for line they describe the same: a group of the leaf's own has one line for
every binding, a shared block one line for every member and every entry point that refers to the block.
-/

namespace FrameGraph

/-- What the line of a declaration says about bind groups. -/
structure Line where
  group : Nat
  binding : Nat
  var : String
  name : String
deriving DecidableEq, Repr

def Declaration.line (declaration : Declaration) : Line :=
  ⟨declaration.group, declaration.binding, declaration.var, declaration.name⟩

/-- How a variable is introduced that is bound as this kind. -/
def BindingKind.varText : BindingKind → String
  | .uniform => "var<uniform>"
  | .storage true => "var<storage, read>"
  | .storage false => "var<storage, read_write>"
  | .texture .. | .storageTexture .. => "var"

theorem BindingKind.varText_eq (kind : BindingKind) : kind.varText = kind.var.text := by
  cases kind with
  | storage readOnly => cases readOnly <;> rfl
  | _ => rfl

/-- The line that a binding asks for. -/
def BindingSpec.line (spec : BindingSpec) (group : Nat) : Line :=
  ⟨group, spec.entry.binding, spec.entry.kind.varText, spec.name⟩

/-- The line that a block member asks for under the name that an entry point calls it. -/
def BindingSpec.sharedLine (entry : String) (spec : BindingSpec) (group : Nat) : Line :=
  { spec.line group with name := entry ++ "__" ++ spec.name }

/-- The entry point has the block of this name among its arguments. -/
def LeafFunction.RefersTo (function : LeafFunction) (name : String) : Prop := ∃ block ∈ function.blocks, block.1 = name

instance (function : LeafFunction) (name : String) : Decidable (function.RefersTo name) :=
  inferInstanceAs (Decidable (∃ block ∈ function.blocks, block.1 = name))

/-- The lines that a bind group asks for: one for every binding; one for every member of a shared block and
every entry point that refers to the block. -/
def GroupBinding.lines (blocks : List ArgumentBlock) (functions : List LeafFunction) (group : Nat) :
    GroupBinding → List Line
  | .own spec => spec.map (·.line group)
  | .shared place =>
    match blocks[place]? with
    | some block => (functions.filter (·.RefersTo block.name)).flatMap fun f =>
        block.group.map (·.sharedLine f.entry group)
    | none => []

/-- The lines that the bind groups of a leaf ask for. -/
def groupLines (blocks : List ArgumentBlock) (functions : List LeafFunction) (groups : List GroupBinding) :
    List Line :=
  groups.zipIdx.flatMap fun (group, place) => group.lines blocks functions place

namespace BoundVariable

/-- The line of the variable's declaration. -/
def line (bound : BoundVariable) (group : Nat) : Line := (bound.declaration group).line

theorem Sane.line_eq {usage : ResourceUsage} {bound : BoundVariable} (sane : bound.Sane usage) (group : Nat) :
    bound.line group = bound.spec.line group := by
  simp only [line, declaration, Declaration.line, BindingSpec.line, sane.var_eq, BindingKind.varText_eq]

theorem Sane.line_sharedBy {usage : ResourceUsage} {bound : BoundVariable} (sane : bound.Sane usage)
    (entry : String) (place group : Nat) :
    (bound.sharedBy entry place).bound.line group = bound.spec.sharedLine entry group := by
  simp only [sharedBy, line, declaration, Declaration.line, BindingSpec.sharedLine, BindingSpec.line, sane.var_eq,
    BindingKind.varText_eq]
  rfl

end BoundVariable

/-- The argument blocks as the program gets them. -/
def CompileState.argumentBlocks (state : CompileState) : List ArgumentBlock :=
  state.blocks.map fun block => ⟨block.name, block.group⟩

namespace LeafBindings

/-- The place of a block among the groups of the leaf. -/
def placeOf (bindings : LeafBindings) (block : Nat) : Nat :=
  bindings.ownSpaces.length + (bindings.shared.idxOf? block).getD 0

/-- All variables of the leaf, each with its entry point and its line. -/
def variableLines (bindings : LeafBindings) : List (String × Line) :=
  (bindings.ownSpaces.zipIdx.flatMap fun (space, group) => space.map fun v => (v.entry, v.bound.line group)) ++
    bindings.members.map fun m => (m.entry, m.bound.line (bindings.placeOf m.block))

theorem declarations_lines (bindings : LeafBindings) (entry : String) :
    (bindings.declarations entry).map (·.line) =
      (bindings.variableLines.filter (·.1 == entry)).map (·.2) := by
  simp only [declarations, variableLines, declarationsOf, List.map_append, List.filter_append, List.map_flatMap,
    List.filter_flatMap, List.map_map, List.filter_map]
  rfl

theorem mem_own {bindings : LeafBindings} {space : List EntryVariable} {v : EntryVariable}
    (found : space ∈ bindings.ownSpaces) (inside : v ∈ space) : v ∈ bindings.buffers ++ bindings.textures := by
  simp only [ownSpaces, List.mem_filter, List.mem_cons, List.not_mem_nil, or_false] at found
  obtain ⟨rfl | rfl, -⟩ := found
  · exact List.mem_append_left _ inside
  · exact List.mem_append_right _ inside

end LeafBindings

namespace CompileState

/-- The lines of a block as an entry point sees it. -/
def shareLines (state : CompileState) (group : Nat → Nat) (share : String × Nat) : List Line :=
  (state.membersAt share.2).map fun member => (member.sharedBy share.1 share.2).bound.line (group share.2)

theorem Sane.shareLines_perm {state : CompileState} (sane : state.Sane) {place : Nat} {block : RegisteredBlock}
    (found : state.blocks[place]? = some block) (entry : String) (group : Nat → Nat) :
    (block.group.map (·.sharedLine entry (group place))).Perm (state.shareLines group (entry, place)) := by
  have known := List.mem_of_getElem? found
  have lines : (block.members.map (·.spec)).map (·.sharedLine entry (group place)) =
      state.shareLines group (entry, place) := by
    simp only [shareLines, membersAt, found, Option.map_some, Option.getD_some, List.map_map]
    exact List.map_congr_left fun member has =>
      ((sane.members block known member has).line_sharedBy entry place (group place)).symm
  rw [sane.group_eq block known, ← lines]
  exact (GroupSpec.sorted_perm _).map _

end CompileState

namespace LeafBindings.Covers

open scoped List

variable {state : CompileState} {functions : List LeafFunction} {bindings : LeafBindings}

/-- What the functions share: every block that one of them refers to, under its entry name. -/
def shares (state : CompileState) (functions : List LeafFunction) : List (String × Nat) :=
  functions.flatMap fun f => f.blocks.map fun block => (f.entry, state.place block.1)

theorem entry_mem (covers : bindings.Covers state functions) :
    ∀ entry ∈ bindings.variableLines.map (·.1), entry ∈ functions.map (·.entry) := by
  have shared : ∀ member ∈ bindings.members, member.entry ∈ functions.map (·.entry) := by
    intro member found
    have known : member.unseen ∈ bindings.members.map (·.unseen) := List.mem_map_of_mem found
    rw [covers.members_eq] at known
    simp only [CompileState.shares, List.mem_flatMap, List.mem_map] at known
    obtain ⟨f, listed, _, _, bound, _, same⟩ := known
    exact List.mem_map.mpr ⟨f, listed, congrArg SharedVariable.entry same⟩
  rw [variableLines, List.map_append, List.forall_mem_append, List.map_flatMap, List.map_map, List.forall_mem_map]
  refine ⟨fun entry found => ?_, shared⟩
  obtain ⟨⟨space, group⟩, listed, found⟩ := List.mem_flatMap.mp found
  rw [List.map_map] at found
  obtain ⟨v, inside, rfl⟩ := List.mem_map.mp found
  exact (covers.own v (mem_own (List.fst_mem_of_mem_zipIdx listed) inside)).2

/-- The lines of the variables of the leaf's own are those of its own groups. -/
theorem own_lines (covers : bindings.Covers state functions) :
    (bindings.ownSpaces.zipIdx.flatMap fun (space, group) => space.map (·.bound.line group)).Perm
      (groupLines state.argumentBlocks functions (bindings.ownSpaces.map fun space => .own (specs space))) := by
  rw [groupLines, List.zipIdx_map, List.flatMap_map]
  refine .flatMap_left _ fun ⟨space, group⟩ found => ?_
  calc space.map (·.bound.line group)
    _ = (space.map fun v => v.bound.spec).map (·.line group) := by
      rw [List.map_map]
      exact List.map_congr_left fun v inside =>
        (covers.own v (mem_own (List.fst_mem_of_mem_zipIdx found) inside)).1.line_eq group
    _ ~ (specs space).map (·.line group) := ((GroupSpec.sorted_perm _).map _).symm

/-- The shared groups stand behind the leaf's own. -/
theorem placeOf_eq (covers : bindings.Covers state functions) :
    bindings.shared.zipIdx bindings.ownSpaces.length =
      bindings.shared.map fun place => (place, bindings.placeOf place) := by
  refine List.ext_getElem (by simp) fun i first second => ?_
  rw [List.length_map] at second
  have here : bindings.shared.idxOf? bindings.shared[i] = some i := by
    refine List.findIdx?_eq_some_iff_getElem.mpr ⟨second, beq_self_eq_true _, fun j before same => ?_⟩
    exact Nat.ne_of_lt before (covers.nodup.getElem_inj_iff.mp (beq_iff_eq.mp same))
  simp [placeOf, here]

/-- An entry point refers to the block at a place. -/
def RefersAt (state : CompileState) (place : Nat) (function : LeafFunction) : Prop :=
  ∃ block, state.blocks[place]? = some block ∧ function.RefersTo block.name

instance (state : CompileState) (place : Nat) (function : LeafFunction) :
    Decidable (RefersAt state place function) :=
  match found : state.blocks[place]? with
  | some block => decidable_of_iff (function.RefersTo block.name) (by simp [RefersAt, found])
  | none => .isFalse (by simp [RefersAt, found])

/-- What the functions share are the shared groups of the leaf. -/
theorem mem_shares_iff (covers : bindings.Covers state functions) (sane : state.Sane) (share : String × Nat) :
    share ∈ shares state functions ↔ share ∈ bindings.shared.flatMap fun place =>
      (functions.filter (RefersAt state place)).map fun f => (f.entry, place) := by
  simp only [shares, List.mem_flatMap, List.mem_map, List.mem_filter, decide_eq_true_eq]
  constructor
  · rintro ⟨f, listed, block, refers, rfl⟩
    obtain ⟨place, shared, registered⟩ := covers.block f listed block refers
    obtain ⟨there, found, named⟩ := Option.map_eq_some_iff.mp registered.name_eq
    exact ⟨place, shared, f, ⟨listed, there, found, block, refers, named.symm⟩, by rw [registered.place_eq sane]⟩
  · rintro ⟨place, shared, f, ⟨listed, there, found, block, refers, named⟩, rfl⟩
    have registered : state.Registered place block.1 _ := ⟨by rw [found, named]; rfl, rfl⟩
    exact ⟨f, listed, block, refers, by rw [registered.place_eq sane]⟩

/-- No function has two arguments for the same block, unless the block is empty. -/
theorem shares_pairwise (covers : bindings.Covers state functions) (sane : state.Sane)
    (entries : (functions.map (·.entry)).Nodup)
    (names : ∀ f ∈ functions, (f.arguments.flatMap EntryJob.argumentNames).Nodup) (group : Nat → Nat) :
    (shares state functions).Pairwise fun a b => a = b → state.shareLines group a = [] := by
  refine List.pairwise_flatMap.mpr ⟨fun f listed => ?_, ?_⟩
  · rw [List.pairwise_map, LeafFunction.blocks, List.pairwise_filterMap]
    refine (List.nodup_flatMap.mp (names f listed)).2.imp_of_mem ?_
    intro one other inside inside' apart block kind block' kind' same
    have registered {argument : Argument} {block : String × List String} (inside : argument ∈ f.arguments)
        (kind : argument.kind.block? = some block) :
        EntryJob.argumentNames argument = (state.membersAt (state.place block.1)).map (·.spec.name) := by
      obtain ⟨place, -, registered⟩ := covers.block f listed block (List.mem_filterMap.mpr ⟨argument, inside, kind⟩)
      rw [registered.place_eq sane, registered.members_eq]
      cases is : argument.kind with
      | block name members =>
        rw [is] at kind
        cases kind
        simp only [EntryJob.argumentNames, is]
      | _ =>
        rw [is] at kind
        cases kind
    have empty : (state.membersAt (state.place block.1)).map (·.spec.name) = [] := by
      rw [Function.onFun_apply, registered inside kind, registered inside' kind', (Prod.mk.inj same).2] at apart
      rw [(Prod.mk.inj same).2]
      exact List.eq_nil_iff_forall_not_mem.mpr fun _ found => apart found found
    simp only [CompileState.shareLines, List.map_eq_nil_iff.mp empty, List.map_nil]
  · refine (List.pairwise_map.mp entries).imp fun {f g} apart one inside other inside' same => ?_
    obtain ⟨_, _, rfl⟩ := List.mem_map.mp inside
    obtain ⟨_, _, rfl⟩ := List.mem_map.mp inside'
    exact absurd (Prod.mk.inj same).1 apart

/-- The lines of the shared members are those of what the functions share. -/
theorem members_lines (covers : bindings.Covers state functions) (group : Nat → Nat) :
    bindings.members.map (fun m => m.bound.line (group m.block)) =
      (shares state functions).flatMap (state.shareLines group) :=
  calc bindings.members.map (fun m => m.bound.line (group m.block))
    _ = (bindings.members.map (·.unseen)).map fun m => m.bound.line (group m.block) := by
      rw [List.map_map]
      rfl
    _ = (shares state functions).flatMap (state.shareLines group) := by
      simp only [covers.members_eq, List.map_flatMap, shares, List.flatMap_assoc, List.flatMap_map,
        CompileState.shares, List.map_map]
      rfl

/-- The lines of a shared group are those of the block for every function that refers to it. -/
theorem sharedGroup_lines (sane : state.Sane) (group : Nat → Nat) (place : Nat) :
    ((GroupBinding.shared place).lines state.argumentBlocks functions (group place)).Perm
      (((functions.filter (RefersAt state place)).map fun f => (f.entry, place)).flatMap (state.shareLines group)) := by
  cases found : state.blocks[place]? with
  | none =>
    simp [GroupBinding.lines, CompileState.argumentBlocks, found, RefersAt]
  | some block =>
    simp only [GroupBinding.lines, CompileState.argumentBlocks, List.getElem?_map, found, Option.map_some,
      List.flatMap_map, RefersAt, Option.some.injEq, exists_eq_left']
    exact .flatMap_left _ fun f _ => sane.shareLines_perm found f.entry group

theorem shared_lines (covers : bindings.Covers state functions) (sane : state.Sane)
    (entries : (functions.map (·.entry)).Nodup)
    (names : ∀ f ∈ functions, (f.arguments.flatMap EntryJob.argumentNames).Nodup) :
    (bindings.members.map fun m => m.bound.line (bindings.placeOf m.block)).Perm
      (((bindings.shared.map GroupBinding.shared).zipIdx bindings.ownSpaces.length).flatMap fun (group, place) =>
        group.lines state.argumentBlocks functions place) := by
  rw [covers.members_lines, List.zipIdx_map, List.flatMap_map, covers.placeOf_eq, List.flatMap_map]
  refine .trans ?_ (.flatMap_left _ fun place _ => (sharedGroup_lines sane bindings.placeOf place).symm)
  rw [← List.flatMap_assoc]
  refine List.flatMap_perm_of_mem_iff (covers.shares_pairwise sane entries names _) ?_ (covers.mem_shares_iff sane)
  refine List.nodup_flatMap.mpr ⟨fun place _ => ?_, covers.nodup.imp fun {a b} apart share one other => ?_⟩
  · refine .of_map Prod.fst ?_
    rw [List.map_map]
    exact entries.sublist (List.filter_sublist.map _)
  · obtain ⟨_, _, rfl⟩ := List.mem_map.mp one
    obtain ⟨_, _, same⟩ := List.mem_map.mp other
    exact apart (Prod.mk.inj same).2.symm

/-- The declarations of a leaf are, line for line, what its bind groups ask for. -/
theorem declared_lines (covers : bindings.Covers state functions) (sane : state.Sane)
    (entries : (functions.map (·.entry)).Nodup)
    (names : ∀ f ∈ functions, (f.arguments.flatMap EntryJob.argumentNames).Nodup) :
    ((functions.flatMap fun f => bindings.declarations f.entry).map (·.line)).Perm
      (groupLines state.argumentBlocks functions bindings.groups) :=
  calc (functions.flatMap fun f => bindings.declarations f.entry).map (·.line)
    _ = ((functions.map (·.entry)).flatMap fun entry => bindings.variableLines.filter (·.1 == entry)).map (·.2) := by
      simp only [List.map_flatMap, List.flatMap_map, declarations_lines]
    _ ~ bindings.variableLines.map (·.2) := (List.flatMap_filter_perm entries Prod.fst fun v found =>
        covers.entry_mem v.1 (List.mem_map_of_mem found)).map _
    _ = (bindings.ownSpaces.zipIdx.flatMap fun (space, group) => space.map (·.bound.line group)) ++
        bindings.members.map fun m => m.bound.line (bindings.placeOf m.block) := by
      simp only [variableLines, List.map_append, List.map_flatMap, List.map_map]
      rfl
    _ ~ groupLines state.argumentBlocks functions (bindings.ownSpaces.map fun space => .own (specs space)) ++
        ((bindings.shared.map GroupBinding.shared).zipIdx bindings.ownSpaces.length).flatMap fun (group, place) =>
          group.lines state.argumentBlocks functions place :=
      covers.own_lines.append (covers.shared_lines sane entries names)
    _ = groupLines state.argumentBlocks functions bindings.groups := by
      simp only [groupLines, groups, List.zipIdx_append, List.flatMap_append, List.length_map, Nat.zero_add]

end LeafBindings.Covers

namespace CompileState

/-- A group of a leaf reads what is recorded, or is a registered block. -/
def Knows (state : CompileState) : GroupBinding → Prop
  | .own spec => ∀ binding ∈ spec, binding.source.RecordedIn state.usage
  | .shared place => place < state.blocks.length

variable {before after : CompileState}

theorem Evolves.knows (evolves : Evolves before after) {group : GroupBinding} (known : before.Knows group) :
    after.Knows group := by
  cases group with
  | own spec => exact fun binding found => (known binding found).mono evolves.usage
  | shared place => exact Nat.lt_of_lt_of_le known evolves.length_le

theorem Sane.group_unseen {state : CompileState} (sane : state.Sane) {place : Nat} {block : RegisteredBlock}
    (found : state.blocks[place]? = some block) :
    block.group.map (·.unseen) = GroupSpec.sorted ((block.members.map (·.unseen)).map (·.spec)) := by
  rw [sane.group_eq block (List.mem_of_getElem? found), ← GroupSpec.sorted_map (f := BindingSpec.unseen) fun _ => rfl,
    List.map_map, List.map_map]
  rfl

/-- A registered group goes on asking for the same lines. -/
theorem Evolves.lines_eq (evolves : Evolves before after) (sane : before.Sane) {group : GroupBinding}
    (known : before.Knows group) (functions : List LeafFunction) (place : Nat) :
    group.lines after.argumentBlocks functions place = group.lines before.argumentBlocks functions place := by
  cases group with
  | own spec => rfl
  | shared block =>
    have there := List.getElem?_eq_getElem (show block < before.blocks.length from known)
    obtain ⟨later, found, same⟩ := evolves.block block _ there
    simp only [GroupBinding.lines, argumentBlocks, List.getElem?_map, found, there, Option.map_some, same.name_eq]
    refine List.flatMap_congr fun f _ => ?_
    have unseen (group : GroupSpec) : group.map (·.sharedLine f.entry place) =
        (group.map (·.unseen)).map (·.sharedLine f.entry place) := by
      rw [List.map_map]
      rfl
    rw [unseen, (evolves.sane sane).group_unseen found, same.members_eq, ← sane.group_unseen there, ← unseen]

theorem Evolves.groupLines_eq (evolves : Evolves before after) (sane : before.Sane) {groups : List GroupBinding}
    (known : ∀ group ∈ groups, before.Knows group) (functions : List LeafFunction) :
    groupLines after.argumentBlocks functions groups = groupLines before.argumentBlocks functions groups :=
  List.flatMap_congr fun _ found =>
    evolves.lines_eq sane (known _ (List.fst_mem_of_mem_zipIdx found)) functions _

end CompileState

/-- The groups of a leaf are known as soon as its arguments are bound. -/
theorem LeafBindings.Covers.knows {state : CompileState} {functions : List LeafFunction} {bindings : LeafBindings}
    (covers : bindings.Covers state functions) : ∀ group ∈ bindings.groups, state.Knows group := by
  simp only [groups, List.forall_mem_append, List.forall_mem_map]
  refine ⟨fun space found binding inside => ?_, covers.placed⟩
  rw [specs, (GroupSpec.sorted_perm _).mem_iff] at inside
  obtain ⟨v, has, rfl⟩ := List.mem_map.mp inside
  exact (covers.own v (mem_own found has)).1.recorded

end FrameGraph
