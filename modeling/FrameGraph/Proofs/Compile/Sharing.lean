import FrameGraph.Proofs.Compile.Isolation
import FrameGraph.Proofs.Compile.Listing
import FrameGraph.Proofs.List

/-! # Shared argument blocks

A program has one argument block for every name that its entry points use, in the order of the first uses. All uses of a
name list the same members, every leaf that refers to the name binds that one block, and the block is seen by the stages
of all its uses, whatever their units.
-/

namespace FrameGraph

/-- All of these stages. -/
def StageSet.ofStages (stages : List Stage) : StageSet :=
  ⟨decide (.compute ∈ stages), decide (.vertex ∈ stages), decide (.fragment ∈ stages)⟩

theorem StageSet.ofStages_concat (stages : List Stage) (stage : Stage) :
    ofStages (stages ++ [stage]) = (ofStages stages).union (.single stage) := by
  cases stage <;> simp [ofStages, union, single]

/-- The place of the block that a bind group is. -/
def GroupBinding.block? : GroupBinding → Option Nat
  | .own _ => none
  | .shared block => some block

/-- The references of all entry points of a program to argument blocks, in pre-order of the leaves. -/
def Program.blockUses (program : Program) : List BlockUse := (Component.nodesAll program.root).flatMap Leaf.blockUses

namespace BlockUse

/-- The names that are used, in the order of their first uses. -/
def names (uses : List BlockUse) : List String := (uses.map (·.block)).eraseDups

/-- The stages that use a name. -/
def stages (uses : List BlockUse) (name : String) : StageSet :=
  .ofStages ((uses.filter (·.block = name)).map (·.stage))

/-- The members can be bound: they are buffers and textures, and no two of a kind are pinned to one number. -/
structure Fits (use : BlockUse) : Prop where
  reserves : ∃ pool, IndexPool.reserve use.block use.members = .ok pool
  spaced : ∀ member ∈ use.members, member.kind.space?.isSome

variable (uses : List BlockUse) (use : BlockUse)

theorem mem_names {name : String} : name ∈ names uses ↔ ∃ use ∈ uses, use.block = name := by
  simp [names, List.mem_eraseDups]

theorem names_subset {few all : List BlockUse} (part : few ⊆ all) : names few ⊆ names all := by
  intro name found
  obtain ⟨use, has, rfl⟩ := (mem_names few).mp found
  exact (mem_names all).mpr ⟨use, part has, rfl⟩

theorem names_nodup : (names uses).Nodup := List.eraseDups_nodup _

theorem names_concat : names (uses ++ [use]) = names uses ++ if use.block ∈ names uses then [] else [use.block] := by
  have known : use.block ∈ names uses ↔ use.block ∈ uses.map (·.block) := List.mem_eraseDups
  rw [names, List.map_append, List.map_singleton, List.eraseDups_concat, names]
  simp only [names] at known
  simp only [known]

theorem stages_concat (name : String) : stages (uses ++ [use]) name =
    if use.block = name then (stages uses name).union (.single use.stage) else stages uses name := by
  by_cases same : use.block = name
  · simp [stages, same, StageSet.ofStages_concat]
  · simp [stages, same]

/-- The places that some of the used names have among all of them. -/
def places (all few : List BlockUse) : List Nat := (names few).map (names all).idxOf

end BlockUse

open BlockUse (names stages places)

/-- A block as its uses so far have made it. -/
structure RegisteredBlock.UsedBy (table : ResourceTable) (uses : List BlockUse) (block : RegisteredBlock) : Prop where
  listing : ∀ use ∈ uses, use.block = block.name → use.listing? table = some (block.members.map (·.use))
  visibility : ∀ member ∈ block.members, member.spec.entry.visibility = stages uses block.name

namespace RegisteredBlock.UsedBy

variable {table : ResourceTable} {uses : List BlockUse} {block : RegisteredBlock} {use : BlockUse}

/-- The use of another block does not matter. -/
theorem other (usedBy : block.UsedBy table uses) (apart : use.block ≠ block.name) :
    block.UsedBy table (uses ++ [use]) where
  listing := by
    rw [List.forall_mem_append, List.forall_mem_singleton]
    exact ⟨usedBy.listing, fun same => absurd same apart⟩
  visibility member has := by
    rw [BlockUse.stages_concat, if_neg apart]
    exact usedBy.visibility member has

/-- One more use lists the same members, and its stage sees them. -/
theorem again (usedBy : block.UsedBy table uses) (same : use.block = block.name)
    (listed : use.listing? table = some (block.members.map (·.use))) :
    (Compile.blockSeenBy use.stage block).UsedBy table (uses ++ [use]) := by
  constructor
  · rw [Compile.uses_blockSeenBy, List.forall_mem_append, List.forall_mem_singleton]
    exact ⟨usedBy.listing, fun _ => listed⟩
  · rw [Compile.blockSeenBy, List.forall_mem_map]
    intro member has
    rw [BlockUse.stages_concat, if_pos same, ← usedBy.visibility member has]
    rfl

/-- The first use of a name. -/
theorem first {seen : List BoundVariable} {group : GroupSpec} (fresh : use.block ∉ names uses)
    (listed : use.listing? table = some (seen.map (·.use)))
    (stage : ∀ member ∈ seen, member.spec.entry.visibility = .single use.stage) :
    UsedBy table (uses ++ [use]) ⟨use.block, group, seen⟩ := by
  have none : ∀ other ∈ uses, other.block ≠ use.block := fun other found same =>
    fresh ((BlockUse.mem_names uses).mpr ⟨other, found, same⟩)
  constructor
  · rw [List.forall_mem_append, List.forall_mem_singleton]
    exact ⟨fun other found same => absurd same (none other found), fun _ => listed⟩
  · intro member has
    have before : uses.filter (·.block = use.block) = [] := by simpa using none
    rw [stage member has]
    cases is : use.stage <;> simp [stages, before, is, StageSet.ofStages, StageSet.single]

end RegisteredBlock.UsedBy

namespace CompileState

variable {table : ResourceTable} {state after : CompileState} {uses : List BlockUse} {use : BlockUse}

/-- The blocks as the uses so far have made them. -/
structure Shares (table : ResourceTable) (state : CompileState) (uses : List BlockUse) : Prop where
  names_eq : state.blocks.map (·.name) = names uses
  used : ∀ block ∈ state.blocks, block.UsedBy table uses
  fits : ∀ use ∈ uses, use.Fits

namespace Shares

theorem start (units : List UnitState) : Shares table { units } [] :=
  ⟨rfl, List.forall_mem_nil _, List.forall_mem_nil _⟩

theorem of_blocks (shares : state.Shares table uses) (same : after.blocks = state.blocks) : after.Shares table uses :=
  ⟨same ▸ shares.names_eq, same ▸ shares.used, shares.fits⟩

/-- One more use of a block. -/
theorem add {unit place : Nat} {seen : List BoundVariable} (shares : state.Shares table uses)
    (run : Compile.BlockRun table unit use state after place seen) :
    after.Shares table (uses ++ [use]) ∧ place = (names (uses ++ [use])).idxOf use.block := by
  have fits : ∀ other ∈ uses ++ [use], other.Fits := by
    rw [List.forall_mem_append, List.forall_mem_singleton]
    exact ⟨shares.fits, run.reserves, run.spaced⟩
  rw [BlockUse.names_concat]
  obtain ⟨block, found, named, seen_eq, changed⟩ | ⟨fresh, last, stage, changed⟩ := run.step
  · obtain ⟨inside, rfl⟩ := List.getElem?_eq_some_iff.mp found
    have inside' : place < (names uses).length := by
      rw [← shares.names_eq, List.length_map]
      exact inside
    have place_eq : (names uses)[place] = use.block := by
      simp only [← shares.names_eq, List.getElem_map, named]
    have known : use.block ∈ names uses := place_eq ▸ List.getElem_mem inside'
    rw [if_pos known, List.append_nil]
    refine ⟨⟨?_, ?_, fits⟩, ?_⟩
    · rw [changed, List.map_set, shares.names_eq, BlockUse.names_concat, if_pos known, List.append_nil,
        show (Compile.blockSeenBy use.stage state.blocks[place]).name = (names uses)[place] from named.trans place_eq.symm,
        List.set_getElem_self]
    · rw [changed]
      intro other has
      obtain ⟨index, there, rfl⟩ := List.mem_iff_getElem.mp has
      rw [List.length_set] at there
      rw [List.getElem_set]
      split
      · refine (shares.used _ (List.getElem_mem inside)).again named.symm ?_
        rw [run.listed, seen_eq, Compile.uses_blockSeenBy]
      · rename_i elsewhere
        apply (shares.used _ (List.getElem_mem there)).other
        intro same
        have nodup := BlockUse.names_nodup uses
        rw [← shares.names_eq] at nodup
        have one := nodup.idxOf_getElem place (by simpa using inside)
        have two := nodup.idxOf_getElem index (by simpa using there)
        simp only [List.getElem_map, named, same] at one two
        exact elsewhere (one.symm.trans two)
    · rw [← place_eq, (BlockUse.names_nodup uses).idxOf_getElem place inside']
  · rw [shares.names_eq] at fresh
    rw [if_neg fresh]
    refine ⟨⟨?_, ?_, fits⟩, ?_⟩
    · rw [changed, List.map_append, shares.names_eq, BlockUse.names_concat, if_neg fresh]
      rfl
    · rw [changed, List.forall_mem_append, List.forall_mem_singleton]
      refine ⟨fun block has => (shares.used block has).other ?_, .first fresh run.listed stage⟩
      intro same
      exact fresh (same ▸ shares.names_eq ▸ List.mem_map_of_mem has)
    · rw [last, List.idxOf_append_of_notMem fresh, List.idxOf_cons_self, ← shares.names_eq, List.length_map, Nat.add_zero]

end Shares

end CompileState

namespace BlockUse

variable {done own : List BlockUse} {use : BlockUse}

/-- Places do not change when more names are used. -/
theorem places_append (part : names own ⊆ names done) (more : List BlockUse) :
    (names own).map (names (done ++ more)).idxOf = places done own := by
  apply List.map_congr_left
  intro name found
  have extended : names (done ++ more) = names done ++ ((more.map (·.block)).removeAll (done.map (·.block))).eraseDups := by
    rw [names, List.map_append, List.eraseDups_append, names]
  rw [extended, List.idxOf_append_of_mem (part found)]

/-- The place of one more used name is noted unless it is known. -/
theorem places_concat (part : names own ⊆ names done) :
    places (done ++ [use]) (own ++ [use]) =
      if (places done own).contains ((names (done ++ [use])).idxOf use.block) then places done own
      else places done own ++ [(names (done ++ [use])).idxOf use.block] := by
  have kept := places_append part [use]
  have known : (names (done ++ [use])).idxOf use.block ∈ places done own ↔ use.block ∈ names own := by
    rw [← kept, List.mem_map]
    constructor
    · rintro ⟨name, found, same⟩
      have here : name ∈ names (done ++ [use]) := by
        rw [names_concat]
        exact List.mem_append_left _ (part found)
      rwa [← (List.idxOf_inj here).mp same]
    · exact fun found => ⟨_, found, rfl⟩
  rw [places, names_concat own]
  by_cases has : use.block ∈ names own
  · rw [if_pos has, List.append_nil, kept, if_pos (List.contains_iff_mem.mpr (known.mpr has))]
  · rw [if_neg has, List.map_append, kept, if_neg fun found => has (known.mp (List.contains_iff_mem.mp found))]
    rfl

end BlockUse

namespace Compile

variable {table : ResourceTable} {caps : DeviceCaps} {state after : CompileState} {unit : Nat} {job : EntryJob}
  {entry : String} {done own : List BlockUse}

/-- The blocks are as all uses so far have made them, and a leaf has noted the places of those that it uses. -/
structure Notes (table : ResourceTable) (state : CompileState) (done own : List BlockUse) (bindings : LeafBindings) :
    Prop where
  shares : state.Shares table (done ++ own)
  shared_eq : bindings.shared = places (done ++ own) own

theorem bindArgument_notes {argument : Argument} {scan result : ArgumentScan}
    (notes : Notes table state done own scan.bindings)
    (run : (bindArgument table unit job entry scan argument).run state = .ok (result, after)) :
    Notes table after done (own ++ (argument.kind.blockUse? job.stage).toList) result.bindings := by
  unfold bindArgument at run
  dsimp only at run
  split at run
  · rename_i name members kind
    obtain ⟨⟨place, seen⟩, middle, bound, run⟩ := bind_ok run
    obtain ⟨rfl, rfl⟩ := pure_ok run
    obtain ⟨shares, rfl⟩ := notes.shares.add (bindBlock_run ⟨job.stage, name, members⟩ bound)
    rw [List.append_assoc] at shares
    rw [kind]
    refine ⟨shares, ?_⟩
    have part : names own ⊆ names (done ++ own) := BlockUse.names_subset (List.subset_append_right _ _)
    rw [shareMember_foldl, ← List.append_assoc]
    exact notes.shared_eq ▸ (BlockUse.places_concat part).symm
  · rename_i plain
    obtain ⟨⟨bound, bytes⟩, middle, made, run⟩ := bind_ok run
    obtain ⟨rfl, rfl⟩ := pure_ok run
    have none : argument.kind.blockUse? job.stage = none := by
      cases is : argument.kind with
      | block name members => exact absurd is (plain name members)
      | _ => rfl
    rw [none, Option.toList_none, List.append_nil]
    refine ⟨notes.shares.of_blocks (SparesBlocks.bindPlain _ _ _ _ _ _ made), ?_⟩
    rw [← notes.shared_eq]
    dsimp only
    split <;> rfl

/-- Binding the arguments of an entry point uses the blocks among them, in order. -/
theorem bindArguments_notes {scan result : ArgumentScan}
    (run : (bindArguments table unit job entry scan).run state = .ok (result, after))
    (notes : Notes table state done own scan.bindings) :
    Notes table after done (own ++ BlockUse.ofArguments job.stage job.arguments) result.bindings := by
  unfold bindArguments at run
  generalize job.arguments = rest at run
  induction rest generalizing own scan state with
  | nil =>
    obtain ⟨rfl, rfl⟩ := pure_ok run
    simpa [BlockUse.ofArguments] using notes
  | cons argument rest ih =>
    rw [List.foldlM_cons] at run
    obtain ⟨next, middle, bound, run⟩ := bind_ok run
    have all := ih (bindArgument_notes notes bound) run
    rw [List.append_assoc] at all
    have uses : BlockUse.ofArguments job.stage (argument :: rest) =
        (argument.kind.blockUse? job.stage).toList ++ BlockUse.ofArguments job.stage rest := by
      cases is : argument.kind.blockUse? job.stage <;> simp [BlockUse.ofArguments, is]
    rwa [uses]

theorem bindGrid_shared (job : EntryJob) (entry : String) (plan : GridPlan) (scan : ArgumentScan) :
    (bindGrid job entry plan scan).2.bindings.shared = scan.bindings.shared := by
  unfold bindGrid
  dsimp only
  split
  · rfl
  · split <;> rfl

theorem blocks_groups (bindings : LeafBindings) : bindings.groups.filterMap (·.block?) = bindings.shared := by
  have own : (bindings.ownSpaces.map fun space => GroupBinding.own (LeafBindings.specs space)).filterMap (·.block?) = [] := by
    simp [GroupBinding.block?]
  have shared : (bindings.shared.map GroupBinding.shared).filterMap (·.block?) = bindings.shared := by
    rw [List.filterMap_map]
    exact List.filterMap_some
  rw [LeafBindings.groups, List.filterMap_append, own, shared, List.nil_append]

/-- A leaf has used its blocks, and its bind groups are the blocks that it uses. -/
structure LeafShares (table : ResourceTable) (after : CompileState) (done : List BlockUse) (node : Leaf)
    (compiled : CompiledLeaf) : Prop where
  shares : after.Shares table (done ++ node.blockUses)
  blocks_eq : compiled.groups.filterMap (·.block?) = places (done ++ node.blockUses) node.blockUses

/-- A leaf that uses no blocks. -/
theorem LeafShares.host {node : Leaf} (shares : state.Shares table done) (same : after.blocks = state.blocks)
    (none : node.blockUses = []) : LeafShares table after done node .host := by
  constructor
  · rw [none, List.append_nil]
    exact shares.of_blocks same
  · rw [none]
    rfl

theorem leaf_shares {node : Leaf} {compiled : CompiledLeaf} (shares : state.Shares table done)
    (run : (leaf table caps unit node).run state = .ok (compiled, after)) :
    LeafShares table after done node compiled := by
  have start {state : CompileState} (shares : state.Shares table done) : Notes table state done [] {} :=
    ⟨by rwa [List.append_nil], rfl⟩
  cases node with
  | dispatch node =>
    obtain ⟨_, _, ran, run⟩ := bind_ok run
    obtain ⟨rfl, rfl⟩ := pure_ok run
    obtain ⟨made, rfl, rfl⟩ := dispatch_run ran
    have stage := locate_stage made.located
    have arguments := (locate_ok made.located).1
    have named := shares.of_blocks (made.unblocked.trans (Spares.giveEntry blocks_unitless _ _ made.names))
    have notes := bindArguments_notes made.binds (start named)
    rw [stage, arguments, List.nil_append] at notes
    exact ⟨notes.shares.of_blocks rfl, (blocks_groups _).trans ((bindGrid_shared _ _ _ _).trans notes.shared_eq)⟩
  | draw node =>
    obtain ⟨_, _, ran, run⟩ := bind_ok run
    obtain ⟨rfl, rfl⟩ := pure_ok run
    obtain ⟨made, rfl, rfl⟩ := draw_run ran
    have stage := locate_stage made.vertexLocated
    have arguments := (locate_ok made.vertexLocated).1
    have stage' := locate_stage made.fragmentLocated
    have arguments' := (locate_ok made.fragmentLocated).1
    have named := shares.of_blocks (Spares.giveEntry blocks_unitless _ _ made.first.names)
    have vertex := bindArguments_notes made.first.binds (start named)
    have named' := vertex.shares.of_blocks (Spares.giveEntry blocks_unitless _ _ made.second.names)
    have notes := bindArguments_notes made.second.binds ⟨named', vertex.shared_eq⟩
    rw [stage, arguments, stage', arguments', List.nil_append] at notes
    have used := notes.shares.of_blocks (Spares.drawResources blocks_aside node made.uses)
    exact ⟨used.of_blocks rfl, (blocks_groups _).trans notes.shared_eq⟩
  | blit node =>
    obtain ⟨_, _, ran, run⟩ := bind_ok run
    obtain ⟨rfl, rfl⟩ := pure_ok run
    exact .host shares (Spares.blit blocks_aside node ran) rfl
  | filter node =>
    obtain ⟨_, _, ran, run⟩ := bind_ok run
    obtain ⟨rfl, rfl⟩ := pure_ok run
    exact .host shares (Spares.filter blocks_aside node ran) rfl
  | callback node =>
    obtain ⟨rfl, rfl⟩ := pure_ok run
    exact .host shares rfl rfl

/-- The leaves use their blocks one after the other. -/
theorem mapM_shares {leaves : List FlatLeaf} {compiled : List CompiledLeaf} (shares : state.Shares table done)
    (run : (leaves.mapM (flatLeaf table caps)).run state = .ok (compiled, after)) :
    after.Shares table (done ++ leaves.flatMap (·.node.blockUses)) ∧ ∀ leaf ∈ leaves.zip compiled,
      leaf.2.groups.filterMap (·.block?) =
        places (done ++ leaves.flatMap (·.node.blockUses)) leaf.1.node.blockUses := by
  induction leaves generalizing state compiled done with
  | nil =>
    rw [List.mapM_nil] at run
    obtain ⟨rfl, rfl⟩ := pure_ok run
    exact ⟨by simpa using shares, by simp⟩
  | cons flat rest ih =>
    rw [List.mapM_cons] at run
    obtain ⟨first, next, one, run⟩ := bind_ok run
    obtain ⟨others, last, more, run⟩ := bind_ok run
    obtain ⟨rfl, rfl⟩ := pure_ok run
    obtain ⟨made, middle, leafed, one⟩ := bind_ok one
    obtain ⟨_, _, traced, one⟩ := bind_ok one
    obtain ⟨rfl, rfl⟩ := pure_ok one
    have used := leaf_shares shares leafed
    obtain ⟨all, groups⟩ := ih (used.shares.of_blocks (Spares.log blocks_aside _ _ _ traced)) more
    rw [List.flatMap_cons, ← List.append_assoc, List.zip_cons_cons, List.forall_mem_cons]
    refine ⟨all, ?_, groups⟩
    rw [used.blocks_eq, places, places,
      BlockUse.places_append (BlockUse.names_subset (List.subset_append_right _ _))]
    rfl

end Compile

/-- A program that compiles has the blocks of a state in which all its uses were made, in pre-order of the leaves. -/
theorem Program.compile_shares {source : Program} {table : ResourceTable} {caps : DeviceCaps} {program : CompiledProgram}
    {log : List LogLine} (compiled : source.compile table caps = .ok (program, log)) :
    ∃ state : CompileState, state.Sane ∧ state.Shares table source.blockUses ∧
      program.blocks = state.blocks.map (fun block => ⟨block.name, block.group⟩) ∧
      ∀ leaf ∈ source.compiledLeaves program,
        leaf.2.groups.filterMap (·.block?) = places source.blockUses leaf.1.node.blockUses := by
  obtain ⟨leaves, state, units, run, finished, rfl⟩ := Program.compile_eq_ok compiled
  have started := Compile.startState_sane source
  have sane := (Compile.leaves_apart started (Compile.startState_inUnits source) run).1.sane started
  obtain ⟨shares, groups⟩ := Compile.mapM_shares (.start _) run
  have uses_eq : (Flattened.ofProgram source).leaves.flatMap (·.node.blockUses) = source.blockUses := by
    rw [Program.blockUses, ← Flattened.ofProgram_nodes, List.flatMap_map]
  rw [List.nil_append, uses_eq] at shares groups
  exact ⟨state, sane, shares, rfl, groups⟩

theorem CompileState.Shares.blocks_names {table : ResourceTable} {state : CompileState} {uses : List BlockUse}
    (shares : state.Shares table uses) :
    (state.blocks.map fun block => (⟨block.name, block.group⟩ : ArgumentBlock)).map (·.name) = names uses := by
  rw [← shares.names_eq, List.map_map]
  rfl

/-- The argument blocks of a compiled program: one for every name, in the order of the first uses. A leaf binds the
blocks whose names it uses. All uses of a name list the members of its block, and all their stages see these. -/
structure CompiledProgram.SharesBlocks (table : ResourceTable) (source : Program) (program : CompiledProgram) : Prop where
  names_eq : program.blocks.map (·.name) = names source.blockUses
  bound : ∀ leaf ∈ source.compiledLeaves program, leaf.2.groups.filterMap (·.block?) =
    (names leaf.1.node.blockUses).map (program.blocks.map (·.name)).idxOf
  listed : ∀ block ∈ program.blocks, ∃ members : List BoundVariable,
    block.group = GroupSpec.sorted (members.map (·.spec)) ∧
    (∀ use ∈ source.blockUses, use.block = block.name → use.listing? table = some (members.map (·.use))) ∧
    ∀ member ∈ members, member.spec.entry.visibility = stages source.blockUses block.name

/-- A compiled program shares its argument blocks among all entry points that use their names. -/
theorem Program.blocks_shared {source : Program} {table : ResourceTable} {caps : DeviceCaps} {program : CompiledProgram}
    {log : List LogLine} (compiled : source.compile table caps = .ok (program, log)) :
    program.SharesBlocks table source := by
  obtain ⟨state, sane, shares, blocks_eq, groups⟩ := source.compile_shares compiled
  have names_eq : program.blocks.map (·.name) = names source.blockUses := by
    rw [blocks_eq, shares.blocks_names]
  constructor
  · exact names_eq
  · intro leaf found
    rw [names_eq]
    exact groups leaf found
  · rw [blocks_eq, List.forall_mem_map]
    intro block found
    have used := shares.used block found
    exact ⟨block.members, sane.group_eq block found, used.listing, used.visibility⟩

/-- The block of `blockKernel` as an argument of other entry points. -/
def cellsArgument : Argument :=
  ⟨"cells", none, none, .block "cells" [⟨"x", none, none, .buffer ⟨0⟩ (.storage false)⟩]⟩

/-- A kernel in the main unit and a draw in a unit of its own; all three entry points use one block. -/
def drawnKernel : Program where
  library := ""
  root := [blockKernel, .group { label := "fx", isolated := some "const n = 1;" } [.leaf (.draw {
    label := "d"
    source := "@vertex fn v() -> @builtin(position) vec4<f32> { return vec4<f32>(f32(x[0])); }\n" ++
      "@fragment fn f() -> @location(0) vec4<f32> { return vec4<f32>(f32(x[1])); }"
    vertex := "v"
    fragment := "f"
    vertexArguments := [cellsArgument]
    fragmentArguments := [cellsArgument]
    targets := [⟨.surface, .load, .replace⟩] })]]

/-- They compile, and there is one block, which is bound by both leaves and seen by all three stages. -/
theorem Program.blocks_shared_drawn :
    ∃ program log, drawnKernel.compile { buffers := [⟨"x", .scalar .u32, 4, .fixed 4⟩] } {} = .ok (program, log) ∧
      program.SharesBlocks { buffers := [⟨"x", .scalar .u32, 4, .fixed 4⟩] } drawnKernel ∧
      program.blocks.map (·.name) = ["cells"] ∧ program.leaves.length = 2 ∧
      stages drawnKernel.blockUses "cells" = ⟨true, true, true⟩ := by
  have run : (match drawnKernel.compile { buffers := [⟨"x", .scalar .u32, 4, .fixed 4⟩] } {} with
    | .ok (program, _) => program.leaves.length == 2
    | .error _ => false) = true := by decide +kernel
  cases compiled : drawnKernel.compile { buffers := [⟨"x", .scalar .u32, 4, .fixed 4⟩] } {} with
  | error _ =>
    rw [compiled] at run
    cases run
  | ok result =>
    obtain ⟨program, log⟩ := result
    rw [compiled] at run
    have shares := drawnKernel.blocks_shared compiled
    refine ⟨program, log, rfl, shares, shares.names_eq.trans (by decide), beq_iff_eq.mp run, by decide⟩

end FrameGraph
