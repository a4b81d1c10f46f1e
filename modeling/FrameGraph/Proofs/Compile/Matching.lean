import FrameGraph.Proofs.Compile.Bindings
import FrameGraph.Proofs.Compile.Mirror

/-! # States of two runs

A part of a program that is compiled alone gives its units other numbers than the whole program does, and its argument
blocks other places; its units may have other labels, too. Everything that a text is made of is the same.
-/

namespace FrameGraph

/-- The unit without its label. -/
def UnitState.unlabelled (unit : UnitState) : UnitState := { unit with label := "" }

theorem UnitState.unlabelled_eq_iff {u v : UnitState} : u.unlabelled = v.unlabelled ↔
    u.library = v.library ∧ u.symbols = v.symbols ∧ u.leaves = v.leaves ∧ u.entries = v.entries := by
  simp [unlabelled]

/-- What two uses of an argument block have to agree on for a member. -/
structure MemberUse where
  name : String
  source : BindingSource
  binding : Nat
  var : VarClass
  type : String

/-- What a use of a block lists of a member. -/
def BoundVariable.use (bound : BoundVariable) : MemberUse :=
  ⟨bound.spec.name, bound.spec.source, bound.spec.entry.binding, bound.var, bound.type⟩

/-- The declaration in a bind group is a matter of the use. -/
theorem BoundVariable.declaration_eq {a b : BoundVariable} (same : a.use = b.use) (group : Nat) :
    a.declaration group = b.declaration group := by
  simp only [use, MemberUse.mk.injEq] at same
  simp only [declaration, same]

theorem Compile.sameMember_iff (a b : BoundVariable) : sameMember a b ↔ a.use = b.use := by
  simp [sameMember, BoundVariable.use, and_assoc]

/-- A use fits a block when it lists the same members. -/
theorem Compile.fits_iff (registered bound : List BoundVariable) :
    (registered.length == bound.length && (registered.zip bound).all fun (a, b) => sameMember a b) ↔
      registered.map (·.use) = bound.map (·.use) := by
  rw [← List.forall₂_eq_eq_eq, List.forall₂_map_left_iff, List.forall₂_map_right_iff, List.forall₂_iff_zip]
  simp only [Bool.and_eq_true, beq_iff_eq, List.all_eq_true, Prod.forall, sameMember_iff]

namespace CompileState

/-- The blocks by their names, each with the use that it was registered by. -/
def listing (state : CompileState) : List (String × List MemberUse) :=
  state.blocks.map fun block => (block.name, block.members.map (·.use))

/-- A block is found by its name. -/
theorem lookup_listing (state : CompileState) (name : String) :
    state.listing.lookup name = (state.blocks.findIdx? (·.name == name)).map fun place =>
      ((state.blocks[place]?.map (·.members)).getD []).map (·.use) := by
  unfold listing
  induction state.blocks with
  | nil => rfl
  | cons block rest ih =>
    rw [List.map_cons, List.findIdx?_cons]
    by_cases same : block.name = name
    · subst same
      simp
    · have apart : (name == block.name) = false := beq_false_of_ne (Ne.symm same)
      rw [List.lookup_cons, apart, beq_false_of_ne same]
      simp [ih, Option.map_map, Function.comp_def]

/-- A block that is used again keeps the use that it was registered by. -/
theorem listing_again (state : CompileState) (place : Nat) (stage : Stage) :
    listing { state with
      blocks := state.blocks.modify place fun b =>
        { b with
          members := ((state.blocks[place]?.map (·.members)).getD []).map fun v =>
            { v with spec := Compile.addStage stage v.spec }
          group := b.group.map (Compile.addStage stage) } } = state.listing := by
  refine List.ext_getElem? fun other => ?_
  simp only [listing, List.getElem?_map, List.getElem?_modify]
  split
  · rename_i here
    subst here
    cases state.blocks[place]? <;> simp [BoundVariable.use, Compile.addStage, Function.comp_def]
  · simp

/-- A block that is registered is found unless there is one of its name. -/
theorem lookup_register {state after : CompileState} {block : RegisteredBlock}
    (blocks : after.blocks = state.blocks ++ [block]) {name : String} {uses : List MemberUse} :
    after.listing.lookup name = some uses ↔ state.listing.lookup name = some uses ∨
      state.listing.lookup name = none ∧ name = block.name ∧ block.members.map (·.use) = uses := by
  have listed : after.listing = state.listing ++ [(block.name, block.members.map (·.use))] := by
    rw [listing, blocks, List.map_append, List.map_singleton, listing]
  rw [listed, List.lookup_append, Option.or_eq_some_iff]
  refine or_congr_right (and_congr_right fun _ => ?_)
  by_cases same : name = block.name
  · subst same
    simp
  · have apart : (name == block.name) = false := beq_false_of_ne same
    simp [List.lookup_cons, apart, same]

/-- The state of a whole program matches that of a part whose `count` units begin with the unit `first`: these units are
the same, and so are the blocks that the part has. The other units are as at the start. -/
structure Matches (first count : Nat) (start whole part : CompileState) : Prop where
  length_eq : part.units.length = count
  units : ∀ place < count,
    whole.units[first + place]?.map UnitState.unlabelled = part.units[place]?.map UnitState.unlabelled
  outside : ∀ other, other < first ∨ first + count ≤ other → whole.units[other]? = start.units[other]?
  blocks : ∀ name uses, part.listing.lookup name = some uses → whole.listing.lookup name = some uses

namespace Matches

variable {first count place : Nat} {start whole part : CompileState}

/-- The units stay, and blocks may be added and used again. -/
theorem onBlocks (matching : Matches first count start whole part) {w p : CompileState} (units : w.units = whole.units)
    (units' : p.units = part.units)
    (blocks : ∀ name uses, p.listing.lookup name = some uses → w.listing.lookup name = some uses) :
    Matches first count start w p where
  length_eq := (congrArg List.length units').trans matching.length_eq
  units place inside := by
    rw [units, units']
    exact matching.units place inside
  outside other away := units ▸ matching.outside other away
  blocks := blocks

/-- The part registers a block that the whole program has, now or from before. -/
theorem register (matching : Matches first count start whole part) {w p : CompileState} {block : RegisteredBlock}
    (units : w.units = whole.units) (units' : p.units = part.units) (blocks' : p.blocks = part.blocks ++ [block])
    (listed : w.listing.lookup block.name = some (block.members.map (·.use)))
    (kept : ∀ name uses, whole.listing.lookup name = some uses → w.listing.lookup name = some uses) :
    Matches first count start w p := by
  apply matching.onBlocks units units'
  intro name uses found
  obtain old | ⟨-, rfl, rfl⟩ := (lookup_register blocks').mp found
  · exact kept name uses (matching.blocks name uses old)
  · exact listed

/-- Changes of everything else do not matter. -/
theorem act (matching : Matches first count start whole part) {w p : CompileState} (units : w.units = whole.units)
    (units' : p.units = part.units) (blocks : w.blocks = whole.blocks) (blocks' : p.blocks = part.blocks) :
    Matches first count start w p := by
  refine matching.onBlocks units units' ?_
  rw [listing, listing, blocks, blocks']
  exact matching.blocks

/-- A unit of the part and the unit of the whole program that it stands for. -/
theorem unit (matching : Matches first count start whole part) (inside : place < count) :
    ∃ u v, whole.units[first + place]? = some u ∧ part.units[place]? = some v ∧ u.unlabelled = v.unlabelled := by
  have same := matching.units place inside
  have found' := List.getElem?_eq_getElem (matching.length_eq.symm ▸ inside : place < part.units.length)
  rw [found', Option.map_some] at same
  obtain ⟨u, found, same⟩ := Option.map_eq_some_iff.mp same
  exact ⟨u, _, found, found', same⟩

/-- A change of a unit of the part, and the same change in the whole program. -/
theorem onUnit (matching : Matches first count start whole part) (inside : place < count) {f g : UnitState → UnitState}
    (same : ∀ u v, whole.units[first + place]? = some u → part.units[place]? = some v → u.unlabelled = v.unlabelled →
      (f u).unlabelled = (g v).unlabelled) :
    Matches first count start { whole with units := whole.units.modify (first + place) f }
      { part with units := part.units.modify place g } where
  length_eq := (List.length_modify ..).trans matching.length_eq
  units other within := by
    obtain ⟨u, v, found, found', equal⟩ := matching.unit within
    simp only [List.getElem?_modify, found, found', Nat.add_left_cancel_iff]
    split
    · rename_i here
      subst here
      exact congrArg some (same u v found found' equal)
    · exact congrArg some equal
  outside other away := by
    have elsewhere : first + place ≠ other := by omega
    simp only [List.getElem?_modify, elsewhere, if_false, id_map']
    exact matching.outside other away
  blocks := matching.blocks

end Matches

end CompileState

namespace Compile

open CompileState (Matches)

variable {first count place : Nat} {start : CompileState}

/-! ### Steps that leave the blocks alone -/

/-- Uses of resources and lines of the log do not count. -/
theorem modify_tracks {f g : CompileState → CompileState} (units : ∀ s, (f s).units = s.units)
    (blocks : ∀ s, (f s).blocks = s.blocks) (units' : ∀ s, (g s).units = s.units) (blocks' : ∀ s, (g s).blocks = s.blocks) :
    Tracks (Matches first count start) (modify f : Compile PUnit) (modify g : Compile PUnit) :=
  .ofModify fun _ _ matching => ⟨rfl, matching.act (units _) (units' _) (blocks _) (blocks' _)⟩

theorem log_tracks (level level' : LogLevel) (source source' : LogSource) (text text' : String) :
    Tracks (Matches first count start) (log level source text) (log level' source' text') :=
  modify_tracks (fun _ => rfl) (fun _ => rfl) (fun _ => rfl) fun _ => rfl

theorem matches_keepsUses : KeepsUses (Matches first count start) where
  texture _ _ := modify_tracks (fun _ => rfl) (fun _ => rfl) (fun _ => rfl) fun _ => rfl
  buffer _ _ := modify_tracks (fun _ => rfl) (fun _ => rfl) (fun _ => rfl) fun _ => rfl

/-- A unit of the part is kept equal to its unit in the whole program but for the label. -/
theorem matches_keepsUnit (inside : place < count) :
    KeepsUnit (Matches first count start) (fun u v => u.unlabelled = v.unlabelled) (first + place) place where
  toKeepsUses := matches_keepsUses
  log level source text text' := log_tracks level level source source text text'
  found w p matching := by
    obtain ⟨u, v, found, found', same⟩ := matching.unit inside
    rw [found, found']
    exact .some same
  change w p f g matching := matching.onUnit inside
  symbols u v table same := by simp_all [UnitState.unlabelled_eq_iff]
  entries u v names same := by simp_all [UnitState.unlabelled_eq_iff]

/-- The text of a leaf is added to its unit in both. -/
theorem addText_tracks (inside : place < count) (label : String) {bindings bindings' : LeafBindings}
    {entries : List (String × String)}
    (same : ∀ entry, bindings.declarations entry = bindings'.declarations entry) :
    Tracks (Matches first count start) (addText (first + place) label bindings entries)
      (addText place label bindings' entries) := by
  refine .ofModify fun w p matching => ⟨rfl, matching.onUnit inside fun u v _ _ equal => ?_⟩
  simp_all [UnitState.unlabelled_eq_iff]

end Compile

end FrameGraph
