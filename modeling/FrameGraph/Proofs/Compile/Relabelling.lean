import FrameGraph.Proofs.Compile.Isolation

/-! # Programs under other labels

Two programs that are the same but for the labels of their components compile alike. The labels go into lines of the log,
into errors, and into what the units and the texts of their leaves are called; no step of a compile reads them back.
-/

namespace FrameGraph

/-! ## Trees without labels -/

/-- The node under another label. -/
def Leaf.relabel (label : String) : Leaf → Leaf
  | .dispatch node => .dispatch { node with label }
  | .draw node => .draw { node with label }
  | .blit node => .blit { node with label }
  | .filter node => .filter { node with label }
  | .callback node => .callback { node with label }

def Leaf.unlabelled (node : Leaf) : Leaf := node.relabel ""

theorem Leaf.relabel_of_unlabelled {node other : Leaf} (same : node.unlabelled = other.unlabelled) :
    other = node.relabel other.label := by
  cases node <;> cases other <;> simp_all [unlabelled, relabel, label]

mutual

/-- The component with all labels left out. -/
def Component.unlabelled : Component → Component
  | .leaf node => .leaf node.unlabelled
  | .group options children => .group { options with label := "" } (Component.unlabelledAll children)
  | .offFrame _ children => .offFrame "" (Component.unlabelledAll children)

/-- Components with all labels left out. -/
def Component.unlabelledAll : List Component → List Component
  | [] => []
  | component :: rest => component.unlabelled :: Component.unlabelledAll rest

end

def Program.unlabelled (program : Program) : Program := ⟨program.library, Component.unlabelledAll program.root⟩

namespace Flattened

def unlabelled (flat : Flattened) : Flattened :=
  ⟨flat.units.map fun unit => ⟨"", unit.library⟩, flat.leaves.map fun leaf => ⟨leaf.unit, "", leaf.node.unlabelled⟩⟩

theorem unlabelled_addUnit (flat : Flattened) (unit : UnitDecl) :
    (flat.addUnit unit).unlabelled = flat.unlabelled.addUnit ⟨"", unit.library⟩ := by
  simp [unlabelled, addUnit]

theorem unlabelled_addLeaf (flat : Flattened) (leaf : FlatLeaf) :
    (flat.addLeaf leaf).unlabelled = flat.unlabelled.addLeaf ⟨leaf.unit, "", leaf.node.unlabelled⟩ := by
  simp [unlabelled, addLeaf]

mutual

/-- Without labels a tree is laid out the same. -/
theorem addComponent_unlabelled (unit : Nat) (parent : String) (flat : Flattened) : ∀ component : Component,
    (addComponent unit parent flat component).unlabelled = addComponent unit "" flat.unlabelled component.unlabelled
  | .leaf node => by
    rw [addComponent, unlabelled_addLeaf, Component.unlabelled, addComponent]
    cases node <;> rfl
  | .group options children => by
    rw [Component.unlabelled, addComponent, addComponent]
    dsimp only
    split
    · rw [addComponents_unlabelled, unlabelled_addUnit]
      simp [unlabelled, pathBelow]
    · exact addComponents_unlabelled unit _ flat children
  | .offFrame coordinator children => by
    rw [Component.unlabelled, addComponent, addComponent]
    exact addComponents_unlabelled unit _ flat children

theorem addComponents_unlabelled (unit : Nat) (parent : String) (flat : Flattened) : ∀ components : List Component,
    (addComponents unit parent flat components).unlabelled =
      addComponents unit "" flat.unlabelled (Component.unlabelledAll components)
  | [] => by rw [Component.unlabelledAll, addComponents, addComponents]
  | component :: rest => by
    rw [Component.unlabelledAll, addComponents, addComponents, addComponents_unlabelled, addComponent_unlabelled]

end

theorem ofProgram_unlabelled {one other : Program} (same : one.unlabelled = other.unlabelled) :
    (ofProgram one).unlabelled = (ofProgram other).unlabelled := by
  simp only [Program.unlabelled, Program.mk.injEq] at same
  rw [ofProgram, ofProgram, addComponents_unlabelled, addComponents_unlabelled, same.2]
  simp [unlabelled, same.1]

end Flattened

/-- The owner of pinned numbers only shows in the error. -/
theorem IndexPool.reserve_owner {owner : String} {arguments : List Argument} {pool : IndexPool}
    (reserved : reserve owner arguments = .ok pool) (owner' : String) : reserve owner' arguments = .ok pool := by
  rw [reserve] at reserved ⊢
  generalize ({} : IndexPool) = claimed at reserved ⊢
  induction arguments generalizing claimed with
  | nil => exact reserved
  | cons argument rest ih =>
    rw [List.foldlM_cons] at reserved ⊢
    obtain ⟨next, one, more⟩ := bind_eq_ok reserved
    have one' : reserveOne owner' claimed argument = .ok next := by
      unfold reserveOne at one ⊢
      split at one
      · split_ifs at one ⊢
        exact one
      · exact one
    rw [one']
    exact ih next more

/-! ## States without labels -/

def LeafText.unlabelled (text : LeafText) : LeafText := { text with label := "" }

/-- The unit without its label and those of its leaves. -/
def UnitState.bare (unit : UnitState) : UnitState :=
  { unit with label := "", leaves := unit.leaves.map LeafText.unlabelled }

theorem UnitState.bare_eq_iff {u v : UnitState} : u.bare = v.bare ↔
    u.library = v.library ∧ u.symbols = v.symbols ∧
      u.leaves.map LeafText.unlabelled = v.leaves.map LeafText.unlabelled ∧ u.entries = v.entries := by
  simp [bare]

/-- States that are the same but for labels and the lines of the log. -/
structure CompileState.Alike (one other : CompileState) : Prop where
  usage_eq : one.usage = other.usage
  blocks_eq : one.blocks = other.blocks
  units_eq : one.units.map UnitState.bare = other.units.map UnitState.bare

namespace CompileState.Alike

variable {one other : CompileState} {place : Nat}

/-- Units at the same place are the same but for labels. -/
theorem unit_rel (alike : Alike one other) (place : Nat) :
    Option.Rel (fun u v => UnitState.bare u = v.bare) one.units[place]? other.units[place]? := by
  have same := congrArg (·[place]?) alike.units_eq
  simp only [List.getElem?_map] at same
  generalize one.units[place]? = u? at same ⊢
  generalize other.units[place]? = v? at same ⊢
  cases u? with
  | none =>
    rw [Option.map_eq_none_iff.mp same.symm]
    exact .none
  | some u =>
    obtain ⟨v, rfl, equal⟩ := Option.map_eq_some_iff.mp same.symm
    exact .some equal.symm

/-- The same change of a unit. -/
theorem onUnit (alike : Alike one other) {f g : UnitState → UnitState}
    (same : ∀ u v, one.units[place]? = some u → other.units[place]? = some v → u.bare = v.bare → (f u).bare = (g v).bare) :
    Alike { one with units := one.units.modify place f } { other with units := other.units.modify place g } where
  usage_eq := alike.usage_eq
  blocks_eq := alike.blocks_eq
  units_eq := by
    refine List.ext_getElem? fun index => ?_
    simp only [List.getElem?_map, List.getElem?_modify]
    have here := alike.unit_rel index
    split
    · rename_i equal
      subst equal
      generalize found : one.units[place]? = u? at here ⊢
      generalize found' : other.units[place]? = v? at here ⊢
      cases here with
      | none => rfl
      | some equal => exact congrArg some (same _ _ found found' equal)
    · generalize one.units[index]? = u? at here ⊢
      generalize other.units[index]? = v? at here ⊢
      cases here with
      | none => rfl
      | some equal => exact congrArg some equal

end CompileState.Alike

namespace Compile

open CompileState (Alike)

variable {table : ResourceTable} {caps : DeviceCaps} {unit : Nat}

/-! ## Steps -/

theorem modify_alike {f : CompileState → CompileState} (keeps : ∀ w p, Alike w p → Alike (f w) (f p)) :
    Tracks Alike (modify f : Compile PUnit) (modify f : Compile PUnit) :=
  .ofModify fun w p alike => ⟨rfl, keeps w p alike⟩

/-- The lines of the log do not count. -/
theorem log_alike (level : LogLevel) (source : LogSource) (text text' : String) :
    Tracks Alike (log level source text) (log level source text') :=
  .ofModify fun _ _ alike => ⟨rfl, alike.usage_eq, alike.blocks_eq, alike.units_eq⟩

theorem alike_keepsUses : KeepsUses Alike where
  texture handle use := modify_alike fun _ _ alike =>
    ⟨congrArg (fun usage : ResourceUsage => usage.texture handle use) alike.usage_eq, alike.blocks_eq, alike.units_eq⟩
  buffer handle use := modify_alike fun _ _ alike =>
    ⟨congrArg (fun usage : ResourceUsage => usage.buffer handle use) alike.usage_eq, alike.blocks_eq, alike.units_eq⟩

theorem alike_keepsUnit : KeepsUnit Alike (fun u v => u.bare = v.bare) unit unit where
  toKeepsUses := alike_keepsUses
  log := log_alike
  found w p alike := alike.unit_rel unit
  change w p f g alike := alike.onUnit
  symbols u v table same := by simp_all [UnitState.bare_eq_iff]
  entries u v names same := by simp_all [UnitState.bare_eq_iff]

/-- The text of a leaf is added to its unit in both, each under its label. -/
theorem addText_alike (label label' : String) (bindings : LeafBindings) (entries : List (String × String)) :
    Tracks Alike (addText unit label bindings entries) (addText unit label' bindings entries) := by
  refine .ofModify fun w p alike => ⟨rfl, alike.onUnit fun u v _ _ equal => ?_⟩
  simp_all [UnitState.bare_eq_iff, LeafText.unlabelled]

/-- A block is registered or found in both. -/
theorem bindBlock_alike (function block : String) (members : List Argument) (stage : Stage) :
    Tracks Alike (bindBlock table unit function block members stage) (bindBlock table unit function block members stage) := by
  unfold bindBlock
  dsimp only
  split
  case h_2 => exact .ofFailBind
  rename_i pool _
  refine (Tracks.ofPure pool).bind fun pool => ?_
  refine (alike_keepsUnit.keepsTypes.bindMembers block stage members pool).bind fun bound => .ofGet fun w p alike => ?_
  rw [alike.blocks_eq]
  split
  · split
    · refine Mirrors.bind (.ofSet fun _ _ _ => ?_) fun _ _ => .ofPure fun _ _ held => ⟨rfl, held⟩
      exact ⟨alike.usage_eq, rfl, alike.units_eq⟩
    · exact .ofFail
  · refine .pre ((log_alike _ _ _ _).bind fun _ => ?_) (by rintro _ _ ⟨rfl, rfl⟩; exact alike)
    refine Tracks.bind (modify_alike fun w p alike => ?_) fun _ => Tracks.ofPure _
    exact ⟨alike.usage_eq, congrArg (· ++ _) alike.blocks_eq, alike.units_eq⟩

theorem bindArgument_alike (job : EntryJob) (entry : String) (scan : ArgumentScan) (argument : Argument) :
    Tracks Alike (bindArgument table unit job entry scan argument) (bindArgument table unit job entry scan argument) := by
  unfold bindArgument
  dsimp only
  split
  · exact (bindBlock_alike _ _ _ _).bind fun _ => Tracks.ofPure _
  · exact (alike_keepsUnit.keepsTypes.bindPlain _ _ _ _ _).bind fun _ => Tracks.ofPure _

theorem bindArguments_alike (job : EntryJob) (entry : String) (scan : ArgumentScan) :
    Tracks Alike (bindArguments table unit job entry scan) (bindArguments table unit job entry scan) :=
  .foldlM (bindArgument_alike job entry) job.arguments scan

/-! ## Leaves -/

/-- Pinned numbers are claimed under any owner. -/
theorem reserve_alike (owner owner' : String) (arguments : List Argument) :
    Tracks Alike (ofExcept (IndexPool.reserve owner arguments)) (ofExcept (IndexPool.reserve owner' arguments)) := by
  intro w p alike pool w' run
  cases reserved : IndexPool.reserve owner arguments with
  | error error =>
    rw [reserved] at run
    exact (fail_ok run).elim
  | ok claimed =>
    rw [reserved] at run
    rw [IndexPool.reserve_owner reserved owner']
    exact Tracks.ofPure claimed w p alike pool w' run

theorem dispatch_alike (node : Dispatch) (label : String) :
    Tracks Alike (dispatch table caps unit node) (dispatch table caps unit { node with label }) := by
  unfold dispatch
  refine (Tracks.ofExcept _).bind fun job => ?_
  dsimp only
  split
  case h_2 => exact .ofFailBind
  rename_i resolved _
  refine (Tracks.ofPure resolved).bind fun resolved => (Tracks.ofExcept _).bind fun fixed => ?_
  refine (alike_keepsUnit.giveEntry job.name).bind fun entry => .logged (log_alike _ _ _ _) ?_
  refine (Tracks.ofExcept _).bind fun pool => (bindArguments_alike job entry _).bind fun scan => ?_
  refine (Tracks.patched _ _).bind fun code => ?_
  exact (addText_alike node.label label _ _).bind fun _ => Tracks.ofPure _

theorem drawEntry_alike (job : EntryJob) (pool : IndexPool) (bindings : LeafBindings) :
    Tracks Alike (drawEntry table unit job pool bindings) (drawEntry table unit job pool bindings) := by
  unfold drawEntry
  refine (alike_keepsUnit.giveEntry job.name).bind fun entry => (bindArguments_alike job entry _).bind fun scan => ?_
  exact (Tracks.patched _ _).bind fun code => Tracks.ofPure _

theorem draw_alike (node : Draw) (label : String) :
    Tracks Alike (draw table unit node) (draw table unit { node with label }) := by
  unfold draw
  dsimp only
  split
  · exact .ofFailBind
  refine (Tracks.ofExcept _).bind fun vertex => (Tracks.ofExcept _).bind fun fragment => ?_
  refine (reserve_alike node.label label _).bind fun pool => ?_
  refine (drawEntry_alike vertex _ _).bind fun first => (drawEntry_alike fragment _ _).bind fun second => ?_
  refine (alike_keepsUses.drawResources label node).bind fun _ => ?_
  exact (addText_alike node.label label _ _).bind fun _ => Tracks.ofPure _

/-- A leaf compiles under any label, and to the same. -/
theorem leaf_alike (node : Leaf) (label : String) :
    Tracks Alike (leaf table caps unit node) (leaf table caps unit (node.relabel label)) := by
  cases node with
  | dispatch node => exact (dispatch_alike node label).bind fun _ => Tracks.ofPure _
  | draw node => exact (draw_alike node label).bind fun _ => Tracks.ofPure _
  | blit node => exact (alike_keepsUses.blit label node).bind fun _ => Tracks.ofPure _
  | filter node => exact (alike_keepsUses.filter label node).bind fun _ => Tracks.ofPure _
  | callback node => exact Tracks.ofPure _

theorem flatLeaf_alike {one other : FlatLeaf} (same : one.unit = other.unit ∧ one.node.unlabelled = other.node.unlabelled) :
    Tracks Alike (flatLeaf table caps one) (flatLeaf table caps other) := by
  unfold flatLeaf
  rw [Leaf.relabel_of_unlabelled same.2, same.1]
  exact (leaf_alike one.node _).bind fun _ => (log_alike _ _ _ _).bind fun _ => Tracks.ofPure _

/-! ## Runs -/

theorem startState_alike {one other : Program} (same : one.unlabelled = other.unlabelled) :
    Alike (startState one) (startState other) where
  usage_eq := rfl
  blocks_eq := rfl
  units_eq := by
    have libraries := congrArg (fun flat => flat.units.map (UnitState.bare ∘ UnitState.start))
      (Flattened.ofProgram_unlabelled same)
    simpa [startState, Flattened.unlabelled, UnitState.start, UnitState.bare, Function.comp_def] using libraries

/-- Where the leaves of a program compile, they do so under other labels, and to the same. -/
theorem runLeaves_alike {one other : Program} (same : one.unlabelled = other.unlabelled) {leaves : List CompiledLeaf}
    {state : CompileState} (run : runLeaves table caps one = .ok (leaves, state)) :
    ∃ state', runLeaves table caps other = .ok (leaves, state') ∧ Alike state state' := by
  have each : List.Forall₂ (fun x y : FlatLeaf => x.unit = y.unit ∧ x.node.unlabelled = y.node.unlabelled)
      (Flattened.ofProgram one).leaves (Flattened.ofProgram other).leaves := by
    have lists := congrArg Flattened.leaves (Flattened.ofProgram_unlabelled same)
    rw [Flattened.unlabelled, Flattened.unlabelled, ← List.forall₂_eq_eq_eq, List.forall₂_map_left_iff,
      List.forall₂_map_right_iff] at lists
    exact lists.imp fun x y equal => by simpa using equal
  obtain ⟨_, state', ran, rfl, alike⟩ :=
    Tracks.mapM each (fun _ _ => flatLeaf_alike) _ _ (startState_alike same) leaves state run
  exact ⟨state', ran, alike⟩

end Compile

/-! ## Finished units -/

/-- Two units that are the same but for their labels and the labels of their leaves. -/
structure CompiledUnit.Relabels (one other : CompiledUnit) : Prop where
  entries_eq : other.entries = one.entries
  records_eq : other.records = one.records
  leaves_eq : other.leaves.map (·.entries) = one.leaves.map (·.entries)
  sources : ∃ head : String, one.source = head ++ String.join (one.leaves.map LeafText.text) ∧
    other.source = head ++ String.join (other.leaves.map LeafText.text)

namespace Compile

theorem finish_relabels {u v : UnitState} (same : u.bare = v.bare) {unit : CompiledUnit} (done : u.finish = .ok unit) :
    ∃ unit', v.finish = .ok unit' ∧ unit.Relabels unit' := by
  obtain ⟨library, symbols, leaves, entries⟩ := UnitState.bare_eq_iff.mp same
  obtain ⟨source, text, done⟩ := bind_eq_ok done
  cases done
  obtain ⟨records, declared, text⟩ := bind_eq_ok text
  cases text
  rw [UnitState.finish, UnitState.source, ← symbols, declared, ← library, ← entries]
  refine ⟨_, rfl, rfl, rfl, ?_, _, rfl, rfl⟩
  have lists := congrArg (List.map LeafText.entries) leaves.symm
  rw [List.map_map, List.map_map] at lists
  exact lists

theorem finishUnits_relabels {units units' : List UnitState} (same : units.map UnitState.bare = units'.map UnitState.bare)
    {finished : List CompiledUnit} (done : finishUnits units = .ok finished) :
    ∃ finished', finishUnits units' = .ok finished' ∧ List.Forall₂ CompiledUnit.Relabels finished finished' := by
  rw [← List.forall₂_eq_eq_eq, List.forall₂_map_left_iff, List.forall₂_map_right_iff] at same
  induction same generalizing finished with
  | nil =>
    cases done
    exact ⟨[], rfl, .nil⟩
  | @cons u v units units' first _ ih =>
    rw [finishUnits] at done
    split at done
    · cases done
    · rename_i unit finish
      obtain ⟨others, more, done⟩ := bind_eq_ok done
      cases done
      obtain ⟨unit', finish', relabels⟩ := finish_relabels first finish
      obtain ⟨others', more', all⟩ := ih more
      refine ⟨unit' :: others', ?_, .cons relabels all⟩
      rw [finishUnits, finish', more']
      rfl

end Compile

/-- A program that compiles does so under any labels. -/
theorem Program.compile_relabels {table : ResourceTable} {caps : DeviceCaps} {one other : Program}
    {program : CompiledProgram} {log : List LogLine} (compiled : one.compile table caps = .ok (program, log))
    (same : one.unlabelled = other.unlabelled) :
    ∃ program' log', other.compile table caps = .ok (program', log') ∧ program'.leaves = program.leaves ∧
      program'.usage = program.usage ∧ program'.blocks = program.blocks ∧
      List.Forall₂ CompiledUnit.Relabels program.units program'.units := by
  obtain ⟨leaves, state, units, run, finished, rfl⟩ := Program.compile_eq_ok compiled
  obtain ⟨state', ran, alike⟩ := Compile.runLeaves_alike same run
  obtain ⟨units', finished', all⟩ := Compile.finishUnits_relabels alike.units_eq finished
  refine ⟨_, _, Compile.compile_of ran finished', rfl, alike.usage_eq.symm, ?_, all⟩
  dsimp only
  rw [alike.blocks_eq]

end FrameGraph
