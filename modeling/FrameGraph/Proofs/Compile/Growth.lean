import FrameGraph.Compile.Arguments
import FrameGraph.Proofs.Compile.Usage

/-! # How the state of a compile grows

No step forgets a use, an entry name or a registered block; a block that is referred to again is only seen
by more stages. Only a finished leaf adds text. A step that succeeds is a sequence of steps that all succeeded, and of
each of the small steps it is told what it does when it succeeds.
-/

namespace FrameGraph

namespace Compile

variable {α β γ : Type} {state after : CompileState}

theorem bind_ok {S E : Type} {start last : S} {step : StateT S (Except E) α}
    {next : α → StateT S (Except E) β} {b : β} (run : (step >>= next).run start = .ok (b, last)) :
    ∃ a middle, step.run start = .ok (a, middle) ∧ (next a).run middle = .ok (b, last) := by
  rw [StateT.run_bind] at run
  cases first : step.run start with
  | error error =>
    rw [first] at run
    cases run
  | ok result =>
    rw [first] at run
    exact ⟨result.1, result.2, rfl, run⟩

theorem pure_ok {a b : α} (run : (pure a : Compile α).run state = .ok (b, after)) :
    a = b ∧ state = after := by
  cases run
  exact ⟨rfl, rfl⟩

theorem pure_bind_ok {a : α} {next : α → Compile β} {b : β}
    (run : (pure a >>= next).run state = .ok (b, after)) : (next a).run state = .ok (b, after) := run

theorem get_bind_ok {next : CompileState → Compile β} {b : β}
    (run : (get >>= next).run state = .ok (b, after)) : (next state).run state = .ok (b, after) := run

theorem set_ok {next : CompileState} {b : PUnit} (run : (set next : Compile PUnit).run state = .ok (b, after)) :
    after = next := by
  cases run
  rfl

theorem modify_ok {change : CompileState → CompileState} {b : PUnit}
    (run : (modify change : Compile PUnit).run state = .ok (b, after)) : after = change state := by
  cases run
  rfl

theorem fail_ok {error : CompileError} {a : α} (run : (fail error : Compile α).run state = .ok (a, after)) :
    False := by
  cases run

/-- Every turn of a loop succeeded, and what each turn achieves holds for all of them. -/
theorem forM_ok {inv : CompileState → Prop} {f : γ → Compile PUnit} {xs : List γ} {b : PUnit}
    (turn : ∀ x ∈ xs, ∀ s s' u, inv s → (f x).run s = .ok (u, s') → inv s') (holds : inv state)
    (run : (xs.forM f).run state = .ok (b, after)) : inv after := by
  induction xs generalizing state with
  | nil => exact (pure_ok run).2 ▸ holds
  | cons x rest ih =>
    obtain ⟨_, middle, first, others⟩ := bind_ok run
    exact ih (fun y found => turn y (List.mem_cons_of_mem _ found))
      (turn x List.mem_cons_self _ _ _ holds first) others

end Compile

/-- The pass itself feeds the binding: it uploads to the block behind it. -/
def BindingSource.isFed : BindingSource → Bool
  | .bytes _ | .gridExtent => true
  | .buffer _ | .texture _ => false

/-- What the source reads is recorded. -/
def BindingSource.RecordedIn (usage : ResourceUsage) : BindingSource → Prop
  | .buffer handle => usage.Uses (.buffer handle)
  | .texture handle => usage.Uses (.texture handle)
  | .bytes _ | .gridExtent => True

theorem BindingSource.RecordedIn.mono {usage more : ResourceUsage} {source : BindingSource}
    (recorded : source.RecordedIn usage) (grows : ∀ handle, usage.Uses handle → more.Uses handle) :
    source.RecordedIn more := by
  cases source with
  | buffer handle => exact grows (.buffer handle) recorded
  | texture handle => exact grows (.texture handle) recorded
  | bytes _ => trivial
  | gridExtent => trivial

/-- What the argument binds is recorded. -/
def ArgumentKind.RecordedIn (usage : ResourceUsage) : ArgumentKind → Prop
  | .buffer handle _ => usage.Uses (.buffer handle)
  | .texture handle _ => usage.Uses (.texture handle)
  | .bytes _ | .block .. => True

theorem ArgumentKind.RecordedIn.mono {usage more : ResourceUsage} {kind : ArgumentKind}
    (recorded : kind.RecordedIn usage) (grows : ∀ handle, usage.Uses handle → more.Uses handle) :
    kind.RecordedIn more := by
  cases kind with
  | buffer handle _ => exact grows (.buffer handle) recorded
  | texture handle _ => exact grows (.texture handle) recorded
  | bytes _ => trivial
  | block _ _ => trivial

theorem ArgumentKind.RecordedIn.texture {usage : ResourceUsage} {kind : ArgumentKind} {handle : TextureHandle}
    (recorded : kind.RecordedIn usage) (picked : kind.texture? = some handle) : usage.Uses (.texture handle) := by
  cases kind <;> cases picked
  exact recorded

theorem ArgumentKind.RecordedIn.buffer {usage : ResourceUsage} {kind : ArgumentKind} {handle : BufferHandle}
    (recorded : kind.RecordedIn usage) (picked : kind.buffer? = some handle) : usage.Uses (.buffer handle) := by
  cases kind <;> cases picked
  exact recorded

/-- The variable class that a binding of this kind is declared with. -/
def BindingKind.var : BindingKind → VarClass
  | .uniform => .uniform
  | .storage true => .storageRead
  | .storage false => .storageReadWrite
  | .texture .. | .storageTexture .. => .handle

theorem BindingKind.var_storage (readOnly : Bool) :
    (if readOnly then VarClass.storageRead else .storageReadWrite) = (BindingKind.storage readOnly).var := by
  cases readOnly <;> rfl

/-- The binding without the stages that see it. -/
def BindingSpec.unseen (spec : BindingSpec) : BindingSpec :=
  { spec with entry := { spec.entry with visibility := {} } }

namespace BoundVariable

/-- The variable's class is that of its binding, and what it reads is recorded. -/
structure Sane (usage : ResourceUsage) (bound : BoundVariable) : Prop where
  var_eq : bound.var = bound.spec.entry.kind.var
  recorded : bound.spec.source.RecordedIn usage

theorem Sane.mono {usage more : ResourceUsage} {bound : BoundVariable} (sane : bound.Sane usage)
    (grows : ∀ handle, usage.Uses handle → more.Uses handle) : bound.Sane more :=
  ⟨sane.var_eq, sane.recorded.mono grows⟩

/-- The variable without the stages that see it. -/
def unseen (bound : BoundVariable) : BoundVariable := { bound with spec := bound.spec.unseen }

theorem name_unseen (bound : BoundVariable) : bound.unseen.spec.name = bound.spec.name := rfl

end BoundVariable

namespace CompileState

/-- What holds of the state at all times. -/
structure Sane (state : CompileState) : Prop where
  names : (state.blocks.map (·.name)).Nodup
  group_eq : ∀ block ∈ state.blocks, block.group = GroupSpec.sorted (block.members.map (·.spec))
  members : ∀ block ∈ state.blocks, ∀ member ∈ block.members, member.Sane state.usage
  unfed : ∀ block ∈ state.blocks, ∀ member ∈ block.members, ¬member.spec.source.isFed

/-- The text that a unit has so far. -/
def texts (state : CompileState) (unit : Nat) : List LeafText :=
  (state.units[unit]?.map (·.leaves)).getD []

/-- The same block, perhaps seen by other stages. -/
structure SameBlock (before after : RegisteredBlock) : Prop where
  name_eq : after.name = before.name
  members_eq : after.members.map (·.unseen) = before.members.map (·.unseen)

/-- What a step of compiling may do to the state. -/
structure Evolves (before after : CompileState) : Prop where
  usage : ∀ handle, before.usage.Uses handle → after.usage.Uses handle
  block : ∀ (place : Nat) block, before.blocks[place]? = some block →
    ∃ later, after.blocks[place]? = some later ∧ SameBlock block later
  entries : ∀ (unit : Nat) early, before.units[unit]? = some early →
    ∃ later, after.units[unit]? = some later ∧ early.entries ⊆ later.entries ∧
      later.label = early.label ∧ later.library = early.library
  units : after.units.length = before.units.length
  sane : before.Sane → after.Sane

namespace Evolves

variable {first middle last : CompileState}

theorem refl (state : CompileState) : Evolves state state :=
  ⟨fun _ => id, fun _ block found => ⟨block, found, rfl, rfl⟩,
    fun _ unit found => ⟨unit, found, List.Subset.refl _, rfl, rfl⟩, rfl, id⟩

theorem trans (one : Evolves first middle) (two : Evolves middle last) : Evolves first last where
  usage handle used := two.usage handle (one.usage handle used)
  block place block found := by
    obtain ⟨mid, there, same⟩ := one.block place block found
    obtain ⟨late, here, again⟩ := two.block place mid there
    exact ⟨late, here, again.name_eq.trans same.name_eq, again.members_eq.trans same.members_eq⟩
  entries unit early found := by
    obtain ⟨mid, there, sub, label, library⟩ := one.entries unit early found
    obtain ⟨late, here, more, label', library'⟩ := two.entries unit mid there
    exact ⟨late, here, List.Subset.trans sub more, label'.trans label, library'.trans library⟩
  units := two.units.trans one.units
  sane held := two.sane (one.sane held)

end Evolves

/-- A step that adds no text. -/
structure Grows (before after : CompileState) : Prop extends Evolves before after where
  texts_eq : after.texts = before.texts

namespace Grows

variable {first middle last state : CompileState}

theorem refl (state : CompileState) : Grows state state := ⟨.refl state, rfl⟩

theorem trans (one : Grows first middle) (two : Grows middle last) : Grows first last :=
  ⟨one.toEvolves.trans two.toEvolves, two.texts_eq.trans one.texts_eq⟩

/-- More uses. -/
theorem ofUsage {usage : ResourceUsage} (more : ∀ handle, state.usage.Uses handle → usage.Uses handle) :
    Grows state { state with usage } where
  usage := more
  block _ block found := ⟨block, found, rfl, rfl⟩
  entries _ unit found := ⟨unit, found, List.Subset.refl _, rfl, rfl⟩
  units := rfl
  sane held := ⟨held.names, held.group_eq, fun block found member has =>
    (held.members block found member has).mono more, held.unfed⟩
  texts_eq := rfl

theorem ofLog (log : List LogLine) : Grows state { state with log } where
  usage _ := id
  block _ block found := ⟨block, found, rfl, rfl⟩
  entries _ unit found := ⟨unit, found, List.Subset.refl _, rfl, rfl⟩
  units := rfl
  sane held := ⟨held.names, held.group_eq, held.members, held.unfed⟩
  texts_eq := rfl

/-- A change of a unit that keeps its entry names and its text. -/
theorem ofUnit (unit : Nat) {change : UnitState → UnitState}
    (kept : ∀ early, state.units[unit]? = some early → early.entries ⊆ (change early).entries ∧
      (change early).label = early.label ∧ (change early).library = early.library ∧
      (change early).leaves = early.leaves) :
    Grows state { state with units := state.units.modify unit change } where
  usage _ := id
  block _ block found := ⟨block, found, rfl, rfl⟩
  entries other early found := by
    simp only [List.getElem?_modify, found]
    split
    · rename_i same
      subst same
      obtain ⟨sub, label, library, -⟩ := kept early found
      exact ⟨_, rfl, sub, label, library⟩
    · exact ⟨_, rfl, List.Subset.refl _, rfl, rfl⟩
  units := List.length_modify _ _ _
  sane held := ⟨held.names, held.group_eq, held.members, held.unfed⟩
  texts_eq := by
    funext other
    simp only [texts, List.getElem?_modify]
    cases found : state.units[other]? with
    | none => rfl
    | some early =>
      by_cases same : unit = other
      · subst same
        simp [(kept early found).2.2.2]
      · simp [same]

end Grows

end CompileState

/-! ## The small steps -/

namespace Naming

theorem numbered_injective (name : String) {m n : Nat} (same : numbered name m = numbered name n) : m = n := by
  have digits : toString m = toString n := (String.append_right_inj _).mp same
  rw [Nat.toString_eq_ofList_toDigits, Nat.toString_eq_ofList_toDigits, String.ofList_inj] at digits
  rw [← Nat.ofDigitChars_toDigits (by decide : 1 < 10) (by decide) (n := m), digits,
    Nat.ofDigitChars_toDigits (by decide) (by decide)]

/-- The search ends at the first number whose name is free. -/
theorem freshFrom_eq (name : String) (taken : List String) (n : Nat) :
    ∃ m ≥ n, freshFrom name taken n = numbered name m ∧ numbered name m ∉ taken ∧
      ∀ k, n ≤ k → k < m → numbered name k ∈ taken := by
  fun_induction freshFrom name taken n with
  | case1 taken n found ih =>
    obtain ⟨m, above, result, free, passed⟩ := ih
    have other : numbered name m ≠ numbered name n := fun same => by
      have := numbered_injective name same
      omega
    refine ⟨m, by omega, result, fun held => free ((List.mem_erase_of_ne other).mpr held), fun k first below => ?_⟩
    by_cases here : k = n
    · exact here ▸ found
    · exact List.mem_of_mem_erase (passed k (by omega) below)
  | case2 taken n free => exact ⟨n, Nat.le_refl n, rfl, free, fun k first below => by omega⟩

theorem fresh_not_mem (name : String) (taken : List String) : fresh name taken ∉ taken := by
  unfold fresh
  split
  · obtain ⟨m, -, result, free, -⟩ := freshFrom_eq name taken 1
    rwa [result]
  · assumption

end Naming

namespace Compile

variable {state after : CompileState} {unit : Nat} {table : ResourceTable}

open CompileState (Grows)

theorem log_ok {level : LogLevel} {source : LogSource} {text : String} {u : Unit}
    (run : (log level source text).run state = .ok (u, after)) : Grows state after := by
  rw [modify_ok run]
  exact .ofLog _

theorem useTexture_ok {handle : TextureHandle} {use : TextureUsage} {u : Unit}
    (run : (useTexture handle use).run state = .ok (u, after)) :
    Grows state after ∧ after.usage.Uses (.texture handle) := by
  rw [modify_ok run]
  have uses := ResourceUsage.uses_texture state.usage handle use
  exact ⟨.ofUsage fun other used => (uses other).mpr (.inr used), (uses _).mpr (.inl rfl)⟩

theorem useBuffer_ok {handle : BufferHandle} {use : BufferUsage} {u : Unit}
    (run : (useBuffer handle use).run state = .ok (u, after)) :
    Grows state after ∧ after.usage.Uses (.buffer handle) := by
  rw [modify_ok run]
  have uses := ResourceUsage.uses_buffer state.usage handle use
  exact ⟨.ofUsage fun other used => (uses other).mpr (.inr used), (uses _).mpr (.inl rfl)⟩

theorem textureDecl_ok {function : String} {handle : TextureHandle} {decl : TextureDecl}
    (run : (textureDecl table function handle).run state = .ok (decl, after)) : state = after := by
  unfold textureDecl at run
  split at run
  · exact (pure_ok run).2
  · exact (fail_ok run).elim

theorem bufferDecl_ok {function : String} {handle : BufferHandle} {decl : BufferDecl}
    (run : (bufferDecl table function handle).run state = .ok (decl, after)) : state = after := by
  unfold bufferDecl at run
  split at run
  · exact (pure_ok run).2
  · exact (fail_ok run).elim

theorem typeName_ok {type : ShaderType} {name : String}
    (run : (typeName unit type).run state = .ok (name, after)) : Grows state after := by
  obtain ⟨_, declared, changed, run⟩ := bind_ok (get_bind_ok run)
  obtain ⟨_, logged, traced, run⟩ := bind_ok run
  have grown : Grows state declared := by
    rw [modify_ok changed]
    exact .ofUnit unit fun _ _ => ⟨List.Subset.refl _, rfl, rfl, rfl⟩
  have grown : Grows state logged := forM_ok (fun _ _ _ _ _ held step => held.trans (log_ok step)) grown traced
  split at run
  · exact (fail_ok run).elim
  · exact (fail_ok run).elim
  · exact (pure_ok run).2 ▸ grown

/-- A given entry name is one that its unit did not have and has now. -/
theorem giveEntry_ok {name entry : String} (run : (giveEntry unit name).run state = .ok (entry, after)) :
    Grows state after ∧ ∀ early, state.units[unit]? = some early →
      entry ∉ early.entries ∧ ∃ later, after.units[unit]? = some later ∧ entry ∈ later.entries := by
  have run := get_bind_ok run
  split at run
  · rename_i absent
    obtain ⟨-, rfl⟩ := pure_ok run
    exact ⟨.refl _, fun early found => by simp [absent] at found⟩
  · rename_i u found
    obtain ⟨_, middle, changed, run⟩ := bind_ok run
    obtain ⟨rfl, rfl⟩ := pure_ok run
    rw [modify_ok changed]
    refine ⟨.ofUnit unit fun early here => ?_, fun early here => ?_⟩
    · cases found.symm.trans here
      exact ⟨List.subset_append_left _ _, rfl, rfl, rfl⟩
    · cases found.symm.trans here
      refine ⟨Naming.fresh_not_mem name _, (u.giveEntry name).2, ?_, ?_⟩
      · simp [found, UnitState.giveEntry]
      · exact List.mem_append_right _ (.head _)

end Compile

end FrameGraph
