import FrameGraph.Compile.EntryJob
import FrameGraph.Proofs.Compile.Growth

/-! # Bound arguments

What a bound argument comes to: its use is recorded, its variable is named after it and has the class of
its binding. The variables of a block are those of its first use.
-/

namespace FrameGraph.Compile

variable {state after : CompileState} {table : ResourceTable} {unit : Nat}

open CompileState (Grows)

/-- Every texture argument binds a texture variable. -/
theorem textureBinding_ok {function : String} {handle : TextureHandle} {access : TextureAccess}
    {binding : TextureBinding} (run : (textureBinding table function handle access).run state = .ok (binding, after)) :
    state = after ∧ binding.kind.var = .handle := by
  obtain ⟨decl, middle, declared, run⟩ := bind_ok run
  cases textureDecl_ok declared
  split at run
  · obtain ⟨rfl, rfl⟩ := pure_ok run
    exact ⟨rfl, rfl⟩
  · split at run
    · exact (fail_ok run).elim
    · split at run
      · exact (fail_ok run).elim
      · obtain ⟨rfl, rfl⟩ := pure_ok run
        exact ⟨rfl, rfl⟩

/-- An argument that is no block brings its own name. -/
theorem argumentNames_plain {argument : Argument} (plain : ∀ name members, argument.kind ≠ .block name members) :
    EntryJob.argumentNames argument = [argument.name] := by
  cases is : argument.kind with
  | block name members => exact absurd is (plain name members)
  | _ => simp only [EntryJob.argumentNames, is]

/-- What an argument that is no block comes to. -/
structure Bound (argument : Argument) (usage : ResourceUsage) (bound : BoundVariable) : Prop
    extends bound.Sane usage where
  name_eq : bound.spec.name = argument.name
  kind : argument.kind.RecordedIn usage
  source_ne : bound.spec.source ≠ .gridExtent
  fed : bound.spec.source.isFed → ∃ source, argument.kind = .bytes source

/-- A type that the caller gives is not spelled. -/
theorem spelled_ok {β : Type} {given : Option String} {type : ShaderType} {next : String → Compile β} {b : β}
    (run : (match given with
      | some _ => do
        let element ← pure ""
        next element
      | none => do
        let element ← typeName unit type
        next element).run state = .ok (b, after)) :
    ∃ element middle, Grows state middle ∧ (next element).run middle = .ok (b, after) := by
  cases given with
  | some _ => exact ⟨"", state, .refl state, run⟩
  | none =>
    obtain ⟨element, middle, named, run⟩ := bind_ok run
    exact ⟨element, middle, typeName_ok named, run⟩

theorem bindBuffer_ok {middle : CompileState} {argument : Argument} {handle : BufferHandle}
    {space : BufferSpace} {use : BufferUsage} {made bound : BoundVariable} {bytes more : List BytesSlot}
    (kind : argument.kind = .buffer handle space) (name_eq : made.spec.name = argument.name)
    (var_eq : made.var = made.spec.entry.kind.var) (source : made.spec.source = .buffer handle)
    (grown : Grows state middle)
    (run : (do
      useBuffer handle use
      return (made, bytes)).run middle = .ok ((bound, more), after)) :
    Grows state after ∧ Bound argument after.usage bound := by
  obtain ⟨_, _, used, run⟩ := bind_ok run
  obtain ⟨⟨⟩, rfl⟩ := pure_ok run
  obtain ⟨more, uses⟩ := useBuffer_ok used
  refine ⟨grown.trans more, ⟨var_eq, source ▸ uses⟩, name_eq, kind ▸ uses, by simp [source], fun fed => ?_⟩
  simp [source, BindingSource.isFed] at fed

theorem bindPlain_ok {function : String} {argument : Argument} {binding : Nat} {stage : Stage}
    {bytes more : List BytesSlot} {bound : BoundVariable}
    (run : (bindPlain table unit function argument binding stage bytes).run state = .ok ((bound, more), after)) :
    Grows state after ∧ Bound argument after.usage bound := by
  unfold bindPlain at run
  dsimp only at run
  split at run
  · rename_i handle space kind
    obtain ⟨decl, middle, declared, run⟩ := bind_ok run
    cases bufferDecl_ok declared
    obtain ⟨element, middle, grown, run⟩ := spelled_ok run
    split at run
    · exact bindBuffer_ok kind rfl rfl rfl grown run
    · exact bindBuffer_ok kind rfl (BindingKind.var_storage _) rfl grown run
  · rename_i source kind
    obtain ⟨element, middle, grown, run⟩ := spelled_ok run
    obtain ⟨⟨⟩, rfl⟩ := pure_ok run
    exact ⟨grown, ⟨rfl, trivial⟩, rfl, kind ▸ trivial, nofun, fun _ => ⟨source, kind⟩⟩
  · rename_i handle access kind
    obtain ⟨texture, middle, chosen, run⟩ := bind_ok run
    obtain ⟨rfl, var⟩ := textureBinding_ok chosen
    obtain ⟨_, _, used, run⟩ := bind_ok run
    obtain ⟨⟨⟩, rfl⟩ := pure_ok run
    obtain ⟨grown, uses⟩ := useTexture_ok used
    exact ⟨grown, ⟨var.symm, uses⟩, rfl, kind ▸ uses, nofun, nofun⟩
  · exact (fail_ok run).elim

/-- The members of a block come to sane variables of their names, none of which is fed. -/
theorem bindMembers_ok {block : String} {stage : Stage} {pool : IndexPool} {members : List Argument}
    {bound : List BoundVariable}
    (run : (bindMembers table unit block stage pool members).run state = .ok (bound, after)) :
    Grows state after ∧ bound.map (·.spec.name) = members.map (·.name) ∧ (∀ b ∈ bound, b.Sane after.usage) ∧
      ∀ b ∈ bound, ¬b.spec.source.isFed := by
  induction members generalizing pool state bound with
  | nil =>
    rw [bindMembers] at run
    obtain ⟨rfl, rfl⟩ := pure_ok run
    exact ⟨.refl _, rfl, List.forall_mem_nil _, List.forall_mem_nil _⟩
  | cons member rest ih =>
    rw [bindMembers] at run
    split at run
    · exact (fail_ok run).elim
    · exact (fail_ok run).elim
    all_goals
      rename_i kind
      obtain ⟨⟨first, _⟩, middle, one, run⟩ := bind_ok run
      obtain ⟨others, _, more, run⟩ := bind_ok run
      obtain ⟨rfl, rfl⟩ := pure_ok run
      obtain ⟨grown, bound⟩ := bindPlain_ok one
      obtain ⟨grows, names, sane, unfed⟩ := ih more
      refine ⟨grown.trans grows, by simp [names, bound.name_eq], ?_, ?_⟩
      · rw [List.forall_mem_cons]
        exact ⟨bound.toSane.mono grows.usage, sane⟩
      · refine List.forall_mem_cons.mpr ⟨fun fed => ?_, unfed⟩
        obtain ⟨source, bytes⟩ := bound.fed fed
        cases kind.symm.trans bytes

end FrameGraph.Compile
