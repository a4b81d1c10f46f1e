import FrameGraph.Pass.Bind
import FrameGraph.Proofs.Effect

/-! # Rules for bind groups

A bind group is looked up or created, at a group number of a pass or for an argument block. What is asserted of the
result has to hold of the one that is kept, and of the one that is created once it is stored.
-/

namespace FrameGraph

variable {σ : Type} [Device σ]

/-- A group that is kept has the stamp of the pool, and a new one is created only when none has. -/
theorem Session.blockGroup_rule {before : Session σ → Prop} {ok : BindGroup → Session σ → Prop}
    {failed : PassError → Session σ → Prop} (place : Nat) (pool : Pool)
    (absent : ∀ session, before session → session.compiled.blocks[place]? = none →
      failed (.unbound s!"argument buffer #{place}") session)
    (kept : ∀ session block bound, before session → session.compiled.blocks[place]? = some block →
      session.blockGroups[place]? = some (some bound) → bound.stamp = block.group.stamp pool → ok bound.group session)
    (created : ∀ session block, before session → session.compiled.blocks[place]? = some block →
      (∀ old : BoundGroup, session.blockGroups[place]? = some (some old) → old.stamp ≠ block.group.stamp pool) →
      ∃ held : Session σ → Prop,
        Effect.Ensures (· = session) (Session.note .debug .frame s!"binding argument buffer '{block.name}'")
          (fun _ => held) failed ∧
        Effect.Ensures held (block.group.create block.name pool [] none)
          (fun bound now => ok bound.group { now with blockGroups := now.blockGroups.set place (some bound) }) failed) :
    Effect.Ensures before (Session.blockGroup place pool) ok failed := by
  refine .ofGet fun session held => .ofNeed (fun block found => ?_) fun none _ here => here ▸ absent session held none
  dsimp only
  split
  · rename_i bound current
    obtain ⟨stored, fresh⟩ := Option.filter_eq_some_iff.mp current
    refine .ofPure ?_
    rintro _ rfl
    exact kept _ block bound held found (Option.join_eq_some_iff.mp stored) (beq_iff_eq.mp fresh)
  · rename_i missed
    have stale (old : BoundGroup) (stored : session.blockGroups[place]? = some (some old)) :
        old.stamp ≠ block.group.stamp pool := by
      intro fresh
      rw [stored, Option.join_some, Option.filter_eq_none_iff] at missed
      exact missed old rfl (beq_iff_eq.mpr fresh)
    obtain ⟨_, noted, creates⟩ := created session block held found stale
    refine noted.bind fun _ => creates.bind fun bound => ?_
    exact .bind (.ofModify fun _ stored => stored) fun _ => .ofPure fun _ => id

/-- The same of a group number of a pass itself, whose uniform blocks the new group may refer to. -/
theorem Bindings.ownGroup_rule {before : Bindings → Session σ → Prop}
    {ok : BindGroup → Bindings → Session σ → Prop} {failed : PassError → Bindings → Session σ → Prop} (place : Nat)
    (group : GroupSpec) (view : PassView)
    (kept : ∀ bindings session bound, before bindings session → bindings.own[place]? = some (some bound) →
      bound.stamp = group.stamp view.pool → ok bound.group bindings session)
    (created : ∀ bindings session, before bindings session → ∃ made : BoundGroup → Session σ → Prop,
      Effect.Ensures (· = session)
        (group.create bindings.label view.pool bindings.bytesBuffers bindings.gridBuffer) made
        (fun error => failed error bindings) ∧
      (∀ bound text, Effect.Ensures (made bound) (Session.note .debug .pass text) (fun _ => made bound)
        fun error => failed error bindings) ∧
      ∀ bound now, made bound now → ok bound.group { bindings with own := bindings.own.set place (some bound) } now) :
    PartEffect.Ensures before (ownGroup place group view) ok failed := by
  refine .ofGet fun bindings session held => ?_
  dsimp only
  split
  · rename_i bound current
    obtain ⟨stored, fresh⟩ := Option.filter_eq_some_iff.mp current
    refine .ofPure ?_
    rintro _ _ ⟨rfl, rfl⟩
    exact kept _ _ bound held (Option.join_eq_some_iff.mp stored) (beq_iff_eq.mp fresh)
  · obtain ⟨made, creates, noting, stores⟩ := created bindings session held
    have apart {α : Type} {start : Session σ → Prop} {effect : SessionM σ α} {done : α → Session σ → Prop}
        (ensured : Effect.Ensures start effect done fun error => failed error bindings) :
        PartEffect.Ensures (fun part now => part = bindings ∧ start now) (PartEffect.around effect)
          (fun a part now => part = bindings ∧ done a now) failed := by
      refine .around fun part => .given fun same => ?_
      subst same
      exact ensured.mono (fun _ _ => .intro rfl) fun _ _ => id
    have stored (bound : BoundGroup) : PartEffect.Ensures (fun part now => part = bindings ∧ made bound now)
        (do
          modify fun bindings : Bindings => { bindings with own := bindings.own.set place (some bound) }
          return bound.group) ok failed := by
      refine .bind (.ofModify ?_) fun _ => .ofPure fun _ _ => id
      rintro _ now ⟨rfl, done⟩
      exact stores bound now done
    refine (apart creates).bind fun bound => ?_
    exact .ofIf (fun _ => (apart (noting bound _)).bind fun _ => stored bound) fun _ => stored bound

end FrameGraph
