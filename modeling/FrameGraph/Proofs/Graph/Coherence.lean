import FrameGraph.Proofs.Graph.Build
import FrameGraph.Proofs.Graph.History

/-! # Coherence with the surface

A frame that is encoded finds every resource that depends on the surface allocated for it, but for those
that a failed call at another surface has left behind: a setup that is tried again skips what the failed
one created, and an encoding at the recorded surface does not look at what a failed resize replaced.
-/

namespace FrameGraph

namespace Graph

variable {σ : Type}

/-- What is allocated for a resource of a graph. -/
abbrev allocation? (graph : Graph σ) (handle : ResourceHandle) : Option (TextureSlot ⊕ BufferSlot) :=
  graph.session.pool.allocation? handle

variable [Device σ]

/-- A call that failed at a surface made the allocation that a resource has after all calls. -/
def LeftBy (graph : Graph σ) (calls : List (Call σ)) (surface : Surface) (handle : ResourceHandle) : Prop :=
  ∃ earlier call later, calls = earlier ++ call :: later ∧ call.surface? = some surface ∧
    call.Fails (graph.after earlier) ∧
    (call.next (graph.after earlier)).allocation? handle ≠ (graph.after earlier).allocation? handle ∧
    (graph.after calls).allocation? handle = (call.next (graph.after earlier)).allocation? handle

variable {graph : Graph σ} {calls : List (Call σ)} {call : Call σ} {surface : Surface}
  {handle : ResourceHandle}

theorem after_snoc (graph : Graph σ) (calls : List (Call σ)) (call : Call σ) :
    graph.after (calls ++ [call]) = call.next (graph.after calls) := graph.after_append calls [call]

/-- What was left behind stays so as long as its allocation is not replaced. -/
theorem LeftBy.stay (left : graph.LeftBy calls surface handle)
    (same : (call.next (graph.after calls)).allocation? handle = (graph.after calls).allocation? handle) :
    graph.LeftBy (calls ++ [call]) surface handle := by
  obtain ⟨earlier, failed, later, rfl, made, fails, changed, since⟩ := left
  refine ⟨earlier, failed, later ++ [call], by simp, made, fails, changed, ?_⟩
  rw [after_snoc, same, since]

/-- A call that fails leaves behind what it changed. -/
theorem LeftBy.fail (made : call.surface? = some surface) (fails : call.Fails (graph.after calls))
    (changed : (call.next (graph.after calls)).allocation? handle ≠ (graph.after calls).allocation? handle) :
    graph.LeftBy (calls ++ [call]) surface handle :=
  ⟨calls, call, [], rfl, made, fails, changed, by rw [after_snoc]⟩

/-- Every allocation is accounted for: in a graph that is ready it fits the recorded surface or was left
behind, before that it was left behind. -/
structure Accounted (graph : Graph σ) (calls : List (Call σ)) (handle : ResourceHandle) : Prop where
  ready : (graph.after calls).ready → ∀ surface, (graph.after calls).session.pool.surface = some surface →
    (graph.after calls).session.pool.CoherentAt surface handle ∨ ∃ failed, graph.LeftBy calls failed handle
  unready : ¬(graph.after calls).ready → (graph.after calls).allocation? handle ≠ none →
    ∃ failed, graph.LeftBy calls failed handle

namespace Accounted

theorem ofCoherent (ready : (graph.after calls).ready)
    (recorded : (graph.after calls).session.pool.surface = some surface)
    (coherent : (graph.after calls).session.pool.CoherentAt surface handle) : graph.Accounted calls handle where
  ready _ other again := by
    cases recorded.symm.trans again
    exact .inl coherent
  unready absent := absurd ready absent

theorem ofLeft {failed : Surface} (left : graph.LeftBy calls failed handle) : graph.Accounted calls handle where
  ready _ _ _ := .inr ⟨failed, left⟩
  unready _ _ := ⟨failed, left⟩

theorem start {host : Host σ} {shared : Shared} {coordinators : List (String × OffFrame.Coordinator)}
    {source : Program} {table : ResourceTable} (built : build host shared coordinators source table = .ok graph) :
    graph.Accounted [] handle := by
  obtain ⟨-, -, ⟨_, session_eq⟩, unready⟩ := build_eq_ok built
  refine ⟨fun ready => absurd ready unready, fun _ filled => absurd ?_ filled⟩
  change graph.session.pool.allocation? handle = none
  rw [session_eq]
  exact Pool.allocation?_empty table _ handle

/-- An allocation that is not replaced stays accounted for. -/
theorem stay (accounted : graph.Accounted calls handle)
    (table : (call.next (graph.after calls)).session.pool.table = (graph.after calls).session.pool.table)
    (ready_eq : (call.next (graph.after calls)).ready = (graph.after calls).ready)
    (surface_eq : (graph.after calls).ready →
      (call.next (graph.after calls)).session.pool.surface = (graph.after calls).session.pool.surface)
    (same : (call.next (graph.after calls)).allocation? handle = (graph.after calls).allocation? handle) :
    graph.Accounted (calls ++ [call]) handle := by
  have still : (∃ failed, graph.LeftBy calls failed handle) →
      ∃ failed, graph.LeftBy (calls ++ [call]) failed handle := Exists.imp fun _ left => left.stay same
  constructor
  · rw [after_snoc, ready_eq]
    intro ready surface recorded
    rw [surface_eq ready] at recorded
    exact (accounted.ready ready surface recorded).imp (·.stay table same) still
  · rw [after_snoc, ready_eq, same]
    exact fun unready filled => still (accounted.unready unready filled)

variable {kept : Session σ → Prop} {raw good : Pass → Prop} {admitted : Command → Prop}
  {broken allowed : Setting → PassError → Prop} {program : CompiledProgram} {table : ResourceTable}

/-- Every call accounts for what it leaves. -/
theorem next (rules : Upholds kept raw good admitted broken allowed) [LawfulDevice σ]
    (sound : (graph.after calls).Sound kept raw good program table) (spares : call.Spares kept)
    (used : program.usage.Uses handle) (accounted : graph.Accounted calls handle) :
    graph.Accounted (calls ++ [call]) handle := by
  obtain ⟨now, moved⟩ := next_ensures rules sound call spares
  have table_eq := now.table.trans sound.table.symm
  have rests (rests : Rests (graph.after calls) (call.next (graph.after calls))) :
      graph.Accounted (calls ++ [call]) handle :=
    accounted.stay table_eq rests.ready_eq (fun _ => congrArg Pool.surface rests.pool_eq)
      (congrArg (Pool.allocation? · handle) rests.pool_eq)
  have adapts {surface : Surface} (adapts : Adapts surface (graph.after calls) (call.next (graph.after calls))) :
      graph.Accounted (calls ++ [call]) handle := by
    have coherent := Pool.coherent_iff.mp adapts.coherent handle (now.usage ▸ used)
    rw [← after_snoc] at adapts coherent
    exact .ofCoherent adapts.ready adapts.surface_eq coherent
  cases made : call.surface? with
  | none =>
    rw [made] at moved
    exact moved.elim rests fun falters => falters.2.elim
  | some surface =>
    rw [made] at moved
    obtain (still | adapted | begun) | ⟨fails, strays | adapted⟩ := moved
    · exact rests still
    · exact adapts adapted
    · obtain same | ⟨-, coherent⟩ := begun.refits.allocation handle
      · have filled := now.filled begun.ready _ (now.usage ▸ used)
        rw [same] at filled
        obtain ⟨failed, left⟩ := accounted.unready begun.was filled
        exact .ofLeft (left.stay same)
      · rw [← after_snoc] at begun coherent
        exact .ofCoherent begun.ready begun.surface_eq coherent
    · by_cases same : (call.next (graph.after calls)).allocation? handle = (graph.after calls).allocation? handle
      · exact accounted.stay table_eq strays.ready_eq strays.surface_eq same
      · exact .ofLeft (.fail made fails same)
    · exact adapts adapted

/-- Everything that a program uses is accounted for after every history. -/
theorem after (rules : Upholds kept raw good admitted broken allowed) [LawfulDevice σ]
    (sound : graph.Sound kept raw good program table) (start : graph.Accounted [] handle)
    (used : program.usage.Uses handle) (spares : ∀ call ∈ calls, call.Spares kept) :
    graph.Accounted calls handle := by
  induction calls using List.reverseRecOn with
  | nil => exact start
  | append_singleton calls call ih =>
    rw [List.forall_mem_append, List.forall_mem_singleton] at spares
    exact (ih spares.1).next rules (after_sound rules sound calls spares.1) spares.2 used

end Accounted

/-- What a failed call has left behind fits the surface of that call. -/
theorem LeftBy.coherentAt {kept : Session σ → Prop} {raw good : Pass → Prop} {admitted : Command → Prop}
    {broken allowed : Setting → PassError → Prop} {program : CompiledProgram} {table : ResourceTable}
    (rules : Upholds kept raw good admitted broken allowed) [LawfulDevice σ]
    (sound : graph.Sound kept raw good program table) (spares : ∀ call ∈ calls, call.Spares kept)
    (left : graph.LeftBy calls surface handle) :
    (graph.after calls).session.pool.CoherentAt surface handle := by
  obtain ⟨earlier, call, later, rfl, made, -, changed, since⟩ := left
  rw [List.forall_mem_append, List.forall_mem_cons] at spares
  have first := after_sound rules sound earlier spares.1
  obtain ⟨now, moved⟩ := next_ensures rules first call spares.2.1
  have last := after_sound rules sound (earlier ++ call :: later)
    (by simpa only [List.forall_mem_append, List.forall_mem_cons] using spares)
  have refits : Pool.Refits surface (graph.after earlier).session.pool (call.next (graph.after earlier)).session.pool := by
    rw [made] at moved
    obtain (still | adapted | begun) | ⟨-, strays | adapted⟩ := moved
    · rw [still.pool_eq]
      exact .refl surface _
    · exact adapted.refits
    · exact begun.refits
    · exact strays.refits
    · exact adapted.refits
  obtain ⟨-, coherent⟩ := (refits.allocation handle).resolve_left changed
  exact coherent.stay (last.table.trans now.table.symm) since

/-- A successful frame of a built graph, after whatever history of calls, is encoded with every used resource
that depends on the surface allocated for that surface exactly when this is so for those that failed calls
have left behind: when their surfaces ask for the same allocation. -/
theorem encode_coherent_iff [LawfulDevice σ] {host : Host σ} {shared : Shared}
    {coordinators : List (String × OffFrame.Coordinator)} {source : Program} {table : ResourceTable}
    (built : build host shared coordinators source table = .ok graph) (calls : List (Call σ))
    (target : Option Texture) (surface : Surface)
    (encoded : ∃ stream, ((encode target surface).apply (graph.after calls)).1 = .ok stream) :
    (graph.after (calls ++ [.encode target surface])).session.pool.Coherent surface ↔
      ∀ handle failed, graph.session.compiled.usage.Uses handle →
        graph.LeftBy (calls ++ [.encode target surface]) failed handle → table.Alike failed surface handle := by
  have rules : Upholds (σ := σ) (fun _ => True) (fun _ => True) (fun _ => True) _ _ _ := .ofLasting .any
  have sound : graph.Sound (fun _ => True) (fun _ => True) (fun _ => True) graph.session.compiled table :=
    build_sound built trivial fun _ _ => trivial
  have spared (calls : List (Call σ)) : ∀ call ∈ calls, call.Spares fun _ => True := fun call _ => call.spares_any
  have now := after_sound rules sound (calls ++ [.encode target surface]) (spared _)
  have coherentAt {handle : ResourceHandle} {failed : Surface}
      (left : graph.LeftBy (calls ++ [.encode target surface]) failed handle) :=
    left.coherentAt rules sound (spared _)
  obtain ⟨ready, recorded⟩ : (graph.after (calls ++ [.encode target surface])).ready ∧
      (graph.after (calls ++ [.encode target surface])).session.surface = some surface := by
    have faced := encode_ensures rules (after_sound rules sound calls (spared _)) target surface _ rfl
    obtain ⟨stream, encoded⟩ := encoded
    rw [after_snoc, Call.next_encode]
    split at faced
    · rename_i applied
      rw [applied]
      exact ⟨faced.2.2.ready, faced.2.2.surface_eq⟩
    · rename_i applied
      rw [applied] at encoded
      cases encoded
  rw [Pool.coherent_iff, now.usage]
  constructor
  · intro coherent handle failed used left
    exact now.table ▸ (coherentAt left).alike.mp (coherent handle used)
  · intro alike handle used
    have accounted := Accounted.after rules sound ?_ used (spared (calls ++ [.encode target surface]))
    · obtain fits | ⟨failed, left⟩ := accounted.ready ready surface ((now.recorded ready).symm.trans recorded)
      · exact fits
      · exact (coherentAt left).alike.mpr (now.table ▸ alike handle failed used left)
    · exact .start built

/-- A setup creates one of two textures at one pixel and fails, and is tried again at two pixels. -/
theorem encode_not_coherent_after_retry :
    ∃ graph : Graph Recorder,
      build ⟨{ failing := ["out"] }, []⟩ {} [] ⟨"", [.leaf (.blit ⟨"copy", .copyTexture ⟨0⟩ (.resource ⟨1⟩)⟩)]⟩
        { textures := [⟨"scene", .viewport, .surface, .d2, 1⟩, ⟨"out", .viewport, .surface, .d2, 1⟩] } =
          .ok graph ∧
      (∃ stream, ((encode none ⟨.flat 2 1, .rgba8Unorm⟩).apply
        (graph.after [.setup ⟨.flat 1 1, .rgba8Unorm⟩, .setup ⟨.flat 2 1, .rgba8Unorm⟩])).1 = .ok stream) ∧
      ¬(graph.after [.setup ⟨.flat 1 1, .rgba8Unorm⟩, .setup ⟨.flat 2 1, .rgba8Unorm⟩,
        .encode none ⟨.flat 2 1, .rgba8Unorm⟩]).session.pool.Coherent ⟨.flat 2 1, .rgba8Unorm⟩ := by
  have built : build (σ := Recorder) ⟨{ failing := ["out"] }, []⟩ {} []
      ⟨"", [.leaf (.blit ⟨"copy", .copyTexture ⟨0⟩ (.resource ⟨1⟩)⟩)]⟩
      { textures := [⟨"scene", .viewport, .surface, .d2, 1⟩, ⟨"out", .viewport, .surface, .d2, 1⟩] } = .ok _ := rfl
  refine ⟨_, built, ⟨_, rfl⟩, fun coherent => ?_⟩
  have alike := (encode_coherent_iff built [.setup ⟨.flat 1 1, .rgba8Unorm⟩, .setup ⟨.flat 2 1, .rgba8Unorm⟩] none
    ⟨.flat 2 1, .rgba8Unorm⟩ ⟨_, rfl⟩).mp coherent (.texture ⟨0⟩) ⟨.flat 1 1, .rgba8Unorm⟩ ⟨_, .head _⟩
    ⟨[], .setup ⟨.flat 1 1, .rgba8Unorm⟩, _, rfl, rfl, ⟨_, rfl⟩, Option.some_ne_none _, rfl⟩
  exact absurd (alike _ rfl rfl).1 (by decide)

end Graph

end FrameGraph
