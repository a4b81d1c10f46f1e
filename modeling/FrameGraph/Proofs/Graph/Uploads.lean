import FrameGraph.Proofs.Compile.Names
import FrameGraph.Proofs.Graph.Attempts
import FrameGraph.Proofs.Graph.Missing
import FrameGraph.Proofs.Pass.Uploads

/-! # Uploads of frames

A graph is set up once, but it may take several attempts, and each of them creates uniform blocks anew while the bind
groups of the attempts before stay. So what a frame uploads reaches the shader through those groups only that were
created since the attempt that succeeded began.
-/

namespace FrameGraph

/-- No draw binds the extent of a grid. -/
def Pass.Gridless : Pass → Prop
  | .draw pass => ¬pass.bindings.wantsGrid
  | _ => True

theorem Pass.gridless_asBuilt (leaf : Pass) : leaf.asBuilt.Gridless ↔ leaf.Gridless := by
  cases leaf <;> exact Iff.rfl

theorem Pass.gridless_ofLeaf? {table : ResourceTable} {node : Leaf} {compiled : CompiledLeaf} {leaf : Pass}
    (unread : ∀ draw, compiled = .draw draw → draw.groups.any GroupBinding.bindsGrid = false)
    (made : ofLeaf? table node compiled = some leaf) : leaf.Gridless := by
  unfold ofLeaf? at made
  split at made <;> cases made
  · trivial
  · rename_i compiled
    exact Bool.eq_false_iff.mp (unread compiled rfl)
  · trivial
  · trivial
  · trivial

namespace Graph

open Effect (Ensures Keeps)
open Session (Counts)

variable {σ : Type} [Device σ] {source : Program} {table : ResourceTable}

/-- The draws of a graph that was just built bind no extent of a grid. -/
theorem build_gridless {graph : Graph σ} {host : Host σ} {shared : Shared}
    {coordinators : List (String × OffFrame.Coordinator)}
    (built : build host shared coordinators source table = .ok graph) : Pass.Each Pass.Gridless graph.passes := by
  obtain ⟨⟨log, compiled⟩, ⟨place, made⟩, -, -⟩ := build_eq_ok built
  refine Pass.each_ofComponents (Program.compile_ok compiled) made fun leaf listed pass made => ?_
  obtain ⟨flat, leaf⟩ := leaf
  refine Pass.gridless_ofLeaf? (fun draw same => ?_) made
  subst same
  exact Program.draw_unread compiled listed

omit [Device σ] in
theorem Contains.gridless {graph : Graph σ} {leaf : Pass} (contains : graph.Contains leaf)
    (all : Pass.Each Pass.Gridless graph.passes) : leaf.Gridless := by
  obtain ⟨built, found, same⟩ := contains
  rw [← leaf.gridless_asBuilt, same, built.gridless_asBuilt]
  exact all built found

/-- After every history the leaves are, but for what they have created and decided, those that were built. -/
theorem after_contains [LawfulDevice σ] {graph : Graph σ} {host : Host σ} {shared : Shared}
    {coordinators : List (String × OffFrame.Coordinator)}
    (built : build host shared coordinators source table = .ok graph) (calls : List (Call σ)) :
    Pass.Each graph.Contains (graph.after calls).passes := by
  have start : graph.Sound (fun _ => True) graph.Contains (fun leaf => graph.Contains leaf ∧ leaf.HasPipeline)
      graph.session.compiled table := build_sound built trivial fun leaf found => ⟨leaf, found, rfl⟩
  exact (after_sound (Upholds.ofLasting graph.contains_lasting) start calls fun call _ => call.spares_any).raw

section

variable {start graph : Graph σ}

/-- Aside of the passes no more has happened to the graph than that its device has gone on. -/
structure Aside (start graph : Graph σ) : Prop extends Unmoved start graph where
  shared_eq : graph.session.shared = start.session.shared
  frame_eq : graph.frame = start.frame
  host : Host.Reaches (fun _ => True) start.session.host graph.session.host

theorem Aside.refl (graph : Graph σ) : Aside graph graph := ⟨⟨rfl, rfl, rfl⟩, rfl, rfl, .refl _ _⟩

theorem Aside.act (aside : Aside start graph) {session : Session σ}
    (coordinators : session.coordinators = graph.session.coordinators) (shared : session.shared = graph.session.shared)
    (host : Host.Reaches (fun _ => True) start.session.host session.host) : Aside start { graph with session } :=
  ⟨aside.toUnmoved.act coordinators, shared.trans aside.shared_eq, aside.frame_eq, host⟩

theorem note_aside (level : LogLevel) (text : String) : Keeps (Aside start) (note level text) := by
  refine .inside fun g aside => .ofModify fun session here => ?_
  subst here
  exact aside.act rfl rfl ((Host.Reaches.accepts _ _).log _ _ aside.host)

theorem setSurface_aside (surface : Surface) : Keeps (Aside start) (setSurface surface) :=
  .ofModify fun _ aside => aside.act rfl rfl aside.host

theorem createModule_aside (unit : CompiledUnit) : Keeps (Aside start) (createModule unit) := by
  refine .ofEach fun g aside => ?_
  have creates := (Host.Reaches.accepts (fun _ => True) start.session.host).perform (.createModule ⟨unit.label, unit.source⟩)
  refine (deviceAction_ensures (.program unit.label) aside.host creates).mono ?_ ?_
  · rintro _ _ ⟨host, reaches, rfl⟩
    exact aside.act rfl rfl reaches
  · rintro _ _ ⟨-, host, reaches, rfl⟩
    exact aside.act rfl rfl reaches

theorem spares_reaches (host : Host σ) : Pool.Spares (Host.Reaches (fun _ => True) host) :=
  have accepts := Host.Reaches.accepts (fun _ => True) host
  ⟨accepts.log, fun spec => accepts.perform (.createTexture spec), fun spec => accepts.perform (.createBuffer spec)⟩

theorem poolAction_aside {α : Type} {action : PoolM σ α}
    (keeps : PartEffect.Keeps (fun _ => Host.Reaches (fun _ => True) start.session.host) action) :
    Keeps (Aside start) (poolAction action) := by
  refine .ofEach fun g aside => ?_
  have any := PartEffect.Ensures.any action
  refine (poolAction_ensures aside.host keeps (any.pre fun _ _ _ => trivial)).mono ?_ ?_
  · rintro _ _ ⟨host, pool, reaches, -, rfl⟩
    exact aside.act rfl rfl reaches
  · rintro _ _ ⟨-, host, pool, reaches, -, rfl⟩
    exact aside.act rfl rfl reaches

theorem keepModules_aside (modules : List ShaderModule) : Keeps (Aside start) (keepModules modules) := by
  refine .ofGet fun g aside => .ofIf (fun _ => ?_) fun _ => .ofSet fun _ _ => aside.act rfl rfl aside.host
  exact .pre (fun _ here => here ▸ aside) (note_aside _ _)

theorem resize_aside (surface : Surface) : Keeps (Aside start) (resize surface) := by
  have resized : Keeps (Aside start) (poolAction (Pool.resize surface)) :=
    poolAction_aside ((spares_reaches _).resize_keeps surface)
  refine .ofGet fun g aside => .pre (fun _ here => here ▸ aside) (.ofIf (fun _ => ?_) fun _ => setSurface_aside surface)
  exact resized.bind fun _ => setSurface_aside surface

end

section

variable {since : Nat} {start graph : Graph Recorder}

theorem Aside.counts (aside : Aside start graph) (reached : since ≤ start.session.host.device.nextId) :
    Counts since start.session graph.session := ⟨aside.shared_eq, .of_reaches aside.host, reached⟩

/-- The passes and the readiness are as before, and no number was taken back. -/
structure Continues (before after : Graph Recorder) : Prop where
  passes_eq : after.passes = before.passes
  ready_eq : after.ready = before.ready
  nextId : before.session.host.device.nextId ≤ after.session.host.device.nextId

theorem Aside.continues (aside : Aside start graph) : Continues start graph :=
  ⟨aside.passes_eq, aside.ready_eq, (aside.counts (Nat.zero_le _)).device.nextId⟩

/-- Everything that the passes have created is older than `next`. -/
structure Former (next : Nat) (graph : Graph Recorder) : Prop where
  next_le : next ≤ graph.session.host.device.nextId
  passes : Pass.Each (Pass.Former next) graph.passes

/-- A setup that began at `since` has supplied the passes. -/
structure Supplied (since : Nat) (graph : Graph Recorder) : Prop where
  ready : graph.ready
  since_le : since ≤ graph.session.host.device.nextId
  passes : Pass.Each (Pass.Supplied since) graph.passes

theorem Former.renew {next : Nat} (former : graph.Former next) : graph.Former graph.session.host.device.nextId :=
  ⟨Nat.le_refl _, fun leaf found => (former.passes leaf found).mono former.next_le⟩

theorem Former.keep {next : Nat} (former : start.Former next) (continues : Continues start graph) :
    graph.Former next where
  next_le := Nat.le_trans former.next_le continues.nextId
  passes := continues.passes_eq ▸ former.passes

theorem Supplied.keep (supplied : start.Supplied since) (continues : Continues start graph) : graph.Supplied since where
  ready := continues.ready_eq.trans supplied.ready
  since_le := Nat.le_trans supplied.since_le continues.nextId
  passes := continues.passes_eq ▸ supplied.passes

/-- A setup that succeeds supplies all passes; if it fails, all that it has left is older than what the next creates. -/
theorem setup_supplied (former : graph.Former since) (unready : ¬graph.ready) (surface : Surface) :
    Ensures (· = graph) (setup surface) (fun _ after => after.Supplied since)
      fun _ after => ¬after.ready ∧ after.Former after.session.host.device.nextId := by
  have leaves {α : Type} {action : GraphM Recorder α} (keeps : Keeps (Aside graph) action) :
      Ensures (Aside graph) action (fun _ => Aside graph)
        fun _ after => ¬after.ready ∧ after.Former after.session.host.device.nextId :=
    keeps.mono (fun _ _ => id) fun _ after aside => ⟨aside.ready_eq ▸ unready, (former.keep aside.continues).renew⟩
  have starts (g : Graph Recorder) (here : g = graph) (_ : ¬g.ready) : Aside graph g := here ▸ .refl graph
  have sets (g : Graph Recorder) (aside : Aside graph g) :
      Ensures (· = g) (passAction (Pass.setupAll ⟨g.session.pool, surface⟩))
        (fun _ after => Pass.Each (Pass.Supplied since) after.passes ∧ since ≤ after.session.host.device.nextId)
        fun _ after => ¬after.ready ∧ after.Former after.session.host.device.nextId := by
    have established := Pass.setupAll_established (Pass.supplied_establishes since ⟨g.session.pool, surface⟩) g.passes
      (former.keep aside.continues).passes g.session
    refine (passAction_step g (aside.counts former.next_le).again established).mono ?_ ?_
    · rintro _ _ ⟨session, passes, ⟨all, counts⟩, rfl⟩
      exact ⟨fun leaf found => (all leaf found).1, counts.again.since⟩
    · rintro _ _ ⟨-, session, passes, ⟨-, all, -⟩, -, rfl⟩
      exact ⟨aside.ready_eq ▸ unready, Nat.le_refl _, all⟩
  refine setup_rule ?_ starts (fun unit => leaves (createModule_aside unit))
    (fun modules => leaves (keepModules_aside modules))
    (leaves (poolAction_aside ((spares_reaches _).materialize_keeps surface))) (leaves (setSurface_aside surface)) sets ?_
  · rintro g ⟨rfl, ready⟩
    exact absurd ready unready
  · exact fun g text held => ⟨rfl, held.2, held.1⟩

/-- Every launch and every draw that a frame has recorded is that of a leaf, and it is delivered what this leaf has
uploaded for the frame, for the values that were shared when the frame began; or a callback may record it. -/
def Delivered (bound : BindGroup → Prop) (start : Graph Recorder) (target : Option Texture) (surface : Surface)
    (stream : CommandStream) (after : Graph Recorder) : Prop :=
  ∃ script : Script,
    stream.Wrote start.session.host.device.submissions.length script after.session.host.device ∧
    ∀ command ∈ script.commands, command.Groupless ∨ ∃ leaf ∈ Pass.plannedAll after.passes,
      leaf.Delivers bound (start.session.written after.session) start.session.shared
        ⟨⟨after.session.pool, surface⟩, target, start.frame⟩ command

/-- The passes are ready for a frame: what they feed has been uploaded since it began. -/
structure Uploading (since : Nat) (start : Graph Recorder) (surface : Surface) (graph : Graph Recorder) : Prop
    extends graph.Supplied since where
  counts : Counts since start.session graph.session
  uploads : Pass.EachPlanned (Pass.Uploads since ⟨graph.session.pool, surface⟩ start.session graph.session) graph.passes
  frame_eq : graph.frame = start.frame
  submissions : start.session.host.device.submissions <+: graph.session.host.device.submissions

theorem preparePasses_uploading {start : Graph Recorder} (supplied : start.Supplied since) (aside : Aside start graph)
    (surface : Surface) :
    Ensures (· = graph) (passAction (Pass.prepareAll ⟨graph.session.pool, surface⟩))
      (fun _ => Uploading since start surface) fun _ after => after.Supplied since := by
  have counts := aside.counts supplied.since_le
  have now := supplied.keep aside.continues
  have uploads := Pass.prepareAll_readied (Pass.uploads_readies since ⟨graph.session.pool, surface⟩ start.session)
    graph.passes now.passes graph.session
  have proceeds := Pass.prepareAll_readied (Session.Proceeds.readies (σ := Recorder) ⟨graph.session.pool, surface⟩)
    graph.passes (fun _ _ => trivial) graph.session
  have steps : Step.Ensures
      (fun now => (Counts since start.session graph.session ∧ Counts since graph.session now) ∧ graph.session.Proceeds now)
      (Pass.prepareAll ⟨graph.session.pool, surface⟩ graph.passes)
      (fun _ passes now => ((Pass.Each (Pass.Supplied since) passes ∧ Pass.EachPlanned
        (Pass.Uploads since ⟨graph.session.pool, surface⟩ start.session now) passes) ∧
          Counts since graph.session now) ∧ graph.session.Proceeds now)
      fun _ passes now => Pass.Each (Pass.Supplied since) passes ∧ Counts since graph.session now :=
    Step.Ensures.mono (uploads.and proceeds) (fun _ _ _ done => ⟨⟨done.1.1, done.1.2.2⟩, done.2.2⟩)
      fun _ _ _ failed => ⟨failed.1.2.1, failed.1.2.2.2⟩
  refine (passAction_step graph ⟨⟨counts, counts.again⟩, .refl graph.session⟩ steps).mono ?_ ?_
  · rintro _ _ ⟨session, passes, ⟨⟨⟨all, uploads⟩, more⟩, proceeds⟩, rfl⟩
    refine ⟨⟨now.ready, more.again.since, all⟩, counts.trans more, ?_, aside.frame_eq, ?_⟩
    · dsimp only
      rw [proceeds.pool_eq]
      exact uploads
    · exact (Recorder.submissions_of_reaches aside.host).trans proceeds.submissions
  · rintro _ _ ⟨-, session, passes, ⟨all, more⟩, -, rfl⟩
    exact ⟨now.ready, more.again.since, all⟩

theorem encodeFrame_delivered {start : Graph Recorder} {surface : Surface} (uploading : Uploading since start surface graph)
    (target : Option Texture) :
    Ensures (· = graph) (encodeFrame target surface)
      (fun stream after => after.Supplied since ∧ (Pass.Each Pass.Gridless after.passes →
        Delivered (fun group => since ≤ group.id) start target surface stream after))
      fun _ after => after.Supplied since := by
  have encodes : Pass.Encodes Session.ask ⟨⟨graph.session.pool, surface⟩, target, graph.frame⟩ _ _ _ :=
    (Session.Proceeds.runsJobs.encoding graph.session).encodes
      (fun session name request => Session.Proceeds.runsJobs.asked name request session) (.refl graph.session) rfl
  have proceeds := Pass.encodeAll_ensures encodes graph.passes (fun _ _ => trivial)
  have writes := Pass.encodeAll_writes Session.Proceeds.asked ⟨⟨graph.session.pool, surface⟩, target, graph.frame⟩
    graph.passes start.session.host.device.submissions.length []
  have begun : CommandStream.Wrote start.session.host.device.submissions.length []
      { label := s!"frame {graph.frame}" } graph.session.host.device :=
    CommandStream.wrote_start _ uploading.submissions.length_le
  have stays {session : Session Recorder} (proceeds : graph.session.Proceeds session) :
      Supplied since { graph with session } := by
    refine ⟨uploading.ready, ?_, uploading.passes⟩
    exact Nat.le_trans uploading.since_le (Recorder.Advances.of_reaches proceeds.host).nextId
  refine (encodeFrame_step graph (writes.and proceeds) ⟨begun, CommandStream.only_start _, .refl graph.session⟩).mono ?_ ?_
  · rintro stream _ ⟨session, ⟨⟨outline, made, script, fills, wrote⟩, -, proceeds⟩, rfl⟩
    refine ⟨stays proceeds, fun gridless => ⟨script, wrote, fun command found => ?_⟩⟩
    have only := (Pass.outlineAll_records ⟨⟨graph.session.pool, surface⟩, target, graph.frame⟩ graph.passes).result made
    refine (only.commands fills command found).imp id ?_
    rintro ⟨leaf, listed, records⟩
    refine ⟨leaf, listed, ?_⟩
    rw [← uploading.frame_eq]
    dsimp only
    rw [proceeds.pool_eq]
    have inside := Pass.plannedAll_subset _ listed
    have uploads := (uploading.uploads leaf listed).mono (Recorder.Advances.of_reaches proceeds.host)
    refine Pass.Supplied.delivers (uploading.passes leaf inside) uploads ?_ records
    rintro pass rfl
    exact gridless _ inside
  · rintro _ _ ⟨-, stream, session, ⟨-, -, -, proceeds⟩, -, rfl⟩
    exact stays proceeds

/-- A frame of a graph that is ready keeps its passes supplied, and what it records has been delivered. -/
theorem encode_delivered (supplied : graph.Supplied since) (target : Option Texture) (surface : Surface) :
    Ensures (· = graph) (encode target surface)
      (fun stream after => after.Supplied since ∧ (Pass.Each Pass.Gridless after.passes →
        Delivered (fun group => since ≤ group.id) graph target surface stream after))
      fun _ after => after.Supplied since := by
  have resizes : Ensures (fun g => g = graph ∧ g.ready) (resize surface) (fun _ => Aside graph)
      fun _ after => after.Supplied since :=
    .pre (fun _ held => held.1 ▸ .refl graph) ((resize_aside surface).mono (fun _ _ => id) fun _ _ aside =>
      supplied.keep aside.continues)
  refine encode_rule ?_ resizes (fun _ same _ _ => same ▸ .refl graph)
    (fun _ aside => preparePasses_uploading supplied aside surface)
    (fun _ uploading => encodeFrame_delivered uploading target) ?_
  · rintro _ rfl unready
    exact absurd supplied.ready unready
  · rintro stream g text ⟨⟨ready, since_le, passes⟩, delivered⟩
    exact ⟨⟨ready, since_le, passes⟩, delivered⟩

/-! ### Histories of attempts -/

/-- A call other than the setup or the frame of a graph leaves the passes alone. -/
theorem next_continues (call : Call Recorder) (counts : ∀ n, call.Spares fun session => n ≤ session.host.device.nextId)
    (setup : ∀ surface, call = .setup surface → graph.ready)
    (encode : ∀ target surface, call = .encode target surface → ¬graph.ready) : graph.Continues (call.next graph) := by
  have changed {change : Session Recorder → Session Recorder} (proceeds : graph.session.Proceeds (change graph.session)) :
      graph.Continues { graph with session := change graph.session } :=
    ⟨rfl, rfl, (Recorder.Advances.of_reaches proceeds.host).nextId⟩
  cases call with
  | setup surface =>
    have resized : (Graph.setup surface).apply graph = (Graph.resize surface).apply graph := by
      rw [Graph.setup, Effect.apply_bind, Effect.apply_get]
      dsimp only
      rw [if_pos (setup surface rfl)]
    rw [Call.next, Call.run, resized]
    exact ((resize_aside surface).after (.refl graph)).continues
  | resize surface => exact ((resize_aside surface).after (.refl graph)).continues
  | encode target surface =>
    have unset : (Graph.encode target surface).apply graph = (.error .notSetUp, graph) := by
      rw [Graph.encode, Effect.apply_bind, Effect.apply_get]
      dsimp only
      simp [encode target surface rfl]
    rw [Call.next_encode, unset]
    exact ⟨rfl, rfl, Nat.le_refl _⟩
  | request name request => exact changed (Session.Proceeds.asked name request graph.session)
  | release name answer => exact changed (Session.Proceeds.runsJobs.release name answer graph.session (.refl _))
  | observe name =>
    have proceeds : graph.session.Proceeds (graph.session.observeFrame name) :=
      (Session.Proceeds.tended graph.session).observeFrame name (.refl _)
    exact ⟨rfl, rfl, (Recorder.Advances.of_reaches proceeds.host).nextId⟩
  | share f => exact ⟨rfl, rfl, Nat.le_refl _⟩
  | host f => exact ⟨rfl, rfl, counts _ graph.session (Nat.le_refl _)⟩

theorem next_supplied (supplied : graph.Supplied since) (call : Call Recorder)
    (counts : ∀ n, call.Spares fun session => n ≤ session.host.device.nextId) : (call.next graph).Supplied since := by
  by_cases frame : ∃ target surface, call = .encode target surface
  · obtain ⟨target, surface, rfl⟩ := frame
    rw [Call.next_encode]
    have encoded := encode_delivered supplied target surface graph rfl
    split at encoded <;> rename_i applied <;> rw [applied]
    · exact encoded.1
    · exact encoded
  · refine supplied.keep (next_continues call counts (fun _ _ => supplied.ready) fun target surface same => ?_)
    exact absurd ⟨target, surface, same⟩ frame

/-- Before the first attempt nothing is created. -/
theorem after_former {next : Nat} (former : graph.Former next) (unready : ¬graph.ready) (calls : List (Call Recorder))
    (counts : ∀ call ∈ calls, ∀ n, call.Spares fun session => n ≤ session.host.device.nextId)
    (none : ∀ call ∈ calls, ∀ surface, call ≠ .setup surface) :
    (graph.after calls).Former next ∧ ¬(graph.after calls).ready := by
  induction calls using List.reverseRecOn with
  | nil => exact ⟨former, unready⟩
  | append_singleton calls call ih =>
    rw [List.forall_mem_append, List.forall_mem_singleton] at counts none
    obtain ⟨former, unready⟩ := ih counts.1 none.1
    have continues : (graph.after calls).Continues (call.next (graph.after calls)) :=
      next_continues call counts.2 (fun surface same => absurd same (none.2 surface)) fun _ _ _ => unready
    rw [after_append]
    exact ⟨former.keep continues, continues.ready_eq ▸ unready⟩

/-- A graph that is ready was set up by the one attempt that succeeded, and it is supplied since. -/
theorem after_supplied {next : Nat} (former : graph.Former next) (unready : ¬graph.ready) (calls : List (Call Recorder))
    (counts : ∀ call ∈ calls, ∀ n, call.Spares fun session => n ≤ session.host.device.nextId) :
    ((graph.after calls).Former (graph.after calls).session.host.device.nextId ∧ ¬(graph.after calls).ready) ∨
    ∃ earlier first later, calls = earlier ++ .setup first :: later ∧ ¬(graph.after earlier).ready ∧
      ¬(Call.setup first).Fails (graph.after earlier) ∧
      (graph.after earlier).Former (graph.after earlier).session.host.device.nextId ∧
      ∀ since, (graph.after earlier).Former since → (graph.after calls).Supplied since := by
  induction calls using List.reverseRecOn with
  | nil => exact .inl ⟨former.renew, unready⟩
  | append_singleton calls call ih =>
    rw [List.forall_mem_append, List.forall_mem_singleton] at counts
    rw [after_append]
    obtain ⟨former, unready⟩ | ⟨earlier, first, later, rfl, was, succeeds, older, supplied⟩ := ih counts.1
    · by_cases attempt : ∃ surface, call = .setup surface
      · obtain ⟨surface, rfl⟩ := attempt
        have set (since : Nat) (former : (graph.after calls).Former since) :=
          setup_supplied former unready surface (graph.after calls) rfl
        rw [after, List.foldl_cons, List.foldl_nil]
        cases applied : (Graph.setup surface).apply (graph.after calls) with
        | mk result left =>
          have left_eq : (Call.setup surface).next (graph.after calls) = left := congrArg Prod.snd applied
          simp only [applied] at set
          rw [left_eq]
          cases result with
          | ok _ =>
            refine .inr ⟨calls, surface, [], rfl, unready, ?_, former, fun since former => ?_⟩
            · rintro ⟨error, failed⟩
              rw [Call.run, applied] at failed
              cases failed
            · exact set since former
          | error _ => exact .inl (set _ former).symm
      · have continues : (graph.after calls).Continues (call.next (graph.after calls)) :=
          next_continues call counts.2 (fun surface same => absurd ⟨surface, same⟩ attempt) fun _ _ _ => unready
        exact .inl ⟨(former.keep continues).renew, continues.ready_eq ▸ unready⟩
    · refine .inr ⟨earlier, first, later ++ [call], by simp, was, succeeds, older, fun since former => ?_⟩
      exact next_supplied (supplied since former) call counts.2

/-- A graph that was just built has created nothing. -/
theorem build_former {host : Host Recorder} {shared : Shared} {coordinators : List (String × OffFrame.Coordinator)}
    (built : build host shared coordinators source table = .ok graph) : graph.Former 0 := by
  obtain ⟨⟨log, compiled⟩, ⟨place, made⟩, -, -⟩ := build_eq_ok built
  refine ⟨Nat.zero_le _, Pass.each_ofComponents (Program.compile_ok compiled) made fun leaf _ pass made => ?_⟩
  have nothing (label : String) (groups : List GroupBinding) (bytes : List BytesSlot) :
      Bindings.Former 0 (.ofGroups label groups bytes) := by
    have empty (place : Nat) (bound : BoundGroup) :
        (Bindings.ofGroups label groups bytes).own[place]? ≠ some (some bound) := by
      intro stored
      obtain ⟨_, -, same⟩ := List.mem_map.mp (List.mem_of_getElem? stored)
      cases same
    refine ⟨⟨Nat.zero_le _, fun place _ bound _ stored => absurd stored (empty place bound)⟩,
      fun place bound stored => absurd stored (empty place bound), fun source block has => ?_⟩
    cases source <;> cases has
  unfold Pass.ofLeaf? at made
  split at made <;> cases made
  · exact nothing _ _ _
  · exact nothing _ _ _
  · trivial
  · trivial
  · trivial

/-- Whatever was done to a graph of a program, what a launch or a draw of a frame binds for a uniform block is the block
that the pass has uploaded the value of the frame to, exactly if the bind group was created since the attempt that has
set the graph up began: groups that an earlier attempt has left bind the blocks of that attempt. So uploads reach the
shader if the first attempt succeeds. Blocks of arguments, whose groups all passes share, bind nothing that is
uploaded. -/
theorem uploads_reach_iff {host : Host Recorder} {shared : Shared}
    {coordinators : List (String × OffFrame.Coordinator)}
    (built : build host shared coordinators source table = .ok graph) {calls : List (Call Recorder)}
    (counts : ∀ call ∈ calls, ∀ n, call.Spares fun session => n ≤ session.host.device.nextId)
    {target : Option Texture} {surface : Surface} {stream : CommandStream} {after : Graph Recorder}
    (ran : (encode target surface).apply (graph.after calls) = (.ok stream, after)) :
    (∃ earlier first later, calls = earlier ++ .setup first :: later ∧ ¬(graph.after earlier).ready ∧
      ¬(Call.setup first).Fails (graph.after earlier) ∧
      Delivered (fun group => (graph.after earlier).session.host.device.nextId ≤ group.id) (graph.after calls) target
        surface stream after ∧
      ((∀ call ∈ earlier, ∀ surface, call ≠ .setup surface) →
        Delivered (fun _ => True) (graph.after calls) target surface stream after)) ∧
    ∀ block ∈ graph.session.compiled.blocks, ∀ binding ∈ block.group, ¬binding.source.isFed := by
  obtain ⟨⟨log, compiled⟩, -, -, unready⟩ := build_eq_ok built
  refine ⟨?_, (Program.compile_ok compiled).unfed⟩
  have gridless : Pass.Each Pass.Gridless after.passes := by
    have contains := after_contains built (calls ++ [.encode target surface])
    rw [after_append, Graph.after, List.foldl_cons, List.foldl_nil, Call.next_encode, ran] at contains
    exact fun leaf found => (contains leaf found).gridless (build_gridless built)
  have former := build_former built
  obtain ⟨-, unset⟩ | ⟨earlier, first, later, split, was, succeeds, older, supplied⟩ :=
    after_supplied former unready calls counts
  · rw [Graph.encode, Effect.apply_bind, Effect.apply_get] at ran
    simp [unset] at ran
  · have delivered (since : Nat) (former : (graph.after earlier).Former since) :
        Delivered (fun group => since ≤ group.id) (graph.after calls) target surface stream after :=
      ((encode_delivered (supplied since former) target surface).result rfl ran).2 gridless
    refine ⟨earlier, first, later, split, was, succeeds, delivered _ older, fun none => ?_⟩
    have virgin := after_former former unready earlier (fun call found => counts call (by simp [split, found])) none
    simpa only [Nat.zero_le] using delivered 0 virgin.1

end

/-- The numbers of the bind groups of a command, each with those of the resources in it. -/
def boundIds : Command → List (List Nat)
  | .dispatch command => command.groups.map fun group => group.id :: group.resources.map (·.id)
  | .draw command => command.groups.map fun group => group.id :: group.resources.map (·.id)
  | _ => []

/-- A draw with a uniform block, and a group; a device that looks for an entry point right before its parameters does not
find one of the group. -/
def retriedDraw : Program where
  library := ""
  root := [
    .leaf (.draw {
      label := "d"
      source := "@vertex fn v() {}@fragment fn f() {}"
      vertex := "v"
      fragment := "f"
      fragmentArguments := [⟨"a", none, none, .bytes (.constant (.scalar .u32) [1, 0, 0, 0])⟩]
      targets := [⟨.surface, .load, .replace⟩] }),
    offFrameDraw "lost" "@vertex fn v () {}@fragment fn f() {}"]

/-- What the draw is drawn to. -/
def window : Texture where
  label := "window"
  extent := ⟨1, 1, 1⟩
  dimension := .d2
  format := .rgba8Unorm
  usage := {}
  id := 0

/-- The first attempt fails after the draw was set up, and the second succeeds without the group. From then on the bind
group of the draw is older than the second attempt: it binds the block of the first, and the frame uploads to another. -/
theorem uploads_reach_iff_retried :
    ∃ (graph after : Graph Recorder) (stream : CommandStream), build ⟨{}, []⟩ {} [("lost", {})] retriedDraw {} = .ok graph ∧
      (encode (some window) ⟨.flat 1 1, .rgba8Unorm⟩).apply
        (graph.after [.setup ⟨.flat 1 1, .rgba8Unorm⟩, .setup ⟨.flat 1 1, .rgba8Unorm⟩]) = (.ok stream, after) ∧
      Delivered (fun group => 4 ≤ group.id)
        (graph.after [.setup ⟨.flat 1 1, .rgba8Unorm⟩, .setup ⟨.flat 1 1, .rgba8Unorm⟩]) (some window)
        ⟨.flat 1 1, .rgba8Unorm⟩ stream after ∧
      stream.encoder.map (·.flatMap boundIds) = some [[3, 2]] ∧
      (Session.written (graph.after [.setup ⟨.flat 1 1, .rgba8Unorm⟩, .setup ⟨.flat 1 1, .rgba8Unorm⟩]).session
        after.session).map (·.buffer.id) = [5] := by
  let attempt : Call Recorder := .setup ⟨.flat 1 1, .rgba8Unorm⟩
  have run : (build (σ := Recorder) ⟨{}, []⟩ {} [("lost", {})] retriedDraw {}).toOption.map (fun graph =>
      let frame := (encode (some window) ⟨.flat 1 1, .rgba8Unorm⟩).apply (graph.after [attempt, attempt])
      ((attempt.run.apply graph).1.isOk, (graph.after [attempt]).session.host.device.nextId,
        frame.1.toOption.bind fun stream => stream.encoder.map (·.flatMap boundIds),
        (Session.written (graph.after [attempt, attempt]).session frame.2.session).map (·.buffer.id))) =
          some (false, 4, some [[3, 2]], [5]) := by decide +kernel
  cases built : build (σ := Recorder) ⟨{}, []⟩ {} [("lost", {})] retriedDraw {} with
  | error _ =>
    rw [built] at run
    cases run
  | ok graph =>
    rw [built] at run
    have outcome := Option.some.inj run
    simp only [Prod.mk.injEq] at outcome
    obtain ⟨fails, reached, bound, written⟩ := outcome
    have counts : ∀ call ∈ [attempt, attempt], ∀ n, call.Spares fun session => n ≤ session.host.device.nextId := by
      rintro _ (_ | ⟨_, _ | ⟨_, ⟨⟩⟩⟩) <;> exact fun _ => trivial
    cases ran : (encode (some window) ⟨.flat 1 1, .rgba8Unorm⟩).apply (graph.after [attempt, attempt]) with
    | mk result after =>
      cases result with
      | error _ =>
        rw [ran] at bound
        cases bound
      | ok stream =>
        rw [ran] at bound written
        refine ⟨graph, after, stream, rfl, ran, ?_, bound, written⟩
        obtain ⟨⟨earlier, first, later, split, -, succeeds, delivered, -⟩, -⟩ := uploads_reach_iff built counts ran
        -- the attempt that succeeds is the second one
        obtain - | ⟨call, _ | ⟨other, more⟩⟩ := earlier
        · rw [← (List.cons.inj split).1] at succeeds
          exact absurd ((Call.fails_iff attempt graph).mpr fails) succeeds
        · obtain rfl := (List.cons.inj split).1
          rw [← reached]
          exact delivered
        · simp at split

end Graph

end FrameGraph
