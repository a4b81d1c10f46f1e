import FrameGraph.Proofs.Graph.Build
import FrameGraph.Proofs.Graph.History
import FrameGraph.Proofs.Pass.Becomes
import FrameGraph.Proofs.Pass.Recording

/-! # The meaning of a frame

Whatever was done to a graph before, what a frame submits on a recorder is what the component tree denotes for the
values that the caller shares when the frame begins.
-/

namespace FrameGraph

variable {source : Program} {program : CompiledProgram} {table : ResourceTable}

/-- What is made of a leaf of a compiled program is built from it. -/
theorem Pass.MadeAt.builtFrom {node : Leaf × Nat} {pass : Pass} (made : MadeAt table program.leaves node pass)
    (listed : node ∈ (Component.nodesAll source.root).zipIdx 0) :
    pass.BuiltFrom table (source.compiledLeaves program) node.1 := by
  obtain ⟨node, place⟩ := node
  rw [List.mem_zipIdx_iff_getElem?, ← Flattened.ofProgram_nodes, List.getElem?_map, Option.map_eq_some_iff] at listed
  obtain ⟨leaf, there, rfl⟩ := listed
  obtain ⟨compiled, has, built⟩ := made
  exact ⟨(leaf, compiled), List.mem_of_getElem? (List.getElem?_zip_eq_some.mpr ⟨there, has⟩), rfl, pass, built, rfl⟩

namespace Graph

open Effect (Ensures Keeps)

section

variable {σ : Type} {leaves : List (FlatLeaf × CompiledLeaf)} {root : List Component} {graph : Graph σ}

/-- The passes are what the components became. -/
abbrev Shaped (table : ResourceTable) (leaves : List (FlatLeaf × CompiledLeaf)) (root : List Component)
    (graph : Graph σ) : Prop := Component.BecomeAll table leaves root graph.passes

/-- The session does not matter to the shape of the tree. -/
theorem inside_shaped {α : Type} (action : Effect (Session σ) GraphError α) :
    Keeps (Shaped table leaves root) (action.inside sessionLens) :=
  .inside fun _ shaped => (Ensures.any _).mono (fun _ _ _ => shaped) fun _ _ _ => shaped

/-- The passes may do what leaves their shape and knows no more of the session. -/
theorem passAction_shaped {step : List Pass → StateM (Session σ) (Pass.Outcome (List Pass))}
    (steps : ∀ (session : Session σ) (passes : List Pass), Component.BecomeAll table leaves root passes →
      ∃ more, Component.AllStay table leaves session.Alike more root (step passes)) :
    Keeps (Shaped (σ := σ) table leaves root) (passAction step) := by
  refine .ofEach fun g shaped => ?_
  obtain ⟨more, stays⟩ := steps g.session g.passes shaped
  refine (passAction_step g (.refl g.session) stays).mono ?_ ?_
  · rintro _ _ ⟨session, passes, done, rfl⟩
    exact done.1.1
  · rintro _ _ ⟨_, session, passes, failed, -, rfl⟩
    exact failed.1

variable [Device σ]

theorem resize_shaped (surface : Surface) : Keeps (Shaped (σ := σ) table leaves root) (resize surface) := by
  refine .ofGet fun g shaped => .pre (fun _ here => here ▸ shaped) (.ofIf (fun _ => ?_) fun _ => .ofModify fun _ => id)
  exact (inside_shaped _).bind fun _ => .ofModify fun _ => id

theorem createModule_shaped (unit : CompiledUnit) : Keeps (Shaped (σ := σ) table leaves root) (createModule unit) := by
  unfold createModule deviceAction
  exact inside_shaped _

omit [Device σ] in
theorem keepModules_shaped (modules : List ShaderModule) :
    Keeps (Shaped (σ := σ) table leaves root) (keepModules modules) := by
  refine .ofGet fun g shaped => .ofIf (fun _ => ?_) fun _ => .ofSet fun _ _ => shaped
  exact .pre (fun _ here => here ▸ shaped) (inside_shaped _)

theorem setup_shaped (surface : Surface) : Keeps (Shaped (σ := σ) table leaves root) (setup surface) := by
  have faced : Keeps (Shaped (σ := σ) table leaves root) (setSurface surface) := .ofModify fun _ => id
  have setUp (view : PassView) : Keeps (Shaped (σ := σ) table leaves root) (passAction (Pass.setupAll view)) :=
    passAction_shaped fun session passes all =>
      ⟨_, Component.setupAll_stays (Session.Alike.aloof session) (fun _ name passes alike => alike.attach name passes)
        root passes all⟩
  exact setup_rule (.pre (fun _ => And.left) (resize_shaped surface)) (fun _ shaped _ => shaped) createModule_shaped
    keepModules_shaped (inside_shaped _) faced (fun _ shaped => .pre (fun _ here => here ▸ shaped) (setUp _))
    fun _ _ => id

theorem encodeFrame_shaped (shaped : graph.Shaped table leaves root) (target : Option Texture) (surface : Surface) :
    Ensures (· = graph) (encodeFrame target surface) (fun _ => Shaped table leaves root)
      fun _ => Shaped table leaves root := by
  refine (encodeFrame_step graph (.any _) trivial).mono ?_ ?_
  · rintro _ _ ⟨session, -, rfl⟩
    exact shaped
  · rintro _ _ ⟨_, _, session, -, -, rfl⟩
    exact shaped

theorem encode_shaped (target : Option Texture) (surface : Surface) :
    Keeps (Shaped (σ := σ) table leaves root) (encode target surface) := by
  have prepared (view : PassView) : Keeps (Shaped (σ := σ) table leaves root) (passAction (Pass.prepareAll view)) :=
    passAction_shaped fun session passes all =>
      ⟨_, Component.prepareAll_stays (Session.Alike.aloof session) (fun _ => Session.Alike.shared_eq) root passes all⟩
  exact encode_rule (fun _ shaped _ => shaped) (.pre (fun _ => And.left) (resize_shaped surface))
    (fun _ shaped _ _ => shaped) (fun _ shaped => .pre (fun _ here => here ▸ shaped) (prepared _))
    (fun _ shaped => encodeFrame_shaped shaped target surface) fun _ _ _ => id

theorem next_shaped (shaped : graph.Shaped table leaves root) (call : Call σ) :
    (call.next graph).Shaped table leaves root := by
  cases call with
  | setup surface => exact (setup_shaped surface).after shaped
  | resize surface => exact (resize_shaped surface).after shaped
  | encode target surface =>
    rw [Call.next_encode]
    exact (encode_shaped target surface).after shaped
  | _ => exact shaped

/-- The passes of a graph have the shape of its components after every history. -/
theorem after_shaped (shaped : graph.Shaped table leaves root) (calls : List (Call σ)) :
    (graph.after calls).Shaped table leaves root := by
  induction calls using List.reverseRecOn with
  | nil => exact shaped
  | append_singleton calls call ih =>
    rw [after_append]
    exact next_shaped ih call

theorem build_shaped {host : Host σ} {shared : Shared} {coordinators : List (String × OffFrame.Coordinator)}
    (built : build host shared coordinators source table = .ok graph) :
    graph.Shaped table (source.compiledLeaves graph.session.compiled) source.root := by
  obtain ⟨-, ⟨_, made⟩, -, -⟩ := build_eq_ok built
  exact Pass.ofComponents_becomes source.root made fun _ listed _ made => made.builtFrom listed

end

section

variable {leaves : List (FlatLeaf × CompiledLeaf)} {root : List Component} {start graph : Graph Recorder}

/-- Before a frame is encoded: the tree has its shape, the caller's values and the number of the frame are as they were,
and no submission was taken back. -/
structure Framed (table : ResourceTable) (leaves : List (FlatLeaf × CompiledLeaf)) (root : List Component)
    (start graph : Graph Recorder) : Prop where
  shaped : graph.Shaped table leaves root
  shared_eq : graph.session.shared = start.session.shared
  frame_eq : graph.frame = start.frame
  submissions : start.session.host.device.submissions <+: graph.session.host.device.submissions

/-- What the pool does lets the frame be. -/
theorem resize_framed (surface : Surface) : Keeps (Framed table leaves root start) (resize surface) := by
  have faced : Keeps (Framed table leaves root start) (setSurface surface) :=
    .ofModify fun _ framed => ⟨framed.shaped, framed.shared_eq, framed.frame_eq, framed.submissions⟩
  have followed : Keeps (Framed table leaves root start) (poolAction (Pool.resize surface)) := by
    refine .ofEach fun g framed => ?_
    have accepts : Host.Accepts (fun _ => True)
        fun host : Host Recorder => start.session.host.device.submissions <+: host.device.submissions :=
      Recorder.accepts_logged fun _ _ _ kept _ => List.IsPrefix.trans kept (List.prefix_append _ _)
    have spares : Pool.Spares fun host : Host Recorder =>
        start.session.host.device.submissions <+: host.device.submissions :=
      ⟨accepts.log, fun spec => accepts.perform (.createTexture spec), fun spec => accepts.perform (.createBuffer spec)⟩
    have any := PartEffect.Ensures.any (Pool.resize (σ := Recorder) surface)
    refine (poolAction_ensures framed.submissions (spares.resize_keeps surface) (any.pre fun _ _ _ => trivial)).mono ?_ ?_
    · rintro _ _ ⟨host, pool, reached, -, rfl⟩
      exact ⟨framed.shaped, framed.shared_eq, framed.frame_eq, reached⟩
    · rintro _ _ ⟨-, host, pool, reached, -, rfl⟩
      exact ⟨framed.shaped, framed.shared_eq, framed.frame_eq, reached⟩
  refine .ofGet fun g framed => .pre (fun _ here => here ▸ framed) (.ofIf (fun _ => ?_) fun _ => faced)
  exact followed.bind fun _ => faced

/-- After the preparation of the passes, they do what the components denote. -/
theorem preparePasses_serves (framed : Framed table leaves root start graph) (surface : Surface) :
    Ensures (· = graph) (passAction (Pass.prepareAll ⟨graph.session.pool, surface⟩))
      (fun _ after => Framed table leaves root start after ∧
        Component.ServeAll table leaves ⟨after.session.pool, surface⟩ start.session.shared root after.passes)
      fun _ _ => True := by
  have stays : Component.AllStay table leaves graph.session.Alike
      (Component.ServeAll table leaves ⟨graph.session.pool, surface⟩ graph.session.shared root) root
      (Pass.prepareAll ⟨graph.session.pool, surface⟩ graph.passes) :=
    Component.prepareAll_stays (Session.Alike.aloof graph.session) (fun _ => Session.Alike.shared_eq) root graph.passes
      framed.shaped
  have readied := Pass.prepareAll_readied (Session.Proceeds.readies ⟨graph.session.pool, surface⟩) graph.passes
    (fun _ _ => trivial) graph.session
  have steps : Step.Ensures (fun now => graph.session.Alike now ∧ graph.session.Proceeds now)
      (Pass.prepareAll ⟨graph.session.pool, surface⟩ graph.passes)
      (fun _ passes now => (Component.BecomeAll table leaves root passes ∧ Component.ServeAll table leaves
        ⟨graph.session.pool, surface⟩ graph.session.shared root passes) ∧ graph.session.Alike now ∧
          graph.session.Proceeds now)
      fun _ _ _ => True :=
    Step.Ensures.mono (stays.and readied) (fun _ _ _ done => ⟨done.1.1, done.1.2, done.2.2⟩) fun _ _ _ _ => trivial
  refine (passAction_step graph ⟨.refl graph.session, .refl graph.session⟩ steps).mono ?_ fun _ _ _ => trivial
  rintro _ _ ⟨session, passes, ⟨⟨shaped, serve⟩, alike, proceeds⟩, rfl⟩
  refine ⟨⟨shaped, alike.shared_eq.trans framed.shared_eq, framed.frame_eq, ?_⟩, ?_⟩
  · exact List.IsPrefix.trans framed.submissions proceeds.submissions
  · dsimp only
    rw [proceeds.pool_eq, ← framed.shared_eq]
    exact serve

/-- What was done to the stream of a frame fills in what the components denote for the values that were shared when the
frame began, and its submissions are new. -/
def Streamed (table : ResourceTable) (leaves : List (FlatLeaf × CompiledLeaf)) (root : List Component)
    (start : Graph Recorder) (target : Option Texture) (surface : Surface) (stream : CommandStream)
    (after : Graph Recorder) : Prop :=
  ∃ outline script,
    Component.DenoteAll table leaves (Pass.leavesAll after.passes) ⟨⟨after.session.pool, surface⟩, target, start.frame⟩
      start.session.shared root outline ∧
    outline.Fills ⟨⟨after.session.pool, surface⟩, target, start.frame⟩ [] script ∧
    stream.Wrote start.session.host.device.submissions.length script after.session.host.device

/-- Prepared passes are recorded as they serve the components. -/
theorem encodeFrame_streamed (framed : Framed table leaves root start graph) (target : Option Texture)
    (surface : Surface)
    (serve : Component.ServeAll table leaves ⟨graph.session.pool, surface⟩ start.session.shared root graph.passes) :
    Ensures (· = graph) (encodeFrame target surface) (Streamed table leaves root start target surface)
      fun _ _ => True := by
  have encodes : Pass.Encodes Session.ask ⟨⟨graph.session.pool, surface⟩, target, graph.frame⟩ _ _ _ :=
    (Session.Proceeds.runsJobs.encoding graph.session).encodes
      (fun session name request => Session.Proceeds.runsJobs.asked name request session) (.refl graph.session) rfl
  have proceeds := Pass.encodeAll_ensures encodes graph.passes (fun _ _ => trivial)
  have writes := Pass.encodeAll_writes Session.Proceeds.asked ⟨⟨graph.session.pool, surface⟩, target, graph.frame⟩
    graph.passes start.session.host.device.submissions.length []
  have begun : CommandStream.Wrote start.session.host.device.submissions.length []
      { label := s!"frame {graph.frame}" } graph.session.host.device :=
    CommandStream.wrote_start _ framed.submissions.length_le
  refine (encodeFrame_step graph (writes.and proceeds) ⟨begun, CommandStream.only_start _, .refl graph.session⟩).mono ?_
    fun _ _ _ => trivial
  rintro stream _ ⟨session, ⟨⟨outline, made, script, fills, wrote⟩, -, proceeds⟩, rfl⟩
  have denotes := serve ⟨⟨graph.session.pool, surface⟩, target, graph.frame⟩ rfl _ (List.Subset.refl _) outline made
  rw [framed.frame_eq, ← proceeds.pool_eq] at denotes fills
  exact ⟨outline, script, denotes, fills, wrote⟩

/-- What an encoding does to the stream of its frame is what the components denote. -/
theorem encode_streamed (shaped : graph.Shaped table leaves root) (target : Option Texture) (surface : Surface) :
    Ensures (· = graph) (encode target surface) (Streamed table leaves root graph target surface) fun _ _ => True := by
  have here : Framed table leaves root graph graph := ⟨shaped, rfl, rfl, List.prefix_refl _⟩
  have resizes : Ensures (fun g => g = graph ∧ g.ready) (resize surface) (fun _ => Framed table leaves root graph)
      fun _ _ => True :=
    .pre (fun _ held => held.1 ▸ here) ((resize_framed surface).mono (fun _ _ => id) fun _ _ _ => trivial)
  exact encode_rule (fun _ _ _ => trivial) resizes (fun _ same _ _ => same ▸ here)
    (fun _ framed => preparePasses_serves framed surface)
    (fun _ held => encodeFrame_streamed held.1 target surface held.2) fun _ _ _ streamed => streamed

theorem finish_eq_ok {stream : CommandStream} {late after : Graph Recorder} {ids : List Nat}
    (ended : (finish stream).apply late = (.ok ids, after)) :
    (CommandStream.finish stream).apply late.session.host = (.ok ids, after.session.host) := by
  rw [finish, deviceAction, Effect.apply_inside, Effect.apply_inside, Effect.apply_mapError] at ended
  obtain ⟨same, rfl⟩ := Prod.mk.inj ended
  refine Prod.ext ?_ rfl
  change ((CommandStream.finish stream).apply late.session.host).1.mapError GraphError.device = _ at same
  cases done : ((CommandStream.finish stream).apply late.session.host).1 with
  | error _ =>
    rw [done] at same
    cases same
  | ok _ =>
    rw [done] at same
    cases same
    rfl

/-- Whatever was done to a graph of a program, the commands that a frame submits, one submission after another, are
those that the component tree denotes for the values shared when the frame begins, filled in by what its callbacks do:
its submissions are just those that the script of the frame cuts them into, each of them new. None of them is empty
unless a callback opens an encoder that it does not need. -/
theorem frame_denoted {host : Host Recorder} {shared : Shared} {coordinators : List (String × OffFrame.Coordinator)}
    (built : build host shared coordinators source table = .ok graph) (calls : List (Call Recorder))
    (target : Option Texture) (surface : Surface) {stream : CommandStream} {encoded late submitted : Graph Recorder}
    {ids : List Nat} (ran : (encode target surface).apply (graph.after calls) = (.ok stream, encoded))
    (later : encoded.session.host.device.submissions <+: late.session.host.device.submissions)
    (ended : (finish stream).apply late = (.ok ids, submitted)) :
    ∃ (outline : Outline) (script : Script),
      Component.DenoteAll table (source.compiledLeaves graph.session.compiled) (Pass.leavesAll encoded.passes)
        ⟨⟨encoded.session.pool, surface⟩, target, (graph.after calls).frame⟩ (graph.after calls).session.shared
        source.root outline ∧
      outline.Fills ⟨⟨encoded.session.pool, surface⟩, target, (graph.after calls).frame⟩ [] script ∧
      ids.map (fun id => submitted.session.host.device.submissions[id]?.map (·.commands)) = script.submissions.map some ∧
      script.submissions.flatten = script.commands ∧
      (.start ∉ script → ∀ commands ∈ script.submissions, commands ≠ []) ∧
      ids.Pairwise (· < ·) ∧ ∀ id ∈ ids, (graph.after calls).session.host.device.submissions.length ≤ id := by
  have shaped := after_shaped (build_shaped built) calls
  obtain ⟨outline, script, denotes, fills, wrote⟩ := (encode_streamed shaped target surface).result rfl ran
  obtain ⟨same, ascending, new⟩ := (wrote.mono later).finish (finish_eq_ok ended)
  exact ⟨outline, script, denotes, fills, same, script.flatten_submissions, Script.ne_nil_of_mem_submissions, ascending,
    new⟩

/-- A frame that is run is encoded and then submitted. -/
theorem runFrame_eq_ok {target : Option Texture} {surface : Surface} {submitted : Graph Recorder} {ids : List Nat}
    (ran : (runFrame target surface).apply graph = (.ok ids, submitted)) :
    ∃ stream encoded, (encode target surface).apply graph = (.ok stream, encoded) ∧
      (finish stream).apply encoded = (.ok ids, submitted) := by
  rw [runFrame, Effect.apply_bind] at ran
  split at ran
  · rename_i stream encoded applied
    exact ⟨stream, encoded, applied, ran⟩
  · cases ran

/-- How often things are repeated changes for the next frame; what was recorded is submitted, and an encoder with
nothing in it after that, before the buffer is cleared once more. -/
def cutAndClear (view : EncodeView) : CallbackCode :=
  let clear : CallbackCode := .clear .done "second" view ⟨0⟩
  .share (·.setCounter "times" 5) (.commit fun _ => .openEncoder (.commit (clear.ifDone "second")))

/-- A buffer is cleared, and a callback goes on from there, all of it repeated. -/
def repeatedClears : Program where
  library := ""
  root := [
    .group { label := "repeated", repeatCount := some "times" } [
      .leaf (.blit ⟨"first", .clearBuffer ⟨0⟩⟩),
      .leaf (.callback ⟨"second", cutAndClear⟩)],
    .group { label := "off", active := some (.named "on") } [.leaf (.blit ⟨"third", .clearBuffer ⟨0⟩⟩)]]

/-- The buffer that is cleared. -/
def word : ResourceTable := { buffers := [⟨"p", .scalar .u32, 4, .fixed 1⟩] }

/-- A frame that fails, a setup and a change of the counter. -/
def untilCleared : List (Call Recorder) :=
  [.encode none ⟨.flat 1 1, .rgba8Unorm⟩, .setup ⟨.flat 1 1, .rgba8Unorm⟩, .share (·.setCounter "times" 2)]

/-- After that, a frame submits what is denoted: the two clears of each round are cut apart, with nothing between them. -/
theorem frame_denoted_repeated :
    ∃ (graph encoded submitted : Graph Recorder) (stream : CommandStream) (ids : List Nat)
      (outline : Outline) (script : Script),
      build ⟨{}, []⟩ {} [] repeatedClears word = .ok graph ∧
      (encode none ⟨.flat 1 1, .rgba8Unorm⟩).apply (graph.after untilCleared) = (.ok stream, encoded) ∧
      (finish stream).apply encoded = (.ok ids, submitted) ∧
      Component.DenoteAll word (repeatedClears.compiledLeaves graph.session.compiled) (Pass.leavesAll encoded.passes)
        ⟨⟨encoded.session.pool, ⟨.flat 1 1, .rgba8Unorm⟩⟩, none, (graph.after untilCleared).frame⟩
        (graph.after untilCleared).session.shared repeatedClears.root outline ∧
      outline.Fills ⟨⟨encoded.session.pool, ⟨.flat 1 1, .rgba8Unorm⟩⟩, none, (graph.after untilCleared).frame⟩ [] script ∧
      script.submissions.map List.length = [1, 0, 2, 0, 1] := by
  have run : (build ⟨{}, []⟩ {} [] repeatedClears word).toOption.map (fun graph =>
      let frame := (runFrame none ⟨.flat 1 1, .rgba8Unorm⟩).apply (graph.after untilCleared)
      frame.1.toOption.map (·.map fun id => frame.2.session.host.device.submissions[id]?.map (·.commands.length))) =
        some (some [some 1, some 0, some 2, some 0, some 1]) := by decide +kernel
  cases built : build (σ := Recorder) ⟨{}, []⟩ {} [] repeatedClears word with
  | error _ =>
    rw [built] at run
    cases run
  | ok graph =>
    rw [built] at run
    have lengths := Option.some.inj run
    dsimp only at lengths
    cases frame : (runFrame none ⟨.flat 1 1, .rgba8Unorm⟩).apply (graph.after untilCleared) with
    | mk result submitted =>
      cases result with
      | error _ =>
        rw [frame] at lengths
        cases lengths
      | ok ids =>
        rw [frame] at lengths
        obtain ⟨stream, encoded, ran, ended⟩ := runFrame_eq_ok frame
        obtain ⟨outline, script, denotes, fills, same, -⟩ :=
          frame_denoted built untilCleared none ⟨.flat 1 1, .rgba8Unorm⟩ ran (List.prefix_refl _) ended
        refine ⟨graph, encoded, submitted, stream, ids, outline, script, rfl, ran, ended, denotes, fills, ?_⟩
        have counted := congrArg (List.map (Option.map List.length)) same
        simp only [List.map_map, Function.comp_def, Option.map_map, Option.map_some] at counted
        refine List.map_injective_iff.mpr (fun _ _ => Option.some.inj) ?_
        rw [List.map_map]
        exact counted.symm.trans (Option.some.inj lengths)

end

end Graph

end FrameGraph
