import FrameGraph.Proofs.Graph.Uploads
import FrameGraph.Proofs.Pass.Entries

/-! # Entry points of a graph on a recorder

Whatever was done to a graph, the modules that its passes are set up with are those of its program. So an attempt that
ends with an entry point that is not found was given one that is not spelled as a recorder looks for it.
-/

namespace FrameGraph

/-- What a pass was compiled to is what its leaf was, and its entry points are those of the leaf. -/
theorem Pass.compiled?_ofLeaf? {table : ResourceTable} {node : Leaf} {compiled leaf : CompiledLeaf} {pass : Pass}
    (made : ofLeaf? table node compiled = some pass) (has : pass.compiled? = some leaf) :
    leaf = compiled ∧ leaf.entries = (node.functions compiled).map (·.entry) := by
  unfold ofLeaf? at made
  split at made <;> cases made
  · cases has
    exact ⟨rfl, rfl⟩
  · cases has
    exact ⟨rfl, rfl⟩
  · cases has
  · cases has
  · cases has

theorem Pass.compiled?_asBuilt (pass : Pass) : pass.asBuilt.compiled? = pass.compiled? := by
  cases pass <;> rfl

/-- A leaf with entry points becomes a pass that has them. -/
theorem Pass.compiled?_of_becomes {table : ResourceTable} {unit : Nat} {node : Leaf} {compiled : CompiledLeaf}
    {pass : Pass} (made : ofLeaf? table node compiled = some pass) (becomes : node.BecomesIn unit compiled)
    {entry : String} (named : entry ∈ compiled.entries) : pass.compiled? = some compiled := by
  unfold Leaf.BecomesIn at becomes
  split at becomes
  · cases made
    rfl
  · cases made
    rfl
  · cases named
  · cases named
  · cases named
  · exact becomes.elim

namespace Graph

open Effect (Ensures Keeps)

section

variable {σ : Type} {program : CompiledProgram} {graph : Graph σ}

/-- This is known of the compiled program and of the modules, whatever else is with the graph. -/
abbrev Knows (known : CompiledProgram → Option (List ShaderModule) → Prop) (graph : Graph σ) : Prop :=
  known graph.session.compiled graph.session.modules

/-- The modules that the graph has kept are those of the program. -/
abbrev Loaded (program : CompiledProgram) : Graph σ → Prop :=
  Knows fun compiled modules => compiled = program ∧ ∀ kept, modules = some kept → kept = program.modules

/-- The graph has the modules of the program. -/
abbrev HasLoaded (program : CompiledProgram) : Graph σ → Prop :=
  Knows fun compiled modules => compiled = program ∧ modules = some program.modules

variable {known : CompiledProgram → Option (List ShaderModule) → Prop}

theorem HasLoaded.loaded (has : graph.HasLoaded program) : graph.Loaded program :=
  ⟨has.1, fun _ kept => Option.some.inj (kept.symm.trans has.2)⟩

/-- A session in the same setting knows the same. -/
theorem Knows.stand (knows : graph.Knows known) {session : Session σ} (stands : session.At graph.session.setting)
    (passes : List Pass) : Knows known { graph with session, passes } := by
  have compiled : session.compiled = graph.session.compiled := stands.compiled_eq
  have modules : session.modules = graph.session.modules := congrArg Setting.modules stands.setting_eq
  rw [Knows, compiled, modules]
  exact knows

/-- Actions on the pool end with errors of the device. -/
theorem poolAction_knows {α : Type} (action : PoolM σ α) :
    Ensures (Knows known) (poolAction action) (fun _ => Knows known)
      fun error after => (∃ cause, error = .device cause) ∧ after.Knows known := by
  have any : PartEffect.Keeps (fun (_ : Pool) (_ : Host σ) => True) action := .any _
  refine .ofEach fun g knows => (poolAction_ensures trivial any (any.pre fun _ _ _ => trivial)).mono ?_ ?_
  · rintro _ _ ⟨host, pool, -, -, rfl⟩
    exact knows
  · rintro _ _ ⟨device, host, pool, -, -, rfl⟩
    exact ⟨device, knows⟩

theorem keepModules_loaded : Ensures (Loaded (σ := σ) program) (keepModules program.modules)
    (fun _ => HasLoaded program) fun _ _ => False := by
  refine .ofGet fun g loaded => .ofIf (fun has => ?_) fun _ => .ofSet fun _ _ => ⟨loaded.1, rfl⟩
  obtain ⟨modules, kept⟩ := Option.isSome_iff_exists.mp has
  obtain rfl := loaded.2 modules kept
  refine .inside fun now here => .ofModify fun session there => ?_
  subst here there
  exact ⟨loaded.1, kept⟩

variable [Device σ]

theorem resize_knows (surface : Surface) :
    Ensures (Knows (σ := σ) known) (resize surface) (fun _ => Knows known)
      fun error after => (∃ cause, error = .device cause) ∧ after.Knows known := by
  have faced : Ensures (Knows (σ := σ) known) (setSurface surface) (fun _ => Knows known)
      fun error after => (∃ cause, error = .device cause) ∧ after.Knows known := .ofModify fun _ => id
  refine .ofGet fun g knows => .pre (fun _ here => here ▸ knows) (.ofIf (fun _ => ?_) fun _ => faced)
  exact (poolAction_knows _).bind fun _ => faced

theorem createModule_knows [LawfulDevice σ] (unit : CompiledUnit) :
    Ensures (Knows (σ := σ) known) (createModule unit) (fun module after => module = unit.module ∧ after.Knows known)
      fun error after => (∃ cause, error = .program unit.label cause) ∧ after.Knows known := by
  unfold createModule deviceAction
  refine .inside fun g knows => .inside fun session here => .mapError (.pre (fun _ _ => trivial) ?_)
  subst here
  refine (Host.perform_ensures (LawfulDevice.createModule unit.module) fun _ _ => id).mono ?_ ?_
  · exact fun module _ done => ⟨done.2, knows⟩
  · exact fun cause _ _ => ⟨⟨cause, rfl⟩, knows⟩

theorem createModules_loaded [LawfulDevice σ] (units : List CompiledUnit) :
    Ensures (Loaded (σ := σ) program) (units.mapM createModule)
      (fun modules after => modules = units.map CompiledUnit.module ∧ after.Loaded program)
      fun error after => (∀ cause, error ≠ .pass cause) ∧ after.Loaded program := by
  let made (seen : List CompiledUnit) (out : List ShaderModule) (after : Graph σ) : Prop :=
    out = seen.map CompiledUnit.module ∧ after.Loaded program
  refine .pre (fun _ loaded => ⟨rfl, loaded⟩) (.mapM made fun seen out unit _ => .given fun same => ?_)
  refine (createModule_knows unit).mono (fun _ _ done => ⟨?_, done.2⟩) ?_
  · rw [List.map_append, List.map_singleton, same, done.1]
  · rintro _ _ ⟨⟨_, rfl⟩, loaded⟩
    exact ⟨nofun, loaded⟩

/-- Before the passes are set up the graph has the modules of its program; when it does not come so far, this is not for
a pass. -/
theorem arrange_loaded [LawfulDevice σ] (surface : Surface) :
    Ensures (Loaded (σ := σ) program) (arrange surface) (fun _ => HasLoaded program)
      fun error after => (∀ cause, error ≠ .pass cause) ∧ after.Loaded program := by
  refine .ofGet fun g loaded => .pre (fun _ here => here ▸ loaded) ?_
  rw [loaded.1]
  refine (createModules_loaded program.units).bind fun modules => .given fun same => ?_
  subst same
  refine (keepModules_loaded.mono (fun _ _ => id) fun _ _ => False.elim).bind fun _ => ?_
  refine .bind ((poolAction_knows _).mono (fun _ _ => id) ?_) fun _ => .ofModify fun _ => id
  rintro _ _ ⟨⟨_, rfl⟩, has⟩
  exact ⟨nofun, HasLoaded.loaded has⟩

theorem preparePasses_knows (knows : graph.Knows known) (surface : Surface) :
    Ensures (· = graph) (passAction (Pass.prepareAll ⟨graph.session.pool, surface⟩)) (fun _ => Knows known)
      fun _ => Knows known := by
  have prepares : Pass.Prepares (σ := σ) ⟨graph.session.pool, surface⟩ (Session.At graph.session.setting) (fun _ => True) _ :=
    Pass.Lasting.any.prepares rfl
  have steps := Pass.prepareAll_ensures prepares graph.passes fun _ _ => trivial
  refine (passAction_ensures graph ⟨rfl, trivial⟩ steps).mono ?_ ?_
  · rintro _ _ ⟨session, passes, stands, -, rfl⟩
    exact knows.stand stands passes
  · rintro _ _ ⟨-, session, passes, stands, -, rfl⟩
    exact knows.stand stands passes

theorem encodeFrame_knows (knows : graph.Knows known) (target : Option Texture) (surface : Surface) :
    Ensures (· = graph) (encodeFrame target surface) (fun _ => Knows known) fun _ => Knows known := by
  have stands : graph.session.At graph.session.setting := ⟨rfl, trivial⟩
  have asked := fun session name request => (Session.at_upheldInJobs (σ := σ) graph.session.setting).asked name request session
  have encodes : Pass.Encodes Session.ask ⟨⟨graph.session.pool, surface⟩, target, graph.frame⟩ _ (fun _ => True) _ :=
    Pass.Lasting.any.upheld.encodes asked stands rfl
  refine (encodeFrame_step graph (Pass.encodeAll_ensures encodes graph.passes fun _ _ => trivial)
    ⟨CommandStream.only_start _, stands⟩).mono ?_ ?_
  · rintro _ _ ⟨session, ⟨-, stands⟩, rfl⟩
    exact knows.stand stands graph.passes
  · rintro _ _ ⟨_, _, session, ⟨-, -, stands⟩, -, rfl⟩
    exact knows.stand stands graph.passes

theorem encode_knows (target : Option Texture) (surface : Surface) :
    Ensures (Knows (σ := σ) known) (encode target surface) (fun _ => Knows known) fun _ => Knows known :=
  encode_rule (fun _ knows _ => knows) (.pre (fun _ => And.left) ((resize_knows surface).mono (fun _ _ => id)
    fun _ _ => And.right)) (fun _ knows _ _ => knows) (fun _ knows => preparePasses_knows knows surface)
    (fun _ knows => encodeFrame_knows knows target surface) fun _ _ _ => id

/-- A graph that is ready follows the surface; another one arranges what the passes need and sets them up. -/
theorem setup_cases {before ok : Graph σ → Prop} {failed : GraphError → Graph σ → Prop} {surface : Surface}
    (resizes : Ensures (fun g => before g ∧ g.ready) (resize surface) (fun _ => ok) failed)
    (sets : Ensures (fun g => before g ∧ ¬g.ready) (do arrange surface; setUpPasses surface) (fun _ => ok) failed) :
    Ensures before (setup surface) (fun _ => ok) failed := by
  intro g holds
  by_cases ready : g.ready
  · have same : (setup surface).apply g = (resize surface).apply g := by
      rw [setup, Effect.apply_bind, Effect.apply_get]
      dsimp only
      rw [if_pos ready]
    rw [same]
    exact resizes g ⟨holds, ready⟩
  · rw [setup_apply surface ready]
    exact sets g ⟨holds, ready⟩

end

section

variable {program : CompiledProgram} {graph : Graph Recorder} {surface : Surface}

/-- The error, if it is one of the passes, is that of an entry point of a leaf that is not found, or another one. -/
abbrev MissesEntry (program : CompiledProgram) (passes : List Pass) (error : GraphError) : Prop :=
  ∀ cause entry, error = .pass cause → cause.Unfound entry →
    ∃ leaf ∈ Pass.leavesAll passes, leaf.Lacks program.modules entry

theorem setUpPasses_looksUp (has : graph.HasLoaded program) (surface : Surface) :
    Ensures (· = graph) (setUpPasses surface)
      (fun _ after => (∀ leaf ∈ Pass.leavesAll graph.passes, leaf.Finds program.modules) ∧ after.Loaded program)
      fun error after => MissesEntry program graph.passes error ∧ after.Loaded program := by
  refine .ofGet fun g here => ?_
  subst here
  have looks : Pass.TreeLooksUp g.session.setting program.modules (Pass.leavesAll g.passes)
      (Pass.setupAll ⟨g.session.pool, surface⟩ g.passes) := Pass.setupAll_looksUp has.2 rfl g.passes
  have set : Ensures (· = g) (passAction (Pass.setupAll ⟨g.session.pool, surface⟩))
      (fun _ after => (∀ leaf ∈ Pass.leavesAll g.passes, leaf.Finds program.modules) ∧ after.Loaded program)
      fun error after => MissesEntry program g.passes error ∧ after.Loaded program := by
    refine (passAction_step g ⟨rfl, trivial⟩ looks).mono ?_ ?_
    · rintro _ _ ⟨session, passes, ⟨finds, stands⟩, rfl⟩
      exact ⟨finds, HasLoaded.loaded (Knows.stand has stands passes)⟩
    · rintro _ _ ⟨cause, session, passes, ⟨misses, stands⟩, rfl, rfl⟩
      refine ⟨?_, HasLoaded.loaded (Knows.stand has stands passes)⟩
      rintro _ entry ⟨⟩ unfound
      exact misses entry unfound
  have begun : Ensures
      (fun after : Graph Recorder =>
        (∀ leaf ∈ Pass.leavesAll g.passes, leaf.Finds program.modules) ∧ after.Loaded program)
      (modify fun graph => { graph with ready := true } : GraphM Recorder Unit)
      (fun _ after => (∀ leaf ∈ Pass.leavesAll g.passes, leaf.Finds program.modules) ∧ after.Loaded program)
      fun error after => MissesEntry program g.passes error ∧ after.Loaded program := .ofModify fun _ => id
  refine set.bind fun _ => begun.bind fun _ => ?_
  exact .inside fun _ done => .ofModify fun _ here => here ▸ done

/-- A setup that succeeds for the first time has found all entry points, and one that ends with an entry point that is
not found has not found one of these. -/
theorem setup_looksUp (loaded : graph.Loaded program) (surface : Surface) :
    Ensures (· = graph) (setup surface)
      (fun _ after => (¬graph.ready → ∀ leaf ∈ Pass.leavesAll graph.passes, leaf.Finds program.modules) ∧ after.Loaded program)
      fun error after => MissesEntry program graph.passes error ∧ after.Loaded program := by
  have here : Ensures (fun g => g = graph ∧ g.ready) (resize surface)
      (fun _ after => (¬graph.ready → ∀ leaf ∈ Pass.leavesAll graph.passes, leaf.Finds program.modules) ∧ after.Loaded program)
      fun error after => MissesEntry program graph.passes error ∧ after.Loaded program := by
    refine .ofEach fun g ⟨same, ready⟩ => .pre (fun _ now => now ▸ same ▸ loaded) ((resize_knows surface).mono ?_ ?_)
    · exact fun _ _ after => ⟨fun unready => absurd (same ▸ ready) unready, after⟩
    · rintro _ _ ⟨⟨_, rfl⟩, after⟩
      exact ⟨nofun, after⟩
  refine setup_cases here (.ofEach fun g ⟨same, _⟩ => ?_)
  subst same
  have arranged : Ensures (· = g) (arrange surface) (fun _ after => after.passes = g.passes ∧ after.HasLoaded program)
      fun error after => MissesEntry program g.passes error ∧ after.Loaded program := by
    have both : Ensures (fun now => Unmoved g now ∧ now.Loaded program) (arrange surface)
        (fun _ after => Unmoved g after ∧ after.HasLoaded program)
        fun error after => Unmoved g after ∧ (∀ cause, error ≠ .pass cause) ∧ after.Loaded program :=
      (arrange_unmoved surface).and (arrange_loaded surface)
    refine .pre ?_ (both.mono ?_ ?_)
    · rintro _ rfl
      exact ⟨⟨rfl, rfl, rfl⟩, loaded⟩
    · exact fun _ _ done => ⟨done.1.passes_eq, done.2⟩
    · exact fun _ _ failed => ⟨fun cause _ same => absurd same (failed.2.1 cause), failed.2.2⟩
  refine arranged.bind fun _ => .ofEach fun now ⟨passes, has⟩ => ?_
  rw [← passes]
  exact (setUpPasses_looksUp has surface).mono (fun _ _ done => ⟨fun _ => done.1, done.2⟩) fun _ _ => id

theorem next_loaded (loaded : graph.Loaded program) (call : Call Recorder) : (call.next graph).Loaded program := by
  have here : graph.session.At graph.session.setting := ⟨rfl, trivial⟩
  cases call with
  | setup surface =>
    exact ((setup_looksUp loaded surface).mono (fun _ _ => And.right) fun _ _ => And.right).after rfl
  | resize surface =>
    exact ((resize_knows surface).mono (fun _ _ => id) fun _ _ => And.right).after loaded
  | encode target surface =>
    rw [Call.next_encode]
    exact (encode_knows target surface).after loaded
  | request name request =>
    exact Knows.stand loaded ((Session.at_upheldInJobs _).asked name request graph.session here) graph.passes
  | release name answer =>
    exact Knows.stand loaded ((Session.at_upheldInJobs _).release name answer graph.session here) graph.passes
  | observe name => exact Knows.stand loaded (Pass.Lasting.any.upheld.observeFrame name here) graph.passes
  | share f => exact loaded
  | host f => exact loaded

/-- Whatever was done to a graph, the modules that it has kept are those of its program. -/
theorem after_loaded (loaded : graph.Loaded program) (calls : List (Call Recorder)) :
    (graph.after calls).Loaded program := by
  induction calls using List.reverseRecOn with
  | nil => exact loaded
  | append_singleton calls call ih =>
    rw [after_append]
    exact next_loaded ih call

/-- Every pass of a built graph is made of a compiled leaf with these entry points. -/
theorem build_compiled {source : Program} {table : ResourceTable} {host : Host Recorder} {shared : Shared}
    {coordinators : List (String × OffFrame.Coordinator)}
    (built : build host shared coordinators source table = .ok graph) :
    Pass.Each (fun pass => ∀ compiled, pass.compiled? = some compiled →
      ∃ leaf ∈ source.compiledLeaves graph.session.compiled, leaf.2 = compiled ∧
        compiled.entries = (leaf.1.node.functions compiled).map (·.entry)) graph.passes := by
  obtain ⟨⟨log, compiles⟩, ⟨place, made⟩, -, -⟩ := build_eq_ok built
  refine Pass.each_ofComponents (Program.compile_ok compiles) made fun leaf listed pass made compiled has => ?_
  obtain ⟨rfl, entries⟩ := Pass.compiled?_ofLeaf? made has
  exact ⟨leaf, listed, rfl, entries⟩

/-- Setting a graph up on a recorder fails for an entry point exactly as it is spelled. An entry point whose source has
`fn`, one blank, the name and the opening bracket right behind each other is found, whatever it was renamed to and
whatever was spliced in around it. Other entry points are accepted by the compiler as well: an attempt that ends with an
entry point that is not found was given one of these, and the first attempt succeeds only if all of them are found. -/
theorem setup_unfound {source : Program} {table : ResourceTable} {host : Host Recorder} {shared : Shared}
    {coordinators : List (String × OffFrame.Coordinator)}
    (built : build host shared coordinators source table = .ok graph) :
    (∀ leaf ∈ source.compiledLeaves graph.session.compiled,
      List.Forall₂ (fun origin function =>
          origin.IsTight → leaf.2.FoundIn graph.session.compiled.modules function.entry)
        leaf.1.node.origins (leaf.1.node.functions leaf.2)) ∧
    (∀ calls surface error entry,
      ((setup surface).apply (graph.after calls)).1 = .error (.pass error) → error.Unfound entry →
        ∃ leaf ∈ source.compiledLeaves graph.session.compiled,
          ∃ pair ∈ leaf.1.node.origins.zip (leaf.1.node.functions leaf.2), pair.2.entry = entry ∧ ¬pair.1.IsTight ∧
            ¬leaf.2.FoundIn graph.session.compiled.modules entry) ∧
    ∀ surface, ¬(Call.setup surface).Fails graph → ∀ leaf ∈ source.compiledLeaves graph.session.compiled,
      ∀ entry ∈ leaf.2.entries, leaf.2.FoundIn graph.session.compiled.modules entry := by
  obtain ⟨⟨log, compiles⟩, ⟨place, made⟩, ⟨_, session_eq⟩, unready⟩ := build_eq_ok built
  have loaded : graph.Loaded graph.session.compiled := by
    refine ⟨rfl, fun kept has => ?_⟩
    rw [session_eq] at has
    cases has
  have finds : ∀ leaf ∈ source.compiledLeaves graph.session.compiled, List.Forall₂ (fun origin function =>
      origin.IsTight → leaf.2.FoundIn graph.session.compiled.modules function.entry) leaf.1.node.origins
        (leaf.1.node.functions leaf.2) := fun leaf listed => Program.compile_finds compiles listed
  refine ⟨finds, fun calls surface error entry failed unfound => ?_, fun surface succeeds leaf listed entry named => ?_⟩
  · -- the error names an entry point of a leaf that is, but for what it has created, one that was built
    have looked := setup_looksUp (after_loaded loaded calls) surface _ rfl
    split at looked <;> rename_i applied <;> rw [applied] at failed <;> cases failed
    obtain ⟨pass, found, compiled, has, named, absent⟩ := looked.1 error entry rfl unfound
    obtain ⟨origin, inside, same⟩ := after_contains built calls pass found
    rw [← pass.compiled?_asBuilt, same, origin.compiled?_asBuilt] at has
    obtain ⟨leaf, listed, rfl, entries⟩ := build_compiled built origin inside compiled has
    obtain ⟨function, member, rfl⟩ := List.mem_map.mp (entries ▸ named)
    obtain ⟨origin, together, found⟩ := List.Forall₂.exists_zip (finds leaf listed) member
    exact ⟨leaf, listed, _, together, rfl, fun tight => absent (found tight), absent⟩
  · have looked := setup_looksUp loaded surface _ rfl
    split at looked <;> rename_i applied
    · have all := Pass.ofComponents_compiledLeaves (Program.compile_ok compiles) made
      obtain ⟨pass, inside, made⟩ := all.exists_right listed
      obtain ⟨becomes, -⟩ := (Program.compile_ok compiles).becomes leaf listed
      exact looked.1 unready pass inside leaf.2 (Pass.compiled?_of_becomes made becomes named) entry named
    · exact absurd ⟨_, congrArg Prod.fst applied⟩ succeeds

/-- A kernel with a blank between its name and its parameters. -/
def spacedKernel : Program where
  library := ""
  root := [.leaf (.dispatch {
    label := "kernel"
    source := "@compute fn k () { }"
    function := "k"
    arguments := []
    fits := [.fixed ⟨1, 1, 1⟩] })]

/-- It is compiled, and it is not found when it is set up. -/
theorem setup_unfound_spaced :
    ∃ graph : Graph Recorder, build ⟨{}, []⟩ {} [] spacedKernel {} = .ok graph ∧
      ((setup ⟨.flat 1 1, .rgba8Unorm⟩).apply (graph.after [])).1 =
        .error (.pass (.device "kernel" (.creation "kernel" (notFoundText "k")))) ∧
      ∃ leaf ∈ spacedKernel.compiledLeaves graph.session.compiled,
        ∃ pair ∈ leaf.1.node.origins.zip (leaf.1.node.functions leaf.2), pair.2.entry = "k" ∧ ¬pair.1.IsTight ∧
          ¬leaf.2.FoundIn graph.session.compiled.modules "k" := by
  have run : (match build (σ := Recorder) ⟨{}, []⟩ {} [] spacedKernel {} with
    | .ok graph => passError? ((setup ⟨.flat 1 1, .rgba8Unorm⟩).apply (graph.after [])).1
    | .error _ => none) = some (.device "kernel" (.creation "kernel" (notFoundText "k"))) := by decide +kernel
  cases built : build (σ := Recorder) ⟨{}, []⟩ {} [] spacedKernel {} with
  | error _ =>
    rw [built] at run
    cases run
  | ok graph =>
    rw [built] at run
    have failed := passError?_eq_some run
    exact ⟨graph, rfl, failed, (setup_unfound built).2.1 [] _ _ "k" failed ⟨_, _, rfl⟩⟩

end

end Graph

end FrameGraph
