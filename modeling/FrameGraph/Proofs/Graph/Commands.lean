import FrameGraph.Proofs.Graph.Build
import FrameGraph.Proofs.Graph.History
import FrameGraph.Proofs.Pass.Demands

/-! # What the device is given

The pool changes before the passes of a frame are prepared and not again until the frame has been encoded, jobs
included. So what is asked of commands may depend on the session: every command that the device is given during a call
is as asked of the session that the call leaves.
-/

namespace FrameGraph

variable {σ : Type} [Device σ]

namespace Graph

open Effect (Ensures Keeps)

/-- Assertions on sessions, leaves and commands that calls of a graph uphold, where what is asked of leaves depends on
the pool and what is asked of commands on the session. `moved` relates a pool to what it becomes, and `reached` a
session of a setting to what becomes of it in frames and jobs. -/
structure Governs (kept : Session σ → Prop) (good : Pool → Pass → Prop) (ready : Session σ → Pass → Prop)
    (admitted : Session σ → Command → Prop) (moved : Pool → Pool → Prop)
    (reached : Setting → Session σ → Session σ → Prop) : Prop where
  relocate : ∀ session host modules surface, kept session → kept { session with host, modules, surface }
  move : ∀ session pool, moved session.pool pool → kept session → kept { session with pool }
  evolve : ∀ past now leaf, moved past now → good past leaf → good now leaf
  materializes : ∀ session surface, session.pool.Sized → kept session →
    PartEffect.Ensures (fun pool _ => pool = session.pool) (Pool.materialize surface : PoolM σ Nat)
      (fun _ pool _ => moved session.pool pool) fun _ pool _ => moved session.pool pool
  resizes : ∀ session surface, session.pool.Sized → kept session →
    PartEffect.Ensures (fun pool _ => pool = session.pool) (Pool.resize surface : PoolM σ Nat)
      (fun _ pool _ => moved session.pool pool) fun _ pool _ => moved session.pool pool
  refl : ∀ session, kept session → reached session.setting session session
  stands : ∀ setting start session, reached setting start session → session.Stands setting kept
  gives : ∀ setting start session, reached setting start session →
    Host.Reaches (admitted session) start.host session.host
  lasts : ∀ setting start session command, reached setting start session → admitted start command →
    admitted session command
  setsUp : ∀ setting start view, reached setting start start → view.pool = setting.pool →
    Pass.SetsUp view (reached setting start) (good setting.pool) (good setting.pool) fun _ => True
  jobs : ∀ setting, Session.RunsJobs (reached setting) (good setting.pool) ready admitted fun _ => True

omit [Device σ] in
/-- What holds of a graph between calls. -/
structure Governed (kept : Session σ → Prop) (good : Pool → Pass → Prop) (graph : Graph σ) : Prop where
  sized : graph.session.pool.Sized
  session : kept graph.session
  passes : Pass.Each (good graph.session.pool) graph.passes

/-- What holds between calls holds again, and the device was given commands only that are as asked of the session that
was come to. -/
structure Gives (kept : Session σ → Prop) (good : Pool → Pass → Prop) (admitted : Session σ → Command → Prop)
    (before after : Graph σ) : Prop where
  governed : after.Governed kept good
  host : Host.Reaches (admitted after.session) before.session.host after.session.host

/-- The same when no command at all was given. -/
abbrev Quiet (kept : Session σ → Prop) (good : Pool → Pass → Prop) : Graph σ → Graph σ → Prop :=
  Gives kept good fun _ _ => False

/-- The same after the pool has come to fit a surface, if commands were given at all. -/
structure Renders (kept : Session σ → Prop) (good : Pool → Pass → Prop) (admitted : Session σ → Command → Prop)
    (surface : Surface) (before after : Graph σ) : Prop extends Gives kept good admitted before after where
  faced : after.session.pool.surface = some surface

variable {kept : Session σ → Prop} {good : Pool → Pass → Prop} {ready : Session σ → Pass → Prop}
  {admitted : Session σ → Command → Prop} {moved : Pool → Pool → Prop}
  {reached : Setting → Session σ → Session σ → Prop} {program : CompiledProgram} {table : ResourceTable}
  {start graph : Graph σ} {surface : Surface}

theorem Governed.quiet (governed : graph.Governed kept good) : Quiet kept good graph graph := ⟨governed, .refl _ _⟩

theorem Gives.gives (quiet : Quiet kept good start graph) : Gives kept good admitted start graph :=
  ⟨quiet.governed, quiet.host.mono fun _ => False.elim⟩

/-- Nothing at all is asked of the session and of the leaves. -/
abbrev Plain (program : CompiledProgram) (table : ResourceTable) : Graph σ → Prop :=
  Sound (fun _ => True) (fun _ => True) (fun _ => True) program table

namespace Governs

variable (rules : Governs kept good ready admitted moved reached)

include rules

/-- What calls do to the host and to the modules without commands. -/
theorem rehost (quiet : Quiet kept good start graph) {host : Host σ} {modules : Option (List ShaderModule)}
    {surface : Option Surface} (held : Host.Reaches (fun _ => False) start.session.host host) :
    Quiet kept good start { graph with session := { graph.session with host, modules, surface } } :=
  ⟨⟨quiet.governed.sized, rules.relocate _ host modules surface quiet.governed.session, quiet.governed.passes⟩, held⟩

/-- From a graph that was given admitted commands, its passes go on. -/
theorem onward (gives : Gives kept good admitted start graph) {session : Session σ} {passes : List Pass}
    (onward : reached graph.session.setting graph.session session)
    (all : Pass.Each (good graph.session.pool) passes) :
    Gives kept good admitted start { graph with session, passes } := by
  have stands := rules.stands _ _ _ onward
  refine ⟨⟨?_, stands.kept, ?_⟩, ?_⟩
  · exact stands.pool_eq ▸ gives.governed.sized
  · exact stands.pool_eq ▸ all
  · exact (gives.host.mono fun command => rules.lasts _ _ _ command onward).trans (rules.gives _ _ _ onward)

/-- The surface that the pool fits stays. -/
theorem renders_onward (renders : Renders kept good admitted surface start graph) {session : Session σ}
    {passes : List Pass} (onward : reached graph.session.setting graph.session session)
    (all : Pass.Each (good graph.session.pool) passes) :
    Renders kept good admitted surface start { graph with session, passes } where
  toGives := rules.onward renders.toGives onward all
  faced := (congrArg Pool.surface (rules.stands _ _ _ onward).pool_eq).trans renders.faced

theorem reached_refl (governed : graph.Governed kept good) :
    reached graph.session.setting graph.session graph.session := rules.refl _ governed.session

theorem reached_addLog (governed : graph.Governed kept good) (level : LogLevel) (source : LogSource) (text : String) :
    reached graph.session.setting graph.session (graph.session.addLog level source text) :=
  ((rules.jobs graph.session.setting).encoding graph.session).addLog level source text (rules.reached_refl governed)

theorem createModule_quiet (unit : CompiledUnit) : Keeps (Quiet kept good start) (createModule unit) := by
  refine .ofEach fun g quiet => ?_
  have accepts := Host.Reaches.accepts (fun _ => False) start.session.host
  refine (deviceAction_ensures (.program unit.label) quiet.host (accepts.perform (.createModule _))).mono ?_ ?_
  · rintro _ _ ⟨host, held, rfl⟩
    exact rules.rehost quiet held
  · rintro _ _ ⟨-, host, held, rfl⟩
    exact rules.rehost quiet held

theorem keepModules_quiet (modules : List ShaderModule) : Keeps (Quiet kept good start) (keepModules modules) := by
  refine .ofGet fun g quiet => .ofIf (fun _ => ?_) fun _ => ?_
  · refine .inside fun now here => .ofModify fun session there => ?_
    subst here there
    exact rules.rehost quiet ((Host.Reaches.accepts _ _).log _ _ quiet.host)
  · exact .ofSet fun _ _ => rules.rehost quiet quiet.host

theorem setSurface_quiet (surface : Surface) : Keeps (Quiet kept good start) (setSurface surface) :=
  .ofModify fun _ quiet => rules.rehost quiet quiet.host

/-- What the host does for the pool it does without commands. -/
theorem poolAction_quiet {α : Type} {action : PoolM σ α}
    (spared : ∀ inv : Host σ → Prop, Pool.Spares inv → PartEffect.Keeps (fun _ => inv) action)
    (sizes : ∀ pool : Pool, pool.Sized → PartEffect.Ensures (fun p _ => p = pool) action (fun _ p _ => p.Sized)
      fun _ p _ => p.Sized)
    (moves : ∀ session, session.pool.Sized → kept session → PartEffect.Ensures (fun pool _ => pool = session.pool) action
      (fun _ pool _ => moved session.pool pool) fun _ pool _ => moved session.pool pool) :
    Keeps (Quiet kept good start) (poolAction action) := by
  refine .ofEach fun g quiet => ?_
  have accepts := Host.Reaches.accepts (fun _ => False) start.session.host
  have spares : Pool.Spares (Host.Reaches (fun _ => False) start.session.host) :=
    ⟨accepts.log, fun spec => accepts.perform (.createTexture spec), fun spec => accepts.perform (.createBuffer spec)⟩
  have evolves {host : Host σ} {pool : Pool} (held : Host.Reaches (fun _ => False) start.session.host host)
      (sized : pool.Sized) (step : moved g.session.pool pool) :
      Quiet kept good start { g with session := { g.session with host, pool } } := by
    have session := rules.move g.session pool step quiet.governed.session
    refine ⟨⟨sized, rules.relocate _ host g.session.modules g.session.surface session, fun leaf listed => ?_⟩, held⟩
    exact rules.evolve _ _ leaf step (quiet.governed.passes leaf listed)
  have acts := (sizes _ quiet.governed.sized).and (moves g.session quiet.governed.sized quiet.governed.session)
  refine (poolAction_ensures quiet.host (spared _ spares) (.pre (fun _ _ here => ⟨here, here⟩) acts)).mono ?_ ?_
  · rintro _ _ ⟨host, pool, held, ⟨sized, step⟩, rfl⟩
    exact evolves held sized step
  · rintro _ _ ⟨-, host, pool, held, ⟨sized, step⟩, rfl⟩
    exact evolves held sized step

variable [LawfulDevice σ]

theorem materialize_quiet (surface : Surface) : Keeps (Quiet kept good start) (poolAction (Pool.materialize surface)) := by
  refine rules.poolAction_quiet (fun _ spares => spares.materialize_keeps surface) (fun pool sized => ?_)
    fun session => rules.materializes session surface
  exact (Pool.materialize_follows pool sized surface).mono (fun _ _ _ done => done.1.sized sized)
    fun _ _ _ follows => follows.sized sized

theorem resizePool_quiet (surface : Surface) : Keeps (Quiet kept good start) (poolAction (Pool.resize surface)) := by
  refine rules.poolAction_quiet (fun _ spares => spares.resize_keeps surface) (fun pool sized => ?_)
    fun session => rules.resizes session surface
  refine (Pool.resize_follows pool sized surface).mono ?_ fun _ _ _ failed => failed.2.sized sized
  rintro _ _ _ (⟨-, rfl⟩ | ⟨-, refits, -⟩)
  · exact sized
  · exact refits.sized sized

theorem resize_quiet (surface : Surface) : Keeps (Quiet kept good start) (resize surface) := by
  refine .ofGet fun g quiet => .pre (fun _ here => here ▸ quiet) (.ofIf (fun _ => ?_) fun _ => ?_)
  · exact (rules.resizePool_quiet surface).bind fun _ => rules.setSurface_quiet surface
  · exact rules.setSurface_quiet surface

omit [LawfulDevice σ] in
theorem setupPasses_gives (quiet : Quiet kept good start graph) (surface : Surface) :
    Ensures (· = graph) (passAction (Pass.setupAll ⟨graph.session.pool, surface⟩))
      (fun _ => Gives kept good admitted start) fun _ => Gives kept good admitted start := by
  have here := rules.reached_refl quiet.governed
  have setsUp := rules.setsUp graph.session.setting graph.session ⟨graph.session.pool, surface⟩ here rfl
  refine (passAction_step graph here (Pass.setupAll_ensures setsUp _ quiet.governed.passes)).mono ?_ ?_
  · rintro _ _ ⟨session, passes, ⟨all, onward⟩, rfl⟩
    exact rules.onward quiet.gives onward all
  · rintro _ _ ⟨-, session, passes, ⟨-, all, onward⟩, rfl, rfl⟩
    exact rules.onward quiet.gives onward all

/-- A setup gives no more than what becomes of a session while its passes are set up. -/
theorem setup_gives (surface : Surface) :
    Ensures (Quiet kept good start) (setup surface) (fun _ => Gives kept good admitted start)
      fun _ => Gives kept good admitted start := by
  have gives {α : Type} {action : GraphM σ α} (keeps : Keeps (Quiet kept good start) action) :
      Ensures (Quiet kept good start) action (fun _ => Quiet kept good start)
        fun _ => Gives kept good admitted start :=
    keeps.mono (fun _ _ => id) fun _ _ => Gives.gives
  have resizes : Ensures (fun g => Quiet kept good start g ∧ g.ready) (resize surface)
      (fun _ => Gives kept good admitted start) fun _ => Gives kept good admitted start :=
    .pre (fun _ => And.left) ((rules.resize_quiet surface).mono (fun _ _ => Gives.gives) fun _ _ => Gives.gives)
  refine setup_rule resizes (fun g quiet _ => quiet) (fun unit => gives (rules.createModule_quiet unit))
    (fun modules => gives (rules.keepModules_quiet modules)) (gives (rules.materialize_quiet surface))
    (gives (rules.setSurface_quiet surface)) (fun g quiet => rules.setupPasses_gives quiet surface) fun g text held => ?_
  have logged := rules.onward held (rules.reached_addLog held.governed .info .graph text) held.governed.passes
  exact ⟨⟨logged.governed.sized, logged.governed.session, logged.governed.passes⟩, logged.host⟩

omit [LawfulDevice σ] in
/-- What a frame encodes is ready once the passes are prepared for the surface that the pool fits. -/
theorem preparePasses_renders (quiet : Quiet kept good start graph) (faced : graph.session.pool.surface = some surface) :
    Ensures (· = graph) (passAction (Pass.prepareAll ⟨graph.session.pool, surface⟩))
      (fun _ after => Renders kept good admitted surface start after ∧
        Pass.EachPlanned (ready after.session) after.passes)
      fun _ => Renders kept good admitted surface start := by
  have here := rules.reached_refl quiet.governed
  have renders : Renders kept good admitted surface start graph := ⟨quiet.gives, faced⟩
  have readies := (rules.jobs graph.session.setting).readies graph.session graph.session
    ⟨graph.session.pool, surface⟩ here rfl faced
  refine (passAction_step graph here (Pass.prepareAll_readied readies _ quiet.governed.passes _)).mono ?_ ?_
  · rintro _ _ ⟨session, passes, ⟨⟨all, planned⟩, onward⟩, rfl⟩
    exact ⟨rules.renders_onward renders onward all, planned⟩
  · rintro _ _ ⟨-, session, passes, ⟨-, all, onward⟩, rfl, rfl⟩
    exact rules.renders_onward renders onward all

omit [LawfulDevice σ] in
theorem encodeFrame_renders (renders : Renders kept good admitted surface start graph)
    (planned : Pass.EachPlanned (ready graph.session) graph.passes) (target : Option Texture) :
    Ensures (· = graph) (encodeFrame target surface)
      (fun stream after => stream.Only (admitted after.session) ∧ Renders kept good admitted surface start after)
      fun _ => Renders kept good admitted surface start := by
  have jobs := rules.jobs graph.session.setting
  have here := rules.reached_refl renders.governed
  have encodes : Pass.Encodes Session.ask ⟨⟨graph.session.pool, surface⟩, target, graph.frame⟩ _ _ _ :=
    (jobs.encoding graph.session).encodes (fun session name request => jobs.asked name request session) here rfl
  have run := Pass.encodeAll_ensures encodes graph.passes planned
  refine (encodeFrame_step graph run ⟨CommandStream.only_start _, here⟩).mono ?_ ?_
  · rintro stream _ ⟨session, ⟨only, onward⟩, rfl⟩
    exact ⟨only.mono fun command => rules.lasts _ _ _ command onward,
      rules.renders_onward renders onward renders.governed.passes⟩
  · rintro _ _ ⟨cause, stream, session, ⟨-, -, onward⟩, -, rfl⟩
    exact rules.renders_onward renders onward renders.governed.passes

/-- A graph that is ready and follows a surface has a pool that fits it. -/
theorem resize_faces (governed : graph.Governed kept good) (plain : graph.Plain program table) (readied : graph.ready)
    (surface : Surface) :
    Ensures (· = graph) (resize surface)
      (fun _ after => Quiet kept good graph after ∧ after.session.pool.surface = some surface)
      fun _ => Quiet kept good graph := by
  have moves := resize_ensures (Upholds.ofLasting Pass.Lasting.any) plain surface
  have quiet : Keeps (Quiet kept good graph) (resize surface) := rules.resize_quiet surface
  refine .pre (fun _ here => ⟨here ▸ governed.quiet, here⟩) ((quiet.and moves).mono ?_ ?_)
  · rintro _ after ⟨quiet, sound, noted, moved⟩
    refine ⟨quiet, ?_⟩
    obtain rests | adapts := moved
    · rw [← sound.recorded (rests.ready_eq ▸ readied)]
      exact noted
    · exact adapts.surface_eq
  · exact fun _ _ failed => failed.1

/-- The pool changes only before the passes are prepared, so all commands of a frame are as asked at its end. -/
theorem encode_renders (governed : graph.Governed kept good) (plain : graph.Plain program table)
    (target : Option Texture) (surface : Surface) :
    Ensures (· = graph) (encode target surface)
      (fun stream after => stream.Only (admitted after.session) ∧ Renders kept good admitted surface graph after)
      fun _ after => Quiet kept good graph after ∨ Renders kept good admitted surface graph after := by
  have resizes : Ensures (fun g => g = graph ∧ g.ready) (resize surface)
      (fun _ after => Quiet kept good graph after ∧ after.session.pool.surface = some surface)
      fun _ after => Quiet kept good graph after ∨ Renders kept good admitted surface graph after := by
    refine .ofEach fun g ⟨here, readied⟩ => ?_
    subst here
    exact (rules.resize_faces governed plain readied surface).mono (fun _ _ => id) fun _ _ => .inl
  have faces : ∀ g, g = graph → g.ready → g.session.surface = some surface →
      Quiet kept good graph g ∧ g.session.pool.surface = some surface := by
    rintro _ rfl readied noted
    exact ⟨governed.quiet, (plain.recorded readied).symm.trans noted⟩
  have unset : ∀ g, g = graph → ¬g.ready →
      Quiet kept good graph g ∨ Renders kept good admitted surface graph g := by
    rintro _ rfl -
    exact .inl governed.quiet
  refine encode_rule unset resizes faces
    (fun g faced => (rules.preparePasses_renders faced.1 faced.2).mono (fun _ _ => id) fun _ _ => .inr)
    (fun g held => (rules.encodeFrame_renders held.1 held.2 target).mono (fun _ _ => id) fun _ _ => .inr)
    fun stream g text held => ?_
  have onward := rules.reached_addLog held.2.governed .trace .graph text
  have logged := rules.renders_onward held.2 onward held.2.governed.passes
  exact ⟨held.1.mono fun command => rules.lasts _ _ _ command onward,
    ⟨⟨logged.governed.sized, logged.governed.session, logged.governed.passes⟩, logged.host⟩, logged.faced⟩

omit [LawfulDevice σ] in
/-- A stream of admitted commands may be submitted. -/
theorem finish_renders {stream : CommandStream} (renders : Renders kept good admitted surface start graph)
    (only : stream.Only (admitted graph.session)) :
    Ensures (· = graph) (finish stream) (fun _ => Renders kept good admitted surface start)
      fun _ => Renders kept good admitted surface start := by
  have encoding := (rules.jobs graph.session.setting).encoding graph.session
  have finished : Keeps (fun host => reached graph.session.setting graph.session { graph.session with host })
      (CommandStream.finish stream) :=
    CommandStream.finish_keeps only (fun host log => encoding.log { graph.session with host } log)
      (encoding.submit graph.session)
  refine (deviceAction_ensures .device (rules.reached_refl renders.governed) finished).mono ?_ ?_
  · rintro _ _ ⟨host, onward, rfl⟩
    exact rules.renders_onward renders onward renders.governed.passes
  · rintro _ _ ⟨-, host, onward, rfl⟩
    exact rules.renders_onward renders onward renders.governed.passes

/-- Every call gives the device admitted commands only; what a caller does to the device is not a call's doing. -/
theorem next_gives (governed : graph.Governed kept good) (plain : graph.Plain program table) (call : Call σ)
    (own : ∀ change, call ≠ .host change) : Gives kept good admitted graph (call.next graph) := by
  have jobs := rules.jobs graph.session.setting
  have here := rules.reached_refl governed
  have tended := (jobs.encoding graph.session).toTended
  have onward {session : Session σ} (later : reached graph.session.setting graph.session session) :
      Gives kept good admitted graph { graph with session } :=
    rules.onward governed.quiet.gives later governed.passes
  cases call with
  | setup surface => exact (rules.setup_gives surface).after governed.quiet
  | resize surface => exact ((rules.resize_quiet surface).after governed.quiet).gives
  | encode target surface =>
    rw [Call.next_encode]
    refine ((rules.encode_renders governed plain target surface).mono (fun _ _ done => done.2.toGives) ?_).after rfl
    exact fun _ _ failed => failed.elim Gives.gives (·.toGives)
  | request name request => exact onward (jobs.asked name request graph.session here)
  | release name answer => exact onward (jobs.release name answer graph.session here)
  | observe name => exact onward (tended.observeFrame name here)
  | share change => exact onward (tended.share graph.session change here)
  | host change => exact absurd rfl (own change)

/-- What holds between calls holds after every history. -/
theorem after_governed (governed : graph.Governed kept good) (plain : graph.Plain program table)
    (calls : List (Call σ)) : (graph.after calls).Governed kept good ∧ (graph.after calls).Plain program table := by
  have always (calls : List (Call σ)) : (graph.after calls).Plain program table :=
    after_sound (Upholds.ofLasting Pass.Lasting.any) plain calls fun call _ => call.spares_any
  refine ⟨?_, always calls⟩
  induction calls using List.reverseRecOn with
  | nil => exact governed
  | append_singleton calls call ih =>
    rw [after_append]
    by_cases own : ∃ change, call = .host change
    · obtain ⟨change, rfl⟩ := own
      exact ⟨ih.sized, rules.relocate _ _ _ _ ih.session, ih.passes⟩
    · exact (rules.next_gives ih (always calls) call (not_exists.mp own)).governed

/-- After every history, a call gives the device admitted commands only. Those of a frame, and those that are left in
its stream, are recorded when the pool fits the surface of the frame. -/
theorem commands (governed : graph.Governed kept good) (plain : graph.Plain program table) (calls : List (Call σ)) :
    (∀ call : Call σ, (∀ change, call ≠ .host change) →
      Host.Reaches (admitted (call.next (graph.after calls)).session) (graph.after calls).session.host
        (call.next (graph.after calls)).session.host) ∧
    ∀ target surface,
      (∀ stream after, (encode target surface).apply (graph.after calls) = (.ok stream, after) →
        after.session.pool.surface = some surface ∧ stream.Only (admitted after.session)) ∧
      Host.Reaches
        (fun command =>
          ((runFrame target surface).apply (graph.after calls)).2.session.pool.surface = some surface ∧
            admitted ((runFrame target surface).apply (graph.after calls)).2.session command)
        (graph.after calls).session.host ((runFrame target surface).apply (graph.after calls)).2.session.host := by
  obtain ⟨governed, plain⟩ := rules.after_governed governed plain calls
  refine ⟨fun call own => (rules.next_gives governed plain call own).host, fun target surface => ⟨fun stream after ran => ?_, ?_⟩⟩
  · have done := (rules.encode_renders governed plain target surface).result rfl ran
    exact ⟨done.2.faced, done.1⟩
  · have ran : Ensures (· = graph.after calls) (runFrame target surface)
        (fun _ after => Quiet kept good (graph.after calls) after ∨
          Renders kept good admitted surface (graph.after calls) after)
        fun _ after => Quiet kept good (graph.after calls) after ∨
          Renders kept good admitted surface (graph.after calls) after :=
      (rules.encode_renders governed plain target surface).bind fun stream => .ofEach fun g held =>
        (rules.finish_renders held.2 held.1).mono (fun _ _ => .inr) fun _ _ => .inr
    obtain quiet | renders := ran.after rfl
    · exact quiet.host.mono fun _ => False.elim
    · exact renders.host.mono fun _ fits => ⟨renders.faced, fits⟩

end Governs

end Graph

/-- What a pool becomes is as demanded if it was before. -/
def Demands.Restocks (demands : Demands) (past now : Pool) : Prop :=
  ∀ program, demands.stocked program past → demands.stocked program now

variable {demands : Demands}

namespace Graph

open Session (Fits Holds)

/-- Demands that leaves meet and that pools go on to meet are upheld by all calls. -/
theorem Governs.ofDemands [LawfulDevice σ] (met : demands.Met σ)
    (materializes : ∀ pool surface, PartEffect.Ensures (fun p _ => p = pool) (Pool.materialize surface : PoolM σ Nat)
      (fun _ p _ => demands.Restocks pool p) fun _ p _ => demands.Restocks pool p)
    (resizes : ∀ pool surface, PartEffect.Ensures (fun p _ => p = pool) (Pool.resize surface : PoolM σ Nat)
      (fun _ p _ => demands.Restocks pool p) fun _ p _ => demands.Restocks pool p) :
    Governs (σ := σ) (Fits demands) (fun _ => demands.good) (fun session => demands.ready session.pool)
      (fun session => demands.admitted session.pool) demands.Restocks (Holds demands) where
  relocate _ _ _ _ fits := { fits with }
  move session _ restocks fits := { fits with stocked := restocks session.compiled fits.stocked }
  evolve _ _ _ _ := id
  materializes session surface _ _ := materializes session.pool surface
  resizes session surface _ _ := resizes session.pool surface
  refl _ := .refl
  stands _ _ _ holds := holds.toStands
  gives _ _ _ holds := holds.same_pool ▸ holds.host
  lasts _ _ _ _ holds := holds.same_pool ▸ id
  setsUp _ _ _ holds := met.setsUp holds.stocked
  jobs := met.runsJobs

/-- A graph that was just built has created nothing, so its leaves and its pool have to be as demanded from the start. -/
theorem build_governed {host : Host σ} {shared : Shared} {coordinators : List (String × OffFrame.Coordinator)}
    {source : Program} (built : build host shared coordinators source table = .ok graph)
    (idle : ∀ entry ∈ coordinators, entry.2.work = none)
    (stocked : demands.stocked graph.session.compiled (.empty table graph.session.compiled.usage))
    (made : ∀ leaf ∈ source.compiledLeaves graph.session.compiled, ∀ pass,
      Pass.ofLeaf? table leaf.1.node leaf.2 = some pass → demands.good pass) :
    graph.Governed (Fits demands) fun _ => demands.good := by
  obtain ⟨⟨_, compiled⟩, ⟨_, passes⟩, ⟨log, session_eq⟩, -⟩ := build_eq_ok built
  have pool_eq : graph.session.pool = .empty table graph.session.compiled.usage := congrArg Session.pool session_eq
  have groups_eq : graph.session.blockGroups = graph.session.compiled.blocks.map fun _ => none :=
    congrArg Session.blockGroups session_eq
  have coordinators_eq : graph.session.coordinators = coordinators := congrArg Session.coordinators session_eq
  refine ⟨pool_eq ▸ Pool.sized_empty table _, ⟨pool_eq ▸ stocked, fun bound found => ?_, ?_⟩, ?_⟩
  · rw [groups_eq, List.mem_map] at found
    obtain ⟨_, _, ⟨⟩⟩ := found
  · exact Session.works_of_idle (coordinators_eq ▸ idle)
  · exact Pass.each_ofComponents (Program.compile_ok compiled) passes made

end Graph

end FrameGraph
