import FrameGraph.Graph
import FrameGraph.Proofs.Pass.Setting
import FrameGraph.Proofs.Pool

/-! # What the calls of a graph do

Every call is a sequence of actions on the modules, on the pool and on the passes; each of them leaves
the rest of the graph alone, whether it succeeds or not. Assertions on sessions that do not depend on the
setting are followed through all of them.
-/

namespace FrameGraph.Graph

variable {σ : Type}

open Effect (Ensures)

/-- Actions on the device and its log. -/
theorem deviceAction_ensures {α : Type} {graph : Graph σ} {inv : Host σ → Prop}
    (wrap : DeviceError → GraphError) {action : HostM σ α} (holds : inv graph.session.host)
    (kept : Effect.Keeps inv action) :
    Ensures (· = graph) (deviceAction wrap action)
      (fun _ g => ∃ host, inv host ∧ g = { graph with session := { graph.session with host } })
      fun error g => (∃ cause, error = wrap cause) ∧
        ∃ host, inv host ∧ g = { graph with session := { graph.session with host } } := by
  refine .inside fun g here => .inside fun session there => .mapError ?_
  subst here there
  exact .pre (fun _ here => here ▸ holds) (kept.mono (fun _ host done => ⟨host, done, rfl⟩)
    fun cause host broken => ⟨⟨cause, rfl⟩, host, broken, rfl⟩)

/-- Actions on the pool change the pool and the device. -/
theorem poolAction_ensures {α : Type} {graph : Graph σ} {inv : Host σ → Prop} {action : PoolM σ α}
    {ok failed : Pool → Prop} (holds : inv graph.session.host)
    (kept : PartEffect.Keeps (fun _ => inv) action)
    (acts : PartEffect.Ensures (fun pool _ => pool = graph.session.pool) action (fun _ pool _ => ok pool)
      fun _ pool _ => failed pool) :
    Ensures (· = graph) (poolAction action)
      (fun _ g => ∃ host pool, inv host ∧ ok pool ∧
        g = { graph with session := { graph.session with host, pool } })
      fun error g => (∃ cause, error = .device cause) ∧ ∃ host pool, inv host ∧ failed pool ∧
        g = { graph with session := { graph.session with host, pool } } := by
  refine .inside fun g here => PartEffect.Ensures.joined (.mapError (.inWhole fun session => ?_))
  subst here
  refine fun pool host at_once => ?_
  obtain ⟨rfl, rfl, rfl⟩ := at_once
  refine ((kept.and acts).mono ?_ ?_) _ _ ⟨holds, rfl⟩
  · exact fun _ pool host done => ⟨host, pool, done.1, done.2, rfl⟩
  · exact fun cause pool host broken => ⟨⟨cause, rfl⟩, host, pool, broken.1, broken.2, rfl⟩

/-- A step of the passes changes the passes and what the step changes of the session. -/
theorem passAction_step (graph : Graph σ) {before : Session σ → Prop} {ok : List Pass → Session σ → Prop}
    {failed : PassError → List Pass → Session σ → Prop}
    {step : List Pass → StateM (Session σ) (Pass.Outcome (List Pass))} (holds : before graph.session)
    (steps : Step.Ensures before (step graph.passes) (fun _ => ok) failed) :
    Ensures (· = graph) (passAction step)
      (fun _ g => ∃ session passes, ok passes session ∧ g = { graph with session, passes })
      fun error g => ∃ cause session passes, failed cause passes session ∧ error = .pass cause ∧
        g = { graph with session, passes } := by
  refine .ofGet fun g here => ?_
  subst here
  have run := steps g.session holds
  split at run
  · rename_i passes session applied
    rw [applied]
    refine .bind (.put { g with session, passes }) fun _ => ?_
    exact .lift (fun _ _ now here => ⟨session, passes, run, here⟩) nofun
  · rename_i error passes session applied
    rw [applied]
    refine .bind (.put { g with session, passes }) fun _ => .lift nofun ?_
    rintro _ ⟨⟩ now here
    exact ⟨error, session, passes, run, rfl, here⟩

theorem passAction_ensures (graph : Graph σ) {inv : Session σ → Prop} {raw good : Pass → Prop}
    {allowed : PassError → Prop} {step : List Pass → StateM (Session σ) (Pass.Outcome (List Pass))}
    (holds : inv graph.session) (steps : Pass.PassesStep inv (step graph.passes) raw good allowed) :
    Ensures (· = graph) (passAction step)
      (fun _ g => ∃ session passes, inv session ∧ Pass.Each good passes ∧ g = { graph with session, passes })
      fun error g => (∃ cause, allowed cause ∧ error = .pass cause) ∧
        ∃ session passes, inv session ∧ Pass.Each raw passes ∧ g = { graph with session, passes } := by
  refine (passAction_step graph holds steps).mono ?_ ?_
  · rintro _ _ ⟨session, passes, ⟨all, held⟩, rfl⟩
    exact ⟨session, passes, held, all, rfl⟩
  · rintro _ _ ⟨cause, session, passes, ⟨may, all, held⟩, rfl, rfl⟩
    exact ⟨⟨cause, may, rfl⟩, session, passes, held, all, rfl⟩

variable [Device σ]

/-- Recording a frame changes what the encoding of the passes changes of the session. -/
theorem encodeFrame_step (graph : Graph σ) {target : Option Texture} {surface : Surface}
    {before : CommandStream → Session σ → Prop} {ok : Unit → CommandStream → Session σ → Prop}
    {failed : PassError → CommandStream → Session σ → Prop}
    (encodes : PartEffect.Ensures before
      (Pass.encodeAll Session.ask ⟨⟨graph.session.pool, surface⟩, target, graph.frame⟩ graph.passes) ok failed)
    (holds : before { label := s!"frame {graph.frame}" } graph.session) :
    Ensures (· = graph) (encodeFrame target surface)
      (fun stream g => ∃ session, ok () stream session ∧ g = { graph with session })
      fun error g => ∃ cause stream session, failed cause stream session ∧ error = .pass cause ∧
        g = { graph with session } := by
  refine .ofGet fun g here => ?_
  subst here
  dsimp only
  have run := encodes { label := s!"frame {g.frame}" } g.session holds
  split at run
  · rename_i stream session applied
    rw [PartEffect.apply, applied]
    refine .bind (.put { g with session }) fun _ => .ofExcept (fun _ _ => .ofPure ?_) fun _ failed => ?_
    · intro now here
      exact ⟨session, run, here⟩
    · cases failed
  · rename_i error stream session applied
    rw [PartEffect.apply, applied]
    refine .bind (.put { g with session }) fun _ => .ofExcept (fun _ done => ?_) ?_
    · cases done
    · rintro _ ⟨⟩ now here
      exact ⟨error, stream, session, run, rfl, here⟩

section

variable {before ok : Graph σ → Prop} {failed : GraphError → Graph σ → Prop} {surface : Surface}

/-- What follows in an encoding once the surface is faced. -/
theorem encode_rest {faced prepared : Graph σ → Prop} {encoded done : CommandStream → Graph σ → Prop}
    {target : Option Texture}
    (prepares : ∀ g, faced g → Ensures (· = g) (passAction (Pass.prepareAll ⟨g.session.pool, surface⟩))
      (fun _ => prepared) failed)
    (encodes : ∀ g, prepared g → Ensures (· = g) (encodeFrame target surface) encoded failed)
    (finishes : ∀ stream g text, encoded stream g →
      done stream { g with session := g.session.addLog .trace .graph text, frame := g.frame + 1 }) :
    Ensures faced
      (do
        passAction (Pass.prepareAll ⟨(← get).session.pool, surface⟩)
        let stream ← encodeFrame target surface
        let frame := (← get).frame
        note .trace s!"encoded frame {frame}"
        modify fun graph => { graph with frame := frame + 1 }
        return stream)
      done failed := by
  refine .ofGet fun g holds => (prepares g holds).bind fun _ => .ofEach fun g holds => ?_
  refine (encodes g holds).bind fun stream => .ofGet fun g holds => ?_
  have noted (text : String) : Ensures (· = g) (note .trace text : GraphM σ Unit)
      (fun _ now => now = { g with session := g.session.addLog .trace .graph text }) failed := by
    refine .inside fun now here => .ofModify fun session there => ?_
    subst here there
    rfl
  refine (noted _).bind fun _ => .bind (.ofModify ?_) fun _ => .ofPure fun _ => id
  rintro _ rfl
  exact finishes stream g _ holds

/-- An encoding faces the surface, prepares the passes, records them and counts the frame. -/
theorem encode_rule {faced prepared : Graph σ → Prop} {encoded done : CommandStream → Graph σ → Prop}
    {target : Option Texture} (unset : ∀ g, before g → ¬g.ready → failed .notSetUp g)
    (resizes : Ensures (fun g => before g ∧ g.ready) (resize surface) (fun _ => faced) failed)
    (faces : ∀ g, before g → g.ready → g.session.surface = some surface → faced g)
    (prepares : ∀ g, faced g → Ensures (· = g) (passAction (Pass.prepareAll ⟨g.session.pool, surface⟩))
      (fun _ => prepared) failed)
    (encodes : ∀ g, prepared g → Ensures (· = g) (encodeFrame target surface) encoded failed)
    (finishes : ∀ stream g text, encoded stream g →
      done stream { g with session := g.session.addLog .trace .graph text, frame := g.frame + 1 }) :
    Ensures before (encode target surface) done failed := by
  have rest := encode_rest prepares encodes finishes
  refine .ofGet fun g holds => .ofGuard ?_ fun set => .ofGet fun now here => ?_
  · rintro notReady _ rfl
    exact unset _ holds (by simpa using notReady)
  · subst here
    have ready : now.ready := by simpa using set
    refine .ofIf (fun _ => ?_) fun same => ?_
    · refine .bind (.pre ?_ resizes) fun _ => rest
      rintro _ rfl
      exact ⟨holds, ready⟩
    · refine .pre ?_ rest
      rintro _ rfl
      exact faces _ holds ready (Classical.not_not.mp same)

/-- A setup of a graph that is not ready creates the modules and the resources, records the surface and sets the passes
up, one after another. -/
theorem setup_rule {fresh laid faced set : Graph σ → Prop}
    (resizes : Ensures (fun g => before g ∧ g.ready) (resize surface) (fun _ => ok) failed)
    (starts : ∀ g, before g → ¬g.ready → fresh g)
    (creates : ∀ unit, Ensures fresh (createModule unit) (fun _ => fresh) failed)
    (keeps : ∀ modules, Ensures fresh (keepModules modules) (fun _ => fresh) failed)
    (materializes : Ensures fresh (poolAction (Pool.materialize surface)) (fun _ => laid) failed)
    (faces : Ensures laid (setSurface surface) (fun _ => faced) failed)
    (sets : ∀ g, faced g → Ensures (· = g) (passAction (Pass.setupAll ⟨g.session.pool, surface⟩)) (fun _ => set) failed)
    (begins : ∀ g text, set g → ok { g with session := g.session.addLog .info .graph text, ready := true }) :
    Ensures before (setup surface) (fun _ => ok) failed := by
  refine .ofGet fun g holds => .ofIf (fun ready => ?_) fun notReady => ?_
  · refine .pre ?_ resizes
    rintro _ rfl
    exact ⟨holds, ready⟩
  · have created : Ensures fresh (g.session.compiled.units.mapM createModule) (fun _ => fresh) failed :=
      .mapM (fun _ _ => fresh) fun _ _ unit _ => creates unit
    refine .pre (fun now here => here ▸ starts g holds notReady) (created.bind fun modules => ?_)
    refine (keeps modules).bind fun _ => materializes.bind fun _ => faces.bind fun _ => .ofGet fun g holds => ?_
    refine (sets g holds).bind fun _ => ?_
    have begun : Ensures set (modify fun g => { g with ready := true } : GraphM σ Unit)
        (fun _ now => ∃ g, set g ∧ now = { g with ready := true }) failed := .ofModify fun g holds => ⟨g, holds, rfl⟩
    refine begun.bind fun _ => .inside fun now held => .ofModify fun session there => ?_
    subst there
    obtain ⟨g, holds, rfl⟩ := held
    exact begins g _ holds

end

/-- Assertions on sessions, whatever their setting, and on leaves that everything upholds that calls of a
graph do. -/
structure Upholds (kept : Session σ → Prop) (raw good : Pass → Prop) (admitted : Command → Prop)
    (broken allowed : Setting → PassError → Prop) : Prop where
  weaken : ∀ leaf, good leaf → raw leaf
  relocate : ∀ session modules pool surface, kept session →
    kept { session with modules, pool, surface }
  createModule : ∀ (session : Session σ) spec,
    Effect.Keeps (fun host => kept { session with host }) (Host.perform (Device.createModule spec))
  spares : ∀ session : Session σ, Pool.Spares fun host => kept { session with host }
  setsUp : ∀ setting view, view.pool = setting.pool →
    Pass.SetsUp view (Session.Stands setting kept) raw good (broken setting)
  upheld : ∀ setting, Upheld (Session.Stands setting kept) good admitted (allowed setting)
  asked : ∀ setting session name request, session.Stands setting kept →
    (Session.ask name request session).Stands setting kept
  released : ∀ setting session name answer, session.Stands setting kept →
    (Session.release name answer session).Stands setting kept

/-- What holds of a graph between calls. -/
structure Sound (kept : Session σ → Prop) (raw good : Pass → Prop) (program : CompiledProgram)
    (table : ResourceTable) (graph : Graph σ) : Prop where
  kept : kept graph.session
  compiled : graph.session.compiled = program
  table : graph.session.pool.table = table
  usage : graph.session.pool.usage = program.usage
  sized : graph.session.pool.Sized
  tight : graph.session.pool.Tight
  raw : Pass.Each raw graph.passes
  good : graph.ready → Pass.Each good graph.passes
  filled : graph.ready → graph.session.pool.Filled
  recorded : graph.ready → graph.session.surface = graph.session.pool.surface

/-- The pool and its readiness are as before. -/
structure Rests (before after : Graph σ) : Prop where
  ready_eq : after.ready = before.ready
  pool_eq : after.session.pool = before.session.pool

/-- Some slots may follow a surface that a graph which is ready does not record. -/
structure Strays (surface : Surface) (before after : Graph σ) : Prop where
  ready_eq : after.ready = before.ready
  refits : Pool.Refits surface before.session.pool after.session.pool
  surface_eq : before.ready → after.session.pool.surface = before.session.pool.surface

/-- A graph that is ready has come to fit a surface. -/
structure Adapts (surface : Surface) (before after : Graph σ) : Prop where
  was : before.ready
  ready : after.ready
  refits : Pool.Refits surface before.session.pool after.session.pool
  coherent : after.session.pool.Coherent surface
  surface_eq : after.session.pool.surface = some surface

/-- A graph has become ready. -/
structure Begins (surface : Surface) (before after : Graph σ) : Prop where
  was : ¬before.ready
  ready : after.ready
  refits : Pool.Refits surface before.session.pool after.session.pool
  surface_eq : after.session.pool.surface = some surface

variable {kept : Session σ → Prop} {raw good : Pass → Prop} {admitted : Command → Prop}
  {broken allowed : Setting → PassError → Prop} {program : CompiledProgram} {table : ResourceTable}
  {graph : Graph σ} {surface : Surface}

section

omit [Device σ]

variable (sound : graph.Sound kept raw good program table)

include sound

/-- A graph stays sound with another session that has the same pool and other passes that are as asked. -/
theorem Sound.act {session : Session σ} {passes : List Pass} (held : kept session)
    (compiled : session.compiled = graph.session.compiled) (pool : session.pool = graph.session.pool)
    (surface : session.surface = graph.session.surface) (unready : Pass.Each raw passes)
    (ready : graph.ready → Pass.Each good passes) :
    Sound kept raw good program table { graph with session, passes } where
  kept := held
  compiled := compiled.trans sound.compiled
  table := (congrArg Pool.table pool).trans sound.table
  usage := (congrArg Pool.usage pool).trans sound.usage
  sized := pool ▸ sound.sized
  tight := pool ▸ sound.tight
  raw := unready
  good := ready
  filled now := pool ▸ sound.filled now
  recorded now := surface.trans ((sound.recorded now).trans (congrArg Pool.surface pool.symm))

theorem Sound.rehost {host : Host σ} (held : kept { graph.session with host }) :
    Sound kept raw good program table { graph with session := { graph.session with host } } :=
  sound.act held rfl rfl rfl sound.raw sound.good

/-- A graph stays sound with a pool that refits its own. -/
theorem Sound.refit
    (relocate : ∀ session modules pool surface, kept session → kept { session with modules, pool, surface })
    {host : Host σ} {pool : Pool} {noted : Option Surface} (held : kept { graph.session with host })
    (refits : Pool.Refits surface graph.session.pool pool) (recorded : graph.ready → noted = pool.surface) :
    Sound kept raw good program table
      { graph with session := { graph.session with host, pool, surface := noted } } where
  kept := relocate { graph.session with host } graph.session.modules pool noted held
  compiled := sound.compiled
  table := refits.table_eq.trans sound.table
  usage := refits.usage_eq.trans sound.usage
  sized := refits.sized sound.sized
  tight := refits.tight sound.tight
  raw := sound.raw
  good := sound.good
  filled ready := refits.filled (sound.filled ready)
  recorded := recorded

end

/-- A resize that succeeds records the surface; one that fails has strayed from the recorded one. -/
theorem resize_ensures (rules : Upholds kept raw good admitted broken allowed)
    (sound : graph.Sound kept raw good program table) [LawfulDevice σ] (surface : Surface) :
    Ensures (· = graph) (resize surface)
      (fun _ after => after.Sound kept raw good program table ∧ after.session.surface = some surface ∧
        (Rests graph after ∨ Adapts surface graph after))
      fun error after => after.Sound kept raw good program table ∧ Strays surface graph after ∧
        ∃ cause, error = .device cause := by
  refine .ofGet fun g here => ?_
  subst here
  refine .ofIf (fun ready => ?_) fun notReady => .ofModify ?_
  · have acts := poolAction_ensures sound.kept ((rules.spares g.session).resize_keeps surface)
      (Pool.resize_follows g.session.pool sound.sized surface)
    refine .bind (.mono acts (fun _ _ => id) ?_) fun _ => .ofModify ?_
    · rintro error after ⟨cause, host, pool, held, ⟨-, follows⟩, rfl⟩
      refine ⟨sound.refit rules.relocate held follows.toRefits fun _ => ?_,
        ⟨rfl, follows.toRefits, fun _ => follows.surface_eq⟩, cause⟩
      exact (sound.recorded ready).trans follows.surface_eq.symm
    · rintro after ⟨host, pool, held, ⟨recorded, rfl⟩ | ⟨changed, refits, coherent, recorded⟩, rfl⟩
      · have stays := Pool.Refits.refl surface g.session.pool
        exact ⟨sound.refit rules.relocate held stays fun _ => recorded.symm, rfl, .inl ⟨rfl, rfl⟩⟩
      · exact ⟨sound.refit rules.relocate held refits fun _ => recorded.symm, rfl,
          .inr ⟨ready, ready, refits, coherent, recorded⟩⟩
  · rintro after rfl
    have stays := Pool.Refits.refl surface after.session.pool
    exact ⟨sound.refit rules.relocate sound.kept stays fun ready => absurd ready notReady, rfl, .inl ⟨rfl, rfl⟩⟩

/-- A log line changes nothing but the log. -/
theorem Upholds.note_ensures (rules : Upholds kept raw good admitted broken allowed) (held : kept graph.session)
    {failed : GraphError → Graph σ → Prop} (level : LogLevel) (text : String) :
    Ensures (· = graph) (note level text)
      (fun _ g => ∃ host, kept { graph.session with host } ∧
        g = { graph with session := { graph.session with host } }) failed := by
  refine .inside fun g here => .ofModify fun session there => ?_
  subst here there
  exact ⟨_, (rules.spares g.session).log g.session.host _ held, rfl⟩

/-- Creating a module touches neither the pool nor the passes. -/
theorem createModule_rests (rules : Upholds kept raw good admitted broken allowed) (unit : CompiledUnit) :
    Effect.Keeps (fun g => g.Sound kept raw good program table ∧ Rests graph g) (createModule unit) := by
  refine .ofEach fun g held => ?_
  have acts := deviceAction_ensures (.program unit.label) held.1.kept
    (rules.createModule g.session ⟨unit.label, unit.source⟩)
  refine acts.mono ?_ ?_
  · rintro _ _ ⟨host, keeps, rfl⟩
    exact ⟨held.1.rehost keeps, held.2.1, held.2.2⟩
  · rintro _ _ ⟨-, host, keeps, rfl⟩
    exact ⟨held.1.rehost keeps, held.2.1, held.2.2⟩

theorem keepModules_keeps (rules : Upholds kept raw good admitted broken allowed)
    (modules : List ShaderModule) :
    Effect.Keeps (fun g => g.Sound kept raw good program table ∧ Rests graph g) (keepModules modules) := by
  refine .ofGet fun g held => .ofIf (fun _ => ?_) fun _ => ?_
  · refine .mono (rules.note_ensures held.1.kept _ _) ?_ fun _ _ => id
    rintro _ _ ⟨host, keeps, rfl⟩
    exact ⟨held.1.rehost keeps, held.2.1, held.2.2⟩
  · refine .ofSet fun _ _ => ⟨held.1.act ?_ rfl rfl rfl held.1.raw held.1.good, held.2.1, held.2.2⟩
    exact rules.relocate g.session (some modules) g.session.pool g.session.surface held.1.kept

/-- All resources of a graph that is not ready have been created, and the surface is recorded. -/
structure Laid (surface : Surface) (before after : Graph σ) : Prop where
  unready : ¬after.ready
  ready_eq : after.ready = before.ready
  refits : Pool.Refits surface before.session.pool after.session.pool
  filled : after.session.pool.Filled
  surface_eq : after.session.pool.surface = some surface

omit [Device σ] in
theorem Rests.strays {after : Graph σ} (rests : Rests graph after) (surface : Surface) :
    Strays surface graph after where
  ready_eq := rests.ready_eq
  refits := by
    rw [rests.pool_eq]
    exact .refl surface _
  surface_eq _ := congrArg Pool.surface rests.pool_eq

omit [Device σ] in
theorem Laid.strays {after : Graph σ} (laid : Laid surface graph after) : Strays surface graph after where
  ready_eq := laid.ready_eq
  refits := laid.refits
  surface_eq ready := absurd (laid.ready_eq ▸ ready) laid.unready

omit [Device σ] in
theorem Laid.act {g : Graph σ} (laid : Laid surface graph g) {session : Session σ}
    (pool_eq : session.pool = g.session.pool) (passes : List Pass) :
    Laid surface graph { g with session, passes } where
  unready := laid.unready
  ready_eq := laid.ready_eq
  refits := by
    rw [pool_eq]
    exact laid.refits
  filled := by
    rw [pool_eq]
    exact laid.filled
  surface_eq := (congrArg Pool.surface pool_eq).trans laid.surface_eq

theorem materialize_ensures (rules : Upholds kept raw good admitted broken allowed) [LawfulDevice σ]
    (unready : ¬graph.ready) (surface : Surface) :
    Ensures (fun g => g.Sound kept raw good program table ∧ Rests graph g)
      (poolAction (Pool.materialize surface))
      (fun _ after => after.Sound kept raw good program table ∧ Laid surface graph after)
      fun _ after => after.Sound kept raw good program table ∧ Strays surface graph after := by
  refine .ofEach fun g held => ?_
  obtain ⟨sound, rests⟩ := held
  have absent : ¬g.ready := rests.ready_eq ▸ unready
  have acts := poolAction_ensures sound.kept ((rules.spares g.session).materialize_keeps surface)
    (Pool.materialize_follows g.session.pool sound.sized surface)
  refine acts.mono ?_ ?_
  · rintro _ _ ⟨host, pool, held, ⟨refits, filled, surface_eq⟩, rfl⟩
    refine ⟨sound.refit rules.relocate held refits fun ready => absurd ready absent, ?_⟩
    exact ⟨absent, rests.ready_eq, rests.pool_eq ▸ refits, filled, surface_eq⟩
  · rintro _ _ ⟨-, host, pool, held, follows, rfl⟩
    refine ⟨sound.refit rules.relocate held follows.toRefits fun ready => absurd ready absent, ?_⟩
    exact ⟨rests.ready_eq, rests.pool_eq ▸ follows.toRefits, fun ready => absurd ready unready⟩

theorem setSurface_ensures (rules : Upholds kept raw good admitted broken allowed) (surface : Surface)
    {failed : GraphError → Graph σ → Prop} :
    Ensures (fun g => g.Sound kept raw good program table ∧ Laid surface graph g) (setSurface surface)
      (fun _ after => (after.Sound kept raw good program table ∧ Laid surface graph after) ∧
        after.session.surface = some surface) failed := by
  refine .ofModify fun g held => ⟨⟨?_, ⟨held.2.unready, held.2.ready_eq, held.2.refits, held.2.filled, held.2.surface_eq⟩⟩, rfl⟩
  exact held.1.refit rules.relocate held.1.kept (.refl surface _) fun ready => absurd ready held.2.unready

/-- The setup of the passes leaves the pool alone. -/
theorem setupPasses_ensures (rules : Upholds kept raw good admitted broken allowed) {g : Graph σ}
    (sound : g.Sound kept raw good program table) (laid : Laid surface graph g)
    (noted : g.session.surface = some surface) :
    Ensures (· = g) (passAction (Pass.setupAll ⟨g.session.pool, surface⟩))
      (fun _ after => (after.Sound kept raw good program table ∧ Laid surface graph after) ∧
        after.session.surface = some surface ∧ Pass.Each good after.passes)
      fun _ after => after.Sound kept raw good program table ∧ Strays surface graph after := by
  have acts := passAction_ensures g ⟨rfl, sound.kept⟩
    (Pass.setupAll_ensures (rules.setsUp g.session.setting ⟨g.session.pool, surface⟩ rfl) g.passes sound.raw)
  refine acts.mono ?_ ?_
  · rintro _ _ ⟨session, passes, stands, all, rfl⟩
    have sound := sound.act stands.kept stands.compiled_eq stands.pool_eq stands.surface_eq
      (fun leaf found => rules.weaken leaf (all leaf found)) fun _ => all
    exact ⟨⟨sound, laid.act stands.pool_eq passes⟩, stands.surface_eq.trans noted, all⟩
  · rintro _ _ ⟨-, session, passes, stands, all, rfl⟩
    have sound := sound.act stands.kept stands.compiled_eq stands.pool_eq stands.surface_eq all
      fun ready => absurd ready laid.unready
    exact ⟨sound, (laid.act stands.pool_eq passes).strays⟩

/-- A setup that succeeds leaves the graph ready; one that fails has strayed from what it was. -/
theorem setup_ensures (rules : Upholds kept raw good admitted broken allowed) [LawfulDevice σ]
    (sound : graph.Sound kept raw good program table) (surface : Surface) :
    Ensures (· = graph) (setup surface)
      (fun _ after => after.Sound kept raw good program table ∧ after.ready ∧
        (Rests graph after ∨ Adapts surface graph after ∨ Begins surface graph after))
      fun _ after => after.Sound kept raw good program table ∧ Strays surface graph after := by
  have resizes : Ensures (fun g => g = graph ∧ g.ready) (resize surface)
      (fun _ after => after.Sound kept raw good program table ∧ after.ready ∧
        (Rests graph after ∨ Adapts surface graph after ∨ Begins surface graph after))
      fun _ after => after.Sound kept raw good program table ∧ Strays surface graph after := by
    refine .ofEach fun g ⟨here, ready⟩ => ?_
    subst here
    refine (resize_ensures rules sound surface).mono ?_ fun _ _ failed => ⟨failed.1, failed.2.1⟩
    rintro _ after ⟨held, _, rests | adapts⟩
    · exact ⟨held, rests.ready_eq ▸ ready, .inl rests⟩
    · exact ⟨held, adapts.ready, .inr (.inl adapts)⟩
  have starts : ∀ g, g = graph → ¬g.ready → ¬graph.ready ∧ g.Sound kept raw good program table ∧ Rests graph g := by
    rintro _ rfl notReady
    exact ⟨notReady, sound, rfl, rfl⟩
  have strays {α : Type} {action : GraphM σ α}
      (keeps : Effect.Keeps (fun g => g.Sound kept raw good program table ∧ Rests graph g) action) :
      Ensures (fun g => ¬graph.ready ∧ g.Sound kept raw good program table ∧ Rests graph g) action
        (fun _ g => ¬graph.ready ∧ g.Sound kept raw good program table ∧ Rests graph g)
        fun _ g => g.Sound kept raw good program table ∧ Strays surface graph g :=
    .given fun notReady => keeps.mono (fun _ _ => .intro notReady) fun _ _ held => ⟨held.1, held.2.strays surface⟩
  refine setup_rule resizes starts (fun unit => strays (createModule_rests rules unit))
    (fun modules => strays (keepModules_keeps rules modules))
    (.given fun notReady => materialize_ensures rules notReady surface) (setSurface_ensures rules surface)
    (fun g held => setupPasses_ensures rules held.1.1 held.1.2 held.2) ?_
  rintro g text ⟨⟨sound, laid⟩, noted, all⟩
  have logged : kept (g.session.addLog .info .graph text) := (rules.spares g.session).log g.session.host _ sound.kept
  have ready : Sound kept raw good program table
      { g with session := g.session.addLog .info .graph text, ready := true } := { sound.rehost logged with
    good := fun _ => all
    filled := fun _ => laid.filled
    recorded := fun _ => noted.trans laid.surface_eq.symm }
  exact ⟨ready, rfl, .inr (.inr ⟨laid.ready_eq ▸ laid.unready, rfl, laid.refits, laid.surface_eq⟩)⟩

/-- A graph that is ready faces a surface. -/
structure Faces (surface : Surface) (before after : Graph σ) : Prop where
  ready : after.ready
  surface_eq : after.session.surface = some surface
  moved : Rests before after ∨ Adapts surface before after

omit [Device σ] in
theorem Faces.act {g : Graph σ} (faces : Faces surface graph g) (session : Session σ)
    (pool_eq : session.pool = g.session.pool) (surface_eq : session.surface = g.session.surface)
    (passes : List Pass) (frame : Nat) : Faces surface graph { g with session, passes, frame } where
  ready := faces.ready
  surface_eq := surface_eq.trans faces.surface_eq
  moved := by
    obtain rests | adapts := faces.moved
    · exact .inl ⟨rests.ready_eq, pool_eq.trans rests.pool_eq⟩
    · refine .inr ⟨adapts.was, adapts.ready, ?_, ?_, (congrArg Pool.surface pool_eq).trans adapts.surface_eq⟩
      · rw [pool_eq]
        exact adapts.refits
      · rw [pool_eq]
        exact adapts.coherent

/-- What an encoding that fails leaves: an error of the passes is one that those of a ready graph may end
with at that time. -/
abbrev Fails (allowed : Setting → PassError → Prop) (surface : Surface) (before : Graph σ)
    (error : GraphError) (after : Graph σ) : Prop :=
  (Strays surface before after ∨ Adapts surface before after) ∧
    ∀ cause, error = .pass cause → after.ready ∧ allowed after.session.setting cause

omit [Device σ] in
theorem Faces.fails {error : GraphError} {after : Graph σ} (faces : Faces surface graph after)
    (passes : ∀ cause, error = .pass cause → allowed after.session.setting cause) :
    Fails allowed surface graph error after :=
  ⟨faces.moved.imp (·.strays surface) id, fun cause same => ⟨faces.ready, passes cause same⟩⟩

theorem preparePasses_ensures (rules : Upholds kept raw good admitted broken allowed) {g : Graph σ}
    (sound : g.Sound kept raw good program table) (faces : Faces surface graph g) :
    Ensures (· = g) (passAction (Pass.prepareAll ⟨g.session.pool, surface⟩))
      (fun _ after => after.Sound kept raw good program table ∧ Faces surface graph after)
      fun error after => after.Sound kept raw good program table ∧ Fails allowed surface graph error after := by
  have prepares := (rules.upheld g.session.setting).prepare g.session ⟨g.session.pool, surface⟩ ⟨rfl, sound.kept⟩ rfl
  refine (passAction_ensures g ⟨rfl, sound.kept⟩
    (Pass.prepareAll_ensures prepares g.passes (sound.good faces.ready))).mono ?_ ?_
  · rintro _ _ ⟨session, passes, stands, all, rfl⟩
    refine ⟨sound.act stands.kept stands.compiled_eq stands.pool_eq stands.surface_eq ?_ fun _ => all, ?_⟩
    · exact fun leaf found => rules.weaken leaf (all leaf found)
    · exact faces.act session stands.pool_eq stands.surface_eq passes g.frame
  · rintro _ _ ⟨⟨cause, may, rfl⟩, session, passes, stands, all, rfl⟩
    refine ⟨sound.act stands.kept stands.compiled_eq stands.pool_eq stands.surface_eq ?_ fun _ => all, ?_⟩
    · exact fun leaf found => rules.weaken leaf (all leaf found)
    · refine (faces.act session stands.pool_eq stands.surface_eq passes g.frame).fails ?_
      rintro _ ⟨⟩
      exact stands.setting_eq ▸ may

theorem encodeFrame_ensures (rules : Upholds kept raw good admitted broken allowed) {g : Graph σ}
    (sound : g.Sound kept raw good program table) (faces : Faces surface graph g) (target : Option Texture) :
    Ensures (· = g) (encodeFrame target surface)
      (fun stream after => stream.Only admitted ∧ after.Sound kept raw good program table ∧
        Faces surface graph after)
      fun error after => after.Sound kept raw good program table ∧ Fails allowed surface graph error after := by
  have upheld := rules.upheld g.session.setting
  have stands : g.session.Stands g.session.setting kept := ⟨rfl, sound.kept⟩
  have encodes : Pass.Encodes Session.ask ⟨⟨g.session.pool, surface⟩, target, g.frame⟩ _ good _ :=
    upheld.encodes (rules.asked _) stands rfl
  have run := Pass.encodeAll_ensures encodes g.passes (Pass.Each.planned (sound.good faces.ready))
  have rests {session : Session σ} (held : session.Stands g.session.setting kept) :
      Sound kept raw good program table { g with session } ∧ Faces surface graph { g with session } :=
    ⟨sound.act held.kept held.compiled_eq held.pool_eq held.surface_eq sound.raw sound.good,
      faces.act session held.pool_eq held.surface_eq g.passes g.frame⟩
  refine (encodeFrame_step g run ⟨CommandStream.only_start _, stands⟩).mono ?_ ?_
  · rintro stream _ ⟨session, ⟨only, held⟩, rfl⟩
    exact ⟨only, rests held⟩
  · rintro _ _ ⟨cause, stream, session, ⟨may, -, held⟩, rfl, rfl⟩
    refine ⟨(rests held).1, (rests held).2.fails ?_⟩
    rintro _ ⟨⟩
    exact held.setting_eq ▸ may

/-- An encoding that succeeds faces the surface; one that fails has strayed from what it was, or it faced
the surface first. -/
theorem encode_ensures (rules : Upholds kept raw good admitted broken allowed) [LawfulDevice σ]
    (sound : graph.Sound kept raw good program table) (target : Option Texture) (surface : Surface) :
    Ensures (· = graph) (encode target surface)
      (fun stream after => stream.Only admitted ∧ after.Sound kept raw good program table ∧
        Faces surface graph after)
      fun error after => after.Sound kept raw good program table ∧ Fails allowed surface graph error after := by
  have resizes : Ensures (fun g => g = graph ∧ g.ready) (resize surface)
      (fun _ g => g.Sound kept raw good program table ∧ Faces surface graph g)
      fun error g => g.Sound kept raw good program table ∧ Fails allowed surface graph error g := by
    refine .ofEach fun g ⟨here, ready⟩ => ?_
    subst here
    refine (resize_ensures rules sound surface).mono ?_ ?_
    · rintro _ after ⟨held, noted, moved⟩
      refine ⟨held, ?_, noted, moved⟩
      obtain rests | adapts := moved
      · exact rests.ready_eq ▸ ready
      · exact adapts.ready
    · rintro _ after ⟨held, strays, cause, rfl⟩
      exact ⟨held, .inl strays, nofun⟩
  refine encode_rule ?_ resizes ?_ (fun g held => preparePasses_ensures rules held.1 held.2)
    (fun g held => encodeFrame_ensures rules held.1 held.2 target) ?_
  · rintro _ rfl -
    exact ⟨sound, .inl (Rests.strays ⟨rfl, rfl⟩ surface), nofun⟩
  · rintro _ rfl ready noted
    exact ⟨sound, ready, noted, .inl ⟨rfl, rfl⟩⟩
  · rintro stream g text ⟨only, sound, faces⟩
    have logged : kept (g.session.addLog .trace .graph text) := (rules.spares g.session).log g.session.host _ sound.kept
    exact ⟨only, { sound.rehost logged with },
      faces.act (g.session.addLog .trace .graph text) rfl rfl g.passes (g.frame + 1)⟩

end FrameGraph.Graph
