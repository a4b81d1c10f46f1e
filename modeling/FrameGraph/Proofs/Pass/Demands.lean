import FrameGraph.Proofs.Pass.Accepting
import FrameGraph.Proofs.Pass.Setting

/-! # Demands on commands that the pool decides

What a command has to be like may depend on the pool, which does not change while passes run. Then it is enough to know
of each kind of leaf what its setup, its preparation and its command come to, for frames and for jobs alike.
-/

namespace FrameGraph

/-- What is demanded of the program with its pool, of the bind groups of blocks, of leaves between frames, of leaves
that are prepared and of commands. -/
structure Demands where
  stocked : CompiledProgram → Pool → Prop
  grouped : BindGroup → Prop
  good : Pass → Prop
  ready : Pool → Pass → Prop
  admitted : Pool → Command → Prop

variable {σ : Type} {demands : Demands} {setting : Setting} {start session : Session σ}

namespace Session

/-- The session is as demanded, whatever its host is. -/
structure Fits (demands : Demands) (session : Session σ) : Prop where
  stocked : demands.stocked session.compiled session.pool
  blocks : ∀ bound, some bound ∈ session.blockGroups → demands.grouped bound.group
  works : session.Works demands.good

theorem Fits.modify (fits : session.Fits demands) {name : String} {change : OffFrame.Coordinator → OffFrame.Coordinator}
    (works : (session.modifyCoordinator name change).Works demands.good) :
    (session.modifyCoordinator name change).Fits demands where
  stocked := by
    unfold modifyCoordinator
    split <;> exact fits.stocked
  blocks := by
    unfold modifyCoordinator
    split <;> exact fits.blocks
  works := works

/-- A new bind group of a block has to be as demanded. -/
theorem Fits.store (fits : session.Fits demands) {place : Nat} {bound : BoundGroup}
    (made : demands.grouped bound.group) :
    Fits demands { session with blockGroups := session.blockGroups.set place (some bound) } where
  stocked := fits.stocked
  blocks other found := by
    obtain old | same := List.mem_or_eq_of_mem_set found
    · exact fits.blocks other old
    · cases same
      exact made
  works := fits.works

variable [Device σ]

/-- What becomes of a session of this setting in frames and jobs: it is as demanded, and so are all commands that its
device is given. -/
structure Holds (demands : Demands) (setting : Setting) (start session : Session σ) : Prop
    extends Stands setting (Fits demands) session where
  begun : start.setting = setting
  host : Host.Reaches (demands.admitted start.pool) start.host session.host

namespace Holds

theorem refl (fits : session.Fits demands) : Holds demands session.setting session session :=
  ⟨⟨rfl, fits⟩, rfl, .refl _ _⟩

theorem again (holds : Holds demands setting start session) : Holds demands setting session session :=
  ⟨holds.toStands, holds.setting_eq, .refl _ _⟩

/-- The pool that passes see does not change. -/
theorem same_pool (holds : Holds demands setting start session) : session.pool = start.pool :=
  holds.pool_eq.trans (congrArg Setting.pool holds.begun).symm

theorem trans {later : Session σ} (one : Holds demands setting start session)
    (two : Holds demands setting session later) : Holds demands setting start later where
  toStands := two.toStands
  begun := one.begun
  host := one.host.trans (one.same_pool ▸ two.host)

theorem stocked (holds : Holds demands setting start session) : demands.stocked setting.compiled setting.pool :=
  holds.compiled_eq ▸ holds.pool_eq ▸ holds.kept.stocked

/-- Commands that are as demanded may be given. -/
theorem accepting (demands : Demands) (setting : Setting) (start : Session σ) :
    Session.Accepting (demands.admitted start.pool) (Holds demands setting start) := by
  intro session
  have split (host : Host σ) : Holds demands setting start { session with host } ↔
      (session.Stands setting (Fits demands) ∧ start.setting = setting) ∧
        Host.Reaches (demands.admitted start.pool) start.host host := by
    constructor
    · intro holds
      exact ⟨⟨⟨holds.setting_eq, { holds.kept with }⟩, holds.begun⟩, holds.host⟩
    · rintro ⟨⟨stands, begun⟩, host⟩
      exact ⟨⟨stands.setting_eq, { stands.kept with }⟩, begun, host⟩
  rw [funext fun host => propext (split host)]
  exact (Host.Reaches.accepts _ _).beside _

theorem modify (holds : Holds demands setting start session) {name : String}
    {change : OffFrame.Coordinator → OffFrame.Coordinator}
    (works : (session.modifyCoordinator name change).Works demands.good) :
    Holds demands setting start (session.modifyCoordinator name change) where
  setting_eq := (setting_modifyCoordinator session name change).trans holds.setting_eq
  kept := holds.kept.modify works
  begun := holds.begun
  host := by
    unfold modifyCoordinator
    split <;> exact holds.host

theorem tended (demands : Demands) (setting : Setting) (start : Session σ) :
    Session.Tended (Holds demands setting start) where
  log session log := (accepting demands setting start session).log session.host log
  share _ _ holds := ⟨⟨holds.setting_eq, { holds.kept with }⟩, holds.begun, holds.host⟩
  writeDown _ _ holds := ⟨⟨holds.setting_eq, { holds.kept with }⟩, holds.begun, holds.host⟩
  coordinate _ name _ same holds := holds.modify (holds.kept.works.coordinate name same)

theorem hand (holds : Holds demands setting start session) (name : String) {work : OffFrame.Work}
    (all : Pass.Each demands.good work.passes) :
    Holds demands setting start (session.modifyCoordinator name fun coordinator => { coordinator with work := some work }) :=
  holds.modify (holds.kept.works.hand name all)

theorem store (holds : Holds demands setting start session) {place : Nat} {bound : BoundGroup}
    (made : demands.grouped bound.group) :
    Holds demands setting start { session with blockGroups := session.blockGroups.set place (some bound) } :=
  ⟨⟨holds.setting_eq, holds.kept.store made⟩, holds.begun, holds.host⟩

end Holds

end Session

open Session (Holds)

variable [Device σ]

/-- A filter is made ready for its destination, which is no matter of what is asked of it. -/
theorem FilterPass.setup_step [LawfulDevice σ] {admitted : Command → Prop} {inv : Session σ → Prop} {good : Pass → Prop}
    (accepting : Session.Accepting admitted inv) (view : PassView) {pass : FilterPass} (fits : good (.filter pass))
    (same : ∀ prepared, good (.filter { pass with prepared })) :
    Pass.LeafStep inv .filter pass (setup view) good good fun _ => True := by
  let known (p : FilterPass) : Prop := good (.filter p) ∧ ∀ prepared, good (.filter { p with prepared })
  have kept : PartEffect.Keeps (fun p session => known p ∧ inv session) (setup (σ := σ) view) := by
    refine .ofGet fun p session held => .pre (fun _ _ here => here.1 ▸ here.2 ▸ held) ?_
    refine .ofExcept (fun destination _ => ?_) fun _ _ _ _ => id
    have created : DeviceM.Yields (σ := σ) (Device.createFilter p.node.filter destination.format) fun _ => True :=
      Effect.Ensures.any _
    refine .bind (.beside ((accepting.perform _ (.createFilter _ _) created).mono (fun _ _ => And.right)
      fun _ _ => id)) fun prepared => .ofSet fun _ _ done => ?_
    exact ⟨⟨held.1.2 (some prepared), held.1.2⟩, done.2⟩
  exact .ofKeeps kept ⟨fits, same⟩ fun _ fits => fits.1

/-- What each kind of leaf does when the program and its pool are as demanded. -/
structure Demands.Met (σ : Type) [Device σ] (demands : Demands) : Prop where
  setsUpDispatch : ∀ setting (start : Session σ) view pass, demands.stocked setting.compiled setting.pool →
    view.pool = setting.pool → demands.good (.dispatch pass) →
    Pass.LeafStep (Holds demands setting start) .dispatch pass (DispatchPass.setup view) demands.good demands.good
      fun _ => True
  setsUpDraw : ∀ setting (start : Session σ) view pass, demands.stocked setting.compiled setting.pool →
    view.pool = setting.pool → demands.good (.draw pass) →
    Pass.LeafStep (Holds demands setting start) .draw pass (DrawPass.setup view) demands.good demands.good
      fun _ => True
  prepared : ∀ pass prepared, demands.good (.filter pass) → demands.good (.filter { pass with prepared })
  preparesDispatch : ∀ setting (start : Session σ) view pass, demands.stocked setting.compiled setting.pool →
    view.pool = setting.pool → setting.pool.surface = some view.surface → demands.good (.dispatch pass) →
    PartEffect.Ensures (fun p session => p = pass ∧ Holds demands setting start session) (DispatchPass.prepare view)
      (fun _ p session => (demands.good (.dispatch p) ∧ demands.ready setting.pool (.dispatch p)) ∧
        Holds demands setting start session)
      fun _ p session => demands.good (.dispatch p) ∧ Holds demands setting start session
  preparesDraw : ∀ setting (start : Session σ) view pass, demands.stocked setting.compiled setting.pool →
    view.pool = setting.pool → setting.pool.surface = some view.surface → demands.good (.draw pass) →
    PartEffect.Ensures (fun p session => p = pass ∧ Holds demands setting start session) (DrawPass.prepare view)
      (fun _ p session => (demands.good (.draw p) ∧ demands.ready setting.pool (.draw p)) ∧
        Holds demands setting start session)
      fun _ p session => demands.good (.draw p) ∧ Holds demands setting start session
  readyBlit : ∀ pool node, demands.good (.blit node) → demands.ready pool (.blit node)
  readyFilter : ∀ pool pass, demands.good (.filter pass) → demands.ready pool (.filter pass)
  readyCallback : ∀ pool node, demands.good (.callback node) → demands.ready pool (.callback node)
  dispatch : ∀ pool pass, demands.ready pool (.dispatch pass) →
    Comes (demands.admitted pool) (fun _ => True) (pass.command.map .dispatch)
  draw : ∀ program (view : EncodeView) pass, demands.stocked program view.pool → demands.ready view.pool (.draw pass) →
    Comes (demands.admitted view.pool) (fun _ => True) ((pass.command view).map .draw)
  blit : ∀ program (view : EncodeView) node, demands.stocked program view.pool → demands.ready view.pool (.blit node) →
    Comes (demands.admitted view.pool) (fun _ => True) (node.command view)
  filter : ∀ program (view : EncodeView) pass, demands.stocked program view.pool →
    demands.ready view.pool (.filter pass) → Comes (demands.admitted view.pool) (fun _ => True) (pass.command view)
  callback : ∀ (view : EncodeView) node command, demands.ready view.pool (.callback node) →
    node.MayRecord view command → demands.admitted view.pool command

namespace Demands.Met

variable (met : demands.Met σ)

include met

theorem setsUp [LawfulDevice σ] {view : PassView} (stocked : demands.stocked setting.compiled setting.pool)
    (seen : view.pool = setting.pool) :
    Pass.SetsUp view (Holds demands setting start) demands.good demands.good fun _ => True where
  weaken _ := id
  dispatch pass := met.setsUpDispatch setting start view pass stocked seen
  draw pass := met.setsUpDraw setting start view pass stocked seen
  filter pass fits := FilterPass.setup_step (Holds.accepting demands setting start) view fits
    fun prepared => met.prepared pass prepared fits
  blit _ := id
  callback _ := id
  attach session name passes holds all := by
    have logged := (Holds.tended demands setting start).addLog .info .offFrame s!"async group '{name}' attached" holds
    exact logged.hand name all

theorem readies {view : PassView} (stocked : demands.stocked setting.compiled setting.pool)
    (seen : view.pool = setting.pool) (faced : setting.pool.surface = some view.surface) :
    Pass.Readies (σ := σ) view (Holds demands setting) demands.good (fun session => demands.ready session.pool)
      fun _ => True where
  refl _ _ holds := holds.again
  trans _ _ _ := .trans
  lasts session later leaf holds := by
    rw [holds.same_pool]
    exact id
  dispatch start pass fits := by
    refine (met.preparesDispatch setting start view pass stocked seen faced fits).mono ?_ fun _ _ _ => .intro trivial
    intro _ _ session done
    rw [done.2.pool_eq]
    exact done
  draw start pass fits := by
    refine (met.preparesDraw setting start view pass stocked seen faced fits).mono ?_ fun _ _ _ => .intro trivial
    intro _ _ session done
    rw [done.2.pool_eq]
    exact done
  blit session node := met.readyBlit session.pool node
  filter session pass := met.readyFilter session.pool pass
  callback session node := met.readyCallback session.pool node

/-- Frames and jobs give the device commands only that are as demanded. -/
theorem runsJobs (setting : Setting) :
    Session.RunsJobs (Holds (σ := σ) demands setting) demands.good (fun session => demands.ready session.pool)
      (fun session => demands.admitted session.pool) fun _ => True where
  encoding start := {
    Holds.tended demands setting start with
    encode session _ fits := (Holds.accepting demands setting start session).perform (.encode _ fits)
    submit session _ _ fits := (Holds.accepting demands setting start session).perform (.submit _ _ fits)
    wait session _ := (Holds.accepting demands setting start session).perform (.wait _)
    dispatch pass := met.dispatch start.pool pass
    draw session view pass holds seen := by
      rw [← holds.same_pool, ← seen]
      exact met.draw session.compiled view pass (seen ▸ holds.kept.stocked)
    blit session view node holds seen := by
      rw [← holds.same_pool, ← seen]
      exact met.blit session.compiled view node (seen ▸ holds.kept.stocked)
    filter session view pass holds seen := by
      rw [← holds.same_pool, ← seen]
      exact met.filter session.compiled view pass (seen ▸ holds.kept.stocked)
    callback session view node command holds seen := by
      rw [← holds.same_pool, ← seen]
      exact met.callback view node command
    device _ _ := trivial
    fail _ _ _ _ _ _ _ _ := trivial }
  readies start session view holds seen faced := by
    refine met.readies holds.stocked (seen.trans holds.pool_eq) ?_
    rw [← holds.pool_eq]
    exact faced
  known start session prepared holds later := ⟨prepared, later.again, holds.pool_eq.trans later.pool_eq.symm⟩
  hand start session name work all holds := holds.hand name all
  works start session name coordinator work holds := holds.kept.works name coordinator work

end Demands.Met

end FrameGraph
