import FrameGraph.Proofs.Pass.Accepting
import FrameGraph.Proofs.Pass.Setting

/-! # What becomes of a session

Whatever frames and jobs do, and whatever passes they run, the setting of the session stays and its device only goes
on from what was done to it before.
-/

namespace FrameGraph

variable {σ : Type} [Device σ]

/-- Preparation does no more to a session than to give its device something to do and to store groups of blocks. -/
theorem Pass.Readies.ofAccepting [LawfulDevice σ] {reached : Session σ → Session σ → Prop} (view : PassView)
    (accepting : ∀ start, Session.Accepting (fun _ => True) (reached start))
    (stored : ∀ start session blockGroups, reached start session → reached start { session with blockGroups })
    (refl : ∀ start session, reached start session → reached session session)
    (trans : ∀ start session later, reached start session → reached session later → reached start later) :
    Readies view reached (fun _ => True) (fun _ _ => True) fun _ => True where
  refl := refl
  trans := trans
  lasts _ _ _ _ _ := trivial
  dispatch start pass _ := by
    have refreshed : PartEffect.Keeps (fun _ session => reached start session)
        ((Bindings.refresh (σ := σ) view).inPart DispatchPass.bindingsLens) := by
      refine .inPart fun _ => .pre (fun _ _ => And.right) ?_
      exact Bindings.refresh_keeps (accepting start) (stored start) view
    refine .pre (fun _ _ => And.right) ((DispatchPass.prepare_ensures view (fun _ => accepting start)
      (fun _ _ _ => id) (fun _ _ => id) refreshed).mono ?_ ?_)
    · exact fun _ _ _ done => ⟨⟨trivial, trivial⟩, done⟩
    · exact fun _ _ _ failed => ⟨trivial, trivial, failed⟩
  draw start pass _ := by
    have refreshed : PartEffect.Keeps (fun _ session => reached start session)
        ((Bindings.refresh (σ := σ) view).inPart DrawPass.bindingsLens) := by
      refine .inPart fun _ => .pre (fun _ _ => And.right) ?_
      exact Bindings.refresh_keeps (accepting start) (stored start) view
    have built (formats : List PixelFormat) : PartEffect.Keeps (fun _ session => reached start session)
        (DrawPass.buildPipeline (σ := σ) formats) :=
      DrawPass.buildPipeline_keeps formats (fun _ => accepting start) fun _ _ _ held _ _ _ => held
    refine .pre (fun _ _ => And.right) ((DrawPass.prepare_ensures view (fun _ => accepting start)
      (fun _ => accepting start) (fun _ _ => id) (fun _ _ => id) built refreshed).mono ?_ ?_)
    · exact fun _ _ _ done => ⟨⟨trivial, trivial⟩, done⟩
    · exact fun _ _ _ failed => ⟨trivial, trivial, failed⟩
  blit _ _ _ := trivial
  filter _ _ _ := trivial
  callback _ _ _ := trivial

/-- The setting is the same, and the device has gone on. -/
structure Session.Proceeds (start session : Session σ) : Prop where
  setting_eq : session.setting = start.setting
  host : Host.Reaches (fun _ => True) start.host session.host

namespace Session.Proceeds

variable {start middle session : Session σ}

theorem refl (session : Session σ) : session.Proceeds session := ⟨rfl, .refl _ _⟩

theorem trans (one : start.Proceeds middle) (two : middle.Proceeds session) : start.Proceeds session :=
  ⟨two.setting_eq.trans one.setting_eq, one.host.trans two.host⟩

theorem pool_eq (proceeds : start.Proceeds session) : session.pool = start.pool :=
  congrArg Setting.pool proceeds.setting_eq

/-- Commands of all kinds may be given. -/
theorem accepting (start : Session σ) : Session.Accepting (fun _ => True) start.Proceeds := by
  intro session
  have split (host : Host σ) : start.Proceeds { session with host } ↔
      session.setting = start.setting ∧ Host.Reaches (fun _ => True) start.host host :=
    ⟨fun held => ⟨held.1, held.2⟩, fun held => ⟨held.1, held.2⟩⟩
  rw [funext fun host => propext (split host)]
  exact (Host.Reaches.accepts _ _).beside _

theorem stored (session : Session σ) (blockGroups : List (Option BoundGroup)) (proceeds : start.Proceeds session) :
    start.Proceeds { session with blockGroups } := ⟨proceeds.setting_eq, proceeds.host⟩

theorem modifyCoordinator (proceeds : start.Proceeds session) (name : String)
    (change : OffFrame.Coordinator → OffFrame.Coordinator) : start.Proceeds (session.modifyCoordinator name change) where
  setting_eq := (setting_modifyCoordinator session name change).trans proceeds.setting_eq
  host := by
    unfold Session.modifyCoordinator
    split <;> exact proceeds.host

theorem tended (start : Session σ) : Session.Tended start.Proceeds where
  log session log := (accepting start session).log session.host log
  share _ _ proceeds := ⟨proceeds.setting_eq, proceeds.host⟩
  writeDown _ _ proceeds := ⟨proceeds.setting_eq, proceeds.host⟩
  coordinate _ name change _ proceeds := proceeds.modifyCoordinator name change

variable [LawfulDevice σ]

theorem readies (view : PassView) :
    Pass.Readies (σ := σ) view Session.Proceeds (fun _ => True) (fun _ _ => True) fun _ => True :=
  .ofAccepting view accepting (fun _ => stored) (fun _ session _ => refl session) fun _ _ _ => trans

theorem runsJobs :
    Session.RunsJobs (σ := σ) Session.Proceeds (fun _ => True) (fun _ _ => True) (fun _ _ => True) fun _ => True where
  encoding start := {
    tended start with
    encode session _ _ := (accepting start session).perform (.encode _ trivial)
    submit session _ _ fits := (accepting start session).perform (.submit _ _ fits)
    wait session _ := (accepting start session).perform (.wait _)
    dispatch _ _ := .any _
    draw _ _ _ _ _ _ := .any _
    blit _ _ _ _ _ _ := .any _
    filter _ _ _ _ _ _ := .any _
    callback _ _ _ _ _ _ _ _ := trivial
    device _ _ := trivial
    fail _ _ _ _ _ _ _ _ := trivial }
  readies _ _ view _ _ _ := readies view
  known _ _ prepared _ later := ⟨prepared, refl prepared, later.pool_eq.symm⟩
  hand _ _ name _ _ proceeds := proceeds.modifyCoordinator name _
  works _ _ _ _ _ _ _ _ _ _ := trivial

/-- A request with all jobs that it starts is no more than that. -/
theorem asked (name : String) (request : OffFrame.Request) (session : Session σ) :
    session.Proceeds (session.ask name request) :=
  runsJobs.asked name request session (refl session)

end Session.Proceeds

end FrameGraph
