import FrameGraph.OffFrame.Worker
import FrameGraph.Proofs.Pass.Reads

/-! # What frames and jobs uphold

An assertion on sessions that every single thing upholds that frames and jobs do is upheld by whole
frames, by requests to coordinators and by the jobs that these start, however deep they nest. Leaves are
asserted something of as well, and so are the commands that streams may hold and the errors that passes
may end with.
-/

namespace FrameGraph

variable {σ : Type}

/-- The open encoder holds admitted commands only. -/
def CommandStream.Only (admitted : Command → Prop) (stream : CommandStream) : Prop :=
  ∀ commands, stream.encoder = some commands → ∀ command ∈ commands, admitted command

namespace CommandStream

variable {admitted : Command → Prop}

theorem only_start (label : String) : Only admitted { label } := nofun

theorem Only.mono {more : Command → Prop} {stream : CommandStream} (only : stream.Only admitted)
    (admits : ∀ command, admitted command → more command) : stream.Only more :=
  fun commands opened command found => admits command (only commands opened command found)

theorem Only.openEncoder {stream : CommandStream} (only : stream.Only admitted) :
    Only admitted { stream with encoder := some (stream.encoder.getD []) } := by
  rintro commands ⟨⟩ command found
  cases opened : stream.encoder with
  | none => simp [opened] at found
  | some commands => exact only commands opened command (by simpa [opened] using found)

theorem Only.append {stream : CommandStream} (only : stream.Only admitted) {command : Command}
    (fits : admitted command) :
    Only admitted { stream with encoder := stream.encoder.map (· ++ [command]) } := by
  intro commands recorded other found
  obtain ⟨old, opened, rfl⟩ := Option.map_eq_some_iff.mp recorded
  rw [List.mem_append, List.mem_singleton] at found
  obtain found | rfl := found
  · exact only old opened other found
  · exact fits

variable {inv : Host σ → Prop}

open PartEffect (Keeps Ensures)

theorem openEncoder_keeps :
    Keeps (fun stream host => stream.Only admitted ∧ inv host) (openEncoder : StreamM σ Unit) :=
  .ofModify fun _ _ held => ⟨held.1.openEncoder, held.2⟩

variable [Device σ]

theorem record_keeps {command : Command} (fits : admitted command)
    (taken : Effect.Keeps inv (Host.perform (Device.encode command))) :
    Keeps (fun stream host => stream.Only admitted ∧ inv host) (record command : StreamM σ Unit) := by
  refine openEncoder_keeps.bind fun _ => (Ensures.beside taken).bind fun _ => ?_
  exact .ofModify fun _ _ held => ⟨held.1.append fits, held.2⟩

theorem commit_keeps (logged : ∀ host log, inv host → inv { host with log })
    (submitted : ∀ label commands, (∀ command ∈ commands, admitted command) →
      Effect.Keeps inv (Host.perform (Device.submit label commands))) :
    Keeps (fun stream host => stream.Only admitted ∧ inv host) (commit : StreamM σ (Option Nat)) := by
  refine .ofGet fun stream host held => ?_
  cases opened : stream.encoder with
  | none => exact .ofPure fun _ _ here => here.1 ▸ here.2 ▸ held
  | some commands =>
    have closed : Ensures (fun s (h : Host σ) => s = stream ∧ h = host)
        (set { stream with encoder := none }) (fun _ s h => s.Only admitted ∧ inv h)
        (fun (_ : DeviceError) s h => s.Only admitted ∧ inv h) :=
      .ofSet fun _ _ here => ⟨nofun, here.2 ▸ held.2⟩
    refine closed.bind fun _ => ?_
    refine (Ensures.beside (submitted _ commands (held.1 commands opened))).bind fun submission => ?_
    refine (Ensures.beside (Host.note_ensures _ _ _ logged)).bind fun _ => ?_
    refine .bind (.ofChange _) fun _ => .ofPure ?_
    rintro _ _ ⟨old, held, rfl⟩
    exact held

/-- What is left of a stream is submitted. -/
theorem finish_keeps {stream : CommandStream} (only : stream.Only admitted)
    (logged : ∀ host log, inv host → inv { host with log })
    (submitted : ∀ label commands, (∀ command ∈ commands, admitted command) →
      Effect.Keeps inv (Host.perform (Device.submit label commands))) :
    Effect.Keeps inv (finish stream : HostM σ (List Nat)) := by
  intro host held
  have run := commit_keeps logged submitted stream host ⟨only, held⟩
  simp only [finish, Effect.apply_ofFunction, PartEffect.apply]
  split at run
  · rename_i applied
    rw [applied]
    exact run.2
  · rename_i applied
    rw [applied]
    exact run.2

theorem commitAndWait_keeps (logged : ∀ host log, inv host → inv { host with log })
    (submitted : ∀ label commands, (∀ command ∈ commands, admitted command) →
      Effect.Keeps inv (Host.perform (Device.submit label commands)))
    (waited : ∀ submission, Effect.Keeps inv (Host.perform (Device.wait submission))) :
    Keeps (fun stream host => stream.Only admitted ∧ inv host) (commitAndWait : StreamM σ Unit) := by
  refine (commit_keeps logged submitted).bind fun submission => ?_
  cases submission with
  | none => exact .ofPure fun _ _ => id
  | some submission => exact Ensures.beside (waited submission)

end CommandStream

open OffFrame (Coordinator Work WorkError Request)

variable [Device σ]

omit [Device σ] in
/-- An assertion on sessions that lasts through what happens to the log, the shared values, the records of
callbacks and the coordinators. -/
structure Session.Tended (inv : Session σ → Prop) : Prop where
  log : ∀ session log, inv session → inv { session with host := { session.host with log } }
  share : ∀ session change, inv session → inv (session.modifyShared change)
  writeDown : ∀ session records, inv session → inv { session with records }
  /-- Coordinators may change in everything but their work. -/
  coordinate : ∀ session name change, (∀ coordinator, (change coordinator).work = coordinator.work) →
    inv session → inv (session.modifyCoordinator name change)

/-- Assertions on sessions, on leaves that are encoded, on commands and on errors that every single thing upholds
that encoding does. -/
structure UpheldInEncoding (inv : Session σ → Prop) (good : Pass → Prop) (admitted : Command → Prop)
    (allowed : PassError → Prop) : Prop extends Session.Tended inv where
  encode : ∀ (session : Session σ) command, admitted command →
    Effect.Keeps (fun host => inv { session with host }) (Host.perform (Device.encode command))
  submit : ∀ (session : Session σ) label commands, (∀ command ∈ commands, admitted command) →
    Effect.Keeps (fun host => inv { session with host }) (Host.perform (Device.submit label commands))
  wait : ∀ (session : Session σ) submission,
    Effect.Keeps (fun host => inv { session with host }) (Host.perform (Device.wait submission))
  dispatch : ∀ pass, good (.dispatch pass) → Comes admitted allowed (pass.command.map .dispatch)
  draw : ∀ session (view : EncodeView) pass, inv session → view.pool = session.pool → good (.draw pass) →
    Comes admitted allowed ((pass.command view).map .draw)
  blit : ∀ session (view : EncodeView) node, inv session → view.pool = session.pool → good (.blit node) →
    Comes admitted allowed (node.command view)
  filter : ∀ session (view : EncodeView) pass, inv session → view.pool = session.pool →
    good (.filter pass) → Comes admitted allowed (pass.command view)
  callback : ∀ session (view : EncodeView) node command, inv session → view.pool = session.pool →
    good (.callback node) → node.MayRecord view command → admitted command
  device : ∀ label cause, allowed (.device label cause)
  fail : ∀ session (view : EncodeView) node error, inv session → view.pool = session.pool →
    good (.callback node) → node.MayFail view error → allowed error

/-- Assertions on sessions, leaves, commands and errors that every single thing in a frame upholds. -/
structure Upheld (inv : Session σ → Prop) (good : Pass → Prop) (admitted : Command → Prop)
    (allowed : PassError → Prop) : Prop extends UpheldInEncoding inv good admitted allowed where
  prepare : ∀ session view, inv session → view.pool = session.pool → Pass.Prepares view inv good allowed

/-- The same of jobs: the leaves of all work that was handed over are as asked. -/
structure UpheldInJobs (inv : Session σ → Prop) (good : Pass → Prop) (admitted : Command → Prop)
    (allowed : PassError → Prop) : Prop extends Upheld inv good admitted allowed where
  hand : ∀ session name work, Pass.Each good work.passes → inv session →
    inv (session.modifyCoordinator name fun coordinator => { coordinator with work := some work })
  works : ∀ session name coordinator work, inv session → session.coordinator? name = some coordinator →
    coordinator.work = some work → Pass.Each good work.passes

/-- What frames and jobs come to when it is told by a relation from where a session was to where it is: leaves that
are prepared become `ready`, and encoding upholds that. -/
structure Session.RunsJobs (reached : Session σ → Session σ → Prop) (good : Pass → Prop)
    (ready : Session σ → Pass → Prop) (admitted : Session σ → Command → Prop) (allowed : PassError → Prop) :
    Prop where
  encoding : ∀ start, UpheldInEncoding (reached start) (ready start) (admitted start) allowed
  readies : ∀ start session view, reached start session → view.pool = session.pool →
    session.pool.surface = some view.surface → Pass.Readies view reached good ready allowed
  /-- Encoding still knows of the pool that was prepared for. -/
  known : ∀ start session prepared, reached start session → reached session prepared →
    ∃ later, reached prepared later ∧ session.pool = later.pool
  hand : ∀ start session name work, Pass.Each good work.passes → reached start session →
    reached start (session.modifyCoordinator name fun coordinator => { coordinator with work := some work })
  works : ∀ start session name coordinator work, reached start session →
    session.coordinator? name = some coordinator → coordinator.work = some work → Pass.Each good work.passes

namespace Session.Tended

variable {inv : Session σ → Prop}

omit [Device σ]

theorem addLog (rules : Tended inv) {session : Session σ} (level : LogLevel)
    (source : LogSource) (text : String) (holds : inv session) : inv (session.addLog level source text) :=
  rules.log session _ holds

theorem updateFlags (rules : Tended inv) {session : Session σ} (name : String)
    (holds : inv session) : inv (session.updateFlags name) := by
  unfold Session.updateFlags
  split
  · exact rules.share _ _ holds
  · exact holds

theorem observeFrame (rules : Tended inv) {session : Session σ} (name : String)
    (holds : inv session) : inv (session.observeFrame name) := by
  unfold Session.observeFrame
  split
  · exact holds
  · split
    · exact holds
    · exact rules.updateFlags name (rules.coordinate _ _ _ (fun _ => rfl) holds)

theorem carryOut (rules : Tended inv) {session : Session σ} (name : String)
    (action : OffFrame.Action NamedParameters) (holds : inv session) :
    inv (session.carryOut name action) := by
  cases action with
  | none => exact holds
  | dispatch params => exact rules.coordinate _ _ _ (fun _ => rfl) holds
  | complete params =>
    refine rules.coordinate _ _ _ (fun coordinator => ?_) (rules.addLog _ _ _ (rules.share _ _ holds))
    unfold OffFrame.Coordinator.callCompletion
    split <;> rfl

theorem transition (rules : Tended inv) {session : Session σ} (name : String)
    (step : OffFrame.State NamedParameters →
      OffFrame.State NamedParameters × OffFrame.Action NamedParameters)
    (holds : inv session) : inv (session.transition name step) := by
  unfold Session.transition
  split
  · exact holds
  · exact rules.carryOut name _ (rules.updateFlags name (rules.coordinate _ _ _ (fun _ => rfl) holds))

theorem receive (rules : Tended inv) {session : Session σ} (name : String)
    (request : Request) (holds : inv session) : inv (session.receive name request) := by
  cases request with
  | ready =>
    rw [Session.receive]
    exact rules.transition name _ holds
  | run params =>
    rw [Session.receive]
    refine rules.transition name _ ?_
    split
    · exact rules.addLog _ _ _ holds
    · exact holds

end Session.Tended

namespace UpheldInEncoding

variable {inv : Session σ → Prop} {good : Pass → Prop} {admitted : Command → Prop}
  {allowed : PassError → Prop}

/-- An action on a session and a stream upholds the assertions. -/
abbrev Streams {α : Type} (inv : Session σ → Prop) (admitted : Command → Prop) (allowed : PassError → Prop)
    (action : EncodeM σ α) : Prop :=
  PartEffect.Ensures (fun stream session => stream.Only admitted ∧ inv session) action
    (fun _ stream session => stream.Only admitted ∧ inv session)
    fun error stream session => allowed error ∧ stream.Only admitted ∧ inv session

/-- An action on a stream keeps its commands admitted, with any session around the host. -/
abbrev StreamKeeps {α : Type} (inv : Session σ → Prop) (admitted : Command → Prop) (action : StreamM σ α) : Prop :=
  ∀ session : Session σ, PartEffect.Keeps
    (fun stream host => CommandStream.Only admitted stream ∧ inv { session with host }) action

/-- An action on a stream alone upholds them when it does so with any session around the host. -/
theorem stream (rules : UpheldInEncoding inv good admitted allowed) {α : Type} {action : StreamM σ α} (label : String)
    (kept : StreamKeeps inv admitted action) :
    Streams inv admitted allowed (Session.stream label action) := by
  refine .mapError (.inWhole fun session => .pre ?_ ((kept session).mono (fun _ _ _ => id) ?_))
  · rintro stream host ⟨rfl, held⟩
    exact held
  · exact fun error stream host held => ⟨rules.device label error, held⟩

theorem record_keeps (rules : UpheldInEncoding inv good admitted allowed) {command : Command}
    (fits : admitted command) : StreamKeeps inv admitted (CommandStream.record command) :=
  fun session => CommandStream.record_keeps fits (rules.encode session command fits)

theorem commit_keeps (rules : UpheldInEncoding inv good admitted allowed) :
    StreamKeeps inv admitted CommandStream.commit :=
  fun session => CommandStream.commit_keeps (fun host log => rules.log { session with host } log) (rules.submit session)

theorem commitAndWait_keeps (rules : UpheldInEncoding inv good admitted allowed) :
    StreamKeeps inv admitted CommandStream.commitAndWait :=
  fun session => CommandStream.commitAndWait_keeps (fun host log => rules.log { session with host } log)
    (rules.submit session) (rules.wait session)

theorem record (rules : UpheldInEncoding inv good admitted allowed) {command : Command} (label : String)
    (fits : admitted command) :
    Streams inv admitted allowed (Session.stream label (CommandStream.record command)) :=
  rules.stream label (rules.record_keeps fits)

variable {ask : Ask σ}

/-- What a pass comes to is recorded, or its error is passed on. -/
theorem encodeCommand (rules : UpheldInEncoding inv good admitted allowed) {α : Type} (label : String)
    (wrap : α → Command) {result : Except PassError α} (fits : Comes admitted allowed (result.map wrap)) :
    Streams inv admitted allowed (do
      let command ← MonadExcept.ofExcept result
      Session.stream (σ := σ) label (CommandStream.record (wrap command))) := by
  refine .ofExcept (fun command found => ?_) fun error found _ _ held => ⟨?_, held⟩
  · rw [found] at fits
    exact rules.record label fits
  · rw [found] at fits
    exact fits

theorem encodeDispatch (rules : UpheldInEncoding inv good admitted allowed) {pass : DispatchPass}
    (fits : good (.dispatch pass)) : Streams inv admitted allowed (pass.encode : EncodeM σ Unit) := by
  have traced (text : String) : Streams (σ := σ) inv admitted allowed
      (PartEffect.around (Session.note .trace .dispatch text)) :=
    .around fun _ => .ofModify fun _ held => ⟨held.1, rules.addLog _ _ _ held.2⟩
  refine .ofIf (fun _ => traced _) fun _ => ?_
  have fits := rules.dispatch pass fits
  refine .ofExcept (fun command result => ?_) fun error result _ _ held => ⟨?_, held⟩
  · rw [result] at fits
    refine (rules.record pass.label fits).bind fun _ => ?_
    exact .ofIf (fun _ => (traced _).bind fun _ => rules.stream _ rules.commitAndWait_keeps) fun _ => .ofPure fun _ _ => id
  · rw [result] at fits
    exact fits

omit [Device σ] in
/-- What is tried on the stream upholds them, and its failure is no failure of the callback. -/
theorem tryStream {α : Type} {action : StreamM σ α}
    (kept : StreamKeeps inv admitted action) : Streams inv admitted allowed (Session.tryStream action) := by
  have tried : PartEffect.Keeps (fun stream session => CommandStream.Only admitted stream ∧ inv session)
      (action.inWhole (Session.hostLens (σ := σ))) := .inWhole fun session => by
    refine .pre ?_ (kept session)
    rintro stream host ⟨rfl, held⟩
    exact held
  refine tried.attempt.mono (fun result _ _ held => ?_) fun _ _ _ => False.elim
  cases result <;> exact held

omit [Device σ] in
/-- What is done to the session alone upholds them when the assertion on sessions lasts. -/
theorem modify {change : Session σ → Session σ} (lasts : ∀ session, inv session → inv (change session)) :
    Streams inv admitted allowed (PartEffect.around (modify change)) :=
  .around fun _ => .ofModify fun _ held => ⟨held.1, lasts _ held.2⟩

/-- Code upholds them when the commands that it may record and the errors that it may fail with do. -/
theorem runCode (rules : UpheldInEncoding inv good admitted allowed)
    (asks : ∀ session name request, inv session → inv (ask name request session)) (code : CallbackCode)
    (records : ∀ command next, code.Reaches (.record command next) → admitted command)
    (fails : ∀ error, code.Reaches (.finish (.error error)) → allowed error) :
    Streams inv admitted allowed (code.run ask) := by
  -- What code may get to after its first thing, it may get to.
  have onward {first next : CallbackCode} (step : first.Next next)
      (records : ∀ command after, first.Reaches (.record command after) → admitted command)
      (fails : ∀ error, first.Reaches (.finish (.error error)) → allowed error) :
      (∀ command after, next.Reaches (.record command after) → admitted command) ∧
        ∀ error, next.Reaches (.finish (.error error)) → allowed error :=
    ⟨fun command after found => records command after (.head step found), fun error found => fails error (.head step found)⟩
  induction code with
  | finish result =>
    cases result with
    | ok _ => exact .ofPure fun _ _ => id
    | error error => exact .ofThrow fun _ _ held => ⟨fails error .refl, held⟩
  | look next ih =>
    refine .ofGet fun stream session held => .ofLook fun _ _ _ => ?_
    obtain ⟨records, fails⟩ := onward (.look next _) records fails
    exact .pre (fun _ _ here => here.1 ▸ here.2 ▸ held) (ih _ records fails)
  | openEncoder next ih =>
    obtain ⟨records, fails⟩ := onward (.openEncoder next) records fails
    exact (tryStream fun _ => CommandStream.openEncoder_keeps).bind fun _ => ih records fails
  | record command next ih =>
    have fits : admitted command := records command next .refl
    refine (tryStream (rules.record_keeps fits)).bind fun result => ?_
    obtain ⟨records, fails⟩ := onward (.record command next result) records fails
    exact ih result records fails
  | commit next ih =>
    refine (tryStream rules.commit_keeps).bind fun result => ?_
    obtain ⟨records, fails⟩ := onward (.commit next result) records fails
    exact ih result records fails
  | commitAndWait next ih =>
    refine (tryStream rules.commitAndWait_keeps).bind fun result => ?_
    obtain ⟨records, fails⟩ := onward (.commitAndWait next result) records fails
    exact ih result records fails
  | share change next ih =>
    obtain ⟨records, fails⟩ := onward (.share change next) records fails
    exact (modify fun session => rules.share session change).bind fun _ => ih records fails
  | ask group request next ih =>
    obtain ⟨records, fails⟩ := onward (.ask group request next) records fails
    exact (modify fun session => asks session group request).bind fun _ => ih records fails
  | writeDown entry next ih =>
    obtain ⟨records, fails⟩ := onward (.writeDown entry next) records fails
    exact (modify fun session => rules.writeDown session _).bind fun _ => ih records fails

/-- Encoding trees of passes upholds them when requests do. -/
theorem encodes (rules : UpheldInEncoding inv good admitted allowed)
    (asks : ∀ session name request, inv session → inv (ask name request session)) {view : EncodeView}
    {known : Session σ} (holds : inv known) (seen : view.pool = known.pool) :
    Pass.Encodes ask view (fun stream session => stream.Only admitted ∧ inv session) good allowed where
  dispatch _ fits := rules.encodeDispatch fits
  draw pass fits := rules.encodeCommand pass.label .draw (rules.draw known view pass holds seen fits)
  blit node fits := rules.encodeCommand node.label id (by
    simpa only [Except.map_id, id] using rules.blit known view node holds seen fits)
  filter pass fits := rules.encodeCommand pass.node.label id (by
    simpa only [Except.map_id, id] using rules.filter known view pass holds seen fits)
  callback node fits := rules.runCode asks (node.code view)
    (fun command next found => rules.callback known view node command holds seen fits ⟨next, found⟩)
    fun error found => rules.fail known view node error holds seen fits found
  skip _ _ _ held := ⟨held.1, rules.addLog _ _ _ held.2⟩
  observe _ _ name held := ⟨held.1, rules.observeFrame name held.2⟩

end UpheldInEncoding

namespace Session.RunsJobs

variable {reached : Session σ → Session σ → Prop} {good : Pass → Prop} {ready : Session σ → Pass → Prop}
  {admitted : Session σ → Command → Prop} {allowed : PassError → Prop} {ask : Ask σ} {start : Session σ}

/-- A job goes on from the session in which its passes were made ready. -/
theorem runPasses (rules : RunsJobs reached good ready admitted allowed)
    (asks : ∀ start session name request, reached start session → reached start (ask name request session))
    (name : String) (work : Work) (surface : Surface) (all : Pass.Each good work.passes) :
    Step.Ensures (fun session => session.pool.surface = some surface ∧ reached start session)
      (Session.runPasses ask name work surface)
      (fun _ work session => Pass.Each good work.passes ∧ reached start session)
      fun _ work session => Pass.Each good work.passes ∧ reached start session := by
  refine .ofGet fun session ⟨faced, holds⟩ => ?_
  have readies := rules.readies start session ⟨session.pool, surface⟩ holds rfl faced
  refine (Step.Ensures.pre (fun _ held => held.1 ▸ readies.refl start session holds)
    (Pass.prepareAll_readied readies _ all session)).bind (fun | (), passes => ?_)
    fun _ _ => .ofReturn fun after failed => ⟨failed.2.1, readies.trans start session after holds failed.2.2⟩
  refine .ofEach fun prepared ⟨⟨all, planned⟩, since⟩ => ?_
  have kept {after : Session σ} (later : reached prepared after) : reached start after :=
    readies.trans start prepared after (readies.trans start session prepared holds since) later
  obtain ⟨known, beyond, seen⟩ := rules.known start session prepared holds since
  have encoding := rules.encoding prepared
  refine (Step.Ensures.pre
    (fun _ same => ⟨CommandStream.only_start _, same ▸ readies.refl session prepared since⟩)
    (Pass.encodeAll_ensures (encoding.encodes (asks prepared) beyond seen) passes planned _)).bind
    (fun | (), stream => ?_) fun _ _ => .ofReturn fun _ failed => ⟨all, kept failed.2.2⟩
  have finished : PartEffect.Keeps (fun stream session => stream.Only (admitted prepared) ∧ reached prepared session)
      (CommandStream.commitAndWait.inWhole (hostLens (σ := σ))) := .inWhole fun session => by
    refine .pre ?_ (CommandStream.commitAndWait_keeps (fun host log => encoding.log { session with host } log)
      (encoding.submit session) (encoding.wait session))
    rintro stream host ⟨rfl, held⟩
    exact held
  exact (finished stream).bind (fun _ _ => .ofReturn fun _ held => ⟨all, kept held.2⟩)
    fun _ _ => .ofReturn fun _ held => ⟨all, kept held.2⟩

theorem runWork (rules : RunsJobs reached good ready admitted allowed)
    (asks : ∀ start session name request, reached start session → reached start (ask name request session))
    (name : String) (session : Session σ) (holds : reached start session) :
    reached start ((Session.runWork ask name).run session).2 := by
  unfold Session.runWork
  simp only [StateT.run_bind, StateT.run_get, pure_bind]
  split
  · exact holds
  · exact holds
  · rename_i work surface attached faced
    obtain ⟨coordinator, found, has⟩ := Option.bind_eq_some_iff.mp attached
    have ran := rules.runPasses asks name work surface (rules.works _ _ _ _ _ holds found has) session ⟨faced, holds⟩
    rw [StateT.run_bind]
    split at ran
    · rename_i applied
      rw [applied]
      exact rules.hand _ _ _ _ ran.1 ran.2
    · rename_i applied
      rw [applied]
      exact rules.hand _ _ _ _ ran.1 ran.2

theorem finishJob (rules : RunsJobs reached good ready admitted allowed)
    (asks : ∀ start session name request, reached start session → reached start (ask name request session))
    (name : String) (prepared : Except String Unit) (session : Session σ) (holds : reached start session) :
    reached start (session.finishJob ask name prepared) := by
  have tended := (rules.encoding start).toTended
  have closed (fine : Bool) {session : Session σ} (holds : reached start session) :
      reached start ((session.transition name (OffFrame.State.finish fine)).setStage name .free) :=
    tended.coordinate _ _ _ (fun _ => rfl) (tended.transition name _ holds)
  cases prepared with
  | error text => exact closed _ (tended.addLog _ _ _ holds)
  | ok _ =>
    have ran := rules.runWork asks name session holds
    unfold Session.finishJob
    generalize (Session.runWork ask name).run session = after at ran ⊢
    obtain ⟨result, session⟩ := after
    cases result with
    | error error => exact closed _ (tended.addLog _ _ _ ran)
    | ok _ => exact closed _ ran

theorem startJob (rules : RunsJobs reached good ready admitted allowed)
    (asks : ∀ start session name request, reached start session → reached start (ask name request session))
    (name : String) (hook : OffFrame.PrepareHook) (params : NamedParameters) (session : Session σ)
    (holds : reached start session) : reached start (session.startJob ask name hook params) := by
  have tended := (rules.encoding start).toTended
  cases hook with
  | absent =>
    rw [Session.startJob]
    exact rules.finishJob asks name _ _ holds
  | immediate check =>
    rw [Session.startJob]
    exact rules.finishJob asks name _ _ (tended.coordinate _ _ _ (fun _ => rfl) holds)
  | gated =>
    exact tended.coordinate _ _ _ (fun _ => rfl) (tended.coordinate _ _ _ (fun _ => rfl) holds)

theorem settle (rules : RunsJobs reached good ready admitted allowed) (fuel : Nat) (name : String)
    (session : Session σ) (holds : reached start session) : reached start (Session.settle fuel name session) := by
  induction fuel generalizing name session start with
  | zero => exact holds
  | succ fuel ih =>
    rw [Session.settle]
    split
    · refine ih _ _ (rules.startJob (fun start session other request held => ih _ _
        ((rules.encoding start).receive other request held)) _ _ _ _
        ((rules.encoding start).coordinate _ _ _ (fun _ => rfl) holds))
    · exact holds

/-- A request, with all jobs that it starts, upholds the relation. -/
theorem asked (rules : RunsJobs reached good ready admitted allowed) (name : String) (request : Request)
    (session : Session σ) (holds : reached start session) : reached start (Session.ask name request session) :=
  rules.settle _ _ _ ((rules.encoding start).receive name request holds)

theorem release (rules : RunsJobs reached good ready admitted allowed) (name : String)
    (answer : Except String Unit) (session : Session σ) (holds : reached start session) :
    reached start (Session.release name answer session) := by
  unfold Session.release
  split
  · exact rules.settle _ _ _ (rules.finishJob (fun _ session name request held => rules.asked name request session held)
      name answer _ ((rules.encoding start).coordinate _ _ _ (fun _ => rfl) holds))
  · exact holds

end Session.RunsJobs

namespace UpheldInJobs

variable {inv : Session σ → Prop} {good : Pass → Prop} {admitted : Command → Prop} {allowed : PassError → Prop}

/-- An assertion on sessions does not look back. -/
theorem runsJobs (rules : UpheldInJobs inv good admitted allowed) :
    Session.RunsJobs (fun _ => inv) good (fun _ => good) (fun _ => admitted) allowed where
  encoding _ := rules.toUpheldInEncoding
  readies _ session view held seen _ := (rules.prepare session view held seen).readies
  known _ session _ held _ := ⟨session, held, rfl⟩
  hand _ := rules.hand
  works _ := rules.works

theorem asked (rules : UpheldInJobs inv good admitted allowed) (name : String) (request : Request)
    (session : Session σ) (holds : inv session) : inv (Session.ask name request session) :=
  @Session.RunsJobs.asked σ _ _ _ _ _ _ session rules.runsJobs name request session holds

theorem release (rules : UpheldInJobs inv good admitted allowed) (name : String) (answer : Except String Unit)
    (session : Session σ) (holds : inv session) : inv (Session.release name answer session) :=
  @Session.RunsJobs.release σ _ _ _ _ _ _ session rules.runsJobs name answer session holds

end UpheldInJobs

end FrameGraph
