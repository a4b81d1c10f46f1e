import FrameGraph.Proofs.Pass.Denotation
import FrameGraph.Proofs.Pass.Proceeding

/-! # What encoding does to a stream

Encoding that succeeds on a recorder has filled in the outline of the passes on the stream of the frame. What it does
to the session besides, jobs of off-frame groups included, has streams of its own.
-/

namespace FrameGraph

open PartEffect (Ensures)

variable {α β : Type}

/-- An encoding that succeeds has done to the stream what fills the outline in. -/
abbrev Writes (view : EncodeView) (action : EncodeM Recorder α) (outline : Except PassError Outline) : Prop :=
  ∀ first before, Ensures (fun stream session => stream.Wrote first before session.host.device) action
    (fun _ stream session => ∃ parts, outline = .ok parts ∧
      ∃ more, parts.Fills view before more ∧ stream.Wrote first (before ++ more) session.host.device)
    fun _ _ _ => True

namespace Writes

variable {view : EncodeView}

/-- Nothing is done to the stream. -/
theorem ofPure (a : α) : Writes view (pure a) (.ok []) := by
  intro first before
  refine Ensures.ofPure fun stream session wrote => ⟨[], rfl, [], .nil before, ?_⟩
  rwa [List.append_nil]

/-- What is done to the session is not done to the stream, as long as no submission is taken back. -/
theorem ofModify {change : Session Recorder → Session Recorder}
    (onward : ∀ session, session.host.device.submissions <+: (change session).host.device.submissions) :
    Writes view (PartEffect.around (modify change)) (.ok []) := by
  intro first before
  refine .around fun stream => .ofModify fun session wrote => ⟨[], rfl, [], .nil before, ?_⟩
  rw [List.append_nil]
  exact wrote.mono (onward session)

theorem ofPerforms {action : StreamM Recorder α} {ops : Script} {answers : Script → α → Prop} (label : String)
    (performs : CommandStream.Performs action ops answers) :
    Writes view (Session.stream label action) (.ok (ops.map .op)) := by
  intro first before
  refine .mapError (.inWhole fun session => ?_)
  refine .pre ?_ ((performs first before).mono
    (fun _ stream host done => ⟨_, rfl, ops, .ops view before ops, done.2⟩) fun _ _ _ => False.elim)
  rintro stream _ ⟨rfl, wrote⟩
  exact wrote

theorem bind {first : EncodeM Recorder α} {next : α → EncodeM Recorder β} {one two : Except PassError Outline}
    (writes : Writes view first one) (rest : ∀ a, Writes view (next a) two) :
    Writes view (first >>= next) (one >>= fun some => two >>= fun more => pure (some ++ more)) := by
  intro start before
  refine (writes start before).bind fun a => .ofState fun stream session held => ?_
  obtain ⟨some, rfl, done, fills, wrote⟩ := held
  refine .pre ?_ ((rest a start (before ++ done)).mono ?_ fun _ _ _ => id)
  · rintro _ _ ⟨rfl, rfl⟩
    exact wrote
  · rintro _ _ _ ⟨more, rfl, later, rest, wrote⟩
    refine ⟨some ++ more, rfl, done ++ later, fills.append rest, ?_⟩
    rwa [← List.append_assoc]

/-- An encoding that starts with a result succeeds only when there is one. -/
theorem ofExcept {value : Except PassError α} {next : α → EncodeM Recorder β} {outline : α → Except PassError Outline}
    (rest : ∀ a, Writes view (next a) (outline a)) :
    Writes view (MonadExcept.ofExcept value >>= next) (value >>= outline) := by
  intro first before
  refine .ofExcept (fun a found => ?_) fun _ _ _ _ _ => trivial
  subst found
  exact rest a first before

/-- What is done several times is in the outline as often. -/
theorem repeatedly {action : EncodeM Recorder Unit} {outline : Except PassError Outline}
    (writes : Writes view action outline) {times : Nat} (some : times ≠ 0) :
    Writes view (FrameGraph.repeatedly action times) (do return (List.replicate times (← outline)).flatten) := by
  obtain ⟨times, rfl⟩ := Nat.exists_eq_succ_of_ne_zero some
  clear some
  induction times with
  | zero =>
    have once := writes.bind fun _ => ofPure ()
    cases outline <;> exact once
  | succ times ih =>
    have again := writes.bind fun _ => ih
    cases outline <;> exact again

end Writes

/-- Requests change no more of a session than jobs do. -/
abbrev Ask.Proceeds (ask : Ask Recorder) : Prop :=
  ∀ name request (session : Session Recorder), session.Proceeds (ask name request session)

/-- What becomes of a session takes no submission back. -/
theorem Session.Proceeds.submissions {start session : Session Recorder} (proceeds : start.Proceeds session) :
    start.host.device.submissions <+: session.host.device.submissions := Recorder.submissions_of_reaches proceeds.host

theorem DispatchPass.encode_writes (pass : DispatchPass) (view : EncodeView) :
    Writes view pass.encode pass.outline := by
  unfold encode outline
  have traced (text : String) : Writes view (PartEffect.around (Session.note .trace .dispatch text)) (.ok []) :=
    .ofModify fun _ => List.prefix_refl _
  split
  · exact traced _
  · refine .ofExcept fun command => ?_
    have recorded : Writes view _ _ := .ofPerforms pass.label (CommandStream.record_performs (.dispatch command))
    by_cases waits : pass.waitUntilCompleted
    · simp only [waits, if_true]
      exact recorded.bind fun _ => (traced _).bind fun _ => .ofPerforms _ CommandStream.commitAndWait_performs
    · simp only [waits]
      exact recorded.bind fun _ => .ofPure ()

theorem DrawPass.encode_writes (pass : DrawPass) (view : EncodeView) :
    Writes view (pass.encode view) (Pass.outline view (.draw pass)) := by
  rw [Pass.outline]
  exact .ofExcept fun command => .ofPerforms _ (CommandStream.record_performs (.draw command))

theorem FilterPass.encode_writes (pass : FilterPass) (view : EncodeView) :
    Writes view (pass.encode view) (Pass.outline view (.filter pass)) := by
  rw [Pass.outline]
  exact .ofExcept fun command => .ofPerforms _ (CommandStream.record_performs command)

theorem Blit.encode_writes (node : Blit) (view : EncodeView) :
    Writes view (node.encode view) (Pass.outline view (.blit node)) := by
  rw [Pass.outline]
  exact .ofExcept fun command => .ofPerforms _ (CommandStream.record_performs command)

variable {ask : Ask Recorder}

/-- What is tried on the stream of a frame is done to it, and succeeds. -/
theorem Session.tryStream_performs {action : StreamM Recorder α} {ops : Script} {answers : Script → α → Prop}
    (performs : CommandStream.Performs action ops answers) (first : Nat) (before : Script) :
    Ensures (fun stream session => stream.Wrote first before session.host.device) (Session.tryStream action)
      (fun result stream session => ∃ answer, result = .ok answer ∧ answers before answer ∧
        stream.Wrote first (before ++ ops) session.host.device)
      fun _ _ _ => True := by
  have inner : Ensures (fun stream session => stream.Wrote first before session.host.device)
      (action.inWhole (Session.hostLens (σ := Recorder)))
      (fun answer stream session => answers before answer ∧ stream.Wrote first (before ++ ops) session.host.device)
      fun _ _ _ => False := .inWhole fun session => by
    refine .pre ?_ (performs first before)
    rintro stream _ ⟨rfl, wrote⟩
    exact wrote
  have tried : Ensures _ (Session.tryStream action) _ fun _ _ _ => False := inner.attempt
  refine tried.mono (fun result _ _ done => ?_) fun _ _ _ _ => trivial
  cases result with
  | ok answer => exact ⟨answer, rfl, done⟩
  | error _ => exact done.elim

namespace CallbackCode

/-- An action that ends well has done to a stream what the code may do to it after what was done before. -/
abbrev Follows (code : CallbackCode) (action : EncodeM Recorder Unit) (before : Script) : Prop :=
  ∀ first, Ensures (fun stream session => stream.Wrote first before session.host.device) action
    (fun _ stream session => ∃ more, code.Does before more ∧ stream.Wrote first (before ++ more) session.host.device)
    fun _ _ _ => True

/-- Something is tried on the stream, and the code goes on with the answer. -/
theorem Follows.tried {code : CallbackCode} {action : StreamM Recorder α} {ops before : Script}
    {answers : Script → α → Prop} {next : Except DeviceError α → EncodeM Recorder Unit}
    {after : Except DeviceError α → CallbackCode} (performs : CommandStream.Performs action ops answers)
    (goesOn : ∀ answer more, answers before answer → (after (.ok answer)).Does (before ++ ops) more →
      code.Does before (ops ++ more))
    (rest : ∀ result, (after result).Follows (next result) (before ++ ops)) :
    code.Follows (Session.tryStream action >>= next) before := by
  intro first
  refine (Session.tryStream_performs performs first before).bind fun result => .ofState fun stream session done => ?_
  obtain ⟨answer, rfl, answered, wrote⟩ := done
  refine .pre ?_ ((rest (.ok answer) first).mono (fun _ stream session done => ?_) fun _ _ _ => id)
  · rintro _ _ ⟨rfl, rfl⟩
    exact wrote
  · obtain ⟨more, does, wrote⟩ := done
    refine ⟨ops ++ more, goesOn answer more answered does, ?_⟩
    rwa [← List.append_assoc]

/-- Something is done to the session that takes no submission back, and the code goes on. -/
theorem Follows.modified {code after : CallbackCode} {next : EncodeM Recorder Unit} {before : Script}
    {change : Session Recorder → Session Recorder}
    (onward : ∀ session, session.host.device.submissions <+: (change session).host.device.submissions)
    (goesOn : ∀ more, after.Does before more → code.Does before more) (rest : after.Follows next before) :
    code.Follows (PartEffect.around (modify change) >>= fun _ => next) before := by
  intro first
  have kept : Ensures (fun stream session => stream.Wrote first before session.host.device)
      (PartEffect.around (modify change) : EncodeM Recorder Unit)
      (fun _ stream session => stream.Wrote first before session.host.device) fun _ _ _ => True :=
    .around fun stream => .ofModify fun session wrote => wrote.mono (onward session)
  refine kept.bind fun _ => (rest first).mono (fun _ _ _ done => ?_) fun _ _ _ => id
  obtain ⟨more, does, wrote⟩ := done
  exact ⟨more, goesOn more does, wrote⟩

/-- Code that ends well has done to the stream what it may do. -/
theorem run_follows (asks : ask.Proceeds) (code : CallbackCode) (before : Script) :
    code.Follows (code.run ask) before := by
  induction code generalizing before with
  | finish result =>
    intro first
    cases result with
    | error error => exact .ofThrow fun _ _ _ => trivial
    | ok _ =>
      refine .ofPure fun stream session wrote => ⟨[], .finish before, ?_⟩
      rwa [List.append_nil]
  | look next ih =>
    intro first
    refine .ofGet fun stream session wrote => .ofLook fun s w here => ?_
    obtain ⟨rfl, rfl⟩ := here
    have shows : CallbackSight.Shows before ⟨s.hasPending, s.submissions, w.shared⟩ := by
      have counted := congrArg List.length wrote.submitted
      rw [List.length_map, List.length_map] at counted
      exact ⟨congrArg Option.isSome wrote.pending, counted⟩
    refine .pre (fun _ _ here => here.1 ▸ here.2 ▸ wrote) ((ih _ before first).mono (fun _ _ _ done => ?_) fun _ _ _ => id)
    obtain ⟨more, does, wrote⟩ := done
    exact ⟨more, .look shows does, wrote⟩
  | openEncoder next ih =>
    exact .tried CommandStream.openEncoder_performs (fun _ _ _ does => .openEncoder does) fun _ => ih _
  | record command next ih =>
    exact .tried (CommandStream.record_performs command) (fun _ _ _ => .record) fun result => ih result _
  | commit next ih =>
    exact .tried CommandStream.commit_performs (fun _ _ => .commit) fun result => ih result _
  | commitAndWait next ih =>
    exact .tried CommandStream.commitAndWait_performs (fun _ _ _ => .commitAndWait) fun result => ih result _
  | share change next ih =>
    exact .modified (fun _ => List.prefix_refl _) (fun _ => .share) (ih before)
  | ask group request next ih =>
    exact .modified (fun session => (asks group request session).submissions) (fun _ => .ask) (ih before)
  | writeDown entry next ih =>
    exact .modified (fun _ => List.prefix_refl _) (fun _ => .writeDown) (ih before)

end CallbackCode

theorem Callback.encode_writes (asks : ask.Proceeds) (node : Callback) (view : EncodeView) :
    Writes view (node.encode ask view) (.ok [.call node]) := by
  intro first before
  refine ((node.code view).run_follows asks before first).mono (fun _ stream session done => ?_) fun _ _ _ => id
  obtain ⟨more, does, wrote⟩ := done
  have fills : Outline.Fills view before [.call node] (more ++ []) := .call does (.nil _)
  rw [List.append_nil] at fills
  exact ⟨_, rfl, more, fills, wrote⟩

mutual

theorem Pass.encode_writes (asks : ask.Proceeds) (view : EncodeView) :
    ∀ pass, Writes view (encode ask view pass) (outline view pass)
  | .dispatch pass => by
    rw [outline]
    exact pass.encode_writes view
  | .draw pass => pass.encode_writes view
  | .blit node => node.encode_writes view
  | .filter pass => pass.encode_writes view
  | .callback node => by
    rw [outline]
    exact node.encode_writes asks view
  | .group options planned children => by
    rw [encode, outline]
    split
    · exact .ofModify fun _ => List.prefix_refl _
    · rename_i some
      exact (encodeAll_writes asks view children).repeatedly some
  | .offFrame name _ _ => by
    rw [encode, outline]
    refine .ofModify fun session => ?_
    exact ((Session.Proceeds.tended session).observeFrame name (.refl session)).submissions

/-- Encoding passes fills their outlines in, one after another. -/
theorem Pass.encodeAll_writes (asks : ask.Proceeds) (view : EncodeView) :
    ∀ passes, Writes view (encodeAll ask view passes) (outlineAll view passes)
  | [] => by
    rw [outlineAll]
    exact .ofPure ()
  | pass :: rest => by
    rw [encodeAll, outlineAll]
    exact (encode_writes asks view pass).bind fun _ => encodeAll_writes asks view rest

end

end FrameGraph
