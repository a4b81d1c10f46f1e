import FrameGraph.Device.Stream
import FrameGraph.Proofs.Device
import Mathlib.Data.List.Induction

/-! # Scripts of command streams

A script tells what is done to a stream: an encoder is opened, commands are recorded, and what was recorded so far is
submitted. On a recorder, where none of this fails, a stream that a script was carried out on holds just what the script
says: its submissions are those of the script, in order, and the rest is in its open encoder.
-/

namespace FrameGraph

/-- One thing that is done to a command stream. -/
inductive ScriptOp where
  | record (command : Command)
  /-- Open an encoder unless one is open. -/
  | start
  /-- Submit the open encoder, if there is one. -/
  | cut
deriving DecidableEq

abbrev Script := List ScriptOp

namespace Script

/-- The commands that a script records, in order. -/
def commands (script : Script) : List Command :=
  script.filterMap fun
    | .record command => some command
    | .start | .cut => none

theorem mem_commands {script : Script} {command : Command} : command ∈ script.commands ↔ .record command ∈ script := by
  rw [commands, List.mem_filterMap]
  constructor
  · rintro ⟨op, found, recorded⟩
    cases op with
    | record other =>
      cases recorded
      exact found
    | start | cut => cases recorded
  · exact fun found => ⟨_, found, rfl⟩

/-- What was submitted and what is pending. -/
structure Progress where
  submitted : List (List Command) := []
  pending : Option (List Command) := none

def Progress.step (progress : Progress) : ScriptOp → Progress
  | .record command => { progress with pending := some (progress.pending.getD [] ++ [command]) }
  | .start => { progress with pending := some (progress.pending.getD []) }
  | .cut => ⟨progress.submitted ++ progress.pending.toList, none⟩

/-- What a script comes to. -/
def progress (script : Script) : Progress := script.foldl Progress.step {}

/-- The commands of each submission when what is left at the end is submitted as well. -/
def submissions (script : Script) : List (List Command) :=
  script.progress.submitted ++ script.progress.pending.toList

@[simp] theorem progress_concat (script : Script) (op : ScriptOp) :
    progress (script ++ [op]) = (progress script).step op := by
  simp only [progress, List.foldl_append, List.foldl_cons, List.foldl_nil]

/-- No command is lost and none is submitted twice. -/
theorem flatten_submissions (script : Script) : script.submissions.flatten = script.commands := by
  induction script using List.reverseRecOn with
  | nil => rfl
  | append_singleton script op ih =>
    rw [commands, List.filterMap_append, ← commands, ← ih]
    cases op with
    | record command | start => cases pending : (progress script).pending <;> simp [submissions, Progress.step, pending]
    | cut => simp [submissions, Progress.step]

/-- Nothing is submitted without commands as long as encoders are opened to record. -/
theorem ne_nil_of_mem_submissions {script : Script} (recording : .start ∉ script) :
    ∀ commands ∈ script.submissions, commands ≠ [] := by
  induction script using List.reverseRecOn with
  | nil => exact List.forall_mem_nil _
  | append_singleton script op ih =>
    rw [List.mem_append, List.mem_singleton, not_or] at recording
    rw [submissions, List.forall_mem_append, progress_concat]
    obtain ⟨submitted, pending⟩ := List.forall_mem_append.mp (ih recording.1)
    cases op with
    | record command => exact ⟨submitted, by simp [Progress.step]⟩
    | start => exact absurd rfl recording.2
    | cut => exact ⟨List.forall_mem_append.mpr ⟨submitted, pending⟩, List.forall_mem_nil _⟩

end Script

/-- A script was carried out on a stream of a recorder: each submission is in the recorder, and none is one of the
first ones. -/
structure CommandStream.Wrote (first : Nat) (script : Script) (stream : CommandStream) (recorder : Recorder) :
    Prop where
  submitted : stream.submissions.map (fun id => recorder.submissions[id]?.map (·.commands)) =
    script.progress.submitted.map some
  ascending : stream.submissions.Pairwise (· < ·)
  later : ∀ id ∈ stream.submissions, first ≤ id
  pending : stream.encoder = script.progress.pending
  reached : first ≤ recorder.submissions.length

namespace CommandStream

open PartEffect (Ensures)

variable {first : Nat} {script : Script} {stream : CommandStream} {recorder later : Recorder}

theorem wrote_start (label : String) (reached : first ≤ recorder.submissions.length) :
    Wrote first [] { label } recorder where
  submitted := rfl
  ascending := .nil
  later := List.forall_mem_nil _
  pending := rfl
  reached := reached

namespace Wrote

/-- A submission of the stream is one of the recorder's. -/
theorem inside (wrote : stream.Wrote first script recorder) :
    ∀ id ∈ stream.submissions, id < recorder.submissions.length := by
  intro id found
  have listed := List.mem_map_of_mem (f := fun id => recorder.submissions[id]?.map (·.commands)) found
  rw [wrote.submitted, List.mem_map] at listed
  obtain ⟨commands, -, has⟩ := listed
  obtain ⟨submission, there, -⟩ := Option.map_eq_some_iff.mp has.symm
  exact (List.getElem?_eq_some_iff.mp there).1

/-- What others submit does not matter. -/
theorem mono (wrote : stream.Wrote first script recorder) (more : recorder.submissions <+: later.submissions) :
    stream.Wrote first script later where
  submitted := by
    rw [← wrote.submitted]
    refine List.map_congr_left fun id found => ?_
    have here := wrote.inside id found
    rw [List.getElem?_eq_getElem here, List.prefix_iff_getElem?.mp more id here]
  ascending := wrote.ascending
  later := wrote.later
  pending := wrote.pending
  reached := Nat.le_trans wrote.reached more.length_le

/-- An encoder is opened. -/
theorem start (wrote : stream.Wrote first script recorder) :
    Wrote first (script ++ [.start]) { stream with encoder := some (stream.encoder.getD []) } recorder where
  submitted := by
    rw [Script.progress_concat]
    exact wrote.submitted
  ascending := wrote.ascending
  later := wrote.later
  pending := by
    rw [Script.progress_concat, Script.Progress.step, ← wrote.pending]
  reached := wrote.reached

/-- A command is recorded. -/
theorem record (wrote : stream.Wrote first script recorder) (command : Command) :
    Wrote first (script ++ [.record command])
      { stream with encoder := some (stream.encoder.getD [] ++ [command]) } recorder where
  submitted := by
    rw [Script.progress_concat]
    exact wrote.submitted
  ascending := wrote.ascending
  later := wrote.later
  pending := by
    rw [Script.progress_concat, Script.Progress.step, ← wrote.pending]
  reached := wrote.reached

/-- Without an open encoder, nothing is submitted. -/
theorem cut_none (wrote : stream.Wrote first script recorder) (closed : stream.encoder = none) :
    stream.Wrote first (script ++ [.cut]) recorder := by
  have pending := wrote.pending.symm.trans closed
  refine { wrote with submitted := ?_, pending := ?_ }
  · rw [Script.progress_concat, wrote.submitted, Script.Progress.step, pending]
    simp
  · rw [Script.progress_concat, closed]
    rfl

/-- What the open encoder holds is submitted. -/
theorem cut_some (wrote : stream.Wrote first script recorder) {commands : List Command}
    (opened : stream.encoder = some commands) (label : String)
    (added : later.submissions = recorder.submissions ++ [⟨recorder.submissions.length, label, commands⟩]) :
    Wrote first (script ++ [.cut])
      { stream with encoder := none, submissions := stream.submissions ++ [recorder.submissions.length] } later := by
  have pending := wrote.pending.symm.trans opened
  have after := wrote.mono (added ▸ List.prefix_append _ _)
  refine { after with submitted := ?_, ascending := ?_, later := ?_, pending := ?_ }
  · rw [Script.progress_concat, Script.Progress.step, pending, List.map_append, after.submitted]
    simp [added]
  · refine List.pairwise_append.mpr ⟨wrote.ascending, List.pairwise_singleton _ _, fun id found other last => ?_⟩
    rw [List.mem_singleton.mp last]
    exact wrote.inside id found
  · rw [List.forall_mem_append, List.forall_mem_singleton]
    exact ⟨wrote.later, wrote.reached⟩
  · rw [Script.progress_concat]
    rfl

end Wrote

/-- An action does to a stream what the script says, and never fails; what it answers may depend on what was done
before. -/
abbrev Performs {α : Type} (action : StreamM Recorder α) (ops : Script) (answers : Script → α → Prop) : Prop :=
  ∀ first script, Ensures (fun stream host => stream.Wrote first script host.device) action
    (fun answer stream host => answers script answer ∧ stream.Wrote first (script ++ ops) host.device)
    fun _ _ _ => False

theorem openEncoder_performs : Performs openEncoder [.start] fun _ _ => True :=
  fun _ _ => .ofModify fun _ _ wrote => ⟨trivial, wrote.start⟩

theorem record_performs (command : Command) : Performs (record command) [.record command] fun _ _ => True := by
  intro first script stream host wrote
  exact ⟨trivial, wrote.record command⟩

/-- Something is submitted exactly if an encoder is open. -/
theorem commit_performs :
    Performs commit [.cut] fun script answer => answer.isSome = script.progress.pending.isSome := by
  intro first script stream host wrote
  have pending := wrote.pending
  obtain ⟨label, encoder, submissions⟩ := stream
  cases encoder with
  | none => exact ⟨congrArg Option.isSome pending, wrote.cut_none rfl⟩
  | some commands => exact ⟨congrArg Option.isSome pending, wrote.cut_some rfl label rfl⟩

/-- What was submitted is known to the recorder. -/
theorem commit_known : Ensures (fun _ _ => True) (commit : StreamM Recorder (Option Nat))
    (fun answer _ host => ∀ id ∈ answer, id < host.device.submissions.length) fun _ _ _ => True := by
  intro stream host _
  obtain ⟨label, encoder, submissions⟩ := stream
  cases encoder with
  | none => exact nofun
  | some commands =>
    rintro _ ⟨⟩
    change _ < (host.device.submissions ++ [_]).length
    rw [List.length_append]
    exact Nat.lt_succ_self _

theorem commitAndWait_performs : Performs commitAndWait [.cut] fun _ _ => True := by
  intro first script
  have committed : Ensures (fun stream host => stream.Wrote first script host.device) commit _ _ :=
    .pre (fun _ _ wrote => ⟨wrote, trivial⟩) ((commit_performs first script).and commit_known)
  refine (committed.mono (fun _ _ _ => id) fun _ _ _ failed => failed.1).bind fun submission => ?_
  cases submission with
  | none => exact .ofPure fun _ _ done => ⟨trivial, done.1.2⟩
  | some id =>
    refine .around fun stream => .inside fun host done => .ofGet fun recorder here => ?_
    subst here
    refine .ofIf (fun unknown => .ofThrow ?_) fun _ => .ofPure ?_
    · rintro _ rfl
      exact absurd (done.2 id rfl) (Nat.not_lt.mpr unknown)
    · rintro _ rfl
      exact ⟨trivial, done.1.2⟩

/-- When the rest is submitted, the stream has just the submissions of the script. -/
theorem Wrote.finish {host after : Host Recorder} {ids : List Nat} (wrote : stream.Wrote first script host.device)
    (run : (CommandStream.finish stream).apply host = (.ok ids, after)) :
    ids.map (fun id => after.device.submissions[id]?.map (·.commands)) = script.submissions.map some ∧
      ids.Pairwise (· < ·) ∧ ∀ id ∈ ids, first ≤ id := by
  obtain ⟨label, encoder, submissions⟩ := stream
  have closed (after : Host Recorder) (stream : CommandStream)
      (wrote : stream.Wrote first (script ++ [.cut]) after.device) :
      stream.submissions.map (fun id => after.device.submissions[id]?.map (·.commands)) = script.submissions.map some ∧
        stream.submissions.Pairwise (· < ·) ∧ ∀ id ∈ stream.submissions, first ≤ id := by
    have submitted := wrote.submitted
    rw [Script.progress_concat] at submitted
    exact ⟨submitted, wrote.ascending, wrote.later⟩
  cases encoder with
  | none =>
    cases run
    exact closed _ _ (wrote.cut_none rfl)
  | some commands =>
    cases run
    exact closed _ _ (wrote.cut_some rfl label rfl)

end CommandStream

end FrameGraph
