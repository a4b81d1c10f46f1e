import FrameGraph.Proofs.Graph.History
import FrameGraph.Proofs.Pass.Visits

/-! # Nothing is encoded unprepared

A frame and a job of an off-frame group are followed by the marks that they leave. Plans that are older than the run are
never encoded by: a group is encoded only where the groups around it were entered, and then it was planned anew.
-/

namespace FrameGraph

open Pass (Mark Orderly Complete Prepared)

variable {σ : Type}

namespace Graph

open Effect (Ensures Keeps)

/-- An action on a graph that leaves marks. -/
abbrev MarkedM (σ : Type) := Effect (Marked Mark (Graph σ)) GraphError

/-- `passAction` with marks. -/
def passActionMarked (step : List Pass → StateM (Marked Mark (Session σ)) (Pass.Outcome (List Pass))) :
    MarkedM σ Unit := do
  let (graph, marks) ← get
  let ((result, passes), session, marks) := (step graph.passes).run (graph.session, marks)
  set ({ graph with session, passes }, marks)
  MonadExcept.ofExcept (result.mapError .pass)

theorem passActionMarked_shadows {marked : List Pass → StateM (Marked Mark (Session σ)) (Pass.Outcome (List Pass))}
    {plain : List Pass → StateM (Session σ) (Pass.Outcome (List Pass))}
    (shadows : ∀ passes, Marked.Shadows (marked passes) (plain passes)) :
    Effect.Shadows (passActionMarked marked) (passAction plain) := by
  refine .ofGet fun graph marks => ?_
  dsimp only
  rw [← shadows graph.passes graph.session marks]
  exact .bind (.ofSet _ _) fun _ => .ofExcept _

/-- What a step of the passes leaves is what the graph has then. -/
theorem passActionMarked_ensures {step : List Pass → StateM (Marked Mark (Session σ)) (Pass.Outcome (List Pass))}
    {graph : Graph σ} {marks : List Mark} {ok : List Pass → Marked Mark (Session σ) → Prop}
    {failed : Marked Mark (Session σ) → Prop}
    (steps : Step.Ensures (· = (graph.session, marks)) (step graph.passes) (fun _ => ok) fun _ _ => failed) :
    Ensures (· = (graph, marks)) (passActionMarked step)
      (fun _ marked => ok marked.1.passes (marked.1.session, marked.2))
      fun _ marked => failed (marked.1.session, marked.2) := by
  refine .ofGet fun _ same => ?_
  subst same
  have run := steps _ rfl
  split at run
  · rename_i passes after applied
    dsimp only
    rw [applied]
    refine .bind (.put _) fun _ => .lift (fun _ _ _ now => ?_) nofun
    rw [now]
    exact run
  · rename_i error passes after applied
    dsimp only
    rw [applied]
    refine .bind (.put _) fun _ => .lift nofun fun _ _ _ now => ?_
    rw [now]
    exact run

variable [Device σ]

/-- `encodeFrame` with marks. -/
def encodeFrameMarked (target : Option Texture) (surface : Surface) : MarkedM σ CommandStream := do
  let (graph, marks) ← get
  let view : EncodeView := { pool := graph.session.pool, surface, target, frame := graph.frame }
  let start : CommandStream := { label := s!"frame {graph.frame}" }
  let ((result, stream), session, marks) :=
    (Pass.encodeAllMarked Session.ask view [] 0 graph.passes).apply start (graph.session, marks)
  set ({ graph with session }, marks)
  MonadExcept.ofExcept (result.mapError GraphError.pass)
  return stream

/-- The rest of `encode`, once the surface is faced, with marks. -/
def encodeFacedMarked (target : Option Texture) (surface : Surface) : MarkedM σ CommandStream := do
  passActionMarked (Pass.prepareAllMarked ⟨(← get).1.session.pool, surface⟩ [] 0)
  let stream ← encodeFrameMarked target surface
  let frame := (← get).1.frame
  (note .trace s!"encoded frame {frame}").inside Marked.whole
  (modify fun graph => { graph with frame := frame + 1 } : GraphM σ Unit).inside Marked.whole
  return stream

/-- `encode` with marks. -/
def encodeMarked (target : Option Texture) (surface : Surface) : MarkedM σ CommandStream := do
  if !(← get).1.ready then throw .notSetUp
  if (← get).1.session.surface ≠ some surface then (resize surface).inside Marked.whole
  encodeFacedMarked target surface

/-! ## Without the marks -/

theorem encodeFrameMarked_shadows (target : Option Texture) (surface : Surface) :
    Effect.Shadows (encodeFrameMarked (σ := σ) target surface) (encodeFrame target surface) := by
  refine .ofGet fun graph marks => ?_
  have shadows := Pass.encodeAllMarked_shadows Session.ask ⟨⟨graph.session.pool, surface⟩, target, graph.frame⟩
    graph.passes [] 0 { label := s!"frame {graph.frame}" } graph.session marks
  dsimp only [PartEffect.apply]
  rw [← shadows]
  exact .bind (.ofSet _ _) fun _ => .bind (.ofExcept _) fun _ => .ofPure _

theorem encodeFacedMarked_shadows (target : Option Texture) (surface : Surface) :
    Effect.Shadows (encodeFacedMarked (σ := σ) target surface)
      (do
        passAction (Pass.prepareAll ⟨(← get).session.pool, surface⟩)
        let stream ← encodeFrame target surface
        let frame := (← get).frame
        note .trace s!"encoded frame {frame}"
        modify fun graph => { graph with frame := frame + 1 }
        return stream) := by
  have prepares (pool : Pool) := passActionMarked_shadows
    fun passes => Pass.prepareAllMarked_shadows (σ := σ) ⟨pool, surface⟩ passes [] 0
  refine .ofGet fun graph _ => .bind (prepares graph.session.pool) fun _ => ?_
  refine .bind (encodeFrameMarked_shadows target surface) fun stream => .ofGet fun graph _ => ?_
  exact .bind (.inside _) fun _ => .bind (.inside _) fun _ => .ofPure stream

theorem encodeMarked_shadows (target : Option Texture) (surface : Surface) :
    Effect.Shadows (encodeMarked (σ := σ) target surface) (encode target surface) := by
  have rest := encodeFacedMarked_shadows (σ := σ) target surface
  refine .ofGet fun graph marks => ?_
  split
  · exact fun _ _ => rfl
  · refine .ofGet fun graph marks => ?_
    split
    · exact .bind (.inside _) fun _ => rest
    · exact rest

/-! ## What the marks tell -/

/-- The passes and the shared values are as before. -/
structure Untouched (before after : Graph σ) : Prop where
  passes_eq : after.passes = before.passes
  shared_eq : after.session.shared = before.session.shared

theorem resize_untouched (graph : Graph σ) (surface : Surface) : Keeps (Untouched graph) (resize surface) := by
  have faced : Keeps (Untouched graph) (setSurface surface) := .ofModify fun _ same => ⟨same.passes_eq, same.shared_eq⟩
  have any : PartEffect.Keeps (fun (_ : Pool) (_ : Host σ) => True) (Pool.resize surface) := .any _
  have followed : Keeps (Untouched graph) (poolAction (Pool.resize surface)) := by
    refine .ofEach fun g same => (poolAction_ensures trivial any (any.pre fun _ _ _ => trivial)).mono ?_ ?_
    · rintro _ _ ⟨host, pool, -, -, rfl⟩
      exact ⟨same.passes_eq, same.shared_eq⟩
    · rintro _ _ ⟨-, host, pool, -, -, rfl⟩
      exact ⟨same.passes_eq, same.shared_eq⟩
  refine .ofGet fun g same => .pre (fun _ here => here ▸ same) (.ofIf (fun _ => ?_) fun _ => faced)
  exact followed.bind fun _ => faced

section

variable {graph : Graph σ} (target : Option Texture) (surface : Surface)

/-- Nothing that a frame reads was touched, and nothing is marked. -/
abbrev Faced (graph : Graph σ) (marked : Marked Mark (Graph σ)) : Prop := Untouched graph marked.1 ∧ marked.2 = []

/-- The marks of a frame so far are in order. -/
abbrev InOrder (graph : Graph σ) (marked : Marked Mark (Graph σ)) : Prop :=
  Orderly graph.session.shared graph.passes marked.2

omit [Device σ] in
theorem inOrder_of_quiet {marked : Marked Mark (Graph σ)} (quiet : Pass.encodings marked.2 = []) :
    InOrder graph marked := Pass.orderly_of_quiet quiet

theorem preparePasses_prepared {marked : Marked Mark (Graph σ)} (faced : Faced graph marked) :
    Ensures (· = marked) (passActionMarked (Pass.prepareAllMarked ⟨marked.1.session.pool, surface⟩ [] 0))
      (fun _ now => Prepared graph.session.shared graph.passes now.1.passes now.2) fun _ => InOrder graph := by
  obtain ⟨now, marks⟩ := marked
  obtain ⟨same, rfl⟩ := faced
  have steps := Pass.prepareRoots_prepared now.session ⟨now.session.pool, surface⟩ now.passes
  refine (passActionMarked_ensures steps).mono (fun _ _ ready => ?_) fun _ _ quiet => inOrder_of_quiet quiet
  rw [← same.passes_eq, ← same.shared_eq]
  exact ready

theorem encodeFrameMarked_complete {shared : Shared} {before : List Pass} :
    Ensures (fun marked => Prepared shared before marked.1.passes marked.2) (encodeFrameMarked (σ := σ) target surface)
      (fun _ marked => Complete shared before marked.2) fun _ marked => Orderly shared before marked.2 := by
  refine .ofGet fun marked ready => ?_
  have run := Pass.encodeRoots_orderly ready Session.ask ⟨⟨marked.1.session.pool, surface⟩, target, marked.1.frame⟩
    { label := s!"frame {marked.1.frame}" } (marked.1.session, marked.2) rfl
  dsimp only [PartEffect.apply]
  split at run
  · rename_i applied
    rw [applied]
    refine .bind (.put _) fun _ => .ofExcept (fun _ _ => .ofPure fun _ now => ?_) nofun
    rw [now]
    exact run
  · rename_i applied
    rw [applied]
    refine .bind (.put _) fun _ => .ofExcept nofun fun _ _ _ now => ?_
    rw [now]
    exact run

theorem encodeFacedMarked_complete :
    Ensures (Faced graph) (encodeFacedMarked target surface)
      (fun _ marked => Complete graph.session.shared graph.passes marked.2) fun _ => InOrder graph := by
  have plain (action : GraphM σ Unit) : Ensures
      (fun marked : Marked Mark (Graph σ) => Complete graph.session.shared graph.passes marked.2)
      (action.inside Marked.whole) (fun _ marked => Complete graph.session.shared graph.passes marked.2)
      fun _ => InOrder graph :=
    (Effect.inside_marks action).mono (fun _ _ => id) fun _ _ => Complete.toOrderly
  refine .ofGet fun marked faced => (preparePasses_prepared surface faced).bind fun _ => ?_
  refine (encodeFrameMarked_complete target surface).bind fun stream => .ofGet fun marked done => ?_
  exact .pre (fun _ here => here ▸ done) ((plain _).bind fun _ => (plain _).bind fun _ => .ofPure fun _ => id)

/-- Whatever happens in a frame, what it encodes was prepared in it. -/
theorem encodeMarked_complete :
    Ensures (· = (graph, [])) (encodeMarked target surface)
      (fun _ marked => Complete graph.session.shared graph.passes marked.2) fun _ => InOrder graph := by
  have start : Faced graph (graph, []) := ⟨⟨rfl, rfl⟩, rfl⟩
  have rest := @encodeFacedMarked_complete σ _ graph target surface
  have resizes : Ensures (Faced graph) ((resize surface).inside Marked.whole) (fun _ => Faced graph)
      fun _ => InOrder graph := by
    refine .inside fun marked faced => .pre (fun _ here => here ▸ faced.1) ((resize_untouched graph surface).mono ?_ ?_)
    · exact fun _ _ same => ⟨same, faced.2⟩
    · exact fun _ _ _ => inOrder_of_quiet (congrArg Pass.encodings faced.2)
  refine .ofGet fun _ here => .ofGuard (fun _ _ now => ?_) fun _ => .ofGet fun _ now => ?_
  · rw [now, here]
    exact inOrder_of_quiet rfl
  · rw [here] at now
    refine .ofIf (fun _ => .bind (.pre ?_ resizes) fun _ => rest) fun _ => .pre ?_ rest
    · exact fun _ same => (same.trans now) ▸ start
    · exact fun _ same => (same.trans now) ▸ start

end

end Graph

namespace Session

open OffFrame (Work WorkError)

variable [Device σ]

/-- `runPasses` with marks. -/
def runPassesMarked (ask : Ask σ) (name : String) (work : Work) (surface : Surface) :
    StateM (Marked Mark (Session σ)) (Except WorkError Unit × Work) := do
  let view : PassView := ⟨(← get).1.pool, surface⟩
  let (prepared, passes) ← Pass.prepareAllMarked view [] 0 work.passes
  let work := { work with passes }
  match prepared with
  | .error error => return (.error (.pass error), work)
  | .ok () =>
    let stream : CommandStream := { label := s!"{name} (async)" }
    let encodeView : EncodeView := { view with target := none, frame := work.runs }
    let (encoded, stream) ← (Pass.encodeAllMarked ask encodeView [] 0 passes).run.run stream
    match encoded with
    | .error error => return (.error (.pass error), work)
    | .ok () =>
      let (finished, _) ← Marked.silently ((CommandStream.commitAndWait.inWhole hostLens).run.run stream)
      match finished with
      | .error error => return (.error (.device error), work)
      | .ok () => return (.ok (), { work with runs := work.runs + 1 })

theorem runPassesMarked_shadows (ask : Ask σ) (name : String) (work : Work) (surface : Surface) :
    Marked.Shadows (runPassesMarked ask name work surface) (runPasses ask name work surface) := by
  refine .ofGet fun session _ => .bind (Pass.prepareAllMarked_shadows _ work.passes [] 0) fun (prepared, passes) => ?_
  cases prepared with
  | error error => exact .ofReturn _
  | ok _ =>
    refine .bind (Pass.encodeAllMarked_shadows ask _ passes [] 0 _) fun (encoded, stream) => ?_
    cases encoded with
    | error error => exact .ofReturn _
    | ok _ =>
      refine .bind (.ofSilently _) fun (finished, _) => ?_
      cases finished with
      | error error => exact .ofReturn _
      | ok _ => exact .ofReturn _

/-- Whatever happens in a job, what it encodes was prepared in it. -/
theorem runPassesMarked_complete (ask : Ask σ) (name : String) (work : Work) (surface : Surface) (session : Session σ) :
    Step.Ensures (· = (session, [])) (runPassesMarked ask name work surface)
      (fun _ _ marked => Complete session.shared work.passes marked.2)
      fun _ _ marked => Orderly session.shared work.passes marked.2 := by
  refine .ofGet fun _ here => .pre (fun _ now => now.2) ?_
  refine (Pass.prepareRoots_prepared session _ work.passes).bind (fun _ passes => ?_)
    fun _ _ => .ofReturn fun _ quiet => Pass.orderly_of_quiet quiet
  refine .ofEach fun marked ready => ?_
  refine (Step.Ensures.pre ?_ (Pass.encodeRoots_orderly ready ask _ _)).bind (fun _ stream => ?_)
    fun _ _ => .ofReturn fun _ => id
  · rintro _ rfl
    rfl
  · refine .ofEach fun marked told => ?_
    have submitted := Marked.silently_ensures
      (PartEffect.Ensures.any (CommandStream.commitAndWait.inWhole (hostLens (σ := σ))) stream) marked.2
    refine (Step.Ensures.pre ?_ submitted).bind (fun _ _ => .ofReturn fun _ done => ?_)
      fun _ _ => .ofReturn fun _ done => ?_
    · rintro _ rfl
      exact ⟨trivial, rfl⟩
    · exact done.2 ▸ told
    · exact done.2 ▸ told.toOrderly

end Session

/-- Whatever frames and jobs encode, they have prepared before: in every frame of every graph, and in every job of an
off-frame group, a pass is encoded only after its preparation has succeeded in the same run, and as that preparation
left it. Which passes are encoded how often follows from the values that are shared when the run begins, not from what
callbacks make of them nor from plans of earlier runs. -/
theorem encodes_only_prepared [Device σ] :
    (∀ (graph : Graph σ) (target : Option Texture) (surface : Surface),
      let run := (Graph.encodeMarked target surface).apply (graph, [])
      (run.1, run.2.1) = (Graph.encode target surface).apply graph ∧
      Orderly graph.session.shared graph.passes run.2.2 ∧
      (run.1.isOk → Complete graph.session.shared graph.passes run.2.2)) ∧
    ∀ (ask : Ask σ) (name : String) (work : OffFrame.Work) (surface : Surface) (session : Session σ),
      let run := (Session.runPassesMarked ask name work surface).run (session, [])
      (run.1, run.2.1) = (Session.runPasses ask name work surface).run session ∧
      Orderly session.shared work.passes run.2.2 ∧
      (run.1.1.isOk → Complete session.shared work.passes run.2.2) := by
  constructor
  · intro graph target surface
    have told := Graph.encodeMarked_complete target surface (graph, []) rfl
    refine ⟨Graph.encodeMarked_shadows target surface graph [], ?_⟩
    split at told
    · rename_i applied
      simp only [applied]
      exact ⟨told.toOrderly, fun _ => told⟩
    · rename_i applied
      simp only [applied]
      exact ⟨told, nofun⟩
  · intro ask name work surface session
    have told := Session.runPassesMarked_complete ask name work surface session _ rfl
    refine ⟨Session.runPassesMarked_shadows ask name work surface session [], ?_⟩
    split at told
    · rename_i applied
      simp only [applied]
      exact ⟨told.toOrderly, fun _ => told⟩
    · rename_i applied
      simp only [applied]
      exact ⟨told, nofun⟩

/-- A callback in nested groups that turns the outer one off and changes how often the inner one runs. -/
def flipping : Program where
  library := ""
  root := [
    .group { label := "outer", active := some (.named "on") } [
      .group { label := "inner", repeatCount := some "times" } [
        .leaf (.callback ⟨"flip", fun _ =>
          .share (fun shared => (shared.setFlag (.named "on") false).setCounter "times" 5) .done⟩)]]]

/-- A frame with three rounds, a frame without the groups, and then the values for two rounds. -/
def untilFlipped : List (Graph.Call Recorder) :=
  let turnOn (times : Nat) : Graph.Call Recorder := .share fun shared =>
    (shared.setFlag (.named "on") true).setCounter "times" times
  let frame : Graph.Call Recorder := .encode none ⟨.flat 1 1, .rgba8Unorm⟩
  [.setup ⟨.flat 1 1, .rgba8Unorm⟩, turnOn 3, frame, frame, turnOn 2]

/-- The callback is encoded twice, in spite of the three rounds of an earlier frame and of what it does itself. -/
theorem encodes_only_prepared_flipped :
    ∃ graph, Graph.build (σ := Recorder) ⟨{}, []⟩ {} [] flipping {} = .ok graph ∧
      let run := (Graph.encodeMarked none ⟨.flat 1 1, .rgba8Unorm⟩).apply (graph.after untilFlipped, [])
      run.1.isOk ∧ run.2.1.session.shared.flag (.named "on") = false ∧ run.2.1.session.shared.counter "times" = 5 ∧
        Pass.encodings run.2.2 = [[0, 0, 0], [0, 0, 0]] := by
  have ran : (Graph.build (σ := Recorder) ⟨{}, []⟩ {} [] flipping {}).toOption.map (fun graph =>
      let run := (Graph.encodeMarked none ⟨.flat 1 1, .rgba8Unorm⟩).apply (graph.after untilFlipped, [])
      (run.1.isOk, run.2.1.session.shared.flag (.named "on"), run.2.1.session.shared.counter "times",
        Pass.schedule (graph.after untilFlipped).session.shared (graph.after untilFlipped).passes)) =
      some (true, false, 5, [[0, 0, 0], [0, 0, 0]]) := by decide +kernel
  obtain ⟨graph, read, seen⟩ := Option.map_eq_some_iff.mp ran
  simp only [Prod.mk.injEq] at seen
  obtain ⟨fine, flag, counter, scheduled⟩ := seen
  have told := (encodes_only_prepared (σ := Recorder)).1 (graph.after untilFlipped) none ⟨.flat 1 1, .rgba8Unorm⟩
  exact ⟨graph, ok_of_toOption read, fine, flag, counter, (told.2.2 fine).all.trans scheduled⟩

end FrameGraph
