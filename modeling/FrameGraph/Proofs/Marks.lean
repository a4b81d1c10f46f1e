import FrameGraph.Proofs.Effect

/-! # Runs that leave marks

A marked run does what a plain run does and leaves marks beside the state, in order. Without its marks it is the plain
run; the marks tell what was done on the way.
-/

namespace FrameGraph

/-- A state and the marks that were left beside it so far. -/
abbrev Marked (M W : Type) := W × List M

variable {M S W ε α β : Type}

namespace Marked

/-- The state beside the marks. -/
def whole : Lens (Marked M W) W := ⟨Prod.fst, fun whole marked => (whole, marked.2)⟩

/-- Leave a mark. -/
def leave (mark : M) (marked : Marked M W) : Marked M W := (marked.1, marked.2 ++ [mark])

/-- A step that leaves no mark. -/
def silently (step : StateM W α) : StateM (Marked M W) α := fun marked =>
  let (a, whole) := step.run marked.1
  (a, whole, marked.2)

/-- Without its marks, the run is the plain run. -/
def Shadows (marked : StateM (Marked M W) α) (plain : StateM W α) : Prop :=
  ∀ whole marks, ((marked.run (whole, marks)).1, (marked.run (whole, marks)).2.1) = plain.run whole

namespace Shadows

theorem ofReturn (a : α) : Shadows (M := M) (W := W) (return a) (return a) := fun _ _ => rfl

theorem ofSilently (step : StateM W α) : Shadows (M := M) (silently step) step := fun _ _ => rfl

theorem bind {marked : StateM (Marked M W) α} {plain : StateM W α} {next : α → StateM (Marked M W) β}
    {others : α → StateM W β} (first : Shadows marked plain) (rest : ∀ a, Shadows (next a) (others a)) :
    Shadows (marked >>= next) (plain >>= others) := by
  intro whole marks
  rw [StateT.run_bind, StateT.run_bind, ← first whole marks]
  exact rest _ _ _

/-- What follows may read the state, and the marks beside it. -/
theorem ofGet {next : Marked M W → StateM (Marked M W) β} {others : W → StateM W β}
    (rest : ∀ whole marks, Shadows (next (whole, marks)) (others whole)) :
    Shadows (get >>= next) (get >>= others) := fun whole marks => rest whole marks whole marks

/-- A mark changes nothing else. -/
theorem ofLeave (mark : M) {marked : StateM (Marked M W) α} {plain : StateM W α} (rest : Shadows marked plain) :
    Shadows (modify (leave mark) >>= fun _ => marked) plain := fun whole marks => rest whole (marks ++ [mark])

end Shadows

/-- What is known of a step is known of it beside the marks, which stay. -/
theorem silently_ensures {before : W → Prop} {step : StateM W (Except ε α × S)} {ok : α → S → W → Prop}
    {failed : ε → S → W → Prop} (ensured : Step.Ensures before step ok failed) (marks : List M) :
    Step.Ensures (fun marked => before marked.1 ∧ marked.2 = marks) (silently step)
      (fun a part marked => ok a part marked.1 ∧ marked.2 = marks)
      fun error part marked => failed error part marked.1 ∧ marked.2 = marks := by
  rintro ⟨whole, _⟩ ⟨holds, rfl⟩
  have run := ensured whole holds
  rw [show (silently step).run (whole, _) = ((step.run whole).1, (step.run whole).2, _) from rfl]
  split at run
  · rename_i applied
    rw [applied]
    exact ⟨run, rfl⟩
  · rename_i applied
    rw [applied]
    exact ⟨run, rfl⟩

end Marked

namespace Effect

/-- Without its marks, the effect is the plain effect. -/
abbrev Shadows (marked : Effect (Marked M W) ε α) (plain : Effect W ε α) : Prop := Marked.Shadows marked.run plain.run

namespace Shadows

theorem ofPure (a : α) : Shadows (M := M) (W := W) (ε := ε) (pure a) (pure a) := fun _ _ => rfl

theorem ofExcept (result : Except ε α) :
    Shadows (MonadExcept.ofExcept result : Effect (Marked M W) ε α) (MonadExcept.ofExcept result : Effect W ε α) := by
  intro whole marks
  cases result <;> rfl

theorem ofSet (next : W) (marks : List M) :
    Shadows (set (next, marks) : Effect (Marked M W) ε Unit) (set next : Effect W ε Unit) := fun _ _ => rfl

theorem inside (effect : Effect W ε α) : Shadows (M := M) (effect.inside Marked.whole) effect := fun _ _ => rfl

theorem bind {marked : Effect (Marked M W) ε α} {plain : Effect W ε α} {next : α → Effect (Marked M W) ε β}
    {others : α → Effect W ε β} (first : Shadows marked plain) (rest : ∀ a, Shadows (next a) (others a)) :
    Shadows (marked >>= next) (plain >>= others) := by
  change Marked.Shadows (marked.run >>= ExceptT.bindCont next) (plain.run >>= ExceptT.bindCont others)
  refine Marked.Shadows.bind first fun result => ?_
  cases result with
  | ok a => exact rest a
  | error _ => exact .ofReturn _

theorem ofGet {next : Marked M W → Effect (Marked M W) ε β} {others : W → Effect W ε β}
    (rest : ∀ whole marks, Shadows (next (whole, marks)) (others whole)) :
    Shadows (get >>= next) (get >>= others) := fun whole marks => rest whole marks whole marks

end Shadows

/-- What is known of the marks lasts through a plain effect. -/
theorem inside_marks {known : List M → Prop} (effect : Effect W ε α) :
    Keeps (fun marked => known marked.2) (effect.inside (Marked.whole (M := M))) :=
  .inside fun _ held => (Ensures.any _).mono (fun _ _ _ => held) fun _ _ _ => held

end Effect

namespace PartEffect

/-- Without its marks, the effect is the plain effect. -/
abbrev Shadows (marked : PartEffect S (Marked M W) ε α) (plain : PartEffect S W ε α) : Prop :=
  ∀ part, Marked.Shadows (marked.run.run part) (plain.run.run part)

namespace Shadows

theorem ofPure (a : α) : Shadows (M := M) (S := S) (W := W) (ε := ε) (pure a) (pure a) := fun _ _ _ => rfl

theorem inWhole (effect : PartEffect S W ε α) : Shadows (M := M) (effect.inWhole Marked.whole) effect :=
  fun _ _ _ => rfl

theorem bind {marked : PartEffect S (Marked M W) ε α} {plain : PartEffect S W ε α}
    {next : α → PartEffect S (Marked M W) ε β} {others : α → PartEffect S W ε β} (first : Shadows marked plain)
    (rest : ∀ a, Shadows (next a) (others a)) : Shadows (marked >>= next) (plain >>= others) := by
  intro part
  change Marked.Shadows (marked.run.run part >>= fun result => (ExceptT.bindCont next result.1).run result.2)
    (plain.run.run part >>= fun result => (ExceptT.bindCont others result.1).run result.2)
  refine Marked.Shadows.bind (first part) fun (result, after) => ?_
  cases result with
  | ok a => exact rest a after
  | error _ => exact .ofReturn _

/-- A mark changes nothing else. -/
theorem ofLeave (mark : M) {marked : PartEffect S (Marked M W) ε α} {plain : PartEffect S W ε α}
    (rest : Shadows marked plain) :
    Shadows (PartEffect.around (modify (Marked.leave mark)) >>= fun _ => marked) plain :=
  fun part whole marks => rest part whole (marks ++ [mark])

theorem repeatedly {marked : PartEffect S (Marked M W) ε Unit} {plain : PartEffect S W ε Unit}
    (once : Shadows marked plain) (times : Nat) :
    Shadows (FrameGraph.repeatedly marked times) (FrameGraph.repeatedly plain times) := by
  induction times with
  | zero => exact .ofPure ()
  | succ times ih => exact once.bind fun _ => ih

end Shadows

/-- The effect leaves these marks, and only the first of them when it fails. -/
def Leaves (effect : PartEffect S (Marked M W) ε α) (marks : List M) : Prop :=
  ∀ before, Ensures (fun _ marked => marked.2 = before) effect (fun _ _ marked => marked.2 = before ++ marks)
    fun _ _ marked => ∃ some, some <+: marks ∧ marked.2 = before ++ some

namespace Leaves

theorem ofPure (a : α) : Leaves (M := M) (S := S) (W := W) (ε := ε) (pure a) [] :=
  fun before => .ofPure fun _ _ same => same.trans (List.append_nil before).symm

/-- What the plain effects do leaves no mark. -/
theorem inWhole (effect : PartEffect S W ε α) : Leaves (M := M) (effect.inWhole Marked.whole) [] := by
  refine fun before => .inWhole fun marked part inner held => ?_
  have unmarked : marked.2 = before ++ [] := held.2.trans (List.append_nil before).symm
  split
  · exact unmarked
  · exact ⟨[], List.prefix_refl [], unmarked⟩

theorem bind {effect : PartEffect S (Marked M W) ε α} {next : α → PartEffect S (Marked M W) ε β}
    {first others : List M} (leaves : Leaves effect first) (rest : ∀ a, Leaves (next a) others) :
    Leaves (effect >>= next) (first ++ others) := by
  intro before
  refine .bind ((leaves before).mono (fun _ _ _ => id) ?_) fun a => (rest a (before ++ first)).mono ?_ ?_
  · rintro _ _ marked ⟨some, part, same⟩
    exact ⟨some, part.trans (List.prefix_append _ _), same⟩
  · intro _ _ marked same
    rw [same, List.append_assoc]
  · rintro _ _ marked ⟨some, part, same⟩
    refine ⟨first ++ some, (List.prefix_append_right_inj first).mpr part, ?_⟩
    rw [same, List.append_assoc]

theorem ofLeave (mark : M) :
    Leaves (S := S) (W := W) (ε := ε) (PartEffect.around (modify (Marked.leave mark))) [mark] :=
  fun before => .around fun _ => .ofModify fun marked same => by rw [Marked.leave, same]

theorem repeatedly {effect : PartEffect S (Marked M W) ε Unit} {marks : List M} (leaves : Leaves effect marks)
    (times : Nat) : Leaves (FrameGraph.repeatedly effect times) (List.replicate times marks).flatten := by
  induction times with
  | zero => exact .ofPure ()
  | succ times ih => exact leaves.bind fun _ => ih

end Leaves

end PartEffect

end FrameGraph
