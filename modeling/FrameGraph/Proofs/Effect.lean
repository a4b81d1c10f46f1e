import FrameGraph.Effect
import Mathlib.Data.List.Basic

/-! # Reasoning about effects

An effect is followed from every state that satisfies an assertion: a result must leave the state in one
assertion and an error in another, since what was changed before a failure stays changed. Steps, which
keep what they made of a part also when they fail, and part effects are followed the same way.
-/

namespace FrameGraph

variable {S T W V ε δ α β γ : Type}

namespace Effect

@[simp] theorem apply_pure (a : α) (whole : W) : apply (pure a : Effect W ε α) whole = (.ok a, whole) := rfl

@[simp] theorem apply_throw (error : ε) (whole : W) :
    apply (throw error : Effect W ε α) whole = (.error error, whole) := rfl

@[simp] theorem apply_get (whole : W) : apply (get : Effect W ε W) whole = (.ok whole, whole) := rfl

@[simp] theorem apply_set (next whole : W) : apply (set next : Effect W ε Unit) whole = (.ok (), next) := rfl

@[simp] theorem apply_modify (change : W → W) (whole : W) :
    apply (modify change : Effect W ε Unit) whole = (.ok (), change whole) := rfl

@[simp] theorem apply_ofFunction (step : W → Except ε α × W) (whole : W) :
    apply (ofFunction step) whole = step whole := rfl

theorem apply_bind (effect : Effect W ε α) (next : α → Effect W ε β) (whole : W) :
    apply (effect >>= next) whole =
      match effect.apply whole with
      | (.ok a, after) => (next a).apply after
      | (.error error, after) => (.error error, after) := by
  change (StateT.bind effect (ExceptT.bindCont next)) whole = _
  simp only [StateT.bind, apply, ExceptT.run, StateT.run]
  rcases effect whole with ⟨_ | _, _⟩ <;> rfl

theorem apply_inside (lens : Lens W V) (effect : Effect V ε α) (whole : W) :
    (effect.inside lens).apply whole =
      ((effect.apply (lens.get whole)).1, lens.set (effect.apply (lens.get whole)).2 whole) := rfl

theorem apply_mapError (f : ε → δ) (effect : Effect W ε α) (whole : W) :
    (effect.mapError f).apply whole = ((effect.apply whole).1.mapError f, (effect.apply whole).2) := rfl

/-- From every state in `before`, a result leaves the state in `ok` and an error in `failed`. -/
def Ensures (before : W → Prop) (effect : Effect W ε α) (ok : α → W → Prop)
    (failed : ε → W → Prop) : Prop :=
  ∀ whole, before whole →
    match effect.apply whole with
    | (.ok a, after) => ok a after
    | (.error error, after) => failed error after

/-- The effect stays in `inv`, whether it fails or not. -/
abbrev Keeps (inv : W → Prop) (effect : Effect W ε α) : Prop :=
  Ensures inv effect (fun _ => inv) fun _ => inv

namespace Ensures

variable {before : W → Prop} {ok : α → W → Prop} {failed : ε → W → Prop}

theorem result {effect : Effect W ε α} (ensured : Ensures before effect ok failed) {whole after : W}
    {a : α} (holds : before whole) (run : effect.apply whole = (.ok a, after)) : ok a after := by
  simpa only [run] using ensured whole holds

/-- What holds whether the effect fails or not holds of what it leaves. -/
theorem after {after : W → Prop} {effect : Effect W ε α}
    (ensured : Ensures before effect (fun _ => after) fun _ => after) {whole : W} (holds : before whole) :
    after (effect.apply whole).2 := by
  have run := ensured whole holds
  split at run <;> rename_i applied <;> rw [applied] <;> exact run

theorem mono {ok' : α → W → Prop} {failed' : ε → W → Prop} {effect : Effect W ε α}
    (ensured : Ensures before effect ok failed) (later : ∀ a w, ok a w → ok' a w)
    (fails : ∀ e w, failed e w → failed' e w) : Ensures before effect ok' failed' := by
  intro whole holds
  have run := ensured whole holds
  split at run
  · exact later _ _ run
  · exact fails _ _ run

theorem pre {before' : W → Prop} {effect : Effect W ε α} (sooner : ∀ w, before' w → before w)
    (ensured : Ensures before effect ok failed) : Ensures before' effect ok failed :=
  fun whole holds => ensured whole (sooner whole holds)

/-- What is known apart from the state may be taken out. -/
theorem given {known : Prop} {effect : Effect W ε α} (rest : known → Ensures before effect ok failed) :
    Ensures (fun w => known ∧ before w) effect ok failed :=
  fun whole holds => rest holds.1 whole holds.2

/-- What two runs of the same effect are known to come to, it comes to. -/
theorem and {before' : W → Prop} {ok' : α → W → Prop} {failed' : ε → W → Prop} {effect : Effect W ε α}
    (one : Ensures before effect ok failed) (two : Ensures before' effect ok' failed') :
    Ensures (fun w => before w ∧ before' w) effect (fun a w => ok a w ∧ ok' a w)
      fun e w => failed e w ∧ failed' e w := by
  intro whole holds
  have first := one whole holds.1
  have second := two whole holds.2
  split at first
  · rename_i applied
    simp only [applied] at second ⊢
    exact ⟨first, second⟩
  · rename_i applied
    simp only [applied] at second ⊢
    exact ⟨first, second⟩

theorem ofPure {a : α} (holds : ∀ w, before w → ok a w) :
    Ensures before (pure a : Effect W ε α) ok failed := holds

theorem ofThrow {error : ε} (holds : ∀ w, before w → failed error w) :
    Ensures before (throw error : Effect W ε α) ok failed := holds

theorem ofModify {ok : Unit → W → Prop} {change : W → W} (holds : ∀ w, before w → ok () (change w)) :
    Ensures before (modify change : Effect W ε Unit) ok failed := holds

theorem ofSet {ok : Unit → W → Prop} {next : W} (holds : ∀ w, before w → ok () next) :
    Ensures before (set next : Effect W ε Unit) ok failed := holds

/-- After a set, the state is what was set. -/
theorem put (next : W) : Ensures before (set next : Effect W ε Unit) (fun _ w => w = next) failed :=
  ofSet fun _ _ => rfl

theorem bind {middle : α → W → Prop} {ok : β → W → Prop} {effect : Effect W ε α}
    {next : α → Effect W ε β} (first : Ensures before effect middle failed)
    (rest : ∀ a, Ensures (middle a) (next a) ok failed) :
    Ensures before (effect >>= next) ok failed := by
  intro whole holds
  have run := first whole holds
  rw [apply_bind]
  split at run
  · rename_i a after applied
    simpa only [applied] using rest a after run
  · rename_i error after applied
    simpa only [applied] using run

theorem any (effect : Effect W ε α) : Ensures before effect (fun _ _ => True) fun _ _ => True := by
  intro whole _
  split <;> trivial

/-- What was done before does not matter to what follows. -/
theorem skip {ok : β → W → Prop} {effect : Effect W ε α} {next : α → Effect W ε β}
    (rest : ∀ a, Ensures (fun _ => True) (next a) ok fun _ _ => True) :
    Ensures before (effect >>= next) ok fun _ _ => True := (any effect).bind rest

theorem ofIf {c : Prop} [Decidable c] {yes no : Effect W ε α}
    (holds : c → Ensures before yes ok failed) (fails : ¬c → Ensures before no ok failed) :
    Ensures before (if c then yes else no) ok failed := by
  split
  · exact holds ‹_›
  · exact fails ‹_›

/-- A check in front of the rest. -/
theorem ofGuard {c : Prop} [Decidable c] {error : ε} {next : γ → Effect W ε α}
    {no : Effect W ε α} (fails : c → ∀ w, before w → failed error w)
    (rest : ¬c → Ensures before no ok failed) :
    Ensures before (if c then throw error >>= next else no) ok failed :=
  ofIf (fun holds => fails holds) rest

/-- Reading the state fixes it for what follows. -/
theorem ofGet {ok : β → W → Prop} {next : W → Effect W ε β}
    (rest : ∀ w, before w → Ensures (· = w) (next w) ok failed) :
    Ensures before (get >>= next) ok failed :=
  fun whole holds => rest whole holds whole rfl

/-- An effect may be followed from every state by itself. -/
theorem ofEach {effect : Effect W ε α} (each : ∀ w, before w → Ensures (· = w) effect ok failed) :
    Ensures before effect ok failed :=
  fun whole holds => each whole holds whole rfl

/-- An effect inside a whole is followed from every whole by itself. -/
theorem inside {lens : Lens W V} {effect : Effect V ε α}
    (inner : ∀ w, before w → Ensures (· = lens.get w) effect (fun a v => ok a (lens.set v w))
      fun e v => failed e (lens.set v w)) :
    Ensures before (effect.inside lens) ok failed := by
  intro whole holds
  have run := inner whole holds _ rfl
  rw [apply_inside]
  split at run
  · rename_i a after applied
    simpa only [applied] using run
  · rename_i error after applied
    simpa only [applied] using run

theorem mapError {f : ε → δ} {failed : δ → W → Prop} {effect : Effect W ε α}
    (inner : Ensures before effect ok fun e => failed (f e)) :
    Ensures before (effect.mapError f) ok failed := by
  intro whole holds
  have run := inner whole holds
  rw [apply_mapError]
  split at run
  · rename_i a after applied
    rw [applied]
    exact run
  · rename_i error after applied
    rw [applied]
    exact run

/-- What follows a needed value starts with it. -/
theorem ofNeed {ok : β → W → Prop} {error : ε} {value : Option α} {next : α → Effect W ε β}
    (found : ∀ a, value = some a → Ensures before (next a) ok failed)
    (absent : value = none → ∀ w, before w → failed error w) :
    Ensures before (need error value >>= next) ok failed := by
  cases value with
  | none => exact absent rfl
  | some a => exact found a rfl

/-- What follows a lifted result starts with it. -/
theorem ofExcept {ok : β → W → Prop} {value : Except ε α} {next : α → Effect W ε β}
    (result : ∀ a, value = .ok a → Ensures before (next a) ok failed)
    (error : ∀ e, value = .error e → ∀ w, before w → failed e w) :
    Ensures before (MonadExcept.ofExcept value >>= next) ok failed := by
  cases value with
  | error e => exact error e rfl
  | ok a => exact result a rfl

theorem lift {value : Except ε α} (result : ∀ a, value = .ok a → ∀ w, before w → ok a w)
    (error : ∀ e, value = .error e → ∀ w, before w → failed e w) :
    Ensures before (MonadExcept.ofExcept value : Effect W ε α) ok failed := by
  cases value with
  | error e => exact error e rfl
  | ok a => exact result a rfl

/-- A loop is followed with the elements seen so far and their results. -/
theorem mapM (inv : List γ → List β → W → Prop) {f : γ → Effect W ε β} {xs : List γ}
    (step : ∀ seen out, ∀ x ∈ xs, Ensures (inv seen out) (f x) (fun b => inv (seen ++ [x]) (out ++ [b])) failed) :
    Ensures (inv [] []) (xs.mapM f) (inv xs) failed := by
  suffices loop : ∀ seen out, Ensures (inv seen out) (xs.mapM f)
      (fun bs => inv (seen ++ xs) (out ++ bs)) failed from loop [] []
  induction xs with
  | nil =>
    intro seen out
    rw [List.mapM_nil]
    exact ofPure fun _ holds => by simpa using holds
  | cons x rest ih =>
    intro seen out
    rw [List.mapM_cons]
    refine (step seen out x List.mem_cons_self).bind fun b => ?_
    refine (ih (fun seen out x found => step seen out x (List.mem_cons_of_mem _ found)) _ _).bind fun bs => ?_
    exact ofPure fun _ holds => by simpa using holds

theorem forM {inv : W → Prop} {f : γ → Effect W ε Unit} {xs : List γ}
    (step : ∀ x ∈ xs, Ensures inv (f x) (fun _ => inv) failed) :
    Ensures inv (xs.forM f) (fun _ => inv) failed := by
  induction xs with
  | nil => exact ofPure fun _ holds => holds
  | cons x rest ih =>
    exact (step x List.mem_cons_self).bind fun _ => ih fun x found => step x (List.mem_cons_of_mem _ found)

end Ensures

end Effect

namespace Step

/-- From every state in `before`, a step leaves the part and the state in `ok` or in `failed`. -/
def Ensures (before : W → Prop) (step : StateM W (Except ε α × S)) (ok : α → S → W → Prop)
    (failed : ε → S → W → Prop) : Prop :=
  ∀ whole, before whole →
    match step.run whole with
    | ((.ok a, part), after) => ok a part after
    | ((.error error, part), after) => failed error part after

namespace Ensures

variable {before : W → Prop} {ok : α → S → W → Prop} {failed : ε → S → W → Prop}
  {step : StateM W (Except ε α × S)}

theorem result (ensured : Ensures before step ok failed) {whole after : W} {a : α} {part : S}
    (holds : before whole) (run : step.run whole = ((.ok a, part), after)) : ok a part after := by
  simpa only [run] using ensured whole holds

theorem mono {ok' : α → S → W → Prop} {failed' : ε → S → W → Prop}
    (ensured : Ensures before step ok failed) (later : ∀ a s w, ok a s w → ok' a s w)
    (fails : ∀ e s w, failed e s w → failed' e s w) : Ensures before step ok' failed' := by
  intro whole holds
  have run := ensured whole holds
  split at run
  · exact later _ _ _ run
  · exact fails _ _ _ run

/-- What two runs of the same step are known to come to, it comes to. -/
theorem and {before' : W → Prop} {ok' : α → S → W → Prop} {failed' : ε → S → W → Prop}
    (one : Ensures before step ok failed) (two : Ensures before' step ok' failed') :
    Ensures (fun w => before w ∧ before' w) step (fun a s w => ok a s w ∧ ok' a s w)
      fun e s w => failed e s w ∧ failed' e s w := by
  intro whole holds
  have first := one whole holds.1
  have second := two whole holds.2
  split at first
  · rename_i applied
    simp only [applied] at second ⊢
    exact ⟨first, second⟩
  · rename_i applied
    simp only [applied] at second ⊢
    exact ⟨first, second⟩

theorem ofReturn {result : Except ε α × S}
    (holds : ∀ w, before w → match result with
      | (.ok a, part) => ok a part w
      | (.error e, part) => failed e part w) :
    Ensures before (return result) ok failed := by
  intro whole at_whole
  have held := holds whole at_whole
  rcases result with ⟨_ | _, _⟩ <;> exact held

theorem pre {before' : W → Prop} (sooner : ∀ w, before' w → before w)
    (ensured : Ensures before step ok failed) : Ensures before' step ok failed :=
  fun whole holds => ensured whole (sooner whole holds)

/-- What is known apart from the state may be taken out. -/
theorem given {known : Prop} (rest : known → Ensures before step ok failed) :
    Ensures (fun w => known ∧ before w) step ok failed :=
  fun whole holds => rest holds.1 whole holds.2

/-- What a step comes to from one state is what it was run to. -/
theorem ran {start : W} (ensured : Ensures (· = start) step ok failed) :
    Ensures (· = start) step (fun a s w => ok a s w ∧ step.run start = ((.ok a, s), w))
      fun e s w => failed e s w ∧ step.run start = ((.error e, s), w) := by
  rintro _ rfl
  have run := ensured _ rfl
  split at run
  · rename_i applied
    rw [applied]
    exact ⟨run, rfl⟩
  · rename_i applied
    rw [applied]
    exact ⟨run, rfl⟩

theorem ofIf {c : Prop} [Decidable c] {yes no : StateM W (Except ε α × S)}
    (holds : c → Ensures before yes ok failed) (fails : ¬c → Ensures before no ok failed) :
    Ensures before (if c then yes else no) ok failed := by
  split
  · exact holds ‹_›
  · exact fails ‹_›

/-- A step may be followed from every state by itself. -/
theorem ofEach (each : ∀ w, before w → Ensures (· = w) step ok failed) : Ensures before step ok failed :=
  fun whole holds => each whole holds whole rfl

theorem ofGet {next : W → StateM W (Except ε α × S)}
    (rest : ∀ w, before w → Ensures (fun w' => w' = w ∧ before w') (next w) ok failed) :
    Ensures before (get >>= next) ok failed :=
  fun whole holds => rest whole holds whole ⟨rfl, holds⟩

/-- What follows a step goes on from its result or from its error. -/
theorem bind {step : StateM W (Except δ γ × T)} {middle : γ → T → W → Prop}
    {broken : δ → T → W → Prop} {next : Except δ γ × T → StateM W (Except ε α × S)}
    (first : Ensures before step middle broken)
    (rest : ∀ a part, Ensures (middle a part) (next (.ok a, part)) ok failed)
    (after : ∀ e part, Ensures (broken e part) (next (.error e, part)) ok failed) :
    Ensures before (step >>= next) ok failed := by
  intro whole holds
  have run := first whole holds
  rw [StateT.run_bind]
  split at run
  · rename_i a part now applied
    simp only [applied]
    exact rest a part now run
  · rename_i e part now applied
    simp only [applied]
    exact after e part now run

end Ensures

end Step

namespace PartEffect

theorem apply_bind (effect : PartEffect S W ε α) (next : α → PartEffect S W ε β) (part : S) (whole : W) :
    apply (effect >>= next) part whole =
      match effect.apply part whole with
      | ((.ok a, part), after) => (next a).apply part after
      | ((.error error, part), after) => ((.error error, part), after) := by
  change (StateT.bind effect (ExceptT.bindCont next)) part whole = _
  simp only [StateT.bind, apply, ExceptT.run, StateT.run, Bind.bind]
  rcases effect part whole with ⟨⟨_ | _, _⟩, _⟩ <;> rfl

/-- From every part and whole in `before`, a result leaves them in `ok` and an error in `failed`. -/
def Ensures (before : S → W → Prop) (effect : PartEffect S W ε α) (ok : α → S → W → Prop)
    (failed : ε → S → W → Prop) : Prop :=
  ∀ part, Step.Ensures (before part) (effect.run.run part) ok failed

/-- The effect stays in `inv`, whether it fails or not. -/
abbrev Keeps (inv : S → W → Prop) (effect : PartEffect S W ε α) : Prop :=
  Ensures inv effect (fun _ => inv) fun _ => inv

namespace Ensures

variable {before : S → W → Prop} {ok : α → S → W → Prop} {failed : ε → S → W → Prop}

theorem mono {ok' : α → S → W → Prop} {failed' : ε → S → W → Prop} {effect : PartEffect S W ε α}
    (ensured : Ensures before effect ok failed) (later : ∀ a s w, ok a s w → ok' a s w)
    (fails : ∀ e s w, failed e s w → failed' e s w) : Ensures before effect ok' failed' :=
  fun part => (ensured part).mono later fails

/-- What holds whether the effect fails or not holds of what it leaves. -/
theorem after {after : S → W → Prop} {effect : PartEffect S W ε α}
    (ensured : Ensures before effect (fun _ => after) fun _ => after) {part : S} {whole : W}
    (holds : before part whole) : after (effect.apply part whole).1.2 (effect.apply part whole).2 := by
  have run := ensured part whole holds
  split at run
  · rename_i applied
    rw [show effect.apply part whole = _ from applied]
    exact run
  · rename_i applied
    rw [show effect.apply part whole = _ from applied]
    exact run

/-- What two runs of the same effect are known to come to, it comes to. -/
theorem and {before' : S → W → Prop} {ok' : α → S → W → Prop} {failed' : ε → S → W → Prop}
    {effect : PartEffect S W ε α} (one : Ensures before effect ok failed)
    (two : Ensures before' effect ok' failed') :
    Ensures (fun s w => before s w ∧ before' s w) effect (fun a s w => ok a s w ∧ ok' a s w)
      fun e s w => failed e s w ∧ failed' e s w :=
  fun part => (one part).and (two part)

theorem any (effect : PartEffect S W ε α) :
    Ensures (fun _ _ => True) effect (fun _ _ _ => True) fun _ _ _ => True := by
  intro part whole _
  split <;> trivial

/-- An assertion that says more may stand in front. -/
theorem pre {before' : S → W → Prop} {effect : PartEffect S W ε α}
    (sooner : ∀ s w, before' s w → before s w) (ensured : Ensures before effect ok failed) :
    Ensures before' effect ok failed :=
  fun part whole holds => ensured part whole (sooner part whole holds)

/-- What is known apart from the state may be taken out. -/
theorem given {known : Prop} {effect : PartEffect S W ε α} (rest : known → Ensures before effect ok failed) :
    Ensures (fun s w => known ∧ before s w) effect ok failed :=
  fun part whole holds => rest holds.1 part whole holds.2

theorem ofPure {a : α} (holds : ∀ s w, before s w → ok a s w) :
    Ensures before (pure a : PartEffect S W ε α) ok failed := fun part => holds part

theorem ofThrow {error : ε} (holds : ∀ s w, before s w → failed error s w) :
    Ensures before (throw error : PartEffect S W ε α) ok failed := fun part => holds part

theorem ofModify {ok : Unit → S → W → Prop} {change : S → S}
    (holds : ∀ s w, before s w → ok () (change s) w) :
    Ensures before (modify change : PartEffect S W ε Unit) ok failed := fun part => holds part

/-- A change of the part keeps what is known of the part when it holds of what the change makes. -/
theorem change {known : S → Prop} {inv : W → Prop} {failed : ε → S → W → Prop} {change : S → S}
    (kept : ∀ s, known s → known (change s)) :
    Ensures (fun s w => known s ∧ inv w) (modify change : PartEffect S W ε Unit) (fun _ s w => known s ∧ inv w)
      failed :=
  .ofModify fun s _ held => ⟨kept s held.1, held.2⟩

/-- After a change, the part is what the change made of one that the assertion held of. -/
theorem ofChange (change : S → S) :
    Ensures before (modify change : PartEffect S W ε Unit) (fun _ s w => ∃ old, before old w ∧ s = change old)
      failed := ofModify fun s _ held => ⟨s, held, rfl⟩

theorem ofSet {ok : Unit → S → W → Prop} {next : S} (holds : ∀ s w, before s w → ok () next w) :
    Ensures before (set next : PartEffect S W ε Unit) ok failed := fun part => holds part

theorem bind {middle : α → S → W → Prop} {ok : β → S → W → Prop} {effect : PartEffect S W ε α}
    {next : α → PartEffect S W ε β} (first : Ensures before effect middle failed)
    (rest : ∀ a, Ensures (middle a) (next a) ok failed) :
    Ensures before (effect >>= next) ok failed := by
  intro part whole holds
  have run := first part whole holds
  rw [show ((effect >>= next).run.run part).run whole = _ from apply_bind effect next part whole]
  split at run
  · rename_i a s after applied
    rw [show effect.apply part whole = _ from applied]
    exact rest a s after run
  · rename_i e s after applied
    rw [show effect.apply part whole = _ from applied]
    exact run

theorem ofIf {c : Prop} [Decidable c] {yes no : PartEffect S W ε α}
    (holds : c → Ensures before yes ok failed) (fails : ¬c → Ensures before no ok failed) :
    Ensures before (if c then yes else no) ok failed := by
  split
  · exact holds ‹_›
  · exact fails ‹_›

/-- What is known of the part alone holds for the part that is read. -/
theorem ofRead {before : S → Prop} {ok : β → S → W → Prop} {next : S → PartEffect S W ε β}
    (rest : ∀ s, before s → Ensures (fun s' _ => s' = s) (next s) ok failed) :
    Ensures (fun s _ => before s) (get >>= next) ok failed :=
  fun part whole holds => rest part holds part whole rfl

/-- What is known of the whole alone lasts while the part is read. -/
theorem ofReading {inv : W → Prop} {ok : β → S → W → Prop} {next : S → PartEffect S W ε β}
    (rest : ∀ s, Ensures (fun _ => inv) (next s) ok failed) : Ensures (fun _ => inv) (get >>= next) ok failed :=
  fun part => rest part part

/-- An effect may be followed from every part by itself. -/
theorem ofEach {before : S → Prop} {effect : PartEffect S W ε α}
    (each : ∀ s, before s → Ensures (fun s' _ => s' = s) effect ok failed) :
    Ensures (fun s _ => before s) effect ok failed :=
  fun part whole holds => each part holds part whole rfl

/-- An effect may be followed from every part and every whole by themselves. -/
theorem ofState {effect : PartEffect S W ε α}
    (each : ∀ s w, before s w → Ensures (fun s' w' => s' = s ∧ w' = w) effect ok failed) :
    Ensures before effect ok failed :=
  fun part whole holds => each part whole holds part whole ⟨rfl, rfl⟩

/-- Reading the part fixes it, and what is known of both, for what follows. -/
theorem ofGet {ok : β → S → W → Prop} {next : S → PartEffect S W ε β}
    (rest : ∀ s w, before s w → Ensures (fun s' w' => s' = s ∧ w' = w) (next s) ok failed) :
    Ensures before (get >>= next) ok failed :=
  fun part whole holds => rest part whole holds part whole ⟨rfl, rfl⟩

/-- What follows a needed value starts with it. -/
theorem ofNeed {ok : β → S → W → Prop} {error : ε} {value : Option α} {next : α → PartEffect S W ε β}
    (found : ∀ a, value = some a → Ensures before (next a) ok failed)
    (absent : value = none → ∀ s w, before s w → failed error s w) :
    Ensures before (need error value >>= next) ok failed := by
  cases value with
  | none => exact fun part => absent rfl part
  | some a => exact found a rfl

/-- What follows a lifted result starts with it. -/
theorem ofExcept {ok : β → S → W → Prop} {value : Except ε α} {next : α → PartEffect S W ε β}
    (result : ∀ a, value = .ok a → Ensures before (next a) ok failed)
    (error : ∀ e, value = .error e → ∀ s w, before s w → failed e s w) :
    Ensures before (MonadExcept.ofExcept value >>= next) ok failed := by
  cases value with
  | error e => exact fun part => error e rfl part
  | ok a => exact result a rfl

theorem around {effect : Effect W ε α}
    (inner : ∀ s, Effect.Ensures (before s) effect (fun a => ok a s) fun e => failed e s) :
    Ensures before (PartEffect.around effect) ok failed := by
  intro part whole holds
  have run := inner part whole holds
  rw [show ((PartEffect.around effect).run.run part).run whole =
    (((effect.apply whole).1, part), (effect.apply whole).2) from rfl]
  split at run
  · rename_i a after applied
    rw [applied]
    exact run
  · rename_i e after applied
    rw [applied]
    exact run

/-- What is known of the part lasts through an effect of the whole. -/
theorem beside {known : S → Prop} {inv : W → Prop} {effect : Effect W ε α} (kept : Effect.Keeps inv effect) :
    Keeps (fun s w => known s ∧ inv w) (PartEffect.around effect) :=
  .around fun _ => .given fun holds => kept.mono (fun _ _ => .intro holds) fun _ _ => .intro holds

/-- So does what is known of it while the effect comes to a result as described. -/
theorem yields {known : S → Prop} {inv : W → Prop} {described : α → Prop} {effect : Effect W ε α}
    (ensured : Effect.Ensures inv effect (fun a w => described a ∧ inv w) fun _ => inv) :
    Ensures (fun s w => known s ∧ inv w) (PartEffect.around effect) (fun a s w => described a ∧ known s ∧ inv w)
      fun _ s w => known s ∧ inv w :=
  .around fun _ => .given fun holds => ensured.mono (fun _ _ done => ⟨done.1, holds, done.2⟩)
    fun _ _ => .intro holds

/-- An effect of the whole does not touch the part. -/
theorem apart {known : S → Prop} (effect : Effect W ε α) :
    Ensures (fun s _ => known s) (PartEffect.around effect) (fun _ s _ => known s) fun _ s _ => known s :=
  .around fun _ _ holds => by split <;> exact holds

/-- Looking at the whole changes nothing. -/
theorem ofLook {ok : β → S → W → Prop} {next : W → PartEffect S W ε β}
    (rest : ∀ s w, before s w → Ensures before (next w) ok failed) :
    Ensures before (PartEffect.around get >>= next) ok failed :=
  fun part whole holds => rest part whole holds part whole holds

theorem inPart {lens : Lens S T} {effect : PartEffect T W ε α}
    (inner : ∀ s, Ensures (fun t w => t = lens.get s ∧ before s w) effect (fun a t => ok a (lens.set t s))
      fun e t => failed e (lens.set t s)) :
    Ensures before (effect.inPart lens) ok failed := by
  intro part whole holds
  have run := inner part (lens.get part) whole ⟨rfl, holds⟩
  rw [show ((effect.inPart lens).run.run part).run whole =
    (((effect.apply (lens.get part) whole).1.1, lens.set (effect.apply (lens.get part) whole).1.2 part),
      (effect.apply (lens.get part) whole).2) from rfl]
  split at run
  · rename_i a t after applied
    rw [show effect.apply (lens.get part) whole = _ from applied]
    exact run
  · rename_i e t after applied
    rw [show effect.apply (lens.get part) whole = _ from applied]
    exact run

/-- An effect on what is inside a part leaves the rest of the part alone. -/
theorem within {known : S → Prop} {lens : Lens S T} (effect : PartEffect T W ε α)
    (same : ∀ s t, known s → known (lens.set t s)) :
    Ensures (fun s _ => known s) (effect.inPart lens) (fun _ s _ => known s) fun _ s _ => known s :=
  .inPart fun s _ _ holds => by split <;> exact same s _ holds.2

theorem inWhole {lens : Lens W V} {effect : PartEffect S V ε α}
    (inner : ∀ w, Ensures (fun s v => v = lens.get w ∧ before s w) effect (fun a s v => ok a s (lens.set v w))
      fun e s v => failed e s (lens.set v w)) :
    Ensures before (effect.inWhole lens) ok failed := by
  intro part whole holds
  have run := inner whole part (lens.get whole) ⟨rfl, holds⟩
  rw [show ((effect.inWhole lens).run.run part).run whole =
    ((effect.apply part (lens.get whole)).1, lens.set (effect.apply part (lens.get whole)).2 whole) from rfl]
  split at run
  · rename_i a s after applied
    rw [show effect.apply part (lens.get whole) = _ from applied]
    exact run
  · rename_i e s after applied
    rw [show effect.apply part (lens.get whole) = _ from applied]
    exact run

theorem mapError {f : ε → δ} {failed : δ → S → W → Prop} {effect : PartEffect S W ε α}
    (inner : Ensures before effect ok fun e => failed (f e)) :
    Ensures before (effect.mapError f) ok failed := by
  intro part whole holds
  have run := inner part whole holds
  rw [show ((effect.mapError f).run.run part).run whole =
    (((effect.apply part whole).1.1.mapError f, (effect.apply part whole).1.2),
      (effect.apply part whole).2) from rfl]
  split at run
  · rename_i a s after applied
    rw [show effect.apply part whole = _ from applied]
    exact run
  · rename_i e s after applied
    rw [show effect.apply part whole = _ from applied]
    exact run

/-- What is tried does not fail, and its result tells what came of it. -/
theorem attempt {effect : PartEffect S W ε α} (inner : Ensures before effect ok failed) :
    Ensures before (effect.attempt (δ := δ)) (fun result s w =>
      match result with
      | .ok a => ok a s w
      | .error e => failed e s w) fun _ _ _ => False := by
  intro part whole holds
  have run := inner part whole holds
  rw [show ((effect.attempt (δ := δ)).run.run part).run whole =
    ((.ok (effect.apply part whole).1.1, (effect.apply part whole).1.2), (effect.apply part whole).2) from rfl]
  split at run
  · rename_i a s after applied
    rw [show effect.apply part whole = _ from applied]
    exact run
  · rename_i e s after applied
    rw [show effect.apply part whole = _ from applied]
    exact run

/-- An effect on a part that the whole holds is an effect of the whole. -/
theorem joined {lens : Lens W S} {before : W → Prop} {ok : α → W → Prop} {failed : ε → W → Prop}
    {effect : PartEffect S W ε α}
    (inner : Ensures (fun s w => s = lens.get w ∧ before w) effect (fun a s w => ok a (lens.set s w))
      fun e s w => failed e (lens.set s w)) :
    Effect.Ensures before (effect.joined lens) ok failed := by
  intro whole holds
  have run := inner (lens.get whole) whole ⟨rfl, holds⟩
  rw [show (effect.joined lens).apply whole =
    ((effect.apply (lens.get whole) whole).1.1,
      lens.set (effect.apply (lens.get whole) whole).1.2 (effect.apply (lens.get whole) whole).2) from rfl]
  split at run
  · rename_i a s after applied
    rw [show effect.apply (lens.get whole) whole = _ from applied]
    exact run
  · rename_i e s after applied
    rw [show effect.apply (lens.get whole) whole = _ from applied]
    exact run

/-- A loop is followed with the elements seen so far and their results. -/
theorem mapM (inv : List γ → List β → S → W → Prop) {f : γ → PartEffect S W ε β} {xs : List γ}
    (step : ∀ seen out, ∀ x ∈ xs, Ensures (inv seen out) (f x) (fun b => inv (seen ++ [x]) (out ++ [b])) failed) :
    Ensures (inv [] []) (xs.mapM f) (inv xs) failed := by
  suffices loop : ∀ seen out, Ensures (inv seen out) (xs.mapM f)
      (fun bs => inv (seen ++ xs) (out ++ bs)) failed from loop [] []
  induction xs with
  | nil =>
    intro seen out
    rw [List.mapM_nil]
    exact ofPure fun _ _ holds => by simpa using holds
  | cons x rest ih =>
    intro seen out
    rw [List.mapM_cons]
    refine (step seen out x List.mem_cons_self).bind fun b => ?_
    refine (ih (fun seen out x found => step seen out x (List.mem_cons_of_mem _ found)) _ _).bind fun bs => ?_
    exact ofPure fun _ _ holds => by simpa using holds

theorem forM {inv : S → W → Prop} {f : γ → PartEffect S W ε Unit} {xs : List γ}
    (step : ∀ x ∈ xs, Ensures inv (f x) (fun _ => inv) failed) :
    Ensures inv (xs.forM f) (fun _ => inv) failed := by
  induction xs with
  | nil => exact ofPure fun _ _ holds => holds
  | cons x rest ih =>
    exact (step x List.mem_cons_self).bind fun _ => ih fun x found => step x (List.mem_cons_of_mem _ found)

theorem repeatedly {inv : S → W → Prop} {action : PartEffect S W ε Unit}
    (step : Ensures inv action (fun _ => inv) failed) (times : Nat) :
    Ensures inv (FrameGraph.repeatedly action times) (fun _ => inv) failed := by
  induction times with
  | zero => exact ofPure fun _ _ holds => holds
  | succ times ih => exact step.bind fun _ => ih

end Ensures

end PartEffect

end FrameGraph
