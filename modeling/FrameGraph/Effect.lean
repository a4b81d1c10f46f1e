/-! # Effects

An effect changes a state and gives a result or an error; what it changed before it failed stays
changed. A part effect changes a part together with the whole around it, where the part is kept apart
from the whole.
-/

namespace FrameGraph

/-- Changes a `W`, and may fail with an `ε`. -/
abbrev Effect (W ε : Type) := ExceptT ε (StateM W)

/-- Changes an `S` and the `W` around it, and may fail with an `ε`. -/
abbrev PartEffect (S W ε : Type) := ExceptT ε (StateT S (StateM W))

/-- Reads and writes the `V` inside a `W`. -/
structure Lens (W V : Type) where
  get : W → V
  set : V → W → W

variable {S T W V ε δ α : Type}

/-- Fail unless there is a value. -/
def need {m : Type → Type} [Monad m] [MonadExcept ε m] (error : ε) (value : Option α) : m α :=
  match value with
  | some found => pure found
  | none => throw error

/-- Do something a number of times, until it fails. -/
def repeatedly {m : Type → Type} [Monad m] (action : m Unit) : Nat → m Unit
  | 0 => pure ()
  | times + 1 => do
    action
    repeatedly action times

namespace Effect

def apply (effect : Effect W ε α) (whole : W) : Except ε α × W := effect.run.run whole

def ofFunction (step : W → Except ε α × W) : Effect W ε α := ExceptT.mk step

/-- The same effect on the `V` inside a `W`. -/
def inside (lens : Lens W V) (effect : Effect V ε α) : Effect W ε α :=
  ofFunction fun whole =>
    let (result, inner) := effect.apply (lens.get whole)
    (result, lens.set inner whole)

def mapError (f : ε → δ) (effect : Effect W ε α) : Effect W δ α :=
  ofFunction fun whole =>
    let (result, whole) := effect.apply whole
    (result.mapError f, whole)

end Effect

namespace PartEffect

def apply (effect : PartEffect S W ε α) (part : S) (whole : W) : (Except ε α × S) × W :=
  (effect.run.run part).run whole

def ofFunction (step : S → W → (Except ε α × S) × W) : PartEffect S W ε α := ExceptT.mk step

/-- An effect of the whole that leaves the part alone. -/
def around (effect : Effect W ε α) : PartEffect S W ε α :=
  ofFunction fun part whole =>
    let (result, whole) := effect.apply whole
    ((result, part), whole)

/-- The same effect on the `T` inside a part. -/
def inPart (lens : Lens S T) (effect : PartEffect T W ε α) : PartEffect S W ε α :=
  ofFunction fun part whole =>
    let ((result, inner), whole) := effect.apply (lens.get part) whole
    ((result, lens.set inner part), whole)

/-- The same effect with the `V` inside a whole around the part. -/
def inWhole (lens : Lens W V) (effect : PartEffect S V ε α) : PartEffect S W ε α :=
  ofFunction fun part whole =>
    let ((result, part), inner) := effect.apply part (lens.get whole)
    ((result, part), lens.set inner whole)

def mapError (f : ε → δ) (effect : PartEffect S W ε α) : PartEffect S W δ α :=
  ofFunction fun part whole =>
    let ((result, part), whole) := effect.apply part whole
    ((result.mapError f, part), whole)

/-- The same effect, with a failure as a result. -/
def attempt (effect : PartEffect S W ε α) : PartEffect S W δ (Except ε α) :=
  ofFunction fun part whole =>
    let ((result, part), whole) := effect.apply part whole
    ((.ok result, part), whole)

/-- An effect of the whole on a part that the whole holds. -/
def joined (lens : Lens W S) (effect : PartEffect S W ε α) : Effect W ε α :=
  Effect.ofFunction fun whole =>
    let ((result, part), whole) := effect.apply (lens.get whole) whole
    (result, lens.set part whole)

end PartEffect

end FrameGraph
