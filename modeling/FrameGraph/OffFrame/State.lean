import FrameGraph.Shared

/-! # The handshake of an off-frame group

A group that runs off the frame is started with parameters. Runs that arrive while a dispatch is in
flight are merged into one pending parameter set, which is dispatched next. A finished result stays
complete until the frame side has seen it and says that it is ready for more.

* idle, on a run: dispatching;
* dispatching, on a finished dispatch: dispatching again if parameters are pending, else complete, or
  idle if it failed;
* complete, when a frame observes it: awaiting consumption;
* complete or awaiting consumption, on ready: dispatching if parameters are pending, else idle.
-/

namespace FrameGraph

/-- Parameters of runs; the newer of two sets wins where both say something. -/
class Parameters (P : Type) where
  merge : (older newer : P) → P

instance : Parameters Unit := ⟨fun _ _ => ()⟩

/-- Put the entries of a newer map over those of an older one. -/
def mergeEntries {K V : Type} [DecidableEq K] (older newer : List (K × V)) : List (K × V) :=
  newer.foldl (fun merged entry => Shared.assign entry.1 entry.2 merged) older

instance {K V : Type} [DecidableEq K] : Parameters (List (K × V)) := ⟨mergeEntries⟩

/-- Named numbers; a name occurs once. -/
abbrev NamedParameters := List (String × Int)

namespace OffFrame

/-- What a caller asks of a coordinator. -/
inductive Request where
  | run (params : NamedParameters)
  | ready
deriving DecidableEq, Repr

inductive State (P : Type) where
  | idle
  | dispatching (running : P) (pending : Option P)
  /-- The result is ready and no frame has seen it yet. -/
  | complete (finished : P) (pending : Option P)
  /-- A frame has seen the result and owes a ready. -/
  | awaitingConsumption (finished : P) (pending : Option P)
deriving DecidableEq, Repr

/-- What has to be done after a transition. -/
inductive Action (P : Type) where
  | none
  | dispatch (params : P)
  | complete (params : P)
deriving DecidableEq, Repr

namespace State

variable {P : Type}

def isBusy : State P → Bool
  | idle => false
  | _ => true

def isDispatching : State P → Bool
  | dispatching .. => true
  | _ => false

def isComplete : State P → Bool
  | complete .. | awaitingConsumption .. => true
  | _ => false

/-- Parameters that wait for the next dispatch. -/
def pending? : State P → Option P
  | idle => none
  | dispatching _ pending | complete _ pending | awaitingConsumption _ pending => pending

/-- Pending parameters after one more run. -/
def addPending [Parameters P] (pending : Option P) (params : P) : Option P :=
  some (match pending with
    | none => params
    | some older => Parameters.merge older params)

/-- A caller runs the group. -/
def run [Parameters P] (params : P) : State P → State P × Action P
  | idle => (dispatching params none, .dispatch params)
  | dispatching running pending => (dispatching running (addPending pending params), .none)
  | complete finished pending => (complete finished (addPending pending params), .none)
  | awaitingConsumption finished pending =>
    (awaitingConsumption finished (addPending pending params), .none)

/-- The dispatch in flight has finished. -/
def finish (succeeded : Bool) : State P → State P × Action P
  | dispatching _ (some next) => (dispatching next none, .dispatch next)
  | dispatching running none =>
    if succeeded then (complete running none, .complete running) else (idle, .none)
  | state => (state, .none)

/-- A frame looks at the group; the second part tells whether the state changed. -/
def observe : State P → State P × Bool
  | complete finished pending => (awaitingConsumption finished pending, true)
  | state => (state, false)

/-- The caller is ready for the next result. -/
def ready : State P → State P × Action P
  | complete _ (some next) | awaitingConsumption _ (some next) => (dispatching next none, .dispatch next)
  | complete _ none | awaitingConsumption _ none => (idle, .none)
  | state => (state, .none)

end State

end OffFrame

end FrameGraph
