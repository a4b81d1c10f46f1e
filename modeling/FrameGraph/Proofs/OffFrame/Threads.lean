import FrameGraph.Proofs.OffFrame.Handshake
import Mathlib.Data.Multiset.ZeroCons
import Mathlib.Logic.Relation

/-! # Threads of an off-frame group

Any number of callers and one worker share the state of a group. A thread changes the state with the lock, and then sets
the flags that show it; only after it has given the lock back does it send the job or call the completion hook that the
change asks for. The job and the hook may call back, and take any time to return. Threads take their steps in any order.
-/

namespace FrameGraph.OffFrame

variable {P : Type}

/-- What all threads share. -/
structure Hub (P : Type) where
  state : State P := .idle
  /-- The worker is inside a job or its completion hook. -/
  executing : Bool := false
  /-- Some thread has the lock. -/
  locked : Bool := false
  busy : Bool := false
  complete : Bool := false
  /-- Jobs that were sent and not yet received. -/
  queue : List P := []

/-- What a thread is doing with the hub. -/
inductive Phase (P : Type) where
  | idle
  /-- With the lock, after a transition; `sets` tells whether the flags are still to be set. -/
  | inside (sets : Bool) (action : Action P)
  /-- Without the lock; the action of the transition is still to be carried out. -/
  | acting (action : Action P)
  /-- With the lock, to see whether everything has settled. -/
  | looking
  /-- With the lock, about to return that it has. -/
  | settled

/-- Where the worker is. -/
inductive Worker (P : Type) where
  | receiving
  | received (params : P)
  /-- With a share of the hub, which lives on without handles. -/
  | holding (params : P)
  /-- Inside a job; the phase is that of a call that the job makes. -/
  | dispatching (params : P) (phase : Phase P)
  /-- In the transition that ends a job. -/
  | finishing (phase : Phase P)
  /-- Inside the completion hook; the phase is that of a call that the hook makes. -/
  | calling (params : P) (phase : Phase P)
  | exited

/-- A hub with its threads. There is one caller for every handle that is alive, those that hooks hold included. -/
structure Threads (P : Type) where
  hub : Hub P := {}
  callers : Multiset (Phase P)
  worker : Worker P := .receiving

/-- A new group: nobody but its maker has a handle. -/
def Threads.start : Threads P := { callers := {.idle} }

/-- Whether the flags are set after an event: a frame that sees nothing new leaves them alone. -/
def Event.sets (state : State P) : Event P → Bool
  | .observed => state.observe.2
  | .run _ | .finished _ | .ready => true

/-- A frame that sees nothing new leaves the state alone. -/
theorem State.observe_unchanged {state : State P} (unchanged : state.observe.2 = false) : state.observe.1 = state := by
  cases state with
  | complete finished pending => cases unchanged
  | _ => rfl

namespace Hub

/-- What a thread that waits for the group looks for. -/
def isSettled (hub : Hub P) : Bool := !hub.executing && !hub.state.isDispatching

def unlock (hub : Hub P) : Hub P := { hub with locked := false }

/-- Set the flags to what the state is. -/
def mirror (hub : Hub P) : Hub P := { hub with busy := hub.state.isBusy, complete := hub.state.isComplete }

def send (hub : Hub P) (params : P) : Hub P := { hub with queue := hub.queue ++ [params] }

variable [Parameters P]

/-- Take the lock for an event. -/
def enter (hub : Hub P) (event : Event P) : Hub P := { hub with state := (hub.state.step event).1, locked := true }

/-- What is left to do then. -/
def entered (hub : Hub P) (event : Event P) : Phase P := .inside (event.sets hub.state) (hub.state.step event).2

end Hub

variable [Parameters P]

/-- A thread takes one step of a call: it runs the group, is ready, shows it a frame or waits for it to settle. -/
inductive CallStep : Hub P → Phase P → Hub P → Phase P → Prop where
  | enter {hub : Hub P} (event : Event P) (free : hub.locked = false) (asked : event.isFinished = false) :
    CallStep hub .idle (hub.enter event) (hub.entered event)
  | leave {hub : Hub P} {sets : Bool} {action : Action P} :
    CallStep hub (.inside sets action) (if sets then hub.mirror else hub).unlock (.acting action)
  | rest {hub : Hub P} : CallStep hub (.acting .none) hub .idle
  | send {hub : Hub P} {params : P} : CallStep hub (.acting (.dispatch params)) (hub.send params) .idle
  | look {hub : Hub P} (free : hub.locked = false) : CallStep hub .idle { hub with locked := true } .looking
  /-- It goes on waiting, or its time is over. -/
  | miss {hub : Hub P} (unsettled : hub.isSettled = false) : CallStep hub .looking hub.unlock .idle
  | see {hub : Hub P} (settled : hub.isSettled) : CallStep hub .looking hub .settled
  | tell {hub : Hub P} : CallStep hub .settled hub.unlock .idle

/-- The worker takes one step; `alive` tells whether there are handles. -/
inductive WorkerStep (alive : Prop) : Hub P → Worker P → Hub P → Worker P → Prop where
  | receive {hub : Hub P} {params : P} {rest : List P} (queued : hub.queue = params :: rest) :
    WorkerStep alive hub .receiving { hub with queue := rest } (.received params)
  | hold {hub : Hub P} {params : P} (shared : alive) : WorkerStep alive hub (.received params) hub (.holding params)
  | start {hub : Hub P} {params : P} (free : hub.locked = false) :
    WorkerStep alive hub (.holding params) { hub with executing := true } (.dispatching params .idle)
  | dispatch {hub after : Hub P} {params : P} {phase next : Phase P} (call : CallStep hub phase after next) :
    WorkerStep alive hub (.dispatching params phase) after (.dispatching params next)
  | finish {hub : Hub P} {params : P} (succeeded : Bool) (free : hub.locked = false) :
    WorkerStep alive hub (.dispatching params .idle) (hub.enter (.finished succeeded))
      (.finishing (hub.entered (.finished succeeded)))
  | act {hub after : Hub P} {phase next : Phase P} (going : phase ≠ .idle) (call : CallStep hub phase after next) :
    WorkerStep alive hub (.finishing phase) after (.finishing next)
  | call {hub : Hub P} {params : P} :
    WorkerStep alive hub (.finishing (.acting (.complete params))) hub (.calling params .idle)
  /-- There is no completion hook. -/
  | skip {hub : Hub P} {params : P} :
    WorkerStep alive hub (.finishing (.acting (.complete params))) hub (.finishing .idle)
  | hook {hub after : Hub P} {params : P} {phase next : Phase P} (call : CallStep hub phase after next) :
    WorkerStep alive hub (.calling params phase) after (.calling params next)
  | answer {hub : Hub P} {params : P} : WorkerStep alive hub (.calling params .idle) hub (.finishing .idle)
  | stop {hub : Hub P} (free : hub.locked = false) :
    WorkerStep alive hub (.finishing .idle) { hub with executing := false } .receiving
  | close {hub : Hub P} (empty : hub.queue = []) (gone : ¬alive) : WorkerStep alive hub .receiving hub .exited
  | abandon {hub : Hub P} {params : P} (gone : ¬alive) : WorkerStep alive hub (.received params) hub .exited

namespace Threads

/-- One thread takes a step; handles are cloned from others and dropped between calls. -/
inductive Step : Threads P → Threads P → Prop where
  | clone {hub : Hub P} {callers : Multiset (Phase P)} {worker : Worker P} (alive : callers ≠ 0) :
    Step ⟨hub, callers, worker⟩ ⟨hub, .idle ::ₘ callers, worker⟩
  | drop {hub : Hub P} {callers : Multiset (Phase P)} {worker : Worker P} :
    Step ⟨hub, .idle ::ₘ callers, worker⟩ ⟨hub, callers, worker⟩
  | call {hub after : Hub P} {phase next : Phase P} {callers : Multiset (Phase P)} {worker : Worker P}
    (step : CallStep hub phase after next) :
    Step ⟨hub, phase ::ₘ callers, worker⟩ ⟨after, next ::ₘ callers, worker⟩
  | work {hub after : Hub P} {callers : Multiset (Phase P)} {worker next : Worker P}
    (step : WorkerStep (callers ≠ 0) hub worker after next) : Step ⟨hub, callers, worker⟩ ⟨after, callers, next⟩

/-- A state that the threads of a new group can come to. -/
def Reachable (threads : Threads P) : Prop := Relation.ReflTransGen Step start threads

end Threads

end FrameGraph.OffFrame
