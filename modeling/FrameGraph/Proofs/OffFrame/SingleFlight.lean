import FrameGraph.Proofs.OffFrame.Threads
import Mathlib.Algebra.BigOperators.Group.Multiset.Defs
import Mathlib.Algebra.Group.Nat.Defs

/-! # One job at a time

Between a transition and the job that it asks for, and between the receipt of a job and its end, other threads take their
steps. Whatever they do, each dispatch of the state is in exactly one of these places, and who has seen the group settle
has seen the worker wait for jobs.
-/

namespace FrameGraph.OffFrame

variable {P : Type}

namespace Phase

/-- Whether the thread has the lock. -/
def holds : Phase P → Nat
  | .inside _ _ | .looking | .settled => 1
  | .idle | .acting _ => 0

/-- Whether the thread has changed the state and not yet set the flags. -/
def stale : Phase P → Nat
  | .inside sets _ => sets.toNat
  | .idle | .acting _ | .looking | .settled => 0

/-- Jobs that the thread has decided on and not yet sent. -/
def unsent : Phase P → Nat
  | .inside _ action | .acting action => action.dispatched?.toList.length
  | .idle | .looking | .settled => 0

theorem stale_le (phase : Phase P) : phase.stale ≤ phase.holds := by
  cases phase with
  | inside sets action => exact Bool.toNat_le sets
  | _ => exact Nat.zero_le _

end Phase

/-- A count over threads. -/
def total (count : Phase P → Nat) (phases : Multiset (Phase P)) : Nat := (phases.map count).sum

@[simp] theorem total_cons (count : Phase P → Nat) (phase : Phase P) (phases : Multiset (Phase P)) :
    total count (phase ::ₘ phases) = count phase + total count phases := by
  simp [total]

theorem total_stale_le (phases : Multiset (Phase P)) : total Phase.stale phases ≤ total Phase.holds phases := by
  induction phases using Multiset.induction_on with
  | empty => exact Nat.le_refl _
  | cons phase others ih =>
    rw [total_cons, total_cons]
    exact Nat.add_le_add phase.stale_le ih

theorem one_le_total {phases : Multiset (Phase P)} (found : .settled ∈ phases) : 1 ≤ total Phase.holds phases := by
  obtain ⟨others, rfl⟩ := Multiset.exists_cons_of_mem found
  rw [total_cons]
  exact Nat.le_add_right 1 _

namespace Worker

/-- The call that the worker is in. -/
def phase : Worker P → Phase P
  | .dispatching _ phase | .finishing phase | .calling _ phase => phase
  | .receiving | .received _ | .holding _ | .exited => .idle

/-- Whether the worker has a job whose end is still to be reported. -/
def taken : Worker P → Nat
  | .received _ | .holding _ | .dispatching _ _ => 1
  | .receiving | .finishing _ | .calling _ _ | .exited => 0

def executes : Worker P → Bool
  | .dispatching _ _ | .finishing _ | .calling _ _ => true
  | .receiving | .received _ | .holding _ | .exited => false

end Worker

/-- The flags show the state. -/
structure Hub.Shows (hub : Hub P) : Prop where
  busy : hub.busy = hub.state.isBusy
  complete : hub.complete = hub.state.isComplete

/-- At most one of the threads has the lock, and the others find what it leaves. -/
structure Hub.Guarded (hub : Hub P) (phases : Multiset (Phase P)) : Prop where
  holders : total Phase.holds phases = hub.locked.toNat
  shows : total Phase.stale phases = 0 → hub.Shows
  settled : .settled ∈ phases → hub.isSettled

variable {hub after : Hub P} {phase next : Phase P} {others : Multiset (Phase P)} {taken : Nat}

namespace Hub.Guarded

/-- While the lock is free, the flags show the state. -/
theorem shows_of_free (guarded : hub.Guarded others) (free : hub.locked = false) : hub.Shows := by
  apply guarded.shows
  have none := guarded.holders
  have fresh := total_stale_le others
  rw [free] at none
  simp only [Bool.toNat_false] at none
  omega

/-- While a thread has the lock, no other has it. -/
theorem others_hold (guarded : hub.Guarded (phase ::ₘ others)) (held : phase.holds = 1) :
    total Phase.holds others = 0 := by
  have one := guarded.holders
  have bound := Bool.toNat_le hub.locked
  rw [total_cons] at one
  omega

theorem others_free (guarded : hub.Guarded (phase ::ₘ others)) (free : hub.locked = false) :
    total Phase.holds others = 0 := by
  have none := guarded.holders
  rw [free, total_cons] at none
  simp only [Bool.toNat_false] at none
  omega

/-- What holds of a hub whose lock only this thread may have. -/
theorem alone (free : total Phase.holds others = 0) (holders : phase.holds = hub.locked.toNat)
    (shows : phase.stale = 0 → hub.Shows) (settled : phase = .settled → hub.isSettled) :
    hub.Guarded (phase ::ₘ others) where
  holders := by rw [total_cons, free, holders]; rfl
  shows none := by
    rw [total_cons] at none
    exact shows (by omega)
  settled found := by
    obtain here | there := Multiset.mem_cons.mp found
    · exact settled here.symm
    · have held := one_le_total there
      omega

/-- The flags show the state to the thread that has the lock, unless it has changed the state. -/
theorem shows_of_held (guarded : hub.Guarded (phase ::ₘ others)) (held : phase.holds = 1) (fresh : phase.stale = 0) :
    hub.Shows := by
  apply guarded.shows
  have others_fresh := total_stale_le others
  rw [guarded.others_hold held] at others_fresh
  rw [total_cons]
  omega

/-- The only thread that may have the lock takes it or gives it back. -/
theorem relock {locked : Bool} (shows : hub.Shows) (free : total Phase.holds others = 0)
    (holders : next.holds = locked.toNat) (silent : next ≠ .settled) :
    Hub.Guarded { hub with locked } (next ::ₘ others) := by
  apply alone free holders
  · exact fun _ => ⟨shows.busy, shows.complete⟩
  · exact fun settled => absurd settled silent

/-- A thread without the lock goes on without it. -/
theorem go_on (guarded : hub.Guarded (phase ::ₘ others)) (free : phase.holds = 0)
    (free' : next.holds = 0) (locked : after.locked = hub.locked) (shows : hub.Shows → after.Shows)
    (settled : hub.isSettled → after.isSettled) : after.Guarded (next ::ₘ others) where
  holders := by
    have holders := guarded.holders
    rw [total_cons, free] at holders
    rw [total_cons, free', locked, holders]
  shows none := by
    apply shows
    apply guarded.shows
    have fresh := phase.stale_le
    rw [total_cons] at none ⊢
    omega
  settled found := by
    apply settled
    obtain rfl | there := Multiset.mem_cons.mp found
    · cases free'
    · exact guarded.settled (Multiset.mem_cons_of_mem there)

end Hub.Guarded

/-- Each dispatch of the state is in one place: not sent, not received, or not finished; `taken` counts the last. -/
def Hub.Counted (hub : Hub P) (phases : Multiset (Phase P)) (taken : Nat) : Prop :=
  total Phase.unsent phases + hub.queue.length + taken = hub.state.isDispatching.toNat

theorem Hub.Counted.go_on (counted : hub.Counted (phase ::ₘ others) taken) (unsent : next.unsent = phase.unsent)
    (state : after.state = hub.state) (queue : after.queue = hub.queue) : after.Counted (next ::ₘ others) taken := by
  unfold Hub.Counted at counted ⊢
  rwa [total_cons, unsent, state, queue, ← total_cons]

/-- A thread outside counts nothing. -/
theorem Hub.counted_idle : hub.Counted (.idle ::ₘ others) taken ↔ hub.Counted others taken := by
  rw [Counted, total_cons, Phase.unsent, Nat.zero_add, Counted]

theorem Hub.guarded_idle : hub.Guarded (.idle ::ₘ others) ↔ hub.Guarded others := by
  have member : Phase.settled ∈ .idle ::ₘ others ↔ Phase.settled ∈ others := by simp
  have holds : total Phase.holds (.idle ::ₘ others) = total Phase.holds others := by
    rw [total_cons, Phase.holds, Nat.zero_add]
  have stale : total Phase.stale (.idle ::ₘ others) = total Phase.stale others := by
    rw [total_cons, Phase.stale, Nat.zero_add]
  constructor
  · rintro ⟨holders, shows, settled⟩
    exact ⟨holds ▸ holders, stale ▸ shows, fun found => settled (member.mpr found)⟩
  · rintro ⟨holders, shows, settled⟩
    exact ⟨holds.trans holders, fun none => shows (stale ▸ none), fun found => settled (member.mp found)⟩

namespace Threads

/-- What every state of the threads has. -/
structure Sound (threads : Threads P) : Prop where
  guarded : threads.hub.Guarded (threads.worker.phase ::ₘ threads.callers)
  executing : threads.hub.executing = threads.worker.executes
  counted : threads.worker ≠ .exited →
    threads.hub.Counted (threads.worker.phase ::ₘ threads.callers) threads.worker.taken
  gone : threads.worker = .exited → threads.callers = 0

variable {threads later : Threads P}

theorem sound_start : (start : Threads P).Sound where
  guarded := ⟨rfl, fun _ => ⟨rfl, rfl⟩, by simp [start, Worker.phase]⟩
  executing := rfl
  counted _ := rfl
  gone := nofun

/-- Nothing is under way: no job is to be sent or received, and the worker waits for one. -/
structure Quiet (threads : Threads P) : Prop where
  unsent : total Phase.unsent (threads.worker.phase ::ₘ threads.callers) = 0
  queue : threads.hub.queue = []
  worker : threads.worker = .receiving

/-- Waiting ends just when nothing is under way. -/
theorem Sound.isSettled_iff (sound : threads.Sound) (alive : threads.callers ≠ 0) :
    threads.hub.isSettled ↔ threads.Quiet := by
  have counted := sound.counted fun exited => alive (sound.gone exited)
  rw [Hub.Counted] at counted
  rw [Hub.isSettled, sound.executing, Bool.and_eq_true, Bool.not_eq_true', Bool.not_eq_true']
  constructor
  · rintro ⟨resting, still⟩
    rw [still, Bool.toNat_false] at counted
    refine ⟨by omega, List.length_eq_zero_iff.mp (by omega), ?_⟩
    have untaken : threads.worker.taken = 0 := by omega
    have going := sound.gone
    cases worker : threads.worker with
    | receiving => rfl
    | exited => exact absurd (going worker) alive
    | received | holding =>
      rw [worker] at untaken
      cases untaken
    | dispatching | finishing | calling =>
      rw [worker] at resting
      cases resting
  · rintro ⟨unsent, queue, worker⟩
    rw [unsent, queue, worker] at counted
    rw [worker]
    refine ⟨rfl, ?_⟩
    cases flying : threads.hub.state.isDispatching with
    | false => rfl
    | true =>
      rw [flying] at counted
      cases counted

end Threads

variable [Parameters P]

/-- An event after which the flags are not set has not changed the state. -/
theorem Hub.shows_enter {event : Event P} (shows : hub.Shows) (unset : (hub.entered event).stale = 0) :
    (hub.enter event).Shows := by
  cases event with
  | observed =>
    have unchanged : hub.state.observe.2 = false := Bool.toNat_eq_zero.mp unset
    have same : (hub.state.step .observed).1 = hub.state := State.observe_unchanged unchanged
    obtain ⟨busy, complete⟩ := shows
    constructor <;> rwa [enter, same]
  | _ => cases unset

namespace CallStep

/-- The lock goes from thread to thread, and the flags are set before it is given back. -/
theorem guarded (step : CallStep hub phase after next) (guarded : hub.Guarded (phase ::ₘ others)) :
    after.Guarded (next ::ₘ others) := by
  cases step with
  | enter event free asked =>
    apply Hub.Guarded.alone (guarded.others_free free) rfl
    · exact Hub.shows_enter (guarded.shows_of_free free)
    · exact nofun
  | @leave sets action =>
    apply Hub.Guarded.alone (guarded.others_hold rfl) rfl
    · intro _
      cases sets with
      | true => exact ⟨rfl, rfl⟩
      | false =>
        obtain ⟨busy, complete⟩ := guarded.shows_of_held rfl rfl
        exact ⟨busy, complete⟩
    · exact nofun
  | rest => exact guarded.go_on rfl rfl rfl id id
  | send => exact guarded.go_on rfl rfl rfl (fun shows => ⟨shows.busy, shows.complete⟩) id
  | look free => exact .relock (guarded.shows_of_free free) (guarded.others_free free) rfl nofun
  | miss unsettled => exact .relock (guarded.shows_of_held rfl rfl) (guarded.others_hold rfl) rfl nofun
  | see settled =>
    have holders := guarded.holders
    rw [total_cons, guarded.others_hold rfl] at holders
    apply Hub.Guarded.alone (guarded.others_hold rfl) holders
    · exact fun _ => guarded.shows_of_held rfl rfl
    · exact fun _ => settled
  | tell => exact .relock (guarded.shows_of_held rfl rfl) (guarded.others_hold rfl) rfl nofun

/-- A call does not change whether the worker is inside a job. -/
theorem executing_eq (step : CallStep hub phase after next) : after.executing = hub.executing := by
  cases step with
  | @leave sets action => cases sets <;> rfl
  | _ => rfl

end CallStep

/-- An event keeps the count; the end of a job gives up the job. -/
theorem Hub.Counted.enter {event : Event P}
    (counted : hub.Counted (.idle ::ₘ others) (event.isFinished.toNat + taken)) :
    (hub.enter event).Counted (hub.entered event ::ₘ others) taken := by
  unfold Hub.Counted at counted ⊢
  rw [total_cons, Phase.unsent] at counted
  rw [total_cons, Hub.entered, Phase.unsent, Hub.enter, State.step_isDispatching]
  dsimp only
  generalize total Phase.unsent others = unsent at counted ⊢
  cases sent : (hub.state.step event).2.dispatched? with
  | none =>
    have left : (hub.state.isDispatching && !event.isFinished).toNat =
        hub.state.isDispatching.toNat - event.isFinished.toNat := by
      cases hub.state.isDispatching <;> cases event.isFinished <;> rfl
    rw [Option.toList_none, List.length_nil, Option.isSome_none, Bool.false_or, left]
    omega
  | some params =>
    -- what is in flight while the state asks for the next dispatch is the job that ends
    have ends : hub.state.isDispatching.toNat ≤ event.isFinished.toNat := by
      cases ended : event.isFinished with
      | true => exact Bool.toNat_le _
      | false =>
        cases flying : hub.state.isDispatching with
        | false => exact Nat.le_refl _
        | true =>
          rw [State.step_dispatched?_of_isDispatching flying ended] at sent
          cases sent
    simp only [Option.toList_some, List.length_singleton, Option.isSome_some, Bool.true_or, Bool.toNat_true]
    omega

/-- A call adds a dispatch only when there is none. -/
theorem CallStep.counted (step : CallStep hub phase after next)
    (counted : hub.Counted (phase ::ₘ others) taken) : after.Counted (next ::ₘ others) taken := by
  cases step with
  | enter event free asked =>
    apply Hub.Counted.enter
    rwa [asked, Bool.toNat_false, Nat.zero_add]
  | @leave sets action => cases sets <;> exact counted.go_on rfl rfl rfl
  | send =>
    unfold Hub.Counted at counted ⊢
    rw [total_cons] at counted ⊢
    simp only [Phase.unsent, Action.dispatched?, Option.toList_some, List.length_singleton] at counted
    simp only [Phase.unsent, Hub.send, List.length_append, List.length_singleton]
    omega
  | rest | look | miss | see | tell => exact counted.go_on rfl rfl rfl

namespace Threads

variable {threads later : Threads P}

/-- A step of the worker. -/
theorem Sound.work {worker next : Worker P} {callers : Multiset (Phase P)}
    (step : WorkerStep (callers ≠ 0) hub worker after next) (sound : Sound ⟨hub, callers, worker⟩) :
    Sound ⟨after, callers, next⟩ := by
  obtain ⟨guarded, executing, counted, -⟩ := sound
  cases step with
  | @receive params rest queued =>
    refine ⟨guarded.go_on rfl rfl rfl (fun shows => ⟨shows.busy, shows.complete⟩) id, executing, fun _ => ?_, nofun⟩
    have count := counted nofun
    unfold Hub.Counted at count ⊢
    rw [queued] at count
    exact count
  | hold shared => exact ⟨guarded, executing, fun _ => counted nofun, nofun⟩
  | start free | stop free =>
    obtain ⟨busy, complete⟩ := guarded.shows_of_free free
    have alone := guarded.others_free free
    exact ⟨.alone alone (congrArg Bool.toNat free.symm) (fun _ => ⟨busy, complete⟩) nofun, rfl,
      fun _ => counted nofun, nofun⟩
  | dispatch call | hook call =>
    exact ⟨call.guarded guarded, call.executing_eq.trans executing, fun _ => call.counted (counted nofun), nofun⟩
  | finish succeeded free =>
    have shows := guarded.shows_of_free free
    refine ⟨.alone (guarded.others_free free) rfl (Hub.shows_enter shows) nofun, executing, fun _ => ?_, nofun⟩
    exact Hub.Counted.enter (counted nofun)
  | act going call =>
    exact ⟨call.guarded guarded, call.executing_eq.trans executing, fun _ => call.counted (counted nofun), nofun⟩
  | call | skip =>
    exact ⟨guarded.go_on rfl rfl rfl id id, executing, fun _ => (counted nofun).go_on rfl rfl rfl, nofun⟩
  | answer => exact ⟨guarded, executing, fun _ => counted nofun, nofun⟩
  | close empty gone => exact ⟨guarded, executing, nofun, fun _ => Classical.not_not.mp gone⟩
  | abandon gone => exact ⟨guarded, executing, nofun, fun _ => Classical.not_not.mp gone⟩

/-- Every step keeps what every state has. -/
theorem Sound.step (step : Step threads later) (sound : threads.Sound) : later.Sound := by
  cases step with
  | clone alive =>
    obtain ⟨guarded, executing, counted, gone⟩ := sound
    refine ⟨?_, executing, fun going => ?_, fun exited => absurd (gone exited) alive⟩
    · rw [Multiset.cons_swap, Hub.guarded_idle]
      exact guarded
    · rw [Multiset.cons_swap, Hub.counted_idle]
      exact counted going
  | drop =>
    obtain ⟨guarded, executing, counted, gone⟩ := sound
    rw [Multiset.cons_swap] at guarded counted
    refine ⟨Hub.guarded_idle.mp guarded, executing, fun going => Hub.counted_idle.mp (counted going), fun exited => ?_⟩
    cases Multiset.cons_ne_zero (gone exited)
  | call step =>
    obtain ⟨guarded, executing, counted, gone⟩ := sound
    rw [Multiset.cons_swap] at guarded counted
    refine ⟨?_, step.executing_eq.trans executing, fun going => ?_, fun exited => ?_⟩
    · rw [Multiset.cons_swap]
      exact step.guarded guarded
    · rw [Multiset.cons_swap]
      exact step.counted (counted going)
    · cases Multiset.cons_ne_zero (gone exited)
  | work step => exact sound.work step

theorem Reachable.sound (reached : threads.Reachable) : threads.Sound := by
  induction reached with
  | refl => exact sound_start
  | tail _ step ih => exact ih.step step

/-- What holds of the threads while there are handles. -/
structure SingleFlight (threads : Threads P) : Prop where
  /-- A dispatch is not yet sent, or not yet received, or not yet finished. -/
  flight : total Phase.unsent (threads.worker.phase ::ₘ threads.callers) + threads.hub.queue.length +
      threads.worker.taken =
    if threads.hub.state.isDispatching then 1 else 0
  /-- Waiting ends just when nothing is under way. -/
  settles : threads.hub.isSettled ↔ threads.Quiet
  /-- This is so until the thread that has seen it gives the lock back. -/
  settled : .settled ∈ threads.worker.phase ::ₘ threads.callers → threads.Quiet
  shows : threads.hub.locked = false →
    threads.hub.busy = threads.hub.state.isBusy ∧ threads.hub.complete = threads.hub.state.isComplete

/-- Whatever steps any number of callers and the worker take, there is one job at a time, and nobody sees the group
settled while something is under way. -/
theorem single_flight (reached : threads.Reachable) (alive : threads.callers ≠ 0) : threads.SingleFlight := by
  have sound := reached.sound
  have counted := sound.counted fun exited => alive (sound.gone exited)
  have settles := sound.isSettled_iff alive
  constructor
  · rw [counted]
    cases threads.hub.state.isDispatching <;> rfl
  · exact settles
  · exact fun found => settles.mp (sound.guarded.settled found)
  · intro free
    obtain ⟨busy, complete⟩ := sound.guarded.shows_of_free free
    exact ⟨busy, complete⟩

theorem Reachable.call {callers : Multiset (Phase P)} {worker : Worker P}
    (reached : Reachable ⟨hub, phase ::ₘ callers, worker⟩) (step : CallStep hub phase after next) :
    Reachable ⟨after, next ::ₘ callers, worker⟩ := reached.tail (.call step)

theorem Reachable.work {callers : Multiset (Phase P)} {worker next : Worker P}
    (reached : Reachable ⟨hub, callers, worker⟩) (step : WorkerStep (callers ≠ 0) hub worker after next) :
    Reachable ⟨after, callers, next⟩ := reached.tail (.work step)

/-- A completion hook takes its result and runs the group again: the next job is decided on and not yet sent while the
worker is still inside the hook of the last one. -/
theorem single_flight_chained : ∃ threads : Threads Unit, threads.Reachable ∧ threads.SingleFlight ∧
    threads.worker = .calling () (.inside true (.dispatch ())) ∧ threads.hub.queue = [] ∧
      threads.hub.state.isDispatching := by
  have alive : (.idle ::ₘ 0 : Multiset (Phase Unit)) ≠ 0 := Multiset.cons_ne_zero
  have new : (⟨{}, .idle ::ₘ 0, .receiving⟩ : Threads Unit).Reachable := .refl
  have sent : (⟨⟨.dispatching () none, false, false, true, false, [()]⟩, .idle ::ₘ 0, .receiving⟩ :
      Threads Unit).Reachable :=
    ((new.call (.enter (.run ()) rfl rfl)).call .leave).call .send
  have begun : (⟨⟨.dispatching () none, true, false, true, false, []⟩, .idle ::ₘ 0, .dispatching () .idle⟩ :
      Threads Unit).Reachable :=
    ((sent.work (.receive rfl)).work (.hold alive)).work (.start rfl)
  have ended : (⟨⟨.complete () none, true, false, true, true, []⟩, .idle ::ₘ 0, .calling () .idle⟩ :
      Threads Unit).Reachable :=
    ((begun.work (.finish true rfl)).work (.act nofun .leave)).work .call
  have taken : (⟨⟨.idle, true, false, false, false, []⟩, .idle ::ₘ 0, .calling () .idle⟩ : Threads Unit).Reachable :=
    ((ended.work (.hook (.enter .ready rfl rfl))).work (.hook .leave)).work (.hook .rest)
  have again := taken.work (.hook (.enter (.run ()) rfl rfl))
  exact ⟨_, again, single_flight again alive, rfl, rfl, rfl⟩

end Threads

end FrameGraph.OffFrame
