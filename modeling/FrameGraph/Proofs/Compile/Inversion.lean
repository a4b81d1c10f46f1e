import FrameGraph.Compile.Leaves
import FrameGraph.Proofs.Compile.Growth

/-! # How kernels and draws compile

Compiling a kernel or a draw is a fixed sequence of steps. When it succeeds, all of them have, and their results
are at hand: the located entry points, the plan, the names, the bound arguments and the text.
-/

namespace FrameGraph

/-- The state with one more text in a unit. -/
def CompileState.withText (state : CompileState) (unit : Nat) (text : LeafText) : CompileState :=
  { state with units := state.units.modify unit fun u => { u with leaves := u.leaves ++ [text] } }

theorem CompileState.texts_withText {state : CompileState} {unit : Nat} (inside : unit < state.units.length)
    (text : LeafText) (other : Nat) :
    (state.withText unit text).texts other = state.texts other ++ if other = unit then [text] else [] := by
  by_cases same : other = unit
  · subst same
    simp [texts, withText, List.getElem?_eq_getElem inside]
  · simp [texts, withText, Ne.symm same, same]

namespace Compile

open CompileState (Grows)

variable {state after : CompileState} {table : ResourceTable} {caps : DeviceCaps} {unit : Nat}

theorem ofExcept_ok {α : Type} {result : Except CompileError α} {value : α}
    (run : (ofExcept result).run state = .ok (value, after)) : result = .ok value ∧ state = after := by
  cases result with
  | ok _ =>
    obtain ⟨rfl, rfl⟩ := pure_ok run
    exact ⟨rfl, rfl⟩
  | error _ => exact (fail_ok run).elim

/-- A line of the log that is only sometimes written changes nothing. -/
theorem logged_ok {β : Type} {c : Prop} [Decidable c] {level : LogLevel} {source : LogSource} {text : String}
    {next : Compile β} {b : β}
    (run : (if c then (do log level source text; next) else next).run state = .ok (b, after)) :
    ∃ middle, Grows state middle ∧ middle.usage = state.usage ∧ middle.blocks = state.blocks ∧
      middle.units = state.units ∧ next.run middle = .ok (b, after) := by
  split at run
  · obtain ⟨_, middle, logged, run⟩ := bind_ok run
    refine ⟨middle, log_ok logged, ?_, ?_, ?_, run⟩
    all_goals rw [modify_ok logged]
  · exact ⟨state, .refl state, rfl, rfl, rfl, run⟩

/-- An edit that is made gives the whole new text. -/
theorem patched_ok {job : EntryJob} {patch : Patch} {code : String}
    (run : (patched job patch).run state = .ok (code, after)) : code = job.entry.apply patch ∧ state = after := by
  unfold patched at run
  split at run
  · rename_i edited
    obtain ⟨rfl, rfl⟩ := pure_ok run
    unfold EntryPoint.edit? at edited
    split at edited
    · cases edited
    · cases edited
      exact ⟨rfl, rfl⟩
  · exact (fail_ok run).elim

/-- The text that is added for a leaf. -/
def leafText (label : String) (bindings : LeafBindings) (entries : List (String × String)) : LeafText :=
  ⟨label, entries.map fun (entry, code) => ⟨entry, bindings.declarations entry, code⟩⟩

/-- The patch of an entry point before its arguments are bound. -/
def namePatch (job : EntryJob) (entry : String) (attr : Option String) : Patch :=
  { Patch.empty with attr, newName := if entry != job.name then some entry else none }

/-- The patch of a kernel once its arguments and its grid are bound. -/
def kernelPatch (job : EntryJob) (entry : String) (plan : GridPlan) (scan : ArgumentScan) : Patch :=
  kernelPrologue job entry plan (job.bindBuiltins (if plan.boundsCheck then ["gid"] else []) scan.patch)

/-- The steps in which a kernel was compiled. -/
structure KernelRun (table : ResourceTable) (caps : DeviceCaps) (unit : Nat) (node : Dispatch)
    (before : CompileState) where
  job : EntryJob
  /-- The plan before the kernel's own workgroup size is put in. -/
  resolved : GridPlan
  planned : GridPlan
  attr : Option String
  entry : String
  pool : IndexPool
  scan : ArgumentScan
  named : CompileState
  noted : CompileState
  bound : CompileState
  located : EntryJob.locate node.source .compute node.function node.arguments = .ok job
  resolves : GridPlan.resolve job.name node.fits node.scale node.arguments table caps = .ok resolved
  fixes : fixWorkgroup job resolved = .ok (planned, attr)
  names : (giveEntry unit job.name).run before = .ok (entry, named)
  notes : Grows named noted
  unused : noted.usage = named.usage
  unblocked : noted.blocks = named.blocks
  unaltered : noted.units = named.units
  reserves : IndexPool.reserve job.name job.arguments = .ok pool
  binds : (bindArguments table unit job entry ⟨pool, {}, namePatch job entry attr⟩).run noted = .ok (scan, bound)

namespace KernelRun

variable {node : Dispatch} (made : KernelRun table caps unit node state)

/-- The plan, the bindings and the patch with the grid's extent. -/
def granted : GridPlan × ArgumentScan := bindGrid made.job made.entry made.planned made.scan

def compiled : CompiledDispatch :=
  ⟨unit, made.entry, made.granted.2.bindings.groups, made.granted.2.bindings.bytes, made.granted.1⟩

def code : String := made.job.entry.apply (kernelPatch made.job made.entry made.granted.1 made.granted.2)

def text : LeafText := leafText node.label made.granted.2.bindings [(made.entry, made.code)]

end KernelRun

theorem dispatch_run {node : Dispatch} {compiled : CompiledDispatch}
    (run : (dispatch table caps unit node).run state = .ok (compiled, after)) :
    ∃ made : KernelRun table caps unit node state,
      compiled = made.compiled ∧ after = made.bound.withText unit made.text := by
  unfold dispatch at run
  obtain ⟨job, _, ran, run⟩ := bind_ok run
  obtain ⟨located, rfl⟩ := ofExcept_ok ran
  dsimp only at run
  split at run
  case h_2 => exact (fail_ok run).elim
  rename_i resolved resolves
  obtain ⟨⟨planned, attr⟩, _, ran, run⟩ := bind_ok (pure_bind_ok run)
  obtain ⟨fixes, rfl⟩ := ofExcept_ok ran
  obtain ⟨entry, named, names, run⟩ := bind_ok run
  obtain ⟨noted, notes, unused, unblocked, unaltered, run⟩ := logged_ok run
  obtain ⟨pool, _, ran, run⟩ := bind_ok run
  obtain ⟨reserves, rfl⟩ := ofExcept_ok ran
  obtain ⟨scan, bound, binds, run⟩ := bind_ok run
  obtain ⟨_, _, edited, run⟩ := bind_ok run
  obtain ⟨rfl, rfl⟩ := patched_ok edited
  obtain ⟨_, added, told, run⟩ := bind_ok run
  obtain ⟨rfl, rfl⟩ := pure_ok run
  refine ⟨{
    job, resolved, planned, attr, entry, pool, scan, named, noted, bound
    located, resolves, fixes, names, notes, unused, unblocked, unaltered, reserves, binds }, rfl, modify_ok told⟩

/-- The steps in which one of the entry points of a draw was bound and patched. -/
structure EntryRun (table : ResourceTable) (unit : Nat) (job : EntryJob) (pool : IndexPool)
    (bindings : LeafBindings) (before : CompileState) where
  entry : String
  scan : ArgumentScan
  named : CompileState
  after : CompileState
  names : (giveEntry unit job.name).run before = .ok (entry, named)
  binds : (bindArguments table unit job entry ⟨pool, bindings, namePatch job entry none⟩).run named =
    .ok (scan, after)

def EntryRun.code {job : EntryJob} {pool : IndexPool} {bindings : LeafBindings}
    (made : EntryRun table unit job pool bindings state) : String :=
  job.entry.apply (job.bindBuiltins [] made.scan.patch)

theorem drawEntry_run {job : EntryJob} {pool more : IndexPool} {bindings all : LeafBindings} {entry code : String}
    (run : (drawEntry table unit job pool bindings).run state = .ok ((entry, code, more, all), after)) :
    ∃ made : EntryRun table unit job pool bindings state,
      (entry, code, more, all, after) = (made.entry, made.code, made.scan.pool, made.scan.bindings, made.after) := by
  obtain ⟨given, named, names, run⟩ := bind_ok run
  obtain ⟨scan, bound, binds, run⟩ := bind_ok run
  obtain ⟨_, _, edited, run⟩ := bind_ok run
  obtain ⟨rfl, rfl⟩ := patched_ok edited
  obtain ⟨⟨⟩, rfl⟩ := pure_ok run
  exact ⟨{ entry, scan, named, after := bound, names, binds }, rfl⟩

/-- The steps in which a draw was compiled. -/
structure DrawRun (table : ResourceTable) (unit : Nat) (node : Draw) (before : CompileState) where
  vertex : EntryJob
  fragment : EntryJob
  pool : IndexPool
  used : CompileState
  vertexLocated : EntryJob.locate node.source .vertex node.vertex node.vertexArguments = .ok vertex
  fragmentLocated : EntryJob.locate node.source .fragment node.fragment node.fragmentArguments = .ok fragment
  reserves : IndexPool.reserve node.label (node.vertexArguments ++ node.fragmentArguments) = .ok pool
  first : EntryRun table unit vertex pool {} before
  second : EntryRun table unit fragment first.scan.pool first.scan.bindings first.after
  uses : (drawResources table node).run second.after = .ok ((), used)

namespace DrawRun

variable {node : Draw} (made : DrawRun table unit node state)

def compiled : CompiledDraw :=
  ⟨unit, made.first.entry, made.second.entry, made.second.scan.bindings.groups, made.second.scan.bindings.bytes⟩

def text : LeafText :=
  leafText node.label made.second.scan.bindings
    [(made.first.entry, made.first.code), (made.second.entry, made.second.code)]

end DrawRun

theorem draw_run {node : Draw} {compiled : CompiledDraw}
    (run : (draw table unit node).run state = .ok (compiled, after)) :
    ∃ made : DrawRun table unit node state, compiled = made.compiled ∧ after = made.used.withText unit made.text := by
  unfold draw at run
  dsimp only at run
  split at run
  case isTrue => exact (fail_ok (bind_ok run).choose_spec.choose_spec.1).elim
  obtain ⟨vertex, _, ran, run⟩ := bind_ok run
  obtain ⟨vertexLocated, rfl⟩ := ofExcept_ok ran
  obtain ⟨fragment, _, ran, run⟩ := bind_ok run
  obtain ⟨fragmentLocated, rfl⟩ := ofExcept_ok ran
  obtain ⟨pool, _, ran, run⟩ := bind_ok run
  obtain ⟨reserves, rfl⟩ := ofExcept_ok ran
  obtain ⟨⟨vertexEntry, vertexCode, between, vertexBindings⟩, vertexed, one, run⟩ := bind_ok run
  obtain ⟨⟨fragmentEntry, fragmentCode, last, bindings⟩, fragmented, two, run⟩ := bind_ok run
  obtain ⟨_, used, uses, run⟩ := bind_ok run
  obtain ⟨_, added, told, run⟩ := bind_ok run
  obtain ⟨rfl, rfl⟩ := pure_ok run
  obtain ⟨first, ⟨⟩⟩ := drawEntry_run one
  obtain ⟨second, ⟨⟩⟩ := drawEntry_run two
  exact ⟨{
    vertex, fragment, pool, used, vertexLocated, fragmentLocated, reserves, first, second, uses }, rfl, modify_ok told⟩

end Compile

end FrameGraph
