import FrameGraph.Proofs.Compile.Emitted
import FrameGraph.Proofs.Compile.Numbers
import FrameGraph.Proofs.Compile.Records
import Mathlib.Order.Bounds.Basic

/-! # Numbers of the arguments of a leaf

The buffers and bytes of a leaf are numbered in one space and its textures in another, those of a draw's vertex stage
before those of its fragment stage. A pinned argument keeps its number; every other one gets the least number that is
neither pinned nor given out before. The extent of a kernel's grid comes behind the highest number of a buffer.
-/

namespace FrameGraph

variable {table : ResourceTable} {caps : DeviceCaps} {state after : CompileState} {space : IndexSpace}

namespace IndexPool

/-- The pool once arguments of one space have their numbers. -/
def afterAll (space : IndexSpace) (pool : IndexPool) (indices : List (Option Nat)) : IndexPool :=
  indices.foldl (fun pool index => (pool.assign index space).2) pool

theorem used_assign_congr {pool other : IndexPool} (same : pool.used space = other.used space) (index : Option Nat) :
    (pool.assign index space).1 = (other.assign index space).1 ∧
      (pool.assign index space).2.used space = (other.assign index space).2.used space := by
  cases index with
  | some pin => exact ⟨rfl, same⟩
  | none => simp [assign, used_claim, same]

/-- The other space is left alone. -/
theorem used_assign_of_ne (pool : IndexPool) {other : IndexSpace} (apart : space ≠ other) (index : Option Nat) :
    (pool.assign index space).2.used other = pool.used other := by
  cases index with
  | some pin => rfl
  | none => exact used_claim_of_ne pool apart _

/-- Numbers depend on nothing but the numbers of their space that are in use. -/
theorem numbers_congr {pool other : IndexPool} (same : pool.used space = other.used space)
    (indices : List (Option Nat)) :
    numbers space pool indices = numbers space other indices ∧
      (afterAll space pool indices).used space = (afterAll space other indices).used space := by
  induction indices generalizing pool other with
  | nil => exact ⟨rfl, same⟩
  | cons index rest ih =>
    obtain ⟨number, used⟩ := used_assign_congr same index
    obtain ⟨numbers, later⟩ := ih used
    exact ⟨by rw [IndexPool.numbers, IndexPool.numbers, number, numbers], later⟩

theorem numbers_append (pool : IndexPool) (first second : List (Option Nat)) :
    numbers space pool (first ++ second) = numbers space pool first ++ numbers space (afterAll space pool first) second := by
  induction first generalizing pool with
  | nil => rfl
  | cons index rest ih => simp [numbers, ih, afterAll]

theorem afterAll_append (pool : IndexPool) (first second : List (Option Nat)) :
    afterAll space pool (first ++ second) = afterAll space (afterAll space pool first) second :=
  List.foldl_append

/-- A number is in use then if it was before or an argument without a pin has got it. -/
theorem mem_used_afterAll (pool : IndexPool) (indices : List (Option Nat)) (n : Nat) :
    n ∈ (afterAll space pool indices).used space ↔
      n ∈ pool.used space ∨ (none, n) ∈ indices.zip (numbers space pool indices) := by
  induction indices generalizing pool with
  | nil => simp [afterAll, numbers]
  | cons index rest ih =>
    have later := ih (pool.assign index space).2
    rw [numbers, List.zip_cons_cons, List.mem_cons]
    refine later.trans ?_
    cases index with
    | some pin => simp [assign]
    | none =>
      rw [assign, used_claim, List.mem_cons, Prod.mk.injEq]
      tauto

/-- The numbers are the pins and those that are given out. -/
theorem mem_numbers (pool : IndexPool) (indices : List (Option Nat)) (n : Nat) :
    n ∈ numbers space pool indices ↔ some n ∈ indices ∨ (none, n) ∈ indices.zip (numbers space pool indices) := by
  have pinned : ∀ entry ∈ indices.zip (numbers space pool indices), ∀ pin ∈ entry.1, entry.2 = pin :=
    numbers_pinned pool indices
  have firsts : (indices.zip (numbers space pool indices)).map Prod.fst = indices :=
    List.map_fst_zip (by rw [numbers_length])
  have seconds : (indices.zip (numbers space pool indices)).map Prod.snd = numbers space pool indices :=
    List.map_snd_zip (by rw [numbers_length])
  constructor
  · intro found
    rw [← seconds] at found
    obtain ⟨⟨index, number⟩, listed, rfl⟩ := List.mem_map.mp found
    cases index with
    | none => exact .inr listed
    | some pin =>
      obtain rfl : number = pin := pinned _ listed pin rfl
      exact .inl (List.of_mem_zip listed).1
  · rintro (found | listed)
    · rw [← firsts] at found
      obtain ⟨⟨_, number⟩, listed, rfl⟩ := List.mem_map.mp found
      obtain rfl : number = n := pinned _ listed n rfl
      exact (List.of_mem_zip listed).2
    · exact (List.of_mem_zip listed).2

/-- An argument without a pin gets the least number that is neither in use nor given out before. -/
theorem numbers_least (pool : IndexPool) {indices : List (Option Nat)} {before later : List (Option Nat × Nat)} {n : Nat}
    (listed : indices.zip (numbers space pool indices) = before ++ (none, n) :: later) :
    IsLeast {k | k ∉ pool.used space ∧ (none, k) ∉ before} n := by
  induction indices generalizing pool before with
  | nil => simp [numbers] at listed
  | cons index rest ih =>
    rw [numbers, List.zip_cons_cons] at listed
    cases before with
    | nil =>
      obtain ⟨⟨rfl, rfl⟩, -⟩ := by simpa using listed
      obtain ⟨-, free, taken⟩ := leastFree_spec (pool.used space) 0
      refine ⟨⟨free, List.not_mem_nil⟩, fun k open_ => ?_⟩
      by_contra below
      exact open_.1 (taken k (Nat.zero_le k) (Nat.lt_of_not_le below))
    | cons first others =>
      rw [List.cons_append, List.cons_eq_cons] at listed
      obtain ⟨rfl, listed⟩ := listed
      have least := ih (pool.assign index space).2 listed
      convert least using 3 with k
      cases index with
      | some pin => simp [assign]
      | none =>
        simp only [assign, used_claim, List.mem_cons, Prod.mk.injEq, true_and]
        tauto

/-- Without pins the numbers are the first ones. -/
theorem numbers_range (pool : IndexPool) {first : Nat} (used : ∀ n, n ∈ pool.used space ↔ n < first)
    {indices : List (Option Nat)} (free : ∀ index ∈ indices, index = none) :
    numbers space pool indices = List.range' first indices.length := by
  induction indices generalizing pool first with
  | nil => rfl
  | cons index rest ih =>
    rw [List.forall_mem_cons] at free
    obtain ⟨rfl, free⟩ := free
    obtain ⟨-, unused, taken⟩ := leastFree_spec (pool.used space) 0
    have least : leastFree (pool.used space) 0 = first := by
      have above := mt (used _).mpr unused
      have below := fun inside => (used first).mp (taken first (Nat.zero_le _) inside)
      omega
    have next : ∀ n, n ∈ (pool.assign none space).2.used space ↔ n < first + 1 := by
      intro n
      rw [assign, used_claim, List.mem_cons, used, least]
      omega
    rw [numbers, ih (pool.assign none space).2 next free, assign, List.length_cons, List.range'_succ, least]

/-- Arguments whose pins are claimed and different get different numbers. -/
theorem numbers_nodup (pool : IndexPool) {indices : List (Option Nat)}
    (claimed : ∀ n, n ∈ pool.used space ↔ some n ∈ indices) (nodup : (indices.filterMap id).Nodup) :
    (numbers space pool indices).Nodup := by
  rw [(numbers_perm pool indices).nodup_iff]
  refine nodup.append (nextFree_nodup _ _) fun n pinned given => ?_
  obtain ⟨index, found, rfl⟩ := List.mem_filterMap.mp pinned
  exact ((mem_nextFree _ _ _).mp given).1 ((claimed n).mpr found)

end IndexPool

open IndexPool (numbers afterAll pins)

/-- The space that the bindings of a kind are numbered in. -/
def BindingKind.indexSpace : BindingKind → IndexSpace
  | .uniform | .storage _ => .buffers
  | .texture .. | .storageTexture .. => .textures

/-- What is no variable of a buffer is numbered as a texture. -/
theorem BindingKind.indexSpace_of_handle {kind : BindingKind} (handle : kind.var = .handle) :
    kind.indexSpace = .textures := by
  cases kind with
  | uniform => cases handle
  | storage readOnly => cases readOnly <;> cases handle
  | texture | storageTexture => rfl

/-- An argument of one of the entry points of a leaf. -/
structure EntryArgument where
  entry : String
  argument : Argument

namespace EntryArgument

/-- The name of its variable. -/
def variableName (own : EntryArgument) : String := Naming.global own.entry own.argument.name

/-- The number that it is pinned to. -/
def index (own : EntryArgument) : Option Nat := own.argument.index

end EntryArgument

/-- The arguments of an entry point that are numbered in a space. -/
def LeafFunction.numbered (space : IndexSpace) (function : LeafFunction) : List EntryArgument :=
  (function.arguments.filter fun argument => argument.kind.space? = some space).map (⟨function.entry, ·⟩)

/-- The arguments of a leaf that are numbered in a space, in the order in which they are bound. -/
def Leaf.numbered (space : IndexSpace) (node : Leaf) (compiled : CompiledLeaf) : List EntryArgument :=
  (node.functions compiled).flatMap (·.numbered space)

/-- The bindings of a bind group that are numbered in a space; a shared group has numbers of its own. -/
def GroupBinding.numbered (space : IndexSpace) : GroupBinding → List BindingSpec
  | .own group => group.filter (·.entry.kind.indexSpace = space)
  | .shared _ => []

/-- The bindings of a leaf that are numbered in a space. -/
def CompiledLeaf.numbered (space : IndexSpace) (compiled : CompiledLeaf) : List BindingSpec :=
  compiled.groups.flatMap (·.numbered space)

/-- A binding under its number. -/
def BindingSpec.place (binding : BindingSpec) : String × Nat := (binding.name, binding.entry.binding)

namespace LeafBindings

/-- The variables of a leaf that are numbered in a space. -/
def inSpace (bindings : LeafBindings) : IndexSpace → List EntryVariable
  | .buffers => bindings.buffers
  | .textures => bindings.textures

/-- The variables of each space are of kinds that are numbered in it. -/
def Spaced (bindings : LeafBindings) : Prop :=
  ∀ space, ∀ v ∈ bindings.inSpace space, v.bound.spec.entry.kind.indexSpace = space

/-- The bind groups of a leaf's own hold the bindings of its variables. -/
theorem Spaced.numbered_perm {bindings : LeafBindings} (spaced : bindings.Spaced) (space : IndexSpace) :
    (bindings.groups.flatMap (·.numbered space)).Perm ((bindings.inSpace space).map (·.bound.spec)) := by
  have part (other : IndexSpace) : ((specs (bindings.inSpace other)).filter (·.entry.kind.indexSpace = space)).Perm
      (if other = space then (bindings.inSpace other).map (·.bound.spec) else []) := by
    refine ((GroupSpec.sorted_perm _).filter _).trans (.of_eq ?_)
    split
    · rename_i same
      rw [List.filter_eq_self, List.forall_mem_map]
      exact fun v found => decide_eq_true (same ▸ spaced other v found)
    · rename_i apart
      rw [List.filter_eq_nil_iff, List.forall_mem_map]
      intro v found
      simpa [spaced other v found] using apart
  have own : bindings.groups.flatMap (·.numbered space) = (specs (bindings.inSpace .buffers)).filter (·.entry.kind.indexSpace = space) ++
        (specs (bindings.inSpace .textures)).filter (·.entry.kind.indexSpace = space) := by
    rw [groups, List.flatMap_append, List.flatMap_map, List.flatMap_map, ownSpaces]
    cases first : bindings.buffers <;> cases second : bindings.textures <;>
      simp [inSpace, GroupBinding.numbered, first, second, specs, GroupSpec.sorted]
  rw [own]
  refine ((part .buffers).append (part .textures)).trans (.of_eq ?_)
  cases space <;> simp

end LeafBindings

/-- The arguments that are bound between two moments have got the numbers that were drawn for them. -/
structure ArgumentScan.Draws (before : ArgumentScan) (space : IndexSpace) (arguments : List EntryArgument)
    (after : ArgumentScan) : Prop where
  gained : ∃ added, after.bindings.inSpace space = before.bindings.inSpace space ++ added ∧
    added.map (·.bound.spec.place) =
      (arguments.map (·.variableName)).zip (numbers space before.pool (arguments.map (·.index))) ∧
    ∀ v ∈ added, v.bound.spec.entry.kind.indexSpace = space ∧ v.bound.spec.source ≠ .gridExtent
  used_eq : after.pool.used space = (afterAll space before.pool (arguments.map (·.index))).used space

namespace ArgumentScan.Draws

variable {before between last : ArgumentScan} {first second : List EntryArgument}

/-- Nothing is bound in the space. -/
theorem none (gained : last.bindings.inSpace space = before.bindings.inSpace space)
    (used : last.pool.used space = before.pool.used space) : before.Draws space [] last :=
  ⟨⟨[], by rw [gained, List.append_nil], rfl, List.forall_mem_nil _⟩, used⟩

/-- Arguments are bound one after the other, also those of two entry points. -/
theorem trans (one : before.Draws space first between) {patch : Patch}
    (two : Draws ⟨between.pool, between.bindings, patch⟩ space second last) :
    before.Draws space (first ++ second) last := by
  obtain ⟨⟨added, gained, places, plain⟩, used⟩ := one
  obtain ⟨⟨more, gained', places', plain'⟩, used'⟩ := two
  obtain ⟨same, later⟩ := IndexPool.numbers_congr used (second.map (·.index))
  refine ⟨⟨added ++ more, ?_, ?_, List.forall_mem_append.mpr ⟨plain, plain'⟩⟩, ?_⟩
  · rw [gained', gained, List.append_assoc]
  · rw [List.map_append, places, places', List.map_append, List.map_append, IndexPool.numbers_append, same,
      List.zip_append]
    rw [IndexPool.numbers_length, List.length_map, List.length_map]
  · rw [used', List.map_append, IndexPool.afterAll_append, later]

end ArgumentScan.Draws

namespace Compile

variable {unit : Nat} {job : EntryJob} {entry : String} {scan result : ArgumentScan}

/-- A binding has the number that it is given, in the space of its argument. -/
theorem bindPlain_number {function : String} {argument : Argument} {binding : Nat} {stage : Stage}
    {bytes more : List BytesSlot} {bound : BoundVariable}
    (run : (bindPlain table unit function argument binding stage bytes).run state = .ok ((bound, more), after)) :
    bound.spec.entry.binding = binding ∧ argument.kind.space? = some bound.spec.entry.kind.indexSpace := by
  unfold bindPlain at run
  dsimp only at run
  split at run
  · rename_i handle space kind
    obtain ⟨decl, middle, declared, run⟩ := bind_ok run
    obtain ⟨element, middle, -, run⟩ := spelled_ok run
    split at run
    all_goals
      obtain ⟨_, _, used, run⟩ := bind_ok run
      obtain ⟨⟨⟩, rfl⟩ := pure_ok run
      rw [kind]
      exact ⟨rfl, rfl⟩
  · rename_i source kind
    obtain ⟨element, middle, -, run⟩ := spelled_ok run
    obtain ⟨⟨⟩, rfl⟩ := pure_ok run
    rw [kind]
    exact ⟨rfl, rfl⟩
  · rename_i handle access kind
    obtain ⟨texture, middle, chosen, run⟩ := bind_ok run
    obtain ⟨-, var⟩ := textureBinding_ok chosen
    obtain ⟨_, _, used, run⟩ := bind_ok run
    obtain ⟨⟨⟩, rfl⟩ := pure_ok run
    rw [kind]
    exact ⟨rfl, congrArg some (BindingKind.indexSpace_of_handle var).symm⟩
  · exact (fail_ok run).elim

theorem bindArgument_draws {argument : Argument}
    (run : (bindArgument table unit job entry scan argument).run state = .ok (result, after)) (space : IndexSpace) :
    scan.Draws space (LeafFunction.numbered space ⟨entry, [argument]⟩) result := by
  unfold bindArgument at run
  dsimp only at run
  split at run
  · rename_i name members kind
    obtain ⟨⟨place, seen⟩, middle, bound, run⟩ := bind_ok run
    obtain ⟨rfl, rfl⟩ := pure_ok run
    have unnumbered : LeafFunction.numbered space ⟨entry, [argument]⟩ = [] := by
      simp [LeafFunction.numbered, kind, ArgumentKind.space?]
    have kept (bound : List BoundVariable) (scan : ArgumentScan) :
        (bound.foldl (shareMember entry place) scan).pool = scan.pool := by
      induction bound generalizing scan with
      | nil => rfl
      | cons member rest ih => exact ih _
    rw [unnumbered]
    refine .none ?_ (congrArg (·.used space) (kept ..))
    rw [shareMember_foldl]
    cases space <;> rfl
  · obtain ⟨⟨bound, bytes⟩, middle, made, run⟩ := bind_ok run
    obtain ⟨rfl, rfl⟩ := pure_ok run
    obtain ⟨number, spaced⟩ := bindPlain_number made
    obtain ⟨-, plain⟩ := bindPlain_ok made
    rw [spaced, Option.getD_some] at number ⊢
    by_cases here : bound.spec.entry.kind.indexSpace = space
    · have numbered : LeafFunction.numbered space ⟨entry, [argument]⟩ = [⟨entry, argument⟩] := by
        simp [LeafFunction.numbered, spaced, here]
      rw [numbered]
      let named : BoundVariable := { bound with spec := { bound.spec with name := Naming.global entry argument.name } }
      refine ⟨⟨[⟨entry, named⟩], ?_, ?_, List.forall_mem_singleton.mpr ⟨here, plain.source_ne⟩⟩, ?_⟩
      · subst here
        cases bound.spec.entry.kind.indexSpace <;> rfl
      · rw [here] at number
        exact congrArg (fun n => [(Naming.global entry argument.name, n)]) number
      · rw [here]
        rfl
    · have unnumbered : LeafFunction.numbered space ⟨entry, [argument]⟩ = [] := by
        simp [LeafFunction.numbered, spaced, here]
      rw [unnumbered]
      refine .none ?_ (IndexPool.used_assign_of_ne scan.pool here argument.index)
      cases is : bound.spec.entry.kind.indexSpace <;> cases space <;>
        first | rfl | exact absurd is here

/-- The arguments of an entry point get the numbers that are drawn for them. -/
theorem bindArguments_draws (run : (bindArguments table unit job entry scan).run state = .ok (result, after))
    (space : IndexSpace) : scan.Draws space (LeafFunction.numbered space ⟨entry, job.arguments⟩) result := by
  unfold bindArguments at run
  generalize job.arguments = rest at run ⊢
  induction rest generalizing scan state with
  | nil =>
    obtain ⟨rfl, rfl⟩ := pure_ok run
    exact .none rfl rfl
  | cons argument rest ih =>
    rw [List.foldlM_cons] at run
    obtain ⟨next, middle, bound, run⟩ := bind_ok run
    have all := (bindArgument_draws bound space).trans (ih run)
    rwa [LeafFunction.numbered, LeafFunction.numbered, ← List.map_append, ← List.filter_append] at all

/-- The extent of the grid is one more buffer, if anything. -/
theorem bindGrid_buffers (job : EntryJob) (entry : String) (plan : GridPlan) (scan : ArgumentScan) :
    ∃ grid, (grid = [] ∨ grid = [gridVariable entry plan.dims (scan.pool.trailing .buffers).1]) ∧
      (bindGrid job entry plan scan).2.bindings =
        { scan.bindings with buffers := scan.bindings.buffers ++ grid } := by
  unfold bindGrid
  dsimp only
  split
  · exact ⟨[], .inl rfl, by rw [List.append_nil]⟩
  · split
    · exact ⟨_, .inr rfl, rfl⟩
    · exact ⟨[], .inl rfl, by rw [List.append_nil]⟩

end Compile

/-- How the arguments of a leaf are numbered in a space. -/
structure Leaf.Numbered (space : IndexSpace) (node : Leaf) (compiled : CompiledLeaf) (numbers : List Nat) : Prop where
  length_eq : numbers.length = (node.numbered space compiled).length
  /-- The leaf binds the variables of its arguments under their numbers, and nothing else but the grid's extent. -/
  bindings : (((compiled.numbered space).filter (·.source ≠ .gridExtent)).map (·.place)).Perm
    (((node.numbered space compiled).map (·.variableName)).zip numbers)
  nodup : numbers.Nodup
  pinned : ∀ own ∈ (node.numbered space compiled).zip numbers, ∀ pin ∈ own.1.index, own.2 = pin
  least : ∀ before own later, (node.numbered space compiled).zip numbers = before ++ own :: later →
    own.1.index = none → IsLeast {n | n ∉ pins space node.arguments ∧
      ∀ earlier ∈ before, earlier.1.index = none → earlier.2 ≠ n} own.2
  unpinned : (∀ own ∈ node.numbered space compiled, own.index = none) →
    numbers = List.range (node.numbered space compiled).length

/-- The extent of a grid is bound once at most, behind the highest number of a buffer. -/
structure CompiledLeaf.GridLast (compiled : CompiledLeaf) : Prop where
  once : ((compiled.numbered .buffers).filter (·.source = .gridExtent)).length ≤ 1
  first : ∀ grid ∈ compiled.numbered .buffers, grid.source = .gridExtent →
    (∀ other ∈ compiled.numbered .buffers, other.source = .gridExtent) → grid.entry.binding = 0
  next : ∀ grid ∈ compiled.numbered .buffers, grid.source = .gridExtent →
    ∀ highest, IsGreatest {n | ∃ other ∈ compiled.numbered .buffers,
      other.source ≠ .gridExtent ∧ other.entry.binding = n} highest →
      highest < UInt32.size - 1 → grid.entry.binding = highest + 1

/-- The arguments of a leaf that are numbered in a space are those of its entry points. -/
theorem Leaf.numbered_arguments {node : Leaf} {compiled : CompiledLeaf} {unit : Nat}
    (becomes : node.BecomesIn unit compiled) (space : IndexSpace) : (node.numbered space compiled).map (·.argument) =
      node.arguments.filter fun argument => argument.kind.space? = some space := by
  cases node <;> cases compiled <;>
    simp_all [Leaf.BecomesIn, Leaf.numbered, Leaf.functions, LeafFunction.numbered, Leaf.arguments, Function.comp_def]

/-- A leaf whose own arguments were bound one after the other, with the extent of its grid behind them. -/
structure Leaf.Drawn (node : Leaf) (compiled : CompiledLeaf) (pool : IndexPool) (scan : ArgumentScan) : Prop where
  reserves : ∃ owner, IndexPool.reserve owner node.arguments = .ok pool
  arguments_eq : ∀ space, (node.numbered space compiled).map (·.argument) =
    node.arguments.filter fun argument => argument.kind.space? = some space
  draws : ∃ patch, ∀ space, ArgumentScan.Draws ⟨pool, {}, patch⟩ space (node.numbered space compiled) scan
  groups : ∃ grid, (grid = [] ∨ ∃ entry dims, grid = [Compile.gridVariable entry dims (scan.pool.trailing .buffers).1]) ∧
    compiled.groups = LeafBindings.groups { scan.bindings with buffers := scan.bindings.buffers ++ grid }

namespace Leaf.Drawn

variable {node : Leaf} {compiled : CompiledLeaf} {pool : IndexPool} {scan : ArgumentScan}

/-- The pins of a space are claimed before anything is bound, and they are different. -/
theorem claimed (drawn : node.Drawn compiled pool scan) (space : IndexSpace) :
    ((node.numbered space compiled).map (·.index)).filterMap id = pins space node.arguments ∧
      (pins space node.arguments).Nodup ∧ ∀ n, n ∈ pool.used space ↔ n ∈ pins space node.arguments := by
  obtain ⟨owner, reserves⟩ := drawn.reserves
  obtain ⟨used, nodup⟩ := IndexPool.reserve_ok reserves space
  refine ⟨?_, nodup, fun n => used.mem_iff⟩
  rw [pins, ← drawn.arguments_eq, List.filterMap_map, List.filterMap_map]
  rfl

/-- What is bound of the arguments: variables under the numbers that are drawn. -/
theorem inSpace (drawn : node.Drawn compiled pool scan) (space : IndexSpace) :
    (scan.bindings.inSpace space).map (·.bound.spec.place) = ((node.numbered space compiled).map (·.variableName)).zip
      (numbers space pool ((node.numbered space compiled).map (·.index))) ∧
    ∀ v ∈ scan.bindings.inSpace space, v.bound.spec.entry.kind.indexSpace = space ∧ v.bound.spec.source ≠ .gridExtent := by
  obtain ⟨patch, draws⟩ := drawn.draws
  obtain ⟨added, gained, places, plain⟩ := (draws space).gained
  have none : LeafBindings.inSpace {} space = [] := by cases space <;> rfl
  rw [gained, none, List.nil_append]
  exact ⟨places, plain⟩

/-- The bindings of the leaf are those of its arguments and, among the buffers, the extent of the grid. -/
theorem numbered_perm (drawn : node.Drawn compiled pool scan) :
    ∃ grid : List BindingSpec, grid.length ≤ 1 ∧
      (∀ binding ∈ grid, binding.source = .gridExtent ∧ binding.entry.binding = (scan.pool.trailing .buffers).1) ∧
      ∀ space, (compiled.numbered space).Perm
        ((scan.bindings.inSpace space).map (·.bound.spec) ++ if space = .buffers then grid else []) := by
  obtain ⟨grid, which, groups⟩ := drawn.groups
  have gridLike : grid.length ≤ 1 ∧ ∀ v ∈ grid, v.bound.spec.entry.kind.indexSpace = .buffers ∧
      v.bound.spec.source = .gridExtent ∧ v.bound.spec.entry.binding = (scan.pool.trailing .buffers).1 := by
    obtain rfl | ⟨entry, dims, rfl⟩ := which
    · exact ⟨Nat.zero_le 1, List.forall_mem_nil _⟩
    · exact ⟨Nat.le_refl 1, List.forall_mem_singleton.mpr ⟨rfl, rfl, rfl⟩⟩
  obtain ⟨few, gridLike⟩ := gridLike
  let all : LeafBindings := { scan.bindings with buffers := scan.bindings.buffers ++ grid }
  have inSpace_eq (space : IndexSpace) :
      all.inSpace space = scan.bindings.inSpace space ++ if space = .buffers then grid else [] := by
    cases space <;> simp [all, LeafBindings.inSpace]
  have spaced : all.Spaced := by
    intro space v found
    rw [inSpace_eq, List.mem_append] at found
    obtain own | extent := found
    · exact ((drawn.inSpace space).2 v own).1
    · split at extent
      · rename_i buffers
        exact buffers ▸ (gridLike v extent).1
      · cases extent
  refine ⟨grid.map (·.bound.spec), by rwa [List.length_map],
    List.forall_mem_map.mpr fun v found => (gridLike v found).2, fun space => ?_⟩
  rw [CompiledLeaf.numbered, groups]
  refine (spaced.numbered_perm space).trans (.of_eq ?_)
  rw [inSpace_eq, List.map_append]
  split <;> rfl

/-- Without the extent of the grid, the bindings of the leaf are those of its arguments. -/
theorem plain_perm (drawn : node.Drawn compiled pool scan) (space : IndexSpace) :
    ((compiled.numbered space).filter (·.source ≠ .gridExtent)).Perm
      ((scan.bindings.inSpace space).map (·.bound.spec)) := by
  obtain ⟨grid, -, extent, perm⟩ := drawn.numbered_perm
  refine ((perm space).filter _).trans (.of_eq ?_)
  have own : ((scan.bindings.inSpace space).map (·.bound.spec)).filter (·.source ≠ .gridExtent) =
      (scan.bindings.inSpace space).map (·.bound.spec) := by
    rw [List.filter_eq_self, List.forall_mem_map]
    exact fun v found => decide_eq_true ((drawn.inSpace space).2 v found).2
  have none : (if space = .buffers then grid else []).filter (·.source ≠ .gridExtent) = [] := by
    rw [List.filter_eq_nil_iff]
    split
    · intro binding found
      simp [(extent binding found).1]
    · exact List.forall_mem_nil _
  rw [List.filter_append, own, none, List.append_nil]

/-- The numbers of the arguments are those that are drawn for them. -/
theorem numbers_ok (drawn : node.Drawn compiled pool scan) (space : IndexSpace) :
    node.Numbered space compiled (numbers space pool ((node.numbered space compiled).map (·.index))) := by
  obtain ⟨pinned, distinct, used⟩ := drawn.claimed space
  have claimed : ∀ n, n ∈ pool.used space ↔ some n ∈ (node.numbered space compiled).map (·.index) := by
    intro n
    rw [used, ← pinned]
    simp
  let indexed (own : EntryArgument × Nat) : Option Nat × Nat := (own.1.index, own.2)
  have zipped : ((node.numbered space compiled).map (·.index)).zip
      (numbers space pool ((node.numbered space compiled).map (·.index))) =
        ((node.numbered space compiled).zip (numbers space pool ((node.numbered space compiled).map (·.index)))).map
          indexed := List.zip_map_left
  refine {
    length_eq := by rw [IndexPool.numbers_length, List.length_map]
    bindings := ?_
    nodup := IndexPool.numbers_nodup pool claimed (pinned ▸ distinct)
    pinned := fun own found => ?_
    least := fun before own later listed free => ?_
    unpinned := fun free => ?_ }
  · refine ((drawn.plain_perm space).map _).trans (.of_eq ?_)
    rw [List.map_map, ← (drawn.inSpace space).1]
    rfl
  · exact IndexPool.numbers_pinned pool _ (indexed own) (zipped ▸ List.mem_map_of_mem found)
  · rw [listed, List.map_append, List.map_cons, show indexed own = (none, own.2) by rw [← free]] at zipped
    convert IndexPool.numbers_least pool zipped using 3 with n
    rw [used, List.mem_map, not_exists]
    refine and_congr_right fun _ => forall_congr' fun earlier => ?_
    simp only [indexed, Prod.mk.injEq]
    tauto
  · have unclaimed : ∀ n, n ∈ pool.used space ↔ n < 0 := by
      intro n
      refine (claimed n).trans (iff_of_false (fun found => ?_) (Nat.not_lt_zero n))
      obtain ⟨own, has, index⟩ := List.mem_map.mp found
      cases (free own has).symm.trans index
    rw [IndexPool.numbers_range pool unclaimed (List.forall_mem_map.mpr free), List.length_map, List.range_eq_range']

/-- The numbers of the buffers that are in use before the extent of the grid is bound. -/
theorem mem_used (drawn : node.Drawn compiled pool scan) (space : IndexSpace) (n : Nat) :
    n ∈ scan.pool.used space ↔
      ∃ binding ∈ compiled.numbered space, binding.source ≠ .gridExtent ∧ binding.entry.binding = n := by
  obtain ⟨pinned, -, used⟩ := drawn.claimed space
  obtain ⟨patch, draws⟩ := drawn.draws
  have claimed : n ∈ pool.used space ↔ some n ∈ (node.numbered space compiled).map (·.index) := by
    rw [used, ← pinned]
    simp
  have listed := drawn.numbers_ok space
  have seconds := listed.bindings.map Prod.snd
  rw [List.map_map, List.map_snd_zip (by rw [listed.length_eq, List.length_map])] at seconds
  rw [(draws space).used_eq, IndexPool.mem_used_afterAll, claimed, ← IndexPool.mem_numbers, ← seconds.mem_iff]
  simp [BindingSpec.place, and_assoc]

theorem gridLast (drawn : node.Drawn compiled pool scan) : compiled.GridLast := by
  obtain ⟨grid, few, extent, perm⟩ := drawn.numbered_perm
  have number : ∀ binding ∈ compiled.numbered .buffers, binding.source = .gridExtent →
      binding.entry.binding = (scan.pool.trailing .buffers).1 := by
    intro binding found reads
    obtain own | found := List.mem_append.mp ((perm .buffers).mem_iff.mp found)
    · obtain ⟨v, has, rfl⟩ := List.mem_map.mp own
      exact absurd reads ((drawn.inSpace .buffers).2 v has).2
    · exact (extent binding found).2
  refine ⟨?_, fun binding found reads alone => ?_, fun binding found reads highest greatest below => ?_⟩
  · have none : ((scan.bindings.inSpace .buffers).map (·.bound.spec)).filter (·.source = .gridExtent) = [] := by
      rw [List.filter_eq_nil_iff, List.forall_mem_map]
      intro v found
      simpa using ((drawn.inSpace .buffers).2 v found).2
    rw [((perm .buffers).filter _).length_eq, List.filter_append, none, List.nil_append]
    exact (List.length_filter_le _ grid).trans few
  · have unused : scan.pool.used .buffers = [] := by
      refine List.eq_nil_iff_forall_not_mem.mpr fun n found => ?_
      obtain ⟨other, has, own, -⟩ := (drawn.mem_used .buffers n).mp found
      exact own (alone other has)
    rw [number binding found reads, IndexPool.trailing, unused]
    rfl
  · have last : (scan.pool.used .buffers).max? = some highest := by
      rw [List.max?_eq_some_iff]
      exact ⟨(drawn.mem_used .buffers _).mpr greatest.1, fun n has => greatest.2 ((drawn.mem_used .buffers n).mp has)⟩
    rw [number binding found reads, IndexPool.trailing, last]
    exact Nat.mod_eq_of_lt (by omega)

end Leaf.Drawn

namespace Compile

variable {unit : Nat}

theorem KernelRun.drawn {node : Dispatch} (made : KernelRun table caps unit node state) :
    (Leaf.dispatch node).Drawn (.dispatch made.compiled) made.pool made.scan where
  reserves := ⟨made.job.name, by rw [Leaf.arguments, ← (locate_ok made.located).1]; exact made.reserves⟩
  arguments_eq := Leaf.numbered_arguments (show Leaf.BecomesIn unit _ _ from rfl)
  draws := by
    refine ⟨namePatch made.job made.entry made.attr, fun space => ?_⟩
    have draws := bindArguments_draws made.binds space
    rw [(locate_ok made.located).1] at draws
    simpa [Leaf.numbered, Leaf.functions, KernelRun.compiled] using draws
  groups := by
    obtain ⟨grid, which, bindings⟩ := bindGrid_buffers made.job made.entry made.planned made.scan
    exact ⟨grid, which.imp_right fun is => ⟨_, _, is⟩, congrArg LeafBindings.groups bindings⟩

theorem DrawRun.drawn {node : Draw} (made : DrawRun table unit node state) :
    (Leaf.draw node).Drawn (.draw made.compiled) made.pool made.second.scan where
  reserves := ⟨node.label, made.reserves⟩
  arguments_eq := Leaf.numbered_arguments (show Leaf.BecomesIn unit _ _ from rfl)
  draws := by
    refine ⟨namePatch made.vertex made.first.entry none, fun space => ?_⟩
    have draws := (bindArguments_draws made.first.binds space).trans (bindArguments_draws made.second.binds space)
    rw [(locate_ok made.vertexLocated).1, (locate_ok made.fragmentLocated).1] at draws
    simpa [Leaf.numbered, Leaf.functions, DrawRun.compiled] using draws
  groups := ⟨[], .inl rfl, by rw [List.append_nil]; rfl⟩

end Compile

/-- A leaf without text has no arguments. -/
theorem Leaf.Drawn.ofHost {node : Leaf} {unit : Nat} (becomes : node.BecomesIn unit .host) :
    node.Drawn .host {} ⟨{}, {}, .empty⟩ := by
  cases node with
  | dispatch _ | draw _ => exact becomes.elim
  | blit _ | filter _ | callback _ =>
    exact ⟨⟨"", rfl⟩, fun _ => rfl, ⟨.empty, fun _ => .none rfl rfl⟩, [], .inl rfl, rfl⟩

/-- Every leaf of a compiled program has drawn numbers for its arguments. -/
theorem Program.leaf_drawn {source : Program} {program : CompiledProgram} {log : List LogLine}
    (compiled : source.compile table caps = .ok (program, log)) {leaf : FlatLeaf × CompiledLeaf}
    (listed : leaf ∈ source.compiledLeaves program) : ∃ pool scan, leaf.1.node.Drawn leaf.2 pool scan := by
  cases has : leaf.2.unit? with
  | none =>
    obtain ⟨becomes, -⟩ := (source.compile_ok compiled).becomes leaf listed
    obtain ⟨flat, leaf⟩ := leaf
    cases leaf with
    | dispatch _ | draw _ => cases has
    | host => exact ⟨_, _, .ofHost becomes⟩
  | some unit =>
    obtain ⟨-, -, text, -, last, before, after, -, -, run, -⟩ := source.leaf_emitted compiled listed has
    obtain ⟨flat, leaf⟩ := leaf
    dsimp only at run ⊢
    generalize flat.node = node at run
    cases run with
    | kernel made => exact ⟨_, _, made.drawn⟩
    | draw made => exact ⟨_, _, made.drawn⟩

/-- The arguments of every leaf that compiles have their pinned numbers and else the least free ones, with the extent
of a kernel's grid behind them; and nothing compiles that pins two arguments of a leaf to one number. -/
theorem Program.leaves_numbered (source : Program) (table : ResourceTable) (caps : DeviceCaps) :
    (∀ program log, source.compile table caps = .ok (program, log) → ∀ leaf ∈ source.compiledLeaves program,
      (∀ space, ∃ numbers, leaf.1.node.Numbered space leaf.2 numbers) ∧ leaf.2.GridLast) ∧
    ∀ flat ∈ (Flattened.ofProgram source).leaves, ∀ space, ¬(pins space flat.node.arguments).Nodup →
      ∃ error, source.compile table caps = .error error := by
  constructor
  · intro program log compiled leaf listed
    obtain ⟨pool, scan, drawn⟩ := source.leaf_drawn compiled listed
    exact ⟨fun space => ⟨_, drawn.numbers_ok space⟩, drawn.gridLast⟩
  · intro flat listed space twice
    cases compiled : source.compile table caps with
    | error error => exact ⟨error, rfl⟩
    | ok result =>
      obtain ⟨program, log⟩ := result
      have length := (source.compile_ok compiled).length_eq
      obtain ⟨place, inside, rfl⟩ := List.mem_iff_getElem.mp listed
      have also : place < program.leaves.length := length ▸ inside
      have paired : ((Flattened.ofProgram source).leaves[place], program.leaves[place]) ∈
          source.compiledLeaves program := List.mem_iff_getElem.mpr ⟨place, by simpa [Program.compiledLeaves, length], by
            simp [Program.compiledLeaves]⟩
      obtain ⟨pool, scan, drawn⟩ := source.leaf_drawn compiled paired
      exact absurd (drawn.claimed space).2.1 twice

/-- A draw of which both entry points take buffers, some of them with pins. -/
def pinnedDraw (pin : Nat) : Program where
  library := ""
  root := [.leaf (.draw {
    label := "vs"
    source := "@vertex fn vs() \x7b a; b; \x7d @fragment fn fs() \x7b c; d; \x7d"
    vertex := "vs"
    fragment := "fs"
    vertexArguments := [⟨"a", none, none, .buffer ⟨0⟩ .uniform⟩, ⟨"b", some 0, none, .buffer ⟨0⟩ .uniform⟩]
    fragmentArguments := [⟨"c", some pin, none, .buffer ⟨0⟩ .uniform⟩, ⟨"d", none, none, .buffer ⟨0⟩ .uniform⟩]
    targets := [⟨.surface, .load, .replace⟩] })]

/-- With different pins the draw compiles, and the other buffers get the free numbers; with equal pins it does not. -/
theorem Program.leaves_numbered_drawn :
    (∃ program log leaf,
      (pinnedDraw 2).compile { buffers := [⟨"x", .scalar .u32, 4, .fixed 4⟩] } {} = .ok (program, log) ∧
      leaf ∈ (pinnedDraw 2).compiledLeaves program ∧
      (leaf.2.numbered .buffers).map (·.place) = [("vs__b", 0), ("vs__a", 1), ("fs__c", 2), ("fs__d", 3)] ∧
      (∀ space, ∃ numbers, leaf.1.node.Numbered space leaf.2 numbers) ∧ leaf.2.GridLast) ∧
    ∃ error, (pinnedDraw 0).compile { buffers := [⟨"x", .scalar .u32, 4, .fixed 4⟩] } {} = .error error := by
  constructor
  · have run : ((pinnedDraw 2).compile { buffers := [⟨"x", .scalar .u32, 4, .fixed 4⟩] } {}).toOption.map (fun result =>
        ((pinnedDraw 2).compiledLeaves result.1).map fun leaf => (leaf.2.numbered .buffers).map (·.place)) =
        some [[("vs__b", 0), ("vs__a", 1), ("fs__c", 2), ("fs__d", 3)]] := by decide +kernel
    obtain ⟨⟨program, log⟩, read, leaves⟩ := Option.map_eq_some_iff.mp run
    have compiled := ok_of_toOption read
    obtain ⟨leaf, leaves, places⟩ := List.map_eq_singleton_iff.mp leaves
    have listed : leaf ∈ (pinnedDraw 2).compiledLeaves program := leaves ▸ .head _
    exact ⟨program, log, leaf, compiled, listed, places,
      ((pinnedDraw 2).leaves_numbered _ _).1 program log compiled leaf listed⟩
  · exact ((pinnedDraw 0).leaves_numbered _ _).2 _ (.head _) .buffers (by decide)

end FrameGraph
