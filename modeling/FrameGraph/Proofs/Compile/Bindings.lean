import FrameGraph.Compile.Leaves
import FrameGraph.Proofs.Compile.Blocks

/-! # Bindings of a leaf

While the arguments of a leaf are bound, its bindings hold sane variables of its entry points, and the
members of every block that an entry point refers to, under the names of that entry point.
-/

namespace FrameGraph

/-- The name of the block that an argument refers to, with the names of its members. -/
def ArgumentKind.block? : ArgumentKind → Option (String × List String)
  | .block name members => some (name, members.map (·.name))
  | _ => none

/-- An entry point of a leaf, by the name that it was given, and its arguments. -/
structure LeafFunction where
  entry : String
  arguments : List Argument

/-- The blocks that an entry point refers to. -/
def LeafFunction.blocks (function : LeafFunction) : List (String × List String) :=
  function.arguments.filterMap (·.kind.block?)

/-- The member, whatever stages see it. -/
def SharedVariable.unseen (member : SharedVariable) : SharedVariable :=
  { member with bound := member.bound.unseen }

/-- A block member under the name that an entry point calls it. -/
def BoundVariable.sharedBy (entry : String) (place : Nat) (member : BoundVariable) : SharedVariable :=
  ⟨entry, place, { member with spec := { member.spec with name := Naming.global entry member.spec.name } }⟩

namespace CompileState

variable {before after : CompileState}

/-- What an entry point sees of a block. -/
def shares (state : CompileState) (entry name : String) : List SharedVariable :=
  (state.membersAt (state.place name)).map (·.sharedBy entry (state.place name))

theorem Evolves.shares_eq (evolves : Evolves before after) {place : Nat} {name : String}
    {members : List String} (registered : before.Registered place name members) (sane : before.Sane)
    (entry : String) : after.shares entry name = before.shares entry name := by
  rw [shares, evolves.place_eq registered.mem_names, shares, registered.place_eq sane,
    evolves.membersAt_eq registered.inside]

end CompileState

/-- What bindings hold of the functions that were bound so far. -/
structure LeafBindings.Covers (state : CompileState) (functions : List LeafFunction)
    (bindings : LeafBindings) : Prop where
  own : ∀ v ∈ bindings.buffers ++ bindings.textures,
    v.bound.Sane state.usage ∧ v.entry ∈ functions.map (·.entry)
  nodup : bindings.shared.Nodup
  placed : ∀ place ∈ bindings.shared, place < state.blocks.length
  block : ∀ f ∈ functions, ∀ block ∈ f.blocks, ∃ place ∈ bindings.shared,
    state.Registered place block.1 block.2
  members_eq : bindings.members.map (·.unseen) =
    functions.flatMap fun f => f.blocks.flatMap fun block => state.shares f.entry block.1
  recorded : ∀ f ∈ functions, ∀ argument ∈ f.arguments, argument.kind.RecordedIn state.usage

namespace LeafBindings.Covers

variable {state before after : CompileState} {functions : List LeafFunction} {bindings : LeafBindings}

open CompileState (Evolves)

theorem start (state : CompileState) : Covers state [] {} :=
  ⟨List.forall_mem_nil _, .nil, List.forall_mem_nil _, List.forall_mem_nil _, rfl, List.forall_mem_nil _⟩

theorem mono (covers : Covers before functions bindings) (evolves : Evolves before after) (sane : before.Sane) :
    Covers after functions bindings where
  own v found := ⟨(covers.own v found).1.mono evolves.usage, (covers.own v found).2⟩
  nodup := covers.nodup
  placed place found := Nat.lt_of_lt_of_le (covers.placed place found) evolves.length_le
  block f found block refers := by
    obtain ⟨place, shared, registered⟩ := covers.block f found block refers
    exact ⟨place, shared, registered.mono evolves⟩
  members_eq := by
    rw [covers.members_eq]
    refine List.flatMap_congr fun f found => List.flatMap_congr fun block refers => ?_
    obtain ⟨place, -, registered⟩ := covers.block f found block refers
    exact (evolves.shares_eq registered sane f.entry).symm
  recorded f found argument listed := (covers.recorded f found argument listed).mono evolves.usage

/-- A function whose arguments are still to be bound. -/
theorem open_function (covers : Covers state functions bindings) (entry : String) :
    Covers state (functions ++ [⟨entry, []⟩]) bindings where
  own v found := ⟨(covers.own v found).1, by
    rw [List.map_append]
    exact List.mem_append_left _ (covers.own v found).2⟩
  nodup := covers.nodup
  placed := covers.placed
  block := by
    rw [List.forall_mem_append, List.forall_mem_singleton]
    exact ⟨covers.block, List.forall_mem_nil _⟩
  members_eq := by
    rw [List.flatMap_append, List.flatMap_singleton, covers.members_eq]
    exact (List.append_nil _).symm
  recorded := by
    rw [List.forall_mem_append, List.forall_mem_singleton]
    exact ⟨covers.recorded, List.forall_mem_nil _⟩

variable {entry : String} {done : List Argument} {argument : Argument}

/-- A function with one more argument that is no block and has a variable of its own. -/
theorem own_argument (covers : Covers state (functions ++ [⟨entry, done⟩]) bindings)
    (plain : argument.kind.block? = none) (recorded : argument.kind.RecordedIn state.usage)
    {more : LeafBindings} (shared : more.shared = bindings.shared) (members : more.members = bindings.members)
    (own : ∀ v ∈ more.buffers ++ more.textures,
      v ∈ bindings.buffers ++ bindings.textures ∨ v.bound.Sane state.usage ∧ v.entry = entry) :
    Covers state (functions ++ [⟨entry, done ++ [argument]⟩]) more := by
  obtain ⟨old, nodup, placed, block, members_eq, known⟩ := covers
  rw [List.forall_mem_append, List.forall_mem_singleton] at block known
  rw [List.flatMap_append, List.flatMap_singleton] at members_eq
  have blocks : LeafFunction.blocks ⟨entry, done ++ [argument]⟩ = LeafFunction.blocks ⟨entry, done⟩ := by
    simp [LeafFunction.blocks, plain]
  constructor
  · intro v found
    obtain before | ⟨sane, here⟩ := own v found
    · simpa using old v before
    · simpa [here] using sane
  · rwa [shared]
  · rwa [shared]
  · rw [List.forall_mem_append, List.forall_mem_singleton, shared, blocks]
    exact block
  · rw [List.flatMap_append, List.flatMap_singleton, members, blocks]
    exact members_eq
  · rw [List.forall_mem_append, List.forall_mem_singleton, List.forall_mem_append, List.forall_mem_singleton]
    exact ⟨known.1, known.2, recorded⟩

/-- A function with one more block. -/
theorem shared_argument (covers : Covers state (functions ++ [⟨entry, done⟩]) bindings) (sane : state.Sane)
    {place : Nat} {name : String} {names : List String} (kind : argument.kind.block? = some (name, names))
    (registered : state.Registered place name names) {more : LeafBindings}
    (buffers : more.buffers = bindings.buffers) (textures : more.textures = bindings.textures)
    (shared : more.shared = if bindings.shared.contains place then bindings.shared else bindings.shared ++ [place])
    (members : more.members.map (·.unseen) =
      bindings.members.map (·.unseen) ++ (state.membersAt place).map (·.sharedBy entry place)) :
    Covers state (functions ++ [⟨entry, done ++ [argument]⟩]) more := by
  obtain ⟨own, nodup, placed, block, members_eq, known⟩ := covers
  rw [List.forall_mem_append, List.forall_mem_singleton] at block known
  rw [List.flatMap_append, List.flatMap_singleton] at members_eq
  have blocks : LeafFunction.blocks ⟨entry, done ++ [argument]⟩ =
      LeafFunction.blocks ⟨entry, done⟩ ++ [(name, names)] := by
    simp [LeafFunction.blocks, kind]
  have recorded : argument.kind.RecordedIn state.usage := by
    cases is : argument.kind with
    | block _ _ => trivial
    | _ =>
      rw [is] at kind
      cases kind
  have mem_shared (other : Nat) : other ∈ more.shared ↔ other ∈ bindings.shared ∨ other = place := by
    rw [shared]
    split
    · rename_i has
      exact ⟨.inl, fun found => found.elim id fun same => same ▸ List.contains_iff_mem.mp has⟩
    · simp
  have kept (f : LeafFunction) (old : ∀ b ∈ f.blocks, ∃ place ∈ bindings.shared, state.Registered place b.1 b.2) :
      ∀ b ∈ f.blocks, ∃ place ∈ more.shared, state.Registered place b.1 b.2 := fun b refers =>
    (old b refers).imp fun other found => ⟨(mem_shared other).mpr (.inl found.1), found.2⟩
  constructor
  · simpa [buffers, textures] using own
  · rw [shared]
    split
    · exact nodup
    · rename_i absent
      rw [List.nodup_append]
      refine ⟨nodup, List.nodup_singleton _, ?_⟩
      intro one old other new same
      rw [same, List.mem_singleton.mp new] at old
      exact absent (List.contains_iff_mem.mpr old)
  · intro other found
    obtain old | rfl := (mem_shared other).mp found
    · exact placed other old
    · exact registered.inside
  · rw [List.forall_mem_append, List.forall_mem_singleton, blocks, List.forall_mem_append, List.forall_mem_singleton]
    refine ⟨fun f found => kept f (block.1 f found), fun b refers => ?_, place, (mem_shared place).mpr (.inr rfl), registered⟩
    exact kept ⟨entry, done⟩ block.2 b refers
  · rw [List.flatMap_append, List.flatMap_singleton, members, blocks, List.flatMap_append, List.flatMap_singleton,
      ← List.append_assoc, ← members_eq, CompileState.shares, registered.place_eq sane]
  · rw [List.forall_mem_append, List.forall_mem_singleton, List.forall_mem_append, List.forall_mem_singleton]
    exact ⟨known.1, known.2, recorded⟩

end LeafBindings.Covers

namespace Compile

variable {state after : CompileState} {table : ResourceTable} {unit : Nat} {job : EntryJob} {entry : String}

open CompileState (Grows)

/-- Sharing a block only adds its members. -/
theorem shareMember_foldl (entry : String) (place : Nat) (bound : List BoundVariable) (scan : ArgumentScan) :
    (bound.foldl (shareMember entry place) scan).bindings =
      { scan.bindings with members := scan.bindings.members ++ bound.map (·.sharedBy entry place) } := by
  induction bound generalizing scan with
  | nil => simp
  | cons member rest ih => simp [ih, shareMember, BoundVariable.sharedBy]

theorem bindArgument_ok {functions : List LeafFunction} {done : List Argument} {argument : Argument}
    {scan result : ArgumentScan} (sane : state.Sane)
    (covers : scan.bindings.Covers state (functions ++ [⟨entry, done⟩]))
    (run : (bindArgument table unit job entry scan argument).run state = .ok (result, after)) :
    Grows state after ∧ result.bindings.Covers after (functions ++ [⟨entry, done ++ [argument]⟩]) := by
  unfold bindArgument at run
  dsimp only at run
  split at run
  · rename_i name members kind
    obtain ⟨⟨place, seen⟩, middle, bound, run⟩ := bind_ok run
    obtain ⟨rfl, rfl⟩ := pure_ok run
    obtain ⟨grown, registered, seen_eq⟩ := bindBlock_ok bound
    refine ⟨grown, ?_⟩
    refine (covers.mono grown.toEvolves sane).shared_argument (grown.sane sane) (by rw [kind]; rfl) registered ?_ ?_ ?_ ?_
    all_goals rw [shareMember_foldl]
    rw [List.map_append, seen_eq]
    simp only [List.map_map]
    rfl
  · rename_i plain
    obtain ⟨⟨bound, bytes⟩, middle, made, run⟩ := bind_ok run
    obtain ⟨rfl, rfl⟩ := pure_ok run
    obtain ⟨grown, bound⟩ := bindPlain_ok made
    refine ⟨grown, ?_⟩
    have none : argument.kind.block? = none := by
      cases is : argument.kind with
      | block name members => exact absurd is (plain name members)
      | _ => rfl
    refine (covers.mono grown.toEvolves sane).own_argument none bound.kind ?_ ?_ ?_
    · dsimp only
      split <;> rfl
    · dsimp only
      split <;> rfl
    · intro v found
      dsimp only at found
      split at found
      · simp only [List.mem_append, List.mem_singleton] at found ⊢
        obtain (old | rfl) | old := found
        · exact .inl (.inl old)
        · exact .inr ⟨⟨bound.var_eq, bound.recorded⟩, rfl⟩
        · exact .inl (.inr old)
      · simp only [List.mem_append, List.mem_singleton] at found ⊢
        obtain old | old | rfl := found
        · exact .inl (.inl old)
        · exact .inl (.inr old)
        · exact .inr ⟨⟨bound.var_eq, bound.recorded⟩, rfl⟩

/-- Binding all arguments of an entry point covers it. -/
theorem bindArguments_ok {functions : List LeafFunction} {scan result : ArgumentScan} (sane : state.Sane)
    (covers : scan.bindings.Covers state functions)
    (run : (bindArguments table unit job entry scan).run state = .ok (result, after)) :
    Grows state after ∧ result.bindings.Covers after (functions ++ [⟨entry, job.arguments⟩]) := by
  have all (rest : List Argument) : ∀ (done : List Argument) (scan : ArgumentScan) (state : CompileState),
      state.Sane → scan.bindings.Covers state (functions ++ [⟨entry, done⟩]) →
      (rest.foldlM (bindArgument table unit job entry) scan).run state = .ok (result, after) →
      Grows state after ∧ result.bindings.Covers after (functions ++ [⟨entry, done ++ rest⟩]) := by
    induction rest with
    | nil =>
      intro done scan state sane covers run
      obtain ⟨rfl, rfl⟩ := pure_ok run
      exact ⟨.refl state, by simpa using covers⟩
    | cons argument rest ih =>
      intro done scan state sane covers run
      rw [List.foldlM_cons] at run
      obtain ⟨next, middle, bound, run⟩ := bind_ok run
      obtain ⟨grown, covered⟩ := bindArgument_ok sane covers bound
      obtain ⟨grows, all⟩ := ih (done ++ [argument]) next middle (grown.sane sane) covered run
      exact ⟨grown.trans grows, by simpa using all⟩
  exact all job.arguments [] scan state sane (covers.open_function entry) run

/-- The grid's extent is one more variable of the kernel. -/
theorem bindGrid_covers {functions : List LeafFunction} {plan : GridPlan} {scan : ArgumentScan}
    (covers : scan.bindings.Covers state functions) (known : entry ∈ functions.map (·.entry)) :
    (bindGrid job entry plan scan).2.bindings.Covers state functions := by
  unfold bindGrid
  dsimp only
  split
  · exact covers
  · split
    · refine { covers with own := fun v found => ?_ }
      simp only [List.mem_append, List.mem_singleton] at found
      obtain (old | rfl) | old := found
      · exact covers.own v (List.mem_append_left _ old)
      · exact ⟨⟨rfl, trivial⟩, known⟩
      · exact covers.own v (List.mem_append_right _ old)
    · exact covers

end Compile

end FrameGraph
