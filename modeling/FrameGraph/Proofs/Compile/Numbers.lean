import FrameGraph.Compile.Index
import FrameGraph.Proofs.Compile.Growth
import FrameGraph.Proofs.Outcome
import Mathlib.Data.List.Nodup

/-! # Numbers drawn from one space

An argument keeps the number that it is pinned to; the others get the least numbers that are free when their turns come.
A pin is only checked against the pins of its own space.
-/

namespace FrameGraph

/-- How many numbers below `n` are free. -/
def freeBelow (used : List Nat) (n : Nat) : Nat := (List.range n).countP fun k => k ∉ used

theorem freeBelow_succ (used : List Nat) (n : Nat) :
    freeBelow used (n + 1) = freeBelow used n + if n ∈ used then 0 else 1 := by
  by_cases taken : n ∈ used <;> simp [freeBelow, List.range_succ, taken]

theorem freeBelow_congr {used other : List Nat} (same : ∀ k, k ∈ used ↔ k ∈ other) (n : Nat) :
    freeBelow used n = freeBelow other n := by
  simp only [freeBelow, same]

/-- Nothing is free where everything is used. -/
theorem freeBelow_eq_zero {used : List Nat} {n : Nat} (taken : ∀ k < n, k ∈ used) : freeBelow used n = 0 := by
  simpa [freeBelow, List.countP_eq_zero] using taken

/-- A free number that is taken is one less of those below a higher number. -/
theorem freeBelow_take {used : List Nat} {m n : Nat} (free : m ∉ used) (below : m < n) :
    freeBelow used n = freeBelow (m :: used) n + 1 := by
  induction n with
  | zero => omega
  | succ n ih =>
    rw [freeBelow_succ, freeBelow_succ]
    by_cases last : n = m
    · subst last
      have others : freeBelow (n :: used) n = freeBelow used n := by
        refine List.countP_congr fun k inside => ?_
        have apart : k ≠ n := Nat.ne_of_lt (List.mem_range.mp inside)
        simp [apart]
      simp [others, free]
    · rw [ih (by omega)]
      simp [last]
      omega

/-- The search ends at the first free number. -/
theorem leastFree_spec (used : List Nat) (n : Nat) :
    n ≤ leastFree used n ∧ leastFree used n ∉ used ∧ ∀ k, n ≤ k → k < leastFree used n → k ∈ used := by
  fun_induction leastFree used n with
  | case1 used n found ih =>
    obtain ⟨above, free, taken⟩ := ih
    refine ⟨by omega, ?_, ?_⟩
    · intro held
      exact free ((List.mem_erase_of_ne (by omega)).mpr held)
    · intro k from_n below
      by_cases first : k = n
      · exact first ▸ found
      · exact List.mem_of_mem_erase (taken k (by omega) below)
  | case2 used n free => exact ⟨Nat.le_refl n, free, fun k _ _ => by omega⟩

/-- The next `count` numbers that are given out. -/
def nextFree (used : List Nat) : Nat → List Nat
  | 0 => []
  | count + 1 => leastFree used 0 :: nextFree (leastFree used 0 :: used) count

/-- A free number is given out when fewer are free below it. -/
theorem mem_nextFree (used : List Nat) (count n : Nat) :
    n ∈ nextFree used count ↔ n ∉ used ∧ freeBelow used n < count := by
  induction count generalizing used with
  | zero => simp [nextFree]
  | succ count ih =>
    obtain ⟨-, free, taken⟩ := leastFree_spec used 0
    rw [nextFree, List.mem_cons, ih, List.mem_cons, not_or]
    generalize leastFree used 0 = m at free taken
    obtain below | rfl | above := Nat.lt_trichotomy n m
    · have held := taken n (Nat.zero_le n) below
      simp [held, Nat.ne_of_lt below]
    · have none := freeBelow_eq_zero fun k below => taken k (Nat.zero_le k) below
      simp [free, none]
    · rw [freeBelow_take free above]
      simp [Nat.ne_of_gt above]

theorem nextFree_nodup (used : List Nat) (count : Nat) : (nextFree used count).Nodup := by
  induction count generalizing used with
  | zero => exact .nil
  | succ count ih =>
    rw [nextFree, List.nodup_cons]
    refine ⟨fun again => ?_, ih _⟩
    exact ((mem_nextFree _ _ _).mp again).1 (.head _)

namespace IndexPool

/-- The numbers that arguments of one space get in turn. -/
def numbers (space : IndexSpace) (pool : IndexPool) : List (Option Nat) → List Nat
  | [] => []
  | index :: rest => (pool.assign index space).1 :: numbers space (pool.assign index space).2 rest

theorem used_claim (pool : IndexPool) (space : IndexSpace) (index : Nat) :
    (pool.claim space index).used space = index :: pool.used space := by
  cases space <;> rfl

theorem used_claim_of_ne (pool : IndexPool) {space other : IndexSpace} (apart : space ≠ other) (index : Nat) :
    (pool.claim space index).used other = pool.used other := by
  cases space <;> cases other <;> first | rfl | exact absurd rfl apart

variable {space : IndexSpace}

theorem numbers_length (pool : IndexPool) (indices : List (Option Nat)) :
    (numbers space pool indices).length = indices.length := by
  induction indices generalizing pool with
  | nil => rfl
  | cons index rest ih => simp [numbers, ih]

/-- Pins are kept. -/
theorem numbers_pinned (pool : IndexPool) (indices : List (Option Nat)) :
    ∀ entry ∈ indices.zip (numbers space pool indices), ∀ pin ∈ entry.1, entry.2 = pin := by
  induction indices generalizing pool with
  | nil => simp [numbers]
  | cons index rest ih =>
    rw [numbers, List.zip_cons_cons, List.forall_mem_cons]
    refine ⟨?_, ih _⟩
    rintro pin ⟨⟩
    rfl

/-- The numbers are the pins and the next free ones. -/
theorem numbers_perm (pool : IndexPool) (indices : List (Option Nat)) :
    (numbers space pool indices).Perm
      (indices.filterMap id ++ nextFree (pool.used space) (indices.count none)) := by
  induction indices generalizing pool with
  | nil => exact .refl _
  | cons index rest ih =>
    cases index with
    | some pin => simpa [numbers, assign] using ih pool
    | none =>
      have later := ih (pool.assign none space).2
      simp only [assign, used_claim] at later
      simpa [numbers, assign, nextFree] using (later.cons _).trans List.perm_middle.symm

/-- The numbers that arguments of a space are pinned to. -/
def pins (space : IndexSpace) (arguments : List Argument) : List Nat :=
  (arguments.filter fun argument => argument.kind.space? = some space).filterMap (·.index)

theorem pins_cons (argument : Argument) (rest : List Argument) :
    pins space (argument :: rest) = pins space [argument] ++ pins space rest := by
  rw [pins, ← List.singleton_append, List.filter_append, List.filterMap_append, pins, pins]

theorem pins_singleton (argument : Argument) :
    pins space [argument] = if argument.kind.space? = some space then argument.index.toList else [] := by
  unfold pins
  by_cases here : argument.kind.space? = some space
  · cases index : argument.index <;> simp [here, index]
  · simp [here]

/-- The pin of one more argument is claimed unless its number is in use. -/
theorem reserveOne_ok {owner : String} {pool after : IndexPool} {argument : Argument}
    (run : reserveOne owner pool argument = .ok after) (nodup : (pool.used space).Nodup) :
    (after.used space).Nodup ∧ after.used space = pins space [argument] ++ pool.used space := by
  rw [pins_singleton]
  unfold reserveOne at run
  split at run
  · rename_i index claimed pinned kind
    split at run
    · cases run
    · rename_i free
      cases run
      by_cases here : claimed = space
      · subst here
        rw [used_claim]
        simp [pinned, kind, free, nodup]
      · rw [used_claim_of_ne pool here]
        simp [kind, here, nodup]
  · rename_i unpinned
    cases run
    have none : (if argument.kind.space? = some space then argument.index.toList else []) = [] := by
      split
      · rename_i kind
        cases index : argument.index with
        | none => rfl
        | some pin => exact absurd kind (unpinned pin space index)
      · rfl
    rw [none]
    exact ⟨nodup, rfl⟩

/-- The pins of a space are claimed, and they are different. -/
theorem reserve_ok {owner : String} {arguments : List Argument} {pool : IndexPool}
    (run : reserve owner arguments = .ok pool) (space : IndexSpace) :
    (pool.used space).Perm (pins space arguments) ∧ (pins space arguments).Nodup := by
  have all (rest : List Argument) : ∀ early : IndexPool, (early.used space).Nodup →
      rest.foldlM (reserveOne owner) early = .ok pool →
      (pool.used space).Nodup ∧ (pool.used space).Perm (pins space rest ++ early.used space) := by
    induction rest with
    | nil =>
      intro early nodup run
      cases run
      exact ⟨nodup, .refl _⟩
    | cons argument rest ih =>
      intro early nodup run
      rw [List.foldlM_cons] at run
      obtain ⟨next, one, others⟩ := bind_eq_ok run
      obtain ⟨nodup, used_eq⟩ := reserveOne_ok one nodup
      obtain ⟨nodup, perm⟩ := ih next nodup others
      refine ⟨nodup, perm.trans ?_⟩
      rw [used_eq, pins_cons argument rest, List.append_assoc]
      exact List.perm_append_comm_assoc _ _ _
  have empty : (({} : IndexPool).used space) = [] := by cases space <;> rfl
  obtain ⟨nodup, perm⟩ := all arguments {} (by rw [empty]; exact .nil) run
  rw [empty, List.append_nil] at perm
  exact ⟨perm, perm.nodup_iff.mp nodup⟩

/-- Every pin is in one of the two spaces. -/
theorem pins_perm {arguments : List Argument} (spaced : ∀ argument ∈ arguments, argument.kind.space?.isSome) :
    (arguments.filterMap (·.index)).Perm (pins .buffers arguments ++ pins .textures arguments) := by
  induction arguments with
  | nil => exact .refl _
  | cons argument rest ih =>
    rw [List.forall_mem_cons] at spaced
    obtain ⟨space, kind⟩ := Option.isSome_iff_exists.mp spaced.1
    have later := ih spaced.2
    rw [pins_cons argument rest, pins_cons argument rest, pins_singleton, pins_singleton, kind]
    cases index : argument.index with
    | none => simpa [index] using later
    | some pin =>
      rw [List.filterMap_cons_some index]
      cases space with
      | buffers => simpa using later
      | textures => simpa using (later.cons pin).trans List.perm_middle.symm

/-- Arguments that all draw from the space of the buffers get different numbers exactly when no texture is pinned to a
number that a buffer is pinned to or that is given out. -/
theorem numbers_nodup_iff {owner : String} {arguments : List Argument} {pool : IndexPool}
    (reserved : reserve owner arguments = .ok pool) (spaced : ∀ argument ∈ arguments, argument.kind.space?.isSome) :
    (numbers .buffers pool (arguments.map (·.index))).Nodup ↔ ∀ pin ∈ pins .textures arguments,
      pin ∉ pins .buffers arguments ∧
        (arguments.map (·.index)).count none ≤ freeBelow (pins .buffers arguments) pin := by
  obtain ⟨used, buffers⟩ := reserve_ok reserved .buffers
  obtain ⟨-, textures⟩ := reserve_ok reserved .textures
  have pinned : ((arguments.map (·.index)).filterMap id).Perm (pins .buffers arguments ++ pins .textures arguments) := by
    simpa [List.filterMap_map] using pins_perm spaced
  rw [((numbers_perm pool _).trans (pinned.append_right _)).nodup_iff]
  simp only [List.nodup_append', buffers, textures, nextFree_nodup, List.Disjoint, List.mem_append, mem_nextFree,
    used.mem_iff, freeBelow_congr fun k => used.mem_iff, true_and]
  constructor
  · rintro ⟨apart, given⟩ pin texture
    have alone : pin ∉ pins .buffers arguments := fun buffer => apart buffer texture
    exact ⟨alone, Nat.le_of_not_lt fun below => given (.inr texture) ⟨alone, below⟩⟩
  · intro each
    refine ⟨fun pin buffer texture => (each pin texture).1 buffer, ?_⟩
    rintro pin (buffer | texture) ⟨free, below⟩
    · exact free buffer
    · exact Nat.not_lt_of_le (each pin texture).2 below

end IndexPool

end FrameGraph
