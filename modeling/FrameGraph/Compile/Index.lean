import FrameGraph.Compile.Error

/-! # Binding numbers

Buffers and textures are numbered separately. Pinned numbers are claimed before anything else; every
other argument gets the least number that is free when its turn comes.
-/

namespace FrameGraph

/-- The least number from `n` on that is not used. -/
def leastFree (used : List Nat) (n : Nat) : Nat :=
  if n ∈ used then leastFree (used.erase n) (n + 1) else n
termination_by used.length
decreasing_by
  rename_i found
  rw [List.length_erase_of_mem found]
  exact Nat.sub_lt (List.length_pos_of_mem found) Nat.one_pos

/-- The numbers in use. -/
structure IndexPool where
  buffers : List Nat := []
  textures : List Nat := []
deriving DecidableEq, Repr

namespace IndexPool

def used (pool : IndexPool) : IndexSpace → List Nat
  | .buffers => pool.buffers
  | .textures => pool.textures

def claim (pool : IndexPool) (space : IndexSpace) (index : Nat) : IndexPool :=
  match space with
  | .buffers => { pool with buffers := index :: pool.buffers }
  | .textures => { pool with textures := index :: pool.textures }

/-- Claim the pinned number of an argument that has one. -/
def reserveOne (owner : String) (pool : IndexPool) (argument : Argument) :
    Except CompileError IndexPool :=
  match argument.index, argument.kind.space? with
  | some index, some space =>
    if index ∈ pool.used space then .error (.duplicateIndex owner space index)
    else .ok (pool.claim space index)
  | _, _ => .ok pool

/-- Claim all pinned numbers; `owner` is named when two are equal. -/
def reserve (owner : String) (arguments : List Argument) : Except CompileError IndexPool :=
  arguments.foldlM (reserveOne owner) {}

/-- The pinned number, or the least free one. -/
def assign (pool : IndexPool) (index : Option Nat) (space : IndexSpace) : Nat × IndexPool :=
  match index with
  | some index => (index, pool)
  | none =>
    let index := leastFree (pool.used space) 0
    (index, pool.claim space index)

/-- One past the highest number in use; numbers are 32-bit words. -/
def trailing (pool : IndexPool) (space : IndexSpace) : Nat × IndexPool :=
  let index := match (pool.used space).max? with
    | some last => (last + 1) % UInt32.size
    | none => 0
  (index, pool.claim space index)

end IndexPool

end FrameGraph
