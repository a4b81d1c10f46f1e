/-! # Fresh entry names

An entry point keeps its name unless the unit has it already; then it gets the least number that makes
a free name. Every taken candidate is struck from the list of taken names before the next is tried, so
the search ends.
-/

namespace FrameGraph.Naming

/-- The name with a number behind it. -/
def numbered (name : String) (n : Nat) : String := s!"{name}_{n}"

/-- The first free numbered name from `n` on. -/
def freshFrom (name : String) (taken : List String) (n : Nat) : String :=
  if numbered name n ∈ taken then freshFrom name (taken.erase (numbered name n)) (n + 1)
  else numbered name n
termination_by taken.length
decreasing_by
  rename_i found
  rw [List.length_erase_of_mem found]
  exact Nat.sub_lt (List.length_pos_of_mem found) Nat.one_pos

/-- The name itself or its first free numbered form. -/
def fresh (name : String) (taken : List String) : String :=
  if name ∈ taken then freshFrom name taken 1 else name

/-- The module-scope name of something that belongs to an entry point. -/
def global (entry name : String) : String := s!"{entry}__{name}"

end FrameGraph.Naming
