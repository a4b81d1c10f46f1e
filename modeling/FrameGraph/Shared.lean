import FrameGraph.Axes
import FrameGraph.Layout.Host

/-! # Values shared with the caller

The caller keeps flags, repeat counters, uniform values and grid sizes, and changes them between and
during frames; passes read them fresh. Every off-frame group has three flags of its own. A flag that
nobody set is down, a counter that nobody set is one.
-/

namespace FrameGraph

/-- Names of flags: the caller's own, and those of an off-frame group. -/
inductive FlagKey where
  | named (name : String)
  /-- The group is busy. -/
  | busy (group : String)
  /-- The group's last run is complete and nobody has taken it yet. -/
  | complete (group : String)
  /-- The group has completed at least once. -/
  | completedOnce (group : String)
deriving DecidableEq, Repr

/-- All shared values; the first entry for a name counts. -/
structure Shared where
  flags : List (FlagKey × Bool) := []
  counters : List (String × Nat) := []
  uniforms : List (String × HostValue) := []
  gridSizes : List (String × Axes) := []

namespace Shared

/-- Put an entry in the place of the one with its key. -/
def assign {α β : Type} [DecidableEq α] (key : α) (value : β) : List (α × β) → List (α × β)
  | [] => [(key, value)]
  | entry :: rest => if entry.1 = key then (key, value) :: rest else entry :: assign key value rest

theorem lookup_assign {α β : Type} [DecidableEq α] (key other : α) (value : β)
    (entries : List (α × β)) :
    (assign key value entries).lookup other =
      if other = key then some value else entries.lookup other := by
  induction entries with
  | nil => by_cases h : other = key <;> simp [assign, List.lookup_cons, h, beq_false_of_ne]
  | cons entry rest ih =>
    obtain ⟨k, v⟩ := entry
    by_cases hk : k = key
    · subst hk
      by_cases h : other = k <;> simp [assign, List.lookup_cons, h, beq_false_of_ne]
    · by_cases h : other = k
      · subst h
        simp [assign, hk]
      · simp [assign, hk, List.lookup_cons, h, beq_false_of_ne, ih]

def flag (shared : Shared) (key : FlagKey) : Bool := (shared.flags.lookup key).getD false

def setFlag (shared : Shared) (key : FlagKey) (value : Bool) : Shared :=
  { shared with flags := assign key value shared.flags }

def counter (shared : Shared) (name : String) : Nat := (shared.counters.lookup name).getD 1

def setCounter (shared : Shared) (name : String) (value : Nat) : Shared :=
  { shared with counters := assign name value shared.counters }

/-- Replace the components of a uniform value; an unknown name changes nothing. -/
def setUniform (shared : Shared) (name : String) (words : List UInt32) : Shared :=
  match shared.uniforms.lookup name with
  | some value => { shared with uniforms := assign name (value.set words) shared.uniforms }
  | none => shared

/-- Add to the components of a uniform value; an unknown name changes nothing. -/
def addUniform (shared : Shared) (name : String) (words : List UInt32) : Shared :=
  match shared.uniforms.lookup name with
  | some value => { shared with uniforms := assign name (value.add words) shared.uniforms }
  | none => shared

def gridSize (shared : Shared) (name : String) : Axes := (shared.gridSizes.lookup name).getD ⟨1, 1, 1⟩

def setGridSize (shared : Shared) (name : String) (size : Axes) : Shared :=
  { shared with gridSizes := assign name size shared.gridSizes }

end Shared

/-- A host value that passes upload as a uniform block. -/
inductive BytesSource where
  | constant (type : ShaderType) (bytes : List UInt8)
  /-- The shared uniform value of this name; `type` and `size` never change. -/
  | shared (name : String) (type : ShaderType) (size : Nat)
deriving DecidableEq

namespace BytesSource

def type : BytesSource → ShaderType
  | .constant type _ => type
  | .shared _ type _ => type

/-- Bytes of one sample. -/
def size : BytesSource → Nat
  | .constant _ bytes => bytes.length
  | .shared _ _ size => size

/-- The bytes as they are now. -/
def sample (shared : Shared) : BytesSource → List UInt8
  | .constant _ bytes => bytes
  | .shared name _ _ => ((shared.uniforms.lookup name).map HostValue.bytes).getD []

end BytesSource

end FrameGraph
