/-! # Usage flags

What a texture or buffer is made for. Usages are merged by union.
-/

namespace FrameGraph

structure TextureUsage where
  sampled : Bool := false
  storage : Bool := false
  renderTarget : Bool := false
  copySource : Bool := false
  copyDestination : Bool := false
deriving DecidableEq, Repr, Inhabited

structure BufferUsage where
  uniform : Bool := false
  storage : Bool := false
  index : Bool := false
  copySource : Bool := false
  copyDestination : Bool := false
deriving DecidableEq, Repr, Inhabited

/-- The number with these bits, lowest first. -/
def bitsOf : List Bool → Nat
  | [] => 0
  | bit :: rest => bit.toNat + 2 * bitsOf rest

namespace TextureUsage

def union (a b : TextureUsage) : TextureUsage :=
  { sampled := a.sampled || b.sampled
    storage := a.storage || b.storage
    renderTarget := a.renderTarget || b.renderTarget
    copySource := a.copySource || b.copySource
    copyDestination := a.copyDestination || b.copyDestination }

/-- Every flag of `a` is a flag of `b`. -/
def subset (a b : TextureUsage) : Prop := a.union b = b

def bits (usage : TextureUsage) : Nat :=
  bitsOf [usage.sampled, usage.storage, usage.renderTarget, usage.copySource, usage.copyDestination]

/-- Bits without a meaning are dropped. -/
def ofBits (bits : Nat) : TextureUsage :=
  ⟨bits.testBit 0, bits.testBit 1, bits.testBit 2, bits.testBit 3, bits.testBit 4⟩

end TextureUsage

namespace BufferUsage

def union (a b : BufferUsage) : BufferUsage :=
  { uniform := a.uniform || b.uniform
    storage := a.storage || b.storage
    index := a.index || b.index
    copySource := a.copySource || b.copySource
    copyDestination := a.copyDestination || b.copyDestination }

/-- Every flag of `a` is a flag of `b`. -/
def subset (a b : BufferUsage) : Prop := a.union b = b

def bits (usage : BufferUsage) : Nat :=
  bitsOf [usage.uniform, usage.storage, usage.index, usage.copySource, usage.copyDestination]

/-- Bits without a meaning are dropped. -/
def ofBits (bits : Nat) : BufferUsage :=
  ⟨bits.testBit 0, bits.testBit 1, bits.testBit 2, bits.testBit 3, bits.testBit 4⟩

end BufferUsage

end FrameGraph
