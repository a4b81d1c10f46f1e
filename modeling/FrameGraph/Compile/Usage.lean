import FrameGraph.Resource.Table
import FrameGraph.Resource.Usage

/-! # Merged resource usage

Every resource a program touches, once, in the order of first use, with the union of all its uses.
-/

namespace FrameGraph

structure ResourceUsage where
  textures : List (TextureHandle × TextureUsage) := []
  buffers : List (BufferHandle × BufferUsage) := []
deriving DecidableEq

namespace ResourceUsage

/-- Merge a use into the entry of its key, or add an entry at the end. -/
def merge {α β : Type} [DecidableEq α] (union : β → β → β) (key : α) (use : β) :
    List (α × β) → List (α × β)
  | [] => [(key, use)]
  | entry :: rest =>
    if entry.1 = key then (key, union entry.2 use) :: rest else entry :: merge union key use rest

def texture (usage : ResourceUsage) (handle : TextureHandle) (use : TextureUsage) : ResourceUsage :=
  { usage with textures := merge .union handle use usage.textures }

def buffer (usage : ResourceUsage) (handle : BufferHandle) (use : BufferUsage) : ResourceUsage :=
  { usage with buffers := merge .union handle use usage.buffers }

end ResourceUsage

end FrameGraph
