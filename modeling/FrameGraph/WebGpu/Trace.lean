import FrameGraph.Device.Command

/-! # Traces

What reaches the hardware is written down call by call: a row that starts with the name of the call
and goes on with its arguments. The form of the rows is this library's own; the calls in them are the
backend's.
-/

namespace FrameGraph.WebGpu

inductive TraceItem where
  | absent
  | flag (value : Bool)
  | number (value : Nat)
  | text (value : String)
  | row (items : List TraceItem)
deriving Inhabited, Repr

namespace TraceItem

instance : Coe Bool TraceItem := ⟨flag⟩

instance : Coe Nat TraceItem := ⟨number⟩

instance (n : Nat) : OfNat TraceItem n := ⟨number n⟩

instance : Coe String TraceItem := ⟨text⟩

/-- The row of a call. -/
def call (name : String) (arguments : List TraceItem) : TraceItem := row (text name :: arguments)

def ofAxes (axes : Axes) : TraceItem := row (axes.toList.map number)

def ofOption {α : Type} (item : α → TraceItem) : Option α → TraceItem
  | some value => item value
  | none => absent

end TraceItem

end FrameGraph.WebGpu
