/-! # Grid scales

A grid is scaled axis by axis. The factors are single-precision numbers, given by their bit patterns; a product
is computed in double precision, so it is rounded once.
-/

namespace FrameGraph

namespace Single

def one : UInt32 := 0x3f800000

def infinity : UInt32 := 0x7f800000

/-- The number is positive and finite; the patterns of such numbers are in the order of the numbers. -/
def isPositive (number : UInt32) : Bool := 0 < number && number < infinity

/-- The magnitude of a number as a multiple of the smallest one, which is `2 ^ (-149)`. -/
def magnitude (number : UInt32) : Nat :=
  let exponent := (number.toNat >>> 23) % 256
  let fraction := number.toNat % (1 <<< 23)
  if exponent = 0 then fraction else ((1 <<< 23) + fraction) <<< (exponent - 1)

end Single

/-- Round to the 53 bits that a double-precision number keeps, and to an even one of two that are as near. -/
def roundToDouble (n : Nat) : Nat :=
  let unit := 1 <<< (n.log2 - 52)
  let kept := n / unit
  let lost := n % unit
  if 2 * lost > unit ∨ (2 * lost = unit ∧ kept % 2 = 1) then (kept + 1) * unit else kept * unit

/-- The product in double precision, rounded up and cut off at the range of 32-bit words; it is zero for
factors that are negative or no numbers. -/
def scaleAxis (value : Nat) (scale : UInt32) : Nat :=
  if Single.infinity < scale then 0
  else min ((roundToDouble (value * Single.magnitude scale) + ((1 <<< 149) - 1)) >>> 149) (UInt32.size - 1)

/-- A factor for each axis. -/
structure Scale where
  x : UInt32
  y : UInt32
  z : UInt32
deriving DecidableEq, Repr

namespace Scale

def unit : Scale := ⟨Single.one, Single.one, Single.one⟩

def toList (scale : Scale) : List UInt32 := [scale.x, scale.y, scale.z]

/-- Every factor is a positive finite number. -/
def isValid (scale : Scale) : Bool := scale.toList.all Single.isPositive

end Scale

end FrameGraph
