/-!
Binary floating-point numbers of 64 bits, held by their bits. A finite number is, its sign aside,
`significand * 2 ^ exponent`.
-/
namespace ContextFree

structure Binary64 where
  bits : UInt64
  deriving DecidableEq

namespace Binary64

def isNegative (x : Binary64) : Bool := x.bits >>> 63 == 1

def exponentField (x : Binary64) : Nat := ((x.bits >>> 52) &&& 0x7FF).toNat

def fraction (x : Binary64) : Nat := (x.bits &&& 0xFFFFFFFFFFFFF).toNat

def isNaN (x : Binary64) : Bool := x.exponentField == 0x7FF && x.fraction != 0

def isInfinite (x : Binary64) : Bool := x.exponentField == 0x7FF && x.fraction == 0

def isZero (x : Binary64) : Bool := x.exponentField == 0 && x.fraction == 0

def significand (x : Binary64) : Nat :=
  if x.exponentField = 0 then x.fraction else x.fraction + Nat.pow 2 52

def exponent (x : Binary64) : Int := (max x.exponentField 1 : Nat) - 1075

/-- Whether the number below `x` is nearer than the number above it: `x` opens a new power of two. -/
def opensBinade (x : Binary64) : Bool := x.fraction == 0 && 1 < x.exponentField

def nan : Binary64 := ⟨0x7FF8000000000000⟩

def infinity : Binary64 := ⟨0x7FF0000000000000⟩

def zero : Binary64 := ⟨0⟩

def negate (x : Binary64) : Binary64 := ⟨x.bits ^^^ 0x8000000000000000⟩

/-- The number nearest to `digits * 10 ^ scale`. Numbers that are far out of range are settled by their
size alone. -/
def ofDecimal (digits : Nat) (scale : Int) : Binary64 :=
  let size := (Nat.toDigits 10 digits).length + scale
  if digits = 0 ∨ size < -400 then zero
  else if 400 < size then infinity
  else ⟨(Float.ofScientific digits (scale < 0) scale.natAbs).toBits⟩

/-- Equality of the numbers themselves: the two zeros are equal, and what is not a number equals
nothing. -/
def sameNumber (x y : Binary64) : Bool :=
  !x.isNaN && !y.isNaN && (x.bits == y.bits || (x.isZero && y.isZero))

end Binary64

end ContextFree
