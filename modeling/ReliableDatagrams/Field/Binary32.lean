/-!
# Single-precision numbers

A float element is carried as its 32 bits and never computed with, so it is kept as the bits. The
only arithmetic notion needed is the equality of numbers, which is not the equality of bits: no NaN
equals anything, and the two zeros are equal.
-/

namespace ReliableDatagrams

/-- The bit pattern of a single-precision number. -/
structure Binary32 where
  bits : UInt32
deriving DecidableEq, Repr, Inhabited

namespace Binary32

def magnitude (x : Binary32) : Nat :=
  x.bits.toNat % 0x80000000

/-- All exponent bits are set and the fraction is not zero. -/
def isNaN (x : Binary32) : Bool :=
  0x7f800000 < x.magnitude

def isZero (x : Binary32) : Bool :=
  x.magnitude == 0

def numEq (x y : Binary32) : Bool :=
  !x.isNaN && !y.isNaN && (x == y || (x.isZero && y.isZero))

theorem numEq_self_iff (x : Binary32) : x.numEq x = true ↔ x.isNaN = false := by
  cases h : x.isNaN <;> simp [numEq, h]

end Binary32

end ReliableDatagrams
