/-!
# Binary floating-point numbers

A 64-bit binary floating-point number is held by its bits, so that every number,
the signed zeros and the not-a-numbers included, is a value of its own. Equality
of the numbers they stand for is `Binary64.equal`: the two zeros are equal and a
not-a-number equals nothing.
-/

namespace Lowering

/-- A 64-bit binary floating-point number: one bit of sign, eleven of exponent
and fifty-two of fraction. -/
structure Binary64 where
  bits : UInt64
  deriving DecidableEq, Inhabited

namespace Binary64

/-- Whether the sign bit is set. -/
def isNegative (x : Binary64) : Bool := x.bits.toNat / Nat.pow 2 63 == 1

/-- The eleven bits of the exponent. -/
def exponentBits (x : Binary64) : Nat := x.bits.toNat / Nat.pow 2 52 % Nat.pow 2 11

/-- The fifty-two bits of the fraction. -/
def fractionBits (x : Binary64) : Nat := x.bits.toNat % Nat.pow 2 52

/-- Whether `x` is a not-a-number. -/
def isNaN (x : Binary64) : Bool := x.exponentBits == 2047 && x.fractionBits != 0

/-- Whether `x` is one of the two infinities. -/
def isInfinite (x : Binary64) : Bool := x.exponentBits == 2047 && x.fractionBits == 0

/-- Whether `x` is one of the two zeros. -/
def isZero (x : Binary64) : Bool := x.exponentBits == 0 && x.fractionBits == 0

/-- The integer `m` for which a finite `x` is `m * 2 ^ scale`, sign apart. -/
def significand (x : Binary64) : Nat :=
  if x.exponentBits = 0 then x.fractionBits else Nat.pow 2 52 + x.fractionBits

/-- The power of two that belongs to `significand`. -/
def scale (x : Binary64) : Int :=
  if x.exponentBits = 0 then -1074 else (x.exponentBits : Int) - 1075

/-- Equality of the numbers: the two zeros are equal, a not-a-number equals
nothing, itself included. -/
def equal (x y : Binary64) : Bool :=
  !x.isNaN && !y.isNaN && (x.bits == y.bits || (x.isZero && y.isZero))

instance : BEq Binary64 := ⟨equal⟩

end Binary64

end Lowering
