import Lowering.Binary64.Basic

/-!
# Shortest decimal text

The text of a floating-point number has the fewest significant digits that read
back as the same number and, of those, the digits closest to it; of two equally
close ones the larger is taken. All comparisons are exact.

A finite number is `m * 2 ^ q`. In units of `2 ^ (q - 2)` it is `4 * m`, and the
reals that round to it lie between `4 * m - 2` (or `4 * m - 1` where the numbers
below are twice as dense) and `4 * m + 2`, ends included when `m` is even. The
digits come from the coarsest power of ten of which some multiple lies there.
-/

namespace Lowering.Binary64

/-- The reals that round to a number, in quarters of its last binary place. -/
structure Interval where
  low : Nat
  value : Nat
  high : Nat
  closed : Bool

/-- The rounding interval of a finite number other than zero. -/
def interval (x : Binary64) : Interval where
  low := 4 * x.significand - (if x.fractionBits = 0 ∧ 1 < x.exponentBits then 1 else 2)
  value := 4 * x.significand
  high := 4 * x.significand + 2
  closed := x.significand % 2 == 0

/-- `b ^ e`, or one if the exponent is negative. -/
def positivePower (b : Nat) (e : Int) : Nat := Nat.pow b e.toNat

/-- The multiple of `10 ^ k` that lies in the interval and is closest to the
number, if any does. The interval counts in units of `2 ^ u`. -/
def nearestMultiple (i : Interval) (u k : Int) : Option Nat :=
  let s := positivePower 2 u * positivePower 10 (-k)
  let d := positivePower 2 (-u) * positivePower 10 k
  let below := i.value * s / d
  let above := below + 1
  let inside (n : Nat) : Bool :=
    if i.closed then i.low * s ≤ n * d && n * d ≤ i.high * s
    else i.low * s < n * d && n * d < i.high * s
  if inside below then
    if inside above && above * d - i.value * s ≤ i.value * s - below * d then some above
    else some below
  else if inside above then some above
  else none

/-- The exponents of ten that can occur, from the coarsest: every finite number
has a multiple of `10 ^ (-324)` in its interval. -/
def decimalExponents : List Int :=
  (List.range 633).map fun (i : Nat) => (308 : Int) - i

/-- The digits `d` and the exponent `k` of the shortest decimal `d * 10 ^ k` of a
finite number other than zero, sign apart. -/
def shortest (x : Binary64) : Nat × Int :=
  let found := decimalExponents.findSome? fun k =>
    (nearestMultiple x.interval (x.scale - 2) k).map fun d => (d, k)
  found.getD (0, 0)

/-- Where a decimal text is positional: the decimal exponent of its first digit
is at least `least` and below `bound`. -/
structure Layout where
  least : Int
  bound : Int

/-- Literals are positional from `1e-4` up to `1e16`. -/
def literalLayout : Layout := ⟨-4, 16⟩

/-- `n` zeros. -/
def zeros (n : Nat) : String := String.ofList (List.replicate n '0')

/-- The text of `d * 10 ^ k`: positional with at least one digit after the point,
or with an exponent and a point only if a digit follows it. -/
def Layout.text (l : Layout) (d : Nat) (k : Int) : String :=
  let digits := Nat.toDigits 10 d
  let n := digits.length
  let e := k + n - 1
  if l.least ≤ e ∧ e < l.bound then
    if 0 ≤ k then String.ofList digits ++ zeros k.toNat ++ ".0"
    else if 0 ≤ e then
      let whole := (k + n).toNat
      String.ofList (digits.take whole) ++ "." ++ String.ofList (digits.drop whole)
    else "0." ++ zeros (-e - 1).toNat ++ String.ofList digits
  else
    let head := String.ofList (digits.take 1)
    let tail := String.ofList (digits.drop 1)
    head ++ (if n ≤ 1 then "" else "." ++ tail) ++ "e" ++ toString e

/-- The text of a number, sign apart. -/
def magnitudeText (x : Binary64) : String :=
  if x.isInfinite then "inf"
  else if x.isZero then "0.0"
  else
    let (d, k) := x.shortest
    literalLayout.text d k

/-- The text of a number. A not-a-number has no sign. -/
def text (x : Binary64) : String :=
  if x.isNaN then "NaN"
  else if x.isNegative then "-" ++ x.magnitudeText
  else x.magnitudeText

end Lowering.Binary64
