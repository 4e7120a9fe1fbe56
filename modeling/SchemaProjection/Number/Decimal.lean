import SchemaProjection.Number.Arithmetic

/-!
# Decimals and doubles

A `Decimal` is a natural number scaled by a power of ten. Two passages lead between
decimals and doubles:

* `Decimal.toDouble` is the nearest double, in one rounding.
* `Double.shortest` is the decimal of fewest digits that the nearest double leads back
  from; of two such decimals it is the nearer one, and a `Tie` decides when both are
  equally near.

Both are exact integer arithmetic on `Double.units`.
-/

namespace SchemaProjection

/-- The number `digits * 10 ^ exponent`. -/
structure Decimal where
  digits : Nat
  exponent : Int
deriving DecidableEq, Inhabited

/-- Which of two equally near decimals is taken. -/
inductive Tie
  /-- The larger one. -/
  | up
  /-- The one whose last digit is even. -/
  | even
deriving DecidableEq

namespace Decimal

/-- Beyond this power of ten a decimal is infinite or zero as a double. -/
def range : Int := 400

/-- The double nearest to a decimal, with the given sign. Decimals far outside the range of
doubles are decided by their exponent, so that no power of ten grows without bound. -/
def toDouble (negative : Bool) (d : Decimal) : Double :=
  if d.digits = 0 then Double.ofParts negative 0
  else if range < d.exponent then Double.infinity negative
  else if d.exponent + (d.digits.log2 + 1) < -range then Double.ofParts negative 0
  else
    Double.nearest negative
      (d.digits * Nat.pow 10 d.exponent.toNat * Nat.pow 2 Double.unitExponent)
      (Nat.pow 10 (-d.exponent).toNat)

/-- Moves the trailing zeros of the digits into the exponent, at most `n` of them. -/
def dropZeros : Nat → Decimal → Decimal
  | 0, d => d
  | n + 1, d =>
    if d.digits % 10 = 0 then dropZeros n ⟨d.digits / 10, d.exponent + 1⟩ else d

/-- The same number without trailing zeros. -/
def normalize (d : Decimal) : Decimal :=
  if d.digits = 0 then ⟨0, 0⟩ else dropZeros d.digits.log2 d

end Decimal

namespace Double

/-- The number of decimal digits of a positive integer. -/
def digitCount (n : Nat) : Nat := (Nat.toDigits 10 n).length

/-- The least power of ten above the value: `10 ^ (k - 1) ≤ x < 10 ^ k`. The value is scaled
by a power of ten that makes even the smallest double an integer of many digits. -/
def decimalOrder (x : Double) : Int :=
  digitCount (x.magnitudeUnits * Nat.pow 10 342 / Nat.pow 2 unitExponent) - (342 : Int)

/-- Half the gap to the next double above, in half units: as many as the gap has units. -/
def gapAbove (x : Double) : Nat := Nat.pow 2 (x.magnitude / fractionWeight - 1)

/-- Half the gap to the next double below, in half units. Below a power of two the gap is half
as wide. -/
def gapBelow (x : Double) : Nat :=
  if x.magnitude % fractionWeight = 0 && 2 ≤ x.magnitude / fractionWeight then x.gapAbove / 2
  else x.gapAbove

/-- The decimal of `n` digits that reads back as `x`, if there is one, where `order` is the
decimal order of `x`. The two neighbours of `x` on the grid of `n`-digit decimals are tried,
the nearer one first. Distances are counted in half units, scaled by the grid's denominator;
the ends of the interval that rounds to `x` belong to it if its significand is even. -/
def onGrid? (tie : Tie) (x : Double) (order : Int) (n : Nat) : Option Decimal :=
  let exponent := order - n
  let scale := Nat.pow 10 (-exponent).toNat
  let step := Nat.pow 10 exponent.toNat * Nat.pow 2 (unitExponent + 1)
  let value := 2 * x.magnitudeUnits * scale
  let below := value / step
  let toBelow := value - below * step
  let toAbove := (below + 1) * step - value
  let closed := x.magnitude % 2 = 0
  let belowFits := toBelow < x.gapBelow * scale || (closed && toBelow = x.gapBelow * scale)
  let aboveFits := toAbove < x.gapAbove * scale || (closed && toAbove = x.gapAbove * scale)
  let preferBelow := match Ord.compare toBelow toAbove with
    | .lt => true
    | .gt => false
    | .eq => tie = .even && below % 2 = 0
  if belowFits && (preferBelow || !aboveFits) then some ⟨below, exponent⟩
  else if aboveFits then some ⟨below + 1, exponent⟩
  else none

/-- The shortest decimal of a positive finite double's absolute value. Seventeen digits
always suffice. -/
def shortest (tie : Tie) (x : Double) : Decimal :=
  let order := x.decimalOrder
  (((List.range' 1 17).findSome? (onGrid? tie x order)).getD ⟨0, 0⟩).normalize

end Double

end SchemaProjection
