import SchemaProjection.Number.Double

/-!
# Correctly rounded arithmetic

Each operation computes the exact result as a fraction of units and rounds it once, to the
nearest double and to the even one of two nearest (`Double.nearest`). Results of `2²⁰⁹⁸`
units and above become infinite.

A NaN operand is returned as it is, the left one first, so payload and sign survive;
an invalid operation on other operands yields `Double.invalid`.
-/

namespace SchemaProjection.Double

/-- The integer nearest to `num / den`, the even one if two are equally near. -/
def roundHalfEven (num den : Nat) : Nat :=
  let below := num / den
  match Ord.compare (2 * (num % den)) den with
  | .lt => below
  | .gt => below + 1
  | .eq => if below % 2 = 0 then below else below + 1

/-- The double nearest to `num / den` units, with the given sign.

A significand holds 53 bits, so a value of more bits is rounded on the grid `2 ^ shift`.
Counting significands from the grid's index carries a rounding overflow into the exponent
field by itself. -/
def nearest (negative : Bool) (num den : Nat) : Double :=
  let shift := (num / den).log2 + 1 - 53
  let magnitude := shift * fractionWeight + roundHalfEven num (den * Nat.pow 2 shift)
  ofParts negative (min magnitude infinityMagnitude)

/-- The double nearest to an integer. -/
def ofInt (n : Int) : Double :=
  nearest (n < 0) (n.natAbs * Nat.pow 2 unitExponent) 1

/-- The double nearest to a natural number. -/
def ofNat (n : Nat) : Double := ofInt n

/-- A whole number of units as a double; zero takes the sign given. -/
def ofUnits (zeroNegative : Bool) (u : Int) : Double :=
  nearest (if u = 0 then zeroNegative else u < 0) u.natAbs 1

/-- The operand that an operation on a NaN returns. -/
def nanOperand (a b : Double) : Double := if a.isNaN then a else b

/-- The sum. Opposite infinities have none; a zero sum is negative only if both terms are. -/
protected def add (a b : Double) : Double :=
  if a.isNaN || b.isNaN then nanOperand a b
  else if a.isInfinite then
    if b.isInfinite && a.negative != b.negative then invalid else a
  else if b.isInfinite then b
  else ofUnits (a.negative && b.negative) (a.units + b.units)

/-- The difference. A NaN subtrahend keeps its sign. -/
protected def sub (a b : Double) : Double :=
  if a.isNaN || b.isNaN then nanOperand a b else a.add b.neg

/-- The product. Zero times infinity has none. -/
protected def mul (a b : Double) : Double :=
  let negative := a.negative != b.negative
  if a.isNaN || b.isNaN then nanOperand a b
  else if a.isInfinite || b.isInfinite then
    if a.isZero || b.isZero then invalid else infinity negative
  else nearest negative (a.magnitudeUnits * b.magnitudeUnits) (Nat.pow 2 unitExponent)

/-- The quotient. Division by zero is infinite, that of zero or of infinity by itself has no
value. -/
protected def div (a b : Double) : Double :=
  let negative := a.negative != b.negative
  if a.isNaN || b.isNaN then nanOperand a b
  else if a.isInfinite then
    if b.isInfinite then invalid else infinity negative
  else if b.isInfinite then ofParts negative 0
  else if b.isZero then
    if a.isZero then invalid else infinity negative
  else nearest negative (a.magnitudeUnits * Nat.pow 2 unitExponent) b.magnitudeUnits

instance : Add Double := ⟨Double.add⟩
instance : Sub Double := ⟨Double.sub⟩
instance : Mul Double := ⟨Double.mul⟩
instance : Div Double := ⟨Double.div⟩
instance : Neg Double := ⟨Double.neg⟩

end SchemaProjection.Double
