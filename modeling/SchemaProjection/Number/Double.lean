/-!
# Binary doubles

Every number that a projection body computes, and every number literal of a schema,
is an IEEE 754 double. It is kept here as its **bit pattern**, so that two doubles are
equal exactly when they are the same datum: zeros of different sign differ, and a NaN
equals itself.

Two orders live side by side:

* `Double.compare` is total. It places a double by its sign and magnitude, which puts
  negative NaNs below `-∞`, positive NaNs above `+∞` and `-0` just below `+0`.
* `Double.ieeeCompare?` is the arithmetical order. It identifies the two zeros and leaves
  NaN incomparable.

A finite double is a whole number of **units**, the smallest positive double `2⁻¹⁰⁷⁴`
(`Double.units`). All arithmetic, reading and printing goes through this exact integer;
infinity continues the same scale at `2²⁰⁹⁸` units.
-/

namespace SchemaProjection

/-- An IEEE 754 double, given by its 64 bits: sign, exponent and fraction. -/
structure Double where
  bits : UInt64
deriving DecidableEq, Inhabited

namespace Double

/-- The magnitude bits of infinity; magnitudes above it are NaNs. -/
def infinityMagnitude : Nat := 0x7FF0000000000000

/-- The weight of the sign bit. -/
def signWeight : Nat := 0x8000000000000000

/-- The double with the given sign and magnitude bits. -/
def ofParts (negative : Bool) (magnitude : Nat) : Double :=
  ⟨UInt64.ofNat ((if negative then signWeight else 0) + magnitude)⟩

/-- Whether the sign bit is set; zeros and NaNs have a sign too. -/
def negative (x : Double) : Bool := signWeight ≤ x.bits.toNat

/-- All bits but the sign. -/
def magnitude (x : Double) : Nat := x.bits.toNat % signWeight

def isNaN (x : Double) : Bool := infinityMagnitude < x.magnitude

def isInfinite (x : Double) : Bool := x.magnitude == infinityMagnitude

def isZero (x : Double) : Bool := x.magnitude == 0

def zero : Double := ⟨0⟩

def infinity (negative : Bool) : Double := ofParts negative infinityMagnitude

/-- The NaN that text denotes: quiet, with an empty payload. -/
def nan : Double := ofParts false 0x7FF8000000000000

/-- The NaN of an invalid operation such as `0 / 0`: quiet, with its sign set. -/
def invalid : Double := ofParts true 0x7FF8000000000000

/-- Flips the sign, that of a zero or of a NaN included. -/
def neg (x : Double) : Double := ofParts (!x.negative) x.magnitude

/-! ### The exact value -/

/-- The weight of the exponent field. -/
def fractionWeight : Nat := 0x10000000000000

/-- How far one unit lies below one: `1 = 2 ^ unitExponent` units. -/
def unitExponent : Nat := 1074

/-- The absolute value in units. The exponent field of a normal double says how often its
53-bit significand is doubled; a subnormal double is its own fraction. -/
def magnitudeUnits (x : Double) : Nat :=
  let exponent := x.magnitude / fractionWeight
  let fraction := x.magnitude % fractionWeight
  if exponent = 0 then fraction else (fractionWeight + fraction) * Nat.pow 2 (exponent - 1)

/-- The value in units. -/
def units (x : Double) : Int :=
  if x.negative then -(x.magnitudeUnits : Int) else x.magnitudeUnits

/-! ### The two orders -/

/-- The place of a double in the total order: magnitudes upward from zero for a clear sign
bit, downward from minus one for a set one. -/
def rank (x : Double) : Int :=
  if x.negative then -(x.magnitude : Int) - 1 else x.magnitude

/-- The total order of doubles. -/
protected def compare (a b : Double) : Ordering := Ord.compare a.rank b.rank

instance : Ord Double := ⟨Double.compare⟩

/-- A double is its sign and its magnitude. -/
theorem toNat_bits (x : Double) :
    x.bits.toNat = (if x.negative then signWeight else 0) + x.magnitude := by
  have h := x.bits.toNat_lt
  unfold negative magnitude signWeight
  split <;> simp_all <;> omega

/-- Different doubles have different places. -/
theorem rank_inj {x y : Double} (h : x.rank = y.rank) : x = y := by
  have hbits : x.bits.toNat = y.bits.toNat := by
    rw [toNat_bits x, toNat_bits y]
    unfold rank at h
    cases hx : x.negative <;> cases hy : y.negative <;> simp [hx, hy] at h ⊢ <;> omega
  cases x
  cases y
  exact congrArg Double.mk (UInt64.toNat_inj.mp hbits)

instance : Std.TransOrd Double := inferInstanceAs (Std.TransCmp (compareOn Double.rank))

instance : Std.LawfulEqOrd Double where
  eq_of_compare h := rank_inj (Std.LawfulEqOrd.eq_of_compare (α := Int) h)

/-- The arithmetical order; a NaN compares with nothing. -/
def ieeeCompare? (a b : Double) : Option Ordering :=
  if a.isNaN || b.isNaN then none else some (Ord.compare a.units b.units)

/-- Whether the number is different from zero; a NaN is. -/
def isNonzero (x : Double) : Bool := !x.isZero

end Double

end SchemaProjection
