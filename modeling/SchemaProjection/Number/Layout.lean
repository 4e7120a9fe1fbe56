import SchemaProjection.Number.Decimal

/-!
# Numbers as text

Two spellings of a double are in use, both with the fewest digits that read back.

* `Double.plain` is what messages show: positional at any size, without a trailing `.0`,
  `inf`, `-inf` and `NaN` for the rest. A tie between two shortest decimals goes up.
* `Double.json` is what documents hold: positional from `1e-5` up to `1e16`, where an integer
  keeps a `.0`, and in powers of ten with a signed exponent outside; what is not finite has
  no spelling of its own and becomes `null`. A tie goes to the even digit.
-/

namespace SchemaProjection

namespace Decimal

/-- The digits as text. -/
def text (d : Decimal) : String := String.ofList (Nat.toDigits 10 d.digits)

def zeros (n : Nat) : String := String.ofList (List.replicate n '0')

/-- Where the decimal point stands, counted from the first digit. -/
def point (d : Decimal) : Int := d.text.length + d.exponent

/-- The decimal without an exponent. -/
def positional (d : Decimal) : String :=
  let digits := d.text.toList
  if 0 ≤ d.exponent then d.text ++ zeros d.exponent.toNat
  else if 0 < d.point then
    String.ofList (digits.take d.point.toNat) ++ "." ++ String.ofList (digits.drop d.point.toNat)
  else "0." ++ zeros (-d.point).toNat ++ d.text

/-- The decimal with one digit before the point and a signed power of ten. -/
def scientific (d : Decimal) : String :=
  let digits := d.text.toList
  let fraction := if digits.length ≤ 1 then "" else "." ++ String.ofList (digits.drop 1)
  let power := d.point - 1
  let sign := if power < 0 then "-" else "+"
  s!"{String.ofList (digits.take 1)}{fraction}e{sign}{power.natAbs}"

end Decimal

namespace Double

def sign (x : Double) : String := if x.negative then "-" else ""

/-- The text of a number in messages. -/
def plain (x : Double) : String :=
  if x.isNaN then "NaN"
  else if x.isInfinite then x.sign ++ "inf"
  else if x.isZero then x.sign ++ "0"
  else x.sign ++ (x.shortest .up).positional

/-- The powers of ten that documents spell positionally, told by the place of the point. -/
def isPositional (d : Decimal) : Bool := -5 < d.point && d.point ≤ 16

/-- The text of a number in documents. -/
def json (x : Double) : String :=
  if x.isNaN || x.isInfinite then "null"
  else if x.isZero then x.sign ++ "0.0"
  else
    let d := x.shortest .even
    let body :=
      if isPositional d then d.positional ++ (if 0 ≤ d.exponent then ".0" else "")
      else d.scientific
    x.sign ++ body

end Double

end SchemaProjection
