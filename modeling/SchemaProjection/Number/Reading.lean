import SchemaProjection.Number.Decimal

/-!
# Reading numbers

A number is written as decimal digits with an optional fraction and an optional power of
ten, and denotes the nearest double (`Double.ofText?`). Digits may be missing on one side
of the point but not on both; an exponent mark needs a digit. In free text a sign may stand
in front, and `inf`, `infinity` and `nan` are numbers in letters of either case.
-/

namespace SchemaProjection

/-- The value of a decimal digit. -/
def digitValue (c : Char) : Nat := c.toNat - '0'.toNat

/-- The number that a run of digits continues from `n`. -/
def continueDigits (n : Nat) (digits : List Char) : Nat :=
  digits.foldl (fun n c => 10 * n + digitValue c) n

namespace Double

/-- The signed power of ten after an exponent mark. -/
def readPower? : List Char → Option Int
  | '+' :: digits => nat? digits
  | '-' :: digits => (nat? digits).map (- ·)
  | digits => nat? digits
where
  nat? (digits : List Char) : Option Int :=
    if digits.isEmpty || !digits.all Char.isDigit then none
    else some (continueDigits 0 digits)

/-- The power of ten at the end of a number: none is zero. -/
def readExponent? : List Char → Option Int
  | [] => some 0
  | c :: rest => if c = 'e' || c = 'E' then readPower? rest else none

/-- Digits, fraction and exponent of an unsigned number that fill the whole text. -/
def readDecimal? (text : List Char) : Option Decimal :=
  let whole := text.takeWhile Char.isDigit
  let afterWhole := text.dropWhile Char.isDigit
  let (fraction, afterFraction) := match afterWhole with
    | '.' :: rest => (rest.takeWhile Char.isDigit, rest.dropWhile Char.isDigit)
    | rest => ([], rest)
  if whole.isEmpty && fraction.isEmpty then none
  else (readExponent? afterFraction).map fun power =>
    ⟨continueDigits 0 (whole ++ fraction), power - fraction.length⟩

/-- An unsigned number, given by digits or by name. -/
def readUnsigned? (negative : Bool) (text : List Char) : Option Double :=
  let name := String.ofList (text.map Char.toLower)
  if name = "inf" || name = "infinity" then some (infinity negative)
  else if name = "nan" then some (ofParts negative nan.magnitude)
  else (readDecimal? text).map (Decimal.toDouble negative)

/-- The double that a text denotes. -/
def ofText? (text : String) : Option Double :=
  match text.toList with
  | '-' :: rest => readUnsigned? true rest
  | '+' :: rest => readUnsigned? false rest
  | rest => readUnsigned? false rest

end Double

end SchemaProjection
