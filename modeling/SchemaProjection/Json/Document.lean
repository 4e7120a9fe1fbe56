import SchemaProjection.Json.Literal
import SchemaProjection.Number.Reading

/-!
# Documents

A document is one JSON value between white space (`Json.ofText?`). Lists and objects nest at
most 127 deep; an object keeps its fields in order, repeated names included.

## Numbers

An integer is kept exactly if it is not negative and fits 64 bits. Every other number becomes a
double in two roundings (`Json.scale`): the digits that fit 64 bits are taken as an integer, and
the nearest double to it is multiplied or divided by a power of ten. A number too large for a
double is no number.
-/

namespace SchemaProjection

/-- A JSON value. -/
inductive Json
  | null
  | bool (b : Bool)
  /-- An integer from zero up to `2⁶⁴ - 1`. -/
  | natural (n : Nat)
  | number (x : Double)
  | string (s : String)
  | list (items : List Json)
  | object (fields : List (String × Json))

namespace Json

/-- The least number that needs more than 64 bits. -/
def wordLimit : Nat := 0x10000000000000000

/-- The largest power of ten that is a double. -/
def largestPower : Nat := 308

/-- The double nearest to a power of ten. -/
def powerOfTen (n : Nat) : Double := Decimal.toDouble false ⟨1, n⟩

/-- `x * 10 ^ exponent`. An exponent below the range of doubles is applied in steps; `fuel`
bounds their number, and a zero is reached long before. -/
def scale : (fuel : Nat) → Double → Int → Option Double
  | 0, x, _ => some x
  | fuel + 1, x, exponent =>
    if exponent.natAbs ≤ largestPower then
      if 0 ≤ exponent then
        let scaled := x * powerOfTen exponent.natAbs
        if scaled.isInfinite then none else some scaled
      else some (x / powerOfTen exponent.natAbs)
    else if x.isZero then some x
    else if 0 ≤ exponent then none
    else scale fuel (x / powerOfTen largestPower) (exponent + largestPower)

/-- How many of the digits the significand takes, each as long as it fits 64 bits, and what
it is then. -/
def takeDigits (significand : Nat) : List Char → Nat × List Char
  | [] => (significand, [])
  | c :: rest =>
    let next := 10 * significand + digitValue c
    if next < wordLimit then takeDigits next rest else (significand, c :: rest)

/-- The power of ten after an exponent mark, and the text behind it. -/
def readExponent? (text : List Char) : Option (Int × List Char) :=
  let (negative, digits) := match text with
    | '+' :: rest => (false, rest)
    | '-' :: rest => (true, rest)
    | rest => (false, rest)
  let run := digits.takeWhile Char.isDigit
  if run.isEmpty then none
  else
    let power : Int := continueDigits 0 run
    some (if negative then -power else power, digits.dropWhile Char.isDigit)

/-- A number with a fraction or an exponent, or beyond 64 bits. Whole digits that do not fit
the significand raise the exponent; digits of the fraction lower it by one each until one does
not fit, and count for nothing from there on. -/
def readDouble? (negative : Bool) (whole text : List Char) : Option (Double × List Char) := do
  let (significand, dropped) := takeDigits 0 whole
  let (significand, exponent, text) ← match text with
    | '.' :: rest =>
      let fraction := rest.takeWhile Char.isDigit
      if fraction.isEmpty then none
      else
        let (significand, unread) := takeDigits significand fraction
        some (significand, (dropped.length : Int) - (fraction.length - unread.length : Nat),
          rest.dropWhile Char.isDigit)
    | rest => some (significand, (dropped.length : Int), rest)
  let (power, text) ← match text with
    | c :: rest => if c = 'e' || c = 'E' then readExponent? rest else some (0, text)
    | [] => some (0, text)
  let x ← scale 64 (Double.ofNat significand) (exponent + power)
  return (if negative then -x else x, text)

/-- Whether digits continue a number with a fraction or an exponent. -/
def continuesNumber : List Char → Bool
  | c :: _ => c = '.' || c = 'e' || c = 'E'
  | [] => false

/-- A number behind its sign. A zero in front of other digits is no number. -/
def readNumber? (negative : Bool) (text : List Char) : Option (Json × List Char) :=
  let whole := text.takeWhile Char.isDigit
  let rest := text.dropWhile Char.isDigit
  if whole.isEmpty || (whole.head? = some '0' && 1 < whole.length) then none
  else
    let n := continueDigits 0 whole
    if continuesNumber rest || wordLimit ≤ n then
      (readDouble? negative whole rest).map fun (x, rest) => (.number x, rest)
    else if negative then some (.number (-Double.ofNat n), rest)
    else some (.natural n, rest)

def isBlank (c : Char) : Bool := c = ' ' || c = '\n' || c = '\t' || c = '\r'

def skipBlank (text : List Char) : List Char := text.dropWhile isBlank

/-- The text behind a keyword. -/
def keyword? (word : String) (text : List Char) : Option (List Char) :=
  if word.toList.isPrefixOf text then some (text.drop word.length) else none

/-- The items of a list behind the first one, up to its closing bracket. -/
def readItems? (item? : List Char → Option (Json × List Char)) :
    (fuel : Nat) → List Char → Option (List Json × List Char)
  | 0, _ => none
  | fuel + 1, text =>
    match skipBlank text with
    | ']' :: rest => some ([], rest)
    | ',' :: rest => do
      let (item, rest) ← item? (skipBlank rest)
      let (items, rest) ← readItems? item? fuel rest
      return (item :: items, rest)
    | _ => none

/-- A field of an object. -/
def readField? (item? : List Char → Option (Json × List Char)) :
    List Char → Option ((String × Json) × List Char)
  | '"' :: rest =>
    match Literal.decode rest with
    | .error _ => none
    | .ok (name, rest) =>
      match skipBlank rest with
      | ':' :: rest => do
        let (value, rest) ← item? (skipBlank rest)
        return ((String.ofList name, value), rest)
      | _ => none
  | _ => none

/-- The fields of an object behind the first one, up to its closing brace. -/
def readFields? (item? : List Char → Option (Json × List Char)) :
    (fuel : Nat) → List Char → Option (List (String × Json) × List Char)
  | 0, _ => none
  | fuel + 1, text =>
    match skipBlank text with
    | '\x7d' :: rest => some ([], rest)
    | ',' :: rest => do
      let (field, rest) ← readField? item? (skipBlank rest)
      let (fields, rest) ← readFields? item? fuel rest
      return (field :: fields, rest)
    | _ => none

/-- A value at the start of a text, and the text behind it. `depth` levels of lists and objects
may still be opened. -/
def readValue? : (depth : Nat) → List Char → Option (Json × List Char)
  | depth, text =>
    match text with
    | '"' :: rest =>
      match Literal.decode rest with
      | .ok (s, rest) => some (.string (String.ofList s), rest)
      | .error _ => none
    | 'n' :: _ => (keyword? "null" text).map (Json.null, ·)
    | 't' :: _ => (keyword? "true" text).map (Json.bool true, ·)
    | 'f' :: _ => (keyword? "false" text).map (Json.bool false, ·)
    | '-' :: rest => readNumber? true rest
    | '[' :: rest =>
      match depth with
      | 0 => none
      | depth + 1 =>
        match skipBlank rest with
        | ']' :: rest => some (.list [], rest)
        | rest => do
          let (item, rest) ← readValue? depth rest
          let (items, rest) ← readItems? (readValue? depth) rest.length.succ rest
          return (.list (item :: items), rest)
    | '\x7b' :: rest =>
      match depth with
      | 0 => none
      | depth + 1 =>
        match skipBlank rest with
        | '\x7d' :: rest => some (.object [], rest)
        | rest => do
          let (field, rest) ← readField? (readValue? depth) rest
          let (fields, rest) ← readFields? (readValue? depth) rest.length.succ rest
          return (.object (field :: fields), rest)
    | _ => readNumber? false text

/-- How deep lists and objects nest. -/
def nesting : Nat := 127

/-- The value of a document. -/
def ofText? (text : String) : Option Json := do
  let (value, rest) ← readValue? nesting (skipBlank text.toList)
  if (skipBlank rest).isEmpty then some value else none

end Json

end SchemaProjection
