/-!
# String literals

A string literal stands between double quotes. Inside, a backslash begins one of the escapes
`\"`, `\\`, `\/`, `\b`, `\f`, `\n`, `\r`, `\t` and `\uXXXX`; code points above `U+FFFF` are two
such escapes, a leading and a trailing surrogate. Every other character but a quote, a
backslash and a control character stands for itself.

`Literal.decode` reads a literal and `Literal.encode` writes one. A faulty literal is reported
with the column of the fault: the byte that shows it, the opening quote being byte one.
-/

namespace SchemaProjection.Json.Literal

/-- What is wrong with a string literal. -/
inductive Fault
  /-- A control character stands for itself. -/
  | controlCharacter
  /-- A trailing surrogate without a leading one, or a leading one before another code point. -/
  | loneSurrogate
  /-- A leading surrogate is not followed by an escape. -/
  | unfinishedPair
  /-- An escape is not one of the known ones, or the closing quote is missing. -/
  | malformed
deriving DecidableEq

def Fault.message : Fault → String
  | .controlCharacter => "control character (\\u0000-\\u001F) found while parsing a string"
  | .loneSurrogate => "lone leading surrogate in hex escape"
  | .unfinishedPair => "unexpected end of hex escape"
  | .malformed => "invalid string"

/-- A fault and its column. -/
structure FaultAt where
  fault : Fault
  column : Nat
deriving DecidableEq

/-- The text of a fault. A literal never spans lines. -/
def FaultAt.message (f : FaultAt) : String := s!"{f.fault.message} at line 1 column {f.column}"

/-- The value of a hexadecimal digit of either case. -/
def hexDigit? (c : Char) : Option Nat :=
  if c.isDigit then some (c.toNat - '0'.toNat)
  else if 'a' ≤ c && c ≤ 'f' then some (c.toNat - 'a'.toNat + 10)
  else if 'A' ≤ c && c ≤ 'F' then some (c.toNat - 'A'.toNat + 10)
  else none

/-- The value of four hexadecimal digits. -/
def hexNumber? (a b c d : Char) : Option Nat := do
  return (← hexDigit? a) * 0x1000 + (← hexDigit? b) * 0x100 + (← hexDigit? c) * 0x10 +
    (← hexDigit? d)

def isLeading (unit : Nat) : Bool := 0xD800 ≤ unit && unit < 0xDC00

def isTrailing (unit : Nat) : Bool := 0xDC00 ≤ unit && unit < 0xE000

/-- The code point of a surrogate pair. -/
def combine (leading trailing : Nat) : Char :=
  Char.ofNat ((leading - 0xD800) * 0x400 + (trailing - 0xDC00) + 0x10000)

/-- The character that a short escape denotes. -/
def shortEscape? : Char → Option Char
  | '"' => some '"'
  | '\\' => some '\\'
  | '/' => some '/'
  | 'b' => some '\x08'
  | 'f' => some '\x0c'
  | 'n' => some '\n'
  | 'r' => some '\r'
  | 't' => some '\t'
  | _ => none

/-- The value of a literal from behind its opening quote, and the text behind its closing one.
`column` is the column of the last byte read, and `done` holds the characters read so far, last
one first. -/
def decodeFrom (column : Nat) (done : List Char) :
    List Char → Except FaultAt (List Char × List Char)
  | '"' :: rest => .ok (done.reverse, rest)
  | '\\' :: 'u' :: a :: b :: c :: d :: rest =>
    match hexNumber? a b c d with
    | none => .error ⟨.malformed, column⟩
    | some unit =>
      if isTrailing unit then .error ⟨.loneSurrogate, column + 6⟩
      else if isLeading unit then
        match rest with
        | '\\' :: 'u' :: e :: f :: g :: h :: rest =>
          match hexNumber? e f g h with
          | none => .error ⟨.malformed, column⟩
          | some second =>
            if isTrailing second then decodeFrom (column + 12) (combine unit second :: done) rest
            else .error ⟨.loneSurrogate, column + 12⟩
        | '\\' :: 'u' :: _ => .error ⟨.malformed, column⟩
        | '\\' :: _ => .error ⟨.unfinishedPair, column + 8⟩
        | _ => .error ⟨.unfinishedPair, column + 7⟩
      else decodeFrom (column + 6) (Char.ofNat unit :: done) rest
  | '\\' :: c :: rest =>
    match shortEscape? c with
    | some value => decodeFrom (column + 2) (value :: done) rest
    | none => .error ⟨.malformed, column⟩
  | c :: rest =>
    if c = '\\' then .error ⟨.malformed, column⟩
    else if c.toNat < 0x20 then .error ⟨.controlCharacter, column + 1⟩
    else decodeFrom (column + c.utf8Size) (c :: done) rest
  | [] => .error ⟨.malformed, column⟩

/-- The value of a literal from behind its opening quote, and the text behind its closing one. -/
def decode (text : List Char) : Except FaultAt (List Char × List Char) := decodeFrom 1 [] text

/-! ### Writing -/

/-- Two hexadecimal digits, in lower case. -/
def hexPair (n : Nat) : List Char := [Nat.digitChar (n / 16), Nat.digitChar (n % 16)]

/-- A character of a written literal: the short escape where there is one, a numeric escape for
the other control characters, and itself otherwise. -/
def escape (c : Char) : List Char :=
  match c with
  | '"' => ['\\', '"']
  | '\\' => ['\\', '\\']
  | '\x08' => ['\\', 'b']
  | '\x0c' => ['\\', 'f']
  | '\n' => ['\\', 'n']
  | '\r' => ['\\', 'r']
  | '\t' => ['\\', 't']
  | c => if c.toNat < 0x20 then ['\\', 'u', '0', '0'] ++ hexPair c.toNat else [c]

/-- A string as a literal, with its quotes. -/
def encode (text : String) : String :=
  String.ofList ('"' :: text.toList.flatMap escape ++ ['"'])

end SchemaProjection.Json.Literal
