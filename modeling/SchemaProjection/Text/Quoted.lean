import SchemaProjection.Text.CharClass.Printing

/-!
# Quoted text

How a string is shown inside a message: between double quotes, with `\"`, `\\`, `\n`, `\r`,
`\t` and `\0` for those characters, and with the code point in braces for everything that
would not show as a character of its own.
-/

namespace SchemaProjection.Quoted

/-- Characters that are spelled by their code point. -/
def isHidden (c : Char) : Bool :=
  CharClass.unprintable.contains c || CharClass.extending.contains c

/-- A code point between braces, in hexadecimal. -/
def codePoint (c : Char) : List Char :=
  ['\\', 'u', '\x7b'] ++ Nat.toDigits 16 c.toNat ++ ['\x7d']

/-- One character of a quoted text. -/
def escape (c : Char) : List Char :=
  match c with
  | '"' => ['\\', '"']
  | '\\' => ['\\', '\\']
  | '\n' => ['\\', 'n']
  | '\r' => ['\\', 'r']
  | '\t' => ['\\', 't']
  | '\x00' => ['\\', '0']
  | c => if isHidden c then codePoint c else [c]

/-- A text between double quotes. -/
def encode (text : String) : String :=
  String.ofList ('"' :: text.toList.flatMap escape ++ ['"'])

end SchemaProjection.Quoted
