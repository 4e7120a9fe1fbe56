import SchemaProjection.Grammar.Token
import SchemaProjection.Number.Reading

/-!
# From text to tokens

`Cursor.next` skips the gap in front of a cursor (blanks, line ends and comments) and reads one
token. `Source.tokens` repeats this up to the end token or the first fault.

A cursor counts bytes for spans and columns for messages. Columns advance by one per blank,
four per tab, one per character of a block comment and one per byte of a token; a line comment
does not advance them. A NUL character ends the text wherever a token may begin, and also ends
comments and strings.
-/

namespace SchemaProjection

/-- A place in a text: what is left to read, how many bytes were read, and the line and column
reached. -/
structure Cursor where
  rest : List Char
  offset : Nat
  line : Nat
  col : Nat
deriving DecidableEq

namespace Cursor

/-- The size of a run of characters in bytes. -/
def byteSize (text : List Char) : Nat := text.foldl (fun size c => size + c.utf8Size) 0

/-- The beginning of a source. -/
def ofSource (source : Source) : Cursor := ⟨source.text.toList, 0, 1, 1⟩

/-! ### Gaps -/

/-- Where in a gap the cursor stands. -/
inductive Gap
  | blank
  | lineComment
  /-- In a block comment that began at the given line and column. -/
  | blockComment (line col : Nat)

/-- The cursor at the end of a gap. -/
def skipFrom (offset line col : Nat) : Gap → List Char → Except LexicalFault Cursor
  | .blank, ' ' :: rest => skipFrom (offset + 1) line (col + 1) .blank rest
  | .blank, '\t' :: rest => skipFrom (offset + 1) line (col + 4) .blank rest
  | .blank, '\n' :: rest => skipFrom (offset + 1) (line + 1) 1 .blank rest
  | .blank, '\r' :: '\n' :: rest => skipFrom (offset + 2) (line + 1) 1 .blank rest
  | .blank, '\r' :: _ => .error ⟨.bareReturn, line, col⟩
  | .blank, '/' :: '/' :: rest => skipFrom (offset + 2) line col .lineComment rest
  | .blank, '/' :: '*' :: rest =>
    skipFrom (offset + 2) line (col + 2) (.blockComment line col) rest
  | .blank, rest => .ok ⟨rest, offset, line, col⟩
  | .lineComment, '\n' :: rest => skipFrom (offset + 1) (line + 1) 1 .blank rest
  | .lineComment, '\x00' :: rest => .ok ⟨'\x00' :: rest, offset, line, col⟩
  | .lineComment, c :: rest => skipFrom (offset + c.utf8Size) line col .lineComment rest
  | .lineComment, [] => .ok ⟨[], offset, line, col⟩
  | .blockComment _ _, '*' :: '/' :: rest => skipFrom (offset + 2) line (col + 2) .blank rest
  | .blockComment l c, '\x00' :: _ => .error ⟨.unterminatedComment, l, c⟩
  | .blockComment l c, '\n' :: rest =>
    skipFrom (offset + 1) (line + 1) 1 (.blockComment l c) rest
  | .blockComment l c, d :: rest =>
    skipFrom (offset + d.utf8Size) line (col + 1) (.blockComment l c) rest
  | .blockComment l c, [] => .error ⟨.unterminatedComment, l, c⟩

/-- The cursor behind the gap in front of it. -/
def skip (cursor : Cursor) : Except LexicalFault Cursor :=
  skipFrom cursor.offset cursor.line cursor.col .blank cursor.rest

/-! ### Words and symbols -/

def isNameStart (c : Char) : Bool := c.isAlpha || c = '_' || c = '$'

def isNameChar (c : Char) : Bool := c.isAlphanum || c = '_' || c = '$'

/-- Characters that may not follow a number. -/
def continuesNumber (c : Char) : Bool := c.isAlphanum || c = '_'

/-- The symbols of two characters. -/
def isDoubleSymbol (a b : Char) : Bool :=
  match a with
  | '=' => b = '=' || b = '>'
  | '!' | '<' | '>' => b = '='
  | '&' => b = '&'
  | '|' => b = '|'
  | _ => false

/-- The symbols of one character. -/
def isSymbol (c : Char) : Bool :=
  ['{', '}', '[', ']', '(', ')', '+', '-', '*', '/', '<', '>', '!', ',', ';', '.', ':', '#',
    '@'].contains c

/-- The symbol that a text begins with. -/
def symbol? : List Char → Option (List Char)
  | a :: b :: _ => if isDoubleSymbol a b then some [a, b] else if isSymbol a then some [a] else none
  | [a] => if isSymbol a then some [a] else none
  | [] => none

/-- The fraction of a number: a point, followed by at least one digit. -/
def fractionOf : List Char → List Char
  | '.' :: d :: rest => if d.isDigit then '.' :: d :: rest.takeWhile Char.isDigit else []
  | _ => []

/-- The exponent of a number: a mark, a sign if there is one, and the digits behind it. -/
def exponentOf : List Char → List Char
  | c :: rest =>
    if c = 'e' || c = 'E' then
      match rest with
      | s :: digits =>
        if s = '+' || s = '-' then c :: s :: digits.takeWhile Char.isDigit
        else c :: rest.takeWhile Char.isDigit
      | [] => [c]
    else []
  | [] => []

/-- The number that a text begins with. -/
def numberOf (text : List Char) : List Char :=
  let whole := text.takeWhile Char.isDigit
  let fraction := fractionOf (text.drop whole.length)
  let exponent := exponentOf (text.drop (whole.length + fraction.length))
  whole ++ fraction ++ exponent

/-! ### String literals -/

/-- The characters between the quotes of a literal, up to its closing quote, and the text behind
it. `hex` hexadecimal digits of an escape are still due; `col` is the column reached, `done` holds
the characters read, last one first, and `unmatched` is the fault of a literal without end. -/
def literalFrom (unmatched : LexicalFault) (line : Nat) :
    (hex col : Nat) → (done : List Char) → List Char → Except LexicalFault (List Char × List Char)
  | hex + 1, col, done, c :: rest =>
    if (Json.Literal.hexDigit? c).isSome then
      literalFrom unmatched line hex (col + 1) (c :: done) rest
    else .error ⟨.invalidHexEscape, line, col⟩
  | _ + 1, col, _, [] => .error ⟨.invalidHexEscape, line, col⟩
  | 0, _, done, '"' :: rest => .ok (done.reverse, rest)
  | 0, _, _, '\x00' :: _ => .error unmatched
  | 0, col, _, '\n' :: _ => .error ⟨.unterminatedString, line, col⟩
  | 0, col, done, '\\' :: 'u' :: rest =>
    literalFrom unmatched line 4 (col + 2) ('u' :: '\\' :: done) rest
  | 0, col, done, '\\' :: c :: rest =>
    if (Json.Literal.shortEscape? c).isSome then
      literalFrom unmatched line 0 (col + 2) (c :: '\\' :: done) rest
    else .error ⟨.invalidEscape, line, col⟩
  | 0, col, done, c :: rest =>
    if c = '\\' then .error ⟨.invalidEscape, line, col⟩
    else literalFrom unmatched line 0 (col + c.utf8Size) (c :: done) rest
  | 0, _, _, [] => .error unmatched

/-- The content of the literal whose opening quote the cursor stands on. -/
def literal (cursor : Cursor) : Except LexicalFault (List Char × List Char) :=
  literalFrom ⟨.unmatchedQuote, cursor.line, cursor.col⟩ cursor.line 0 (cursor.col + 1) []
    (cursor.rest.drop 1)

/-! ### Tokens -/

/-- The cursor behind a run of characters of the same line, a column per byte. -/
def advance (cursor : Cursor) (text : List Char) : Cursor :=
  { cursor with
    rest := cursor.rest.drop text.length
    offset := cursor.offset + byteSize text
    col := cursor.col + byteSize text }

/-- The token that a run of characters at the cursor makes. -/
def token (file : String) (cursor : Cursor) (kind : TokenKind) (text : List Char) : Token :=
  ⟨kind, String.ofList text,
    ⟨file, cursor.line, cursor.col, cursor.offset, cursor.offset + byteSize text⟩⟩

/-- A token together with the cursor behind it. -/
def take (file : String) (cursor : Cursor) (kind : TokenKind) (text : List Char) :
    Token × Cursor :=
  (cursor.token file kind text, cursor.advance text)

/-- The string literal at a cursor. Its token begins behind the opening quote. -/
def takeLiteral (file : String) (cursor : Cursor) : Except LexicalFault (Token × Cursor) := do
  let (content, _) ← cursor.literal
  match Json.Literal.decode (content ++ ['"']) with
  | .error fault => throw ⟨.invalidLiteral fault, cursor.line, cursor.col⟩
  | .ok _ =>
    let inner := cursor.advance ['"']
    return (inner.token file .string content, inner.advance (content ++ ['"']))

/-- The number at a cursor. It must denote a number and may not run into a name. -/
def takeNumber (file : String) (cursor : Cursor) : Except LexicalFault (Token × Cursor) :=
  let text := numberOf cursor.rest
  let behind := cursor.advance text
  if behind.rest.head?.any continuesNumber then
    .error ⟨.invalidNumber, behind.line, behind.col⟩
  else if (Double.ofText? (String.ofList text)).isNone then
    .error ⟨.invalidNumber, cursor.line, cursor.col⟩
  else .ok (cursor.take file .number text)

/-- The token at a cursor that stands behind a gap. -/
def takeToken (file : String) (cursor : Cursor) : Except LexicalFault (Token × Cursor) :=
  match symbol? cursor.rest with
  | some symbol => .ok (cursor.take file .symbol symbol)
  | none =>
    match cursor.rest with
    | [] => .ok (cursor.take file .finish [])
    | c :: _ =>
      if c = '\x00' then .ok (cursor.take file .finish [])
      else if c = '"' then cursor.takeLiteral file
      else if c.isDigit then cursor.takeNumber file
      else if isNameStart c then
        .ok (cursor.take file .name (cursor.rest.takeWhile isNameChar))
      else .error ⟨.invalidCharacter, cursor.line, cursor.col⟩

/-- The next token, and the cursor behind it. -/
def next (file : String) (cursor : Cursor) : Except LexicalFault (Token × Cursor) := do
  (← cursor.skip).takeToken file

/-- All tokens from a cursor on, the end token included, and the fault that cuts them short. Every
token but the end token takes a character, so `fuel` above the number of characters suffices. -/
def tokens (file : String) : (fuel : Nat) → Cursor → List Token × Option LexicalFault
  | 0, _ => ([], none)
  | fuel + 1, cursor =>
    match cursor.next file with
    | .error fault => ([], some fault)
    | .ok (token, behind) =>
      if token.kind = .finish then ([token], none)
      else
        let (rest, fault) := tokens file fuel behind
        (token :: rest, fault)

end Cursor

/-- The tokens of a source, and the fault that cuts them short. -/
def Source.tokens (source : Source) : List Token × Option LexicalFault :=
  let cursor := Cursor.ofSource source
  cursor.tokens source.file (cursor.rest.length + 1)

end SchemaProjection
