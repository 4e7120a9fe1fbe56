import SchemaProjection.Grammar.Source
import SchemaProjection.Json.Literal

/-!
# Tokens

The smallest parts of a source: symbols, string literals, numbers and names, closed by an end
token. The span of a string literal leaves out its quotes.
-/

namespace SchemaProjection

inductive TokenKind
  | symbol
  | string
  | number
  | name
  | finish
deriving DecidableEq, Inhabited

/-- A token: its kind, the text it covers and where that stands. -/
structure Token where
  kind : TokenKind
  text : String
  span : Span
deriving DecidableEq, Inhabited

namespace Token

/-- The text by which the grammar tells tokens apart. A string literal has none, so that it is
never taken for a symbol or a keyword. -/
def label (token : Token) : String := if token.kind = .string then "" else token.text

/-- A token read as a name. -/
def word (token : Token) : Word := ⟨token.text, token.span⟩

end Token

/-! ### Faults -/

/-- Why a text does not split into tokens. -/
inductive LexicalCause
  | invalidCharacter
  | invalidNumber
  | invalidEscape
  | invalidHexEscape
  | unterminatedString
  | unmatchedQuote
  | unterminatedComment
  /-- A carriage return stands without a line feed. -/
  | bareReturn
  /-- The literal is closed and its escapes have the right shape, but it denotes no string. -/
  | invalidLiteral (fault : Json.Literal.FaultAt)
deriving DecidableEq

def LexicalCause.text : LexicalCause → String
  | .invalidCharacter => "invalid character"
  | .invalidNumber => "invalid number"
  | .invalidEscape => "invalid escape sequence"
  | .invalidHexEscape => "invalid hex escape sequence"
  | .unterminatedString => "unterminated string"
  | .unmatchedQuote => "unmatched \""
  | .unterminatedComment => "unterminated comment"
  | .bareReturn => "\\r must be followed by \\n"
  | .invalidLiteral fault => s!"serde_json cannot parse string: {fault.message}"

/-- A fault in the splitting of a text into tokens, and where it is reported. -/
structure LexicalFault where
  cause : LexicalCause
  line : Nat
  col : Nat
deriving DecidableEq

def LexicalFault.message (fault : LexicalFault) (source : Source) : String :=
  source.message fault.line fault.col "error" fault.cause.text

end SchemaProjection
