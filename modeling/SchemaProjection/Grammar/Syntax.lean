import SchemaProjection.Grammar.Lexing

/-!
# Reading from a token stream

`Parse` is the type of parsers: they read a `TokenStream`, and stop at the first fault. A token is
known before the one behind it has been looked at, so a lexical fault counts only once the tokens
in front of it are consumed.

`Parse.iterate` is the one loop of the grammar. Its rounds each consume a token, so the tokens
left bound their number.
-/

namespace SchemaProjection

/-! ### Faults -/

/-- What was being read when a symbol was missing. -/
inductive GrammarContext
  | lambdaParameters
  | projectionParameters
  | decoratorCall
  | call
  | projectionReference
  | parentheses
  | block
  | projectionStart
  | projectionName
  | projection
deriving DecidableEq

def GrammarContext.text : GrammarContext → String
  | .lambdaParameters => "while parsing lambda parameters"
  | .projectionParameters => "while parsing projection parameters"
  | .decoratorCall => "while parsing decorator call"
  | .call => "while parsing call expr"
  | .projectionReference => "while parsing projection reference"
  | .parentheses => "while parsing parenthesized expression"
  | .block => "while parsing block"
  | .projectionStart => "at start of projection declaration"
  | .projectionName => "between projection target and name"
  | .projection => "while parsing projection declaration"

/-- Why a source is not well formed. -/
inductive SyntaxCause
  | lexical (cause : LexicalCause)
  | missing (label : String) (context : GrammarContext)
  | missingName
  | missingMember
  | missingExpression
  | missingTerminator
  | missingDirection
  | unexpectedKeyword (word : String)
  | unfinishedBlock
  | unknownDirective (name : String)
  | duplicateDirection (name : String)
  /-- The bound on nesting was reached; no source gets that far. -/
  | nesting
deriving DecidableEq

def SyntaxCause.text : SyntaxCause → String
  | .lexical cause => cause.text
  | .missing label context => s!"expecting `{label}` {context.text}"
  | .missingName => "expecting identifier"
  | .missingMember => "expecting member name"
  | .missingExpression => "expecting expression"
  | .missingTerminator => "expecting `;` after statement"
  | .missingDirection => "expecting `to` or `from`"
  | .unexpectedKeyword word => s!"unexpected keyword `{word}`"
  | .unfinishedBlock => "unexpected eof while parsing block"
  | .unknownDirective name => s!"unknown directive `{name}`"
  | .duplicateDirection name => s!"duplicate `{name}` direction in projection"
  | .nesting => "nesting too deep"

/-- A fault in the form of a source, and where it is reported. -/
structure SyntaxFault where
  cause : SyntaxCause
  line : Nat
  col : Nat
deriving DecidableEq

def SyntaxFault.message (fault : SyntaxFault) (source : Source) : String :=
  source.message fault.line fault.col "error" fault.cause.text

def LexicalFault.toSyntaxFault (fault : LexicalFault) : SyntaxFault :=
  ⟨.lexical fault.cause, fault.line, fault.col⟩

/-! ### Token streams -/

/-- The tokens still to read. -/
structure TokenStream where
  /-- The token that decides what comes next. -/
  current : Token
  rest : List Token
  /-- What stands in the way behind the last token, if it is not the end token. -/
  fault : Option LexicalFault
  /-- Where the token before the current one ends. -/
  lastStop : Nat

/-- A parser. -/
abbrev Parse := StateT TokenStream (Except SyntaxFault)

namespace Parse

def current : Parse Token := return (← get).current

/-- The label of the current token. -/
def label : Parse String := return (← current).label

def lastStop : Parse Nat := return (← get).lastStop

/-- A span that began at an earlier token and ends where the last consumed token does. -/
def closing (span : Span) : Parse Span := return { span with stop := ← lastStop }

def failAt (span : Span) (cause : SyntaxCause) : Parse α := throw ⟨cause, span.line, span.col⟩

/-- Stops at the current token. -/
def fail (cause : SyntaxCause) : Parse α := do failAt (← current).span cause

/-- Consumes the current token. The end token stays. -/
def advance : Parse Unit := do
  let stream ← get
  let lastStop := stream.current.span.stop
  match stream.rest with
  | token :: rest => set { stream with current := token, rest, lastStop }
  | [] =>
    match stream.fault with
    | some fault => throw fault.toSyntaxFault
    | none => set { stream with lastStop }

/-- Consumes a token with the given label. -/
def expect (label : String) (context : GrammarContext) : Parse Unit := do
  if (← Parse.label) = label then advance else fail (.missing label context)

/-- Consumes a token with the given label if it is the current one. -/
def skip (label : String) : Parse Unit := do
  if (← Parse.label) = label then advance

/-- The words that are no names. -/
def keywords : List String :=
  ["else", "false", "from", "if", "projection", "return", "to", "true"]

/-- A name that is no keyword. -/
def identifier : Parse Word := do
  let token ← current
  if token.kind ≠ .name then fail .missingName
  else if keywords.contains token.text then fail (.unexpectedKeyword token.text)
  else
    advance
    return token.word

/-- A name behind a point, which may be a keyword. -/
def memberName : Parse Word := do
  let token ← current
  if token.kind ≠ .name then fail .missingMember
  else
    advance
    return token.word

/-- Repeats `round` until it returns nothing, at most once more than there are `tokens`. -/
def loop (round : α → Parse (Option α)) : (tokens : List Token) → α → Parse α
  | [], a => do
    match ← round a with
    | none => return a
    | some _ => fail .nesting
  | _ :: tokens, a => do
    match ← round a with
    | none => return a
    | some next => loop round tokens next

/-- Repeats `round` until it returns nothing. Each round that returns something consumes a token,
so the tokens that are left bound the rounds. -/
def iterate (round : α → Parse (Option α)) (a : α) : Parse α := do loop round (← get).rest a

/-- A list between parentheses, separated by commas, of which one may follow the last item. If
`endsEarly` the text may end behind a comma, and the missing parenthesis is what is reported. -/
def listOf (endsEarly : Bool) (context : GrammarContext) (item : Parse α) : Parse (List α) := do
  expect "(" context
  let items ← if (← label) = ")" then pure [] else do
    let first ← item
    iterate (fun items => do
      if (← label) ≠ "," then return none
      advance
      let token ← current
      if token.label = ")" || (endsEarly && token.kind = .finish) then return some items
      return some ((← item) :: items)) [first]
  expect ")" context
  return items.reverse

end Parse

end SchemaProjection
