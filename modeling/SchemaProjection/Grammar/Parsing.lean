import SchemaProjection.Grammar.Syntax
import SchemaProjection.Grammar.Tree

/-!
# The grammar

Expressions, blocks and conditions contain one another. Each is written here for the case that
parsers for what it contains are given (`Parsers`), and `parsers` ties the knot: at level `n + 1`
the parts are read at level `n`. A level is entered only behind a consumed token, so as many levels
as there are tokens suffice for any source.

Binary operators bind in the order of `binaryLevels`, the loosest first, and associate to the left;
unary operators bind tighter, and members, calls and projections tightest.

A binary expression and a suffix report the place of their operator, and cover all bytes from the
first operand to the last token.
-/

namespace SchemaProjection

/-- Parsers for the parts that contain one another. -/
structure Parsers where
  expr : Parse Expr
  /-- An operand of a binary operator. -/
  operand : Parse Expr
  block : Parse Block
  /-- A condition, from its keyword on. -/
  cond : Parse Stmt

namespace Parsers

/-! ### Operands -/

/-- A literal or a name. -/
def atom : Parse Expr := do
  let token ← Parse.current
  match token.kind with
  | .number =>
    Parse.advance
    return .literal token.span (.number token.text)
  | .string =>
    match Json.Literal.decode (token.text.toList ++ ['"']) with
    | .ok (s, _) =>
      Parse.advance
      return .literal token.span (.string (String.ofList s))
    | .error fault => Parse.fail (.lexical (.invalidLiteral fault))
  | .name =>
    if token.text = "true" || token.text = "false" then
      Parse.advance
      return .literal token.span (.bool (token.text = "true"))
    else return .name (← Parse.identifier)
  | _ => Parse.fail .missingExpression

variable (p : Parsers)

def arguments (context : GrammarContext) : Parse (List Expr) := Parse.listOf true context p.expr

def parameters (context : GrammarContext) : Parse (List Word) :=
  Parse.listOf false context Parse.identifier

/-- A lambda, or nothing without consuming a token if no parameter list with an arrow behind it
can be read. -/
def lambda? : Parse (Option Expr) := do
  let span := (← Parse.current).span
  match (parameters .lambdaParameters).run (← get) with
  | .error _ => return none
  | .ok (params, behind) =>
    if behind.current.label ≠ "=>" then return none
    else
      set behind
      Parse.advance
      let body ← p.block
      return some (.lambda (← Parse.closing span) params body)

/-- What begins with a parenthesis. -/
def parenthesized : Parse Expr := do
  match ← p.lambda? with
  | some lambda => return lambda
  | none =>
    Parse.advance
    let e ← p.expr
    Parse.expect ")" .parentheses
    return e

def decorator : Parse Expr := do
  let span := (← Parse.current).span
  Parse.advance
  let name ← Parse.identifier
  let args ← p.arguments .decoratorCall
  return .decorator (← Parse.closing span) name args

/-- The expression continued by a member, a call or a projection, if one follows. -/
def suffix? (start : Nat) (term : Expr) : Parse (Option Expr) := do
  let token ← Parse.current
  let span := { token.span with start }
  if token.label = "." then
    Parse.advance
    let field ← Parse.memberName
    return some (.member (← Parse.closing span) term field)
  else if token.label = "(" && term.isCallable then
    let args ← p.arguments .call
    return some (.call (← Parse.closing span) term args)
  else if token.label = "#" then
    Parse.advance
    let name ← Parse.identifier
    let args ← if (← Parse.label) = "(" then p.arguments .projectionReference else pure []
    return some (.project (← Parse.closing span) term name args)
  else return none

/-- A term with its suffixes. -/
def reference : Parse Expr := do
  let token ← Parse.current
  let term ←
    if token.label = "(" then p.parenthesized
    else if token.label = "@" then p.decorator
    else atom
  Parse.iterate (p.suffix? token.span.start) term

def unaryOp? : String → Option UnaryOp
  | "!" => some .not
  | "-" => some .neg
  | _ => none

/-- A reference, behind any number of unary operators. -/
def unary : Parse Expr := do
  let token ← Parse.current
  match unaryOp? token.label with
  | none => p.reference
  | some op =>
    Parse.advance
    let operand ← p.operand
    return .unary (← Parse.closing token.span) op operand

/-! ### Binary operators -/

/-- The operators of each level, the loosest level first. -/
def binaryLevels : List (List (String × BinaryOp)) :=
  [[("||", .logic .or)],
   [("&&", .logic .and)],
   [("==", .compare .eq), ("!=", .compare .ne)],
   [("<", .compare .lt), ("<=", .compare .le), (">", .compare .gt), (">=", .compare .ge)],
   [("+", .arithmetic .add), ("-", .arithmetic .sub)],
   [("*", .arithmetic .mul), ("/", .arithmetic .div)]]

/-- The expression continued by an operator of one level, if one follows. -/
def binary? (ops : List (String × BinaryOp)) (operand : Parse Expr) (start : Nat) (lhs : Expr) :
    Parse (Option Expr) := do
  let token ← Parse.current
  match ops.lookup token.label with
  | none => return none
  | some op =>
    Parse.advance
    let rhs ← operand
    return some (.binary (← Parse.closing { token.span with start }) op lhs rhs)

/-- Operands joined by the operators of one level. -/
def chain (ops : List (String × BinaryOp)) (operand : Parse Expr) : Parse Expr := do
  let start := (← Parse.current).span.start
  let first ← operand
  Parse.iterate (binary? ops operand start) first

/-- Operands joined by the operators of some levels. -/
def chains (levels : List (List (String × BinaryOp))) (operand : Parse Expr) : Parse Expr :=
  levels.foldr chain operand

def expression : Parse Expr := chains binaryLevels p.unary

/-! ### Statements -/

/-- The end of a statement: a semicolon, or the brace that closes the block. -/
def terminator : Parse Unit := do
  let label ← Parse.label
  if label = ";" then Parse.advance
  else if label = "\x7d" then return ()
  else Parse.fail .missingTerminator

/-- What stands behind `else`: a block, or a condition that becomes a block of its own. -/
def alternative : Parse Block := do
  let token ← Parse.current
  if token.label = "if" then
    let nested ← p.cond
    return .mk (← Parse.closing token.span) [nested]
  else p.block

def condition : Parse Stmt := do
  let span := (← Parse.current).span
  Parse.advance
  let test ← p.expr
  let body ← p.block
  let otherwise ← if (← Parse.label) = "else" then do
    Parse.advance
    pure (some (← p.alternative))
  else pure none
  return .cond (← Parse.closing span) test body otherwise

def statement : Parse Stmt := do
  let token ← Parse.current
  if token.label = "if" then
    let stmt ← p.condition
    Parse.skip ";"
    return stmt
  else if token.label = "return" then
    Parse.advance
    let e ← p.expression
    let span ← Parse.closing token.span
    terminator
    return .ret span e
  else
    let e ← p.expression
    let span ← Parse.closing token.span
    terminator
    return .expr span e

/-- The statements of a block read so far, the latest first, with the next one in front; empty
statements are skipped. -/
def statement? (stmts : List Stmt) : Parse (Option (List Stmt)) := do
  let token ← Parse.current
  if token.label = "\x7d" then return none
  else if token.label = ";" then
    Parse.advance
    return some stmts
  else if token.kind = .finish then Parse.fail .unfinishedBlock
  else return some ((← p.statement) :: stmts)

def braced : Parse Block := do
  let span := (← Parse.current).span
  Parse.expect "\x7b" .block
  let stmts ← Parse.iterate p.statement? []
  Parse.expect "\x7d" .block
  return .mk (← Parse.closing span) stmts.reverse

end Parsers

/-- Parsers one level up. -/
def Parsers.next (p : Parsers) : Parsers where
  expr := p.expression
  operand := p.unary
  block := p.braced
  cond := p.condition

/-- Parsers for parts that nest at most the given number of levels. -/
def parsers : (levels : Nat) → Parsers
  | 0 => ⟨Parse.fail .nesting, Parse.fail .nesting, Parse.fail .nesting, Parse.fail .nesting⟩
  | levels + 1 => (parsers levels).next

/-! ### Declarations -/

namespace ProjectionTree

/-- A direction, from its keyword on. -/
def direction (p : Parsers) : Parse DirectionTree := do
  let span := (← Parse.current).span
  Parse.advance
  let params ←
    if (← Parse.label) = "(" then Parsers.parameters .projectionParameters else pure []
  let body ← p.block
  return ⟨← Parse.closing span, params, body⟩

/-- The directions read so far, with the next one. -/
def direction? (p : Parsers) :
    Option DirectionTree × Option DirectionTree →
      Parse (Option (Option DirectionTree × Option DirectionTree))
  | (forward?, backward?) => do
    let token ← Parse.current
    if token.label = "\x7d" then return none
    else if token.label = "to" then
      if forward?.isSome then Parse.fail (.duplicateDirection token.label)
      else return some (some (← direction p), backward?)
    else if token.label = "from" then
      if backward?.isSome then Parse.fail (.duplicateDirection token.label)
      else return some (forward?, some (← direction p))
    else Parse.fail .missingDirection

/-- A projection: its selector, its name and its directions. -/
def parse (p : Parsers) : Parse ProjectionTree := do
  let span := (← Parse.current).span
  Parse.expect "projection" .projectionStart
  let selector ← Parse.identifier
  Parse.expect "#" .projectionName
  let name ← Parse.identifier
  Parse.expect "\x7b" .projection
  let (forward?, backward?) ← Parse.iterate (direction? p) (none, none)
  Parse.expect "\x7d" .projection
  return ⟨← Parse.closing span, selector, name, forward?, backward?⟩

/-- The directives in front of a projection. `#suppress` takes any number of strings and has no
effect; there is no other. -/
def directives : Parse Unit :=
  Parse.iterate (fun () => do
    if (← Parse.label) ≠ "#" then return none
    Parse.advance
    let directive ← Parse.identifier
    if directive.text ≠ "suppress" then
      Parse.failAt directive.span (.unknownDirective directive.text)
    Parse.iterate (fun () => do
      if (← Parse.current).kind ≠ .string then return none
      Parse.advance
      return some ()) ()
    return some ()) ()

/-- The projections of a file read so far, the latest first, with the next one in front. -/
def next? (p : Parsers) (trees : List ProjectionTree) : Parse (Option (List ProjectionTree)) := do
  directives
  if (← Parse.current).kind = .finish then return none
  let tree ← parse p
  Parse.skip ";"
  return some (tree :: trees)

/-- The projections of a file. -/
def file (p : Parsers) : Parse (List ProjectionTree) :=
  return (← Parse.iterate (next? p) []).reverse

end ProjectionTree

/-! ### Sources -/

/-- Reads a source from its beginning. The stream that is left tells where reading stopped. -/
def Source.read (source : Source) (entry : Parsers → Parse α) :
    Except SyntaxFault (α × TokenStream) :=
  match source.tokens with
  | (token :: rest, fault) => (entry (parsers (rest.length + 2))).run ⟨token, rest, fault, 0⟩
  | ([], some fault) => .error fault.toSyntaxFault
  | ([], none) => .error ⟨.nesting, 1, 1⟩

/-- The projections that a source declares. -/
def Source.projections (source : Source) : Except SyntaxFault (List ProjectionTree) :=
  (source.read ProjectionTree.file).map Prod.fst

end SchemaProjection
