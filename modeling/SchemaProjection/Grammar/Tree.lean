import SchemaProjection.Grammar.Source
import SchemaProjection.Value

/-!
# Syntax trees

What a projection file says: projections, each with up to two directions, whose bodies are
blocks of statements over expressions. Every node keeps the span it was read from.
-/

namespace SchemaProjection

/-! ### Operators -/

inductive ArithmeticOp
  | add
  | sub
  | mul
  | div
deriving DecidableEq

inductive CompareOp
  | lt
  | le
  | eq
  | ge
  | gt
  | ne
deriving DecidableEq

inductive LogicOp
  | and
  | or
deriving DecidableEq

inductive UnaryOp
  | not
  | neg
deriving DecidableEq

def ArithmeticOp.name : ArithmeticOp → String
  | .add => "Add"
  | .sub => "Sub"
  | .mul => "Mul"
  | .div => "Div"

def CompareOp.name : CompareOp → String
  | .lt => "Lt"
  | .le => "Le"
  | .eq => "Eq"
  | .ge => "Ge"
  | .gt => "Gt"
  | .ne => "Ne"

def LogicOp.name : LogicOp → String
  | .and => "And"
  | .or => "Or"

def UnaryOp.name : UnaryOp → String
  | .not => "Not"
  | .neg => "Neg"

/-- The operators between two operands. -/
inductive BinaryOp
  | arithmetic (op : ArithmeticOp)
  | compare (op : CompareOp)
  | logic (op : LogicOp)
deriving DecidableEq

/-! ### Expressions, statements and blocks -/

/-- A value spelled out in a source. A number is kept as it is written. -/
inductive Literal
  | string (s : String)
  | number (lexeme : String)
  | bool (b : Bool)
deriving DecidableEq

/-- The value of a literal. The lexemes of number tokens all denote a number. -/
def Literal.value : Literal → Value
  | .string s => .string s
  | .number lexeme => .number ((Double.ofText? lexeme).getD .zero)
  | .bool b => .bool b

mutual

inductive Expr
  | literal (span : Span) (value : Literal)
  | name (word : Word)
  /-- A member of a node: `a.b`. -/
  | member (span : Span) (target : Expr) (field : Word)
  /-- A call: `f(a)` or `a.f(b)`. -/
  | call (span : Span) (callee : Expr) (args : List Expr)
  /-- A decorator applied to its first argument: `@name(a, b)`. -/
  | decorator (span : Span) (name : Word) (args : List Expr)
  /-- A projection applied to a node: `a#name(b)`. -/
  | project (span : Span) (target : Expr) (name : Word) (args : List Expr)
  /-- A loop body: `(p) => { ... }`. -/
  | lambda (span : Span) (params : List Word) (body : Block)
  | unary (span : Span) (op : UnaryOp) (operand : Expr)
  | binary (span : Span) (op : BinaryOp) (lhs rhs : Expr)

inductive Stmt
  | expr (span : Span) (e : Expr)
  /-- A condition. An `else if` is a condition alone in the block `otherwise`. -/
  | cond (span : Span) (test : Expr) (body : Block) (otherwise : Option Block)
  | ret (span : Span) (e : Expr)

inductive Block
  | mk (span : Span) (stmts : List Stmt)

end

instance : Inhabited Block := ⟨.mk default []⟩

namespace Block

def span : Block → Span
  | .mk span _ => span

def stmts : Block → List Stmt
  | .mk _ stmts => stmts

end Block

def Stmt.span : Stmt → Span
  | .expr span _ => span
  | .cond span _ _ _ => span
  | .ret span _ => span

def Expr.span : Expr → Span
  | .literal span _ => span
  | .name word => word.span
  | .member span _ _ => span
  | .call span _ _ => span
  | .decorator span _ _ => span
  | .project span _ _ _ => span
  | .lambda span _ _ => span
  | .unary span _ _ => span
  | .binary span _ _ _ => span

/-- Whether a call may follow: names and members can be called. -/
def Expr.isCallable : Expr → Bool
  | .name _ => true
  | .member _ _ _ => true
  | _ => false

/-! ### Declarations -/

/-- One direction of a projection: its parameters and its body. -/
structure DirectionTree where
  span : Span
  params : List Word
  body : Block

/-- A projection, with what it applies to and what it is called. -/
structure ProjectionTree where
  span : Span
  /-- A kind of node, or the name of a declared type. -/
  selector : Word
  name : Word
  forward? : Option DirectionTree
  backward? : Option DirectionTree

end SchemaProjection
