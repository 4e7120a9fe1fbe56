import SchemaProjection.Grammar.Parsing

/-!
# Printing

How projections are written down. A tree is first put into **lexemes**, which are tokens without
their places (`Style.file`), and these are spelled one after the other with a single space between
them (`Style.text`).

An operand stands between parentheses if it binds more loosely than its position asks for. Levels
of binding are counted from the loosest: `0` to `5` are those of the binary operators, which
associate to the left, `6` is the level of unary operators, and everything else binds as tightly as
a member. A `Style` decides what may be decided freely: which other operands stand between
parentheses, and whether semicolons and braces that can be left out are written.

Not every tree can be written down. `ProjectionTree.writable` asks for words that the language reads
as such, and for calls of names and members only.
-/

namespace SchemaProjection

/-! ### Lexemes -/

/-- A token without its place. -/
structure Lexeme where
  kind : TokenKind
  text : String
deriving DecidableEq

def Token.lexeme (token : Token) : Lexeme := ⟨token.kind, token.text⟩

namespace Lexeme

def symbol (text : String) : Lexeme := ⟨.symbol, text⟩

def word (text : String) : Lexeme := ⟨.name, text⟩

/-- What closes every list of tokens. -/
def finish : Lexeme := ⟨.finish, ""⟩

/-- The text by which the grammar tells lexemes apart. -/
def label (l : Lexeme) : String := if l.kind = .string then "" else l.text

@[simp] theorem label_symbol (text : String) : (symbol text).label = text := rfl

@[simp] theorem label_word (text : String) : (word text).label = text := rfl

/-- A lexeme as it stands in a source. -/
def spelling (l : Lexeme) : String := if l.kind = .string then "\"" ++ l.text ++ "\"" else l.text

end Lexeme

/-- The content of a string literal. -/
def quotedText (s : String) : String := String.ofList (s.toList.flatMap Json.Literal.escape)

def Literal.lexeme : Literal → Lexeme
  | .string s => ⟨.string, quotedText s⟩
  | .number lexeme => ⟨.number, lexeme⟩
  | .bool b => .word (if b then "true" else "false")

/-! ### Trees without places -/

def Word.bare (w : Word) : Word := ⟨w.text, default⟩

mutual

/-- An expression without the places it was read from. -/
def Expr.bare : Expr → Expr
  | .literal _ value => .literal default value
  | .name word => .name word.bare
  | .member _ target field => .member default target.bare field.bare
  | .call _ callee args => .call default callee.bare (Expr.bares args)
  | .decorator _ name args => .decorator default name.bare (Expr.bares args)
  | .project _ target name args => .project default target.bare name.bare (Expr.bares args)
  | .lambda _ params body => .lambda default (params.map Word.bare) body.bare
  | .unary _ op operand => .unary default op operand.bare
  | .binary _ op lhs rhs => .binary default op lhs.bare rhs.bare

def Expr.bares : List Expr → List Expr
  | [] => []
  | e :: es => e.bare :: Expr.bares es

def Stmt.bare : Stmt → Stmt
  | .expr _ e => .expr default e.bare
  | .cond _ test body none => .cond default test.bare body.bare none
  | .cond _ test body (some otherwise) => .cond default test.bare body.bare (some otherwise.bare)
  | .ret _ e => .ret default e.bare

def Stmt.bares : List Stmt → List Stmt
  | [] => []
  | s :: ss => s.bare :: Stmt.bares ss

def Block.bare : Block → Block
  | .mk _ stmts => .mk default (Stmt.bares stmts)

end

theorem Expr.bares_eq_map (es : List Expr) : Expr.bares es = es.map Expr.bare := by
  induction es with
  | nil => rfl
  | cons e es ih => rw [Expr.bares, ih, List.map_cons]

theorem Stmt.bares_eq_map (ss : List Stmt) : Stmt.bares ss = ss.map Stmt.bare := by
  induction ss with
  | nil => rfl
  | cons s ss ih => rw [Stmt.bares, ih, List.map_cons]

theorem Stmt.bare_cond (span : Span) (test : Expr) (body : Block) (otherwise : Option Block) :
    (Stmt.cond span test body otherwise).bare =
      .cond default test.bare body.bare (otherwise.map Block.bare) := by
  cases otherwise <;> rfl

theorem Expr.isCallable_bare (e : Expr) : e.bare.isCallable = e.isCallable := by
  cases e <;> rfl

def DirectionTree.bare (tree : DirectionTree) : DirectionTree :=
  ⟨default, tree.params.map Word.bare, tree.body.bare⟩

/-- A projection without the places it was read from. -/
def ProjectionTree.bare (tree : ProjectionTree) : ProjectionTree :=
  ⟨default, tree.selector.bare, tree.name.bare, tree.forward?.map DirectionTree.bare,
    tree.backward?.map DirectionTree.bare⟩

/-! ### Binding -/

def UnaryOp.symbol : UnaryOp → String
  | .not => "!"
  | .neg => "-"

def BinaryOp.symbol : BinaryOp → String
  | .logic .or => "||"
  | .logic .and => "&&"
  | .compare .eq => "=="
  | .compare .ne => "!="
  | .compare .lt => "<"
  | .compare .le => "<="
  | .compare .gt => ">"
  | .compare .ge => ">="
  | .arithmetic .add => "+"
  | .arithmetic .sub => "-"
  | .arithmetic .mul => "*"
  | .arithmetic .div => "/"

/-- How tightly an operator binds. -/
def BinaryOp.level : BinaryOp → Nat
  | .logic .or => 0
  | .logic .and => 1
  | .compare .eq | .compare .ne => 2
  | .compare .lt | .compare .le | .compare .gt | .compare .ge => 3
  | .arithmetic .add | .arithmetic .sub => 4
  | .arithmetic .mul | .arithmetic .div => 5

/-- How tightly an expression binds. -/
def Expr.level : Expr → Nat
  | .binary _ op _ _ => op.level
  | .unary _ _ _ => 6
  | _ => 7

/-- Whether an expression is more than a literal or a name. -/
def Expr.isCompound : Expr → Bool
  | .literal _ _ | .name _ => false
  | _ => true

/-! ### Words and numbers -/

/-- A text that is read as a word, be it a keyword or a name. -/
def isWord (text : String) : Bool :=
  match text.toList with
  | c :: cs => Cursor.isNameStart c && cs.all Cursor.isNameChar
  | [] => false

/-- A text that is read as a name. -/
def isIdentifier (text : String) : Bool := isWord text && !Parse.keywords.contains text

/-- A text that is read as one number. -/
def isNumeral (text : String) : Bool :=
  text.toList.head?.any Char.isDigit && Cursor.numberOf text.toList = text.toList &&
    (Double.ofText? text).isSome

mutual

/-- Whether an expression can be written down. -/
def Expr.writable : Expr → Bool
  | .literal _ (.number lexeme) => isNumeral lexeme
  | .literal _ _ => true
  | .name word => isIdentifier word.text
  | .member _ target field => target.writable && isWord field.text
  | .call _ callee args => callee.isCallable && callee.writable && Expr.allWritable args
  | .decorator _ name args => isIdentifier name.text && Expr.allWritable args
  | .project _ target name args =>
    target.writable && isIdentifier name.text && Expr.allWritable args
  | .lambda _ params body => params.all (fun w => isIdentifier w.text) && body.writable
  | .unary _ _ operand => operand.writable
  | .binary _ _ lhs rhs => lhs.writable && rhs.writable

def Expr.allWritable : List Expr → Bool
  | [] => true
  | e :: es => e.writable && Expr.allWritable es

def Stmt.writable : Stmt → Bool
  | .expr _ e => e.writable
  | .cond _ test body none => test.writable && body.writable
  | .cond _ test body (some otherwise) => test.writable && body.writable && otherwise.writable
  | .ret _ e => e.writable

def Stmt.allWritable : List Stmt → Bool
  | [] => true
  | s :: ss => s.writable && Stmt.allWritable ss

def Block.writable : Block → Bool
  | .mk _ stmts => Stmt.allWritable stmts

end

theorem Stmt.writable_cond (span : Span) (test : Expr) (body : Block) (otherwise : Option Block) :
    (Stmt.cond span test body otherwise).writable =
      (test.writable && body.writable && otherwise.all Block.writable) := by
  cases otherwise with
  | none => exact (Bool.and_true _).symm
  | some otherwise => rfl

theorem Expr.allWritable_eq (es : List Expr) : Expr.allWritable es = es.all Expr.writable := by
  induction es with
  | nil => rfl
  | cons e es ih => rw [Expr.allWritable, ih, List.all_cons]

theorem Stmt.allWritable_eq (ss : List Stmt) : Stmt.allWritable ss = ss.all Stmt.writable := by
  induction ss with
  | nil => rfl
  | cons s ss ih => rw [Stmt.allWritable, ih, List.all_cons]

def DirectionTree.writable (tree : DirectionTree) : Bool :=
  tree.params.all (fun w => isIdentifier w.text) && tree.body.writable

/-- Whether a projection can be written down. -/
def ProjectionTree.writable (tree : ProjectionTree) : Bool :=
  isIdentifier tree.selector.text && isIdentifier tree.name.text &&
    tree.forward?.all DirectionTree.writable && tree.backward?.all DirectionTree.writable

/-! ### Lexemes of a tree -/

/-- Lexemes between parentheses. -/
def enclosed (inner : List Lexeme) : List Lexeme := .symbol "(" :: inner ++ [.symbol ")"]

theorem enclosed_append (inner after : List Lexeme) :
    enclosed inner ++ after = .symbol "(" :: (inner ++ .symbol ")" :: after) := by
  rw [enclosed, List.cons_append, List.cons_append, List.append_assoc]
  rfl

/-- Items between parentheses, separated by commas. -/
def listed (items : List (List Lexeme)) : List Lexeme :=
  enclosed ([Lexeme.symbol ","].intercalate items)

/-- Parameters between parentheses. -/
def listedWords (words : List Word) : List Lexeme := listed (words.map fun w => [.word w.text])

/-- What may be decided freely when a tree is written down. -/
structure Style where
  /-- Which operands stand between parentheses that they do not need. -/
  parens : Expr → Bool
  /-- Whether a condition that is all that stands behind `else` does without braces. -/
  elseIf : Bool
  /-- Whether a semicolon is written behind a condition and at the end of a block. -/
  semicolons : Bool

namespace Style

/-- Parentheses stand only where they are needed. -/
def minimal : Style := ⟨fun _ => false, true, false⟩

/-- Every compound operand stands between parentheses. -/
def full : Style := ⟨Expr.isCompound, false, true⟩

variable (style : Style)

/-- An expression, of which the lexemes are given, in a position of the given level. -/
def operand (level : Nat) (e : Expr) (lexemes : List Lexeme) : List Lexeme :=
  if e.level < level || style.parens e then enclosed lexemes else lexemes

/-- What stands behind a statement of a block. -/
def terminator (last : Bool) : Stmt → List Lexeme
  | .cond _ _ _ _ => if style.semicolons then [.symbol ";"] else []
  | .expr _ _ | .ret _ _ => if last && !style.semicolons then [] else [.symbol ";"]

/-- The statements of a block, of each of which the lexemes are given. -/
def sequence : List Stmt → List (List Lexeme) → List Lexeme
  | s :: ss, l :: ls => l ++ style.terminator ss.isEmpty s ++ sequence ss ls
  | _, _ => []

/-- A block of statements. -/
def braced (stmts : List Stmt) (lexemes : List (List Lexeme)) : List Lexeme :=
  .symbol "\x7b" :: style.sequence stmts lexemes ++ [.symbol "\x7d"]

/-- What stands behind `else`. -/
def alternative (stmts : List Stmt) (lexemes : List (List Lexeme)) : List Lexeme :=
  match stmts with
  | [.cond _ _ _ _] => if style.elseIf then lexemes.flatten else style.braced stmts lexemes
  | _ => style.braced stmts lexemes

mutual

/-- The lexemes of an expression. -/
def expr : Expr → List Lexeme
  | .literal _ value => [value.lexeme]
  | .name word => [.word word.text]
  | .member _ target field =>
    style.operand 7 target (expr target) ++ [.symbol ".", .word field.text]
  | .call _ callee args => style.operand 7 callee (expr callee) ++ listed (exprs args)
  | .decorator _ name args => .symbol "@" :: .word name.text :: listed (exprs args)
  | .project _ target name args =>
    style.operand 7 target (expr target) ++ .symbol "#" :: .word name.text ::
      if args.isEmpty then [] else listed (exprs args)
  | .lambda _ params body => listedWords params ++ .symbol "=>" :: block body
  | .unary _ op operand => .symbol op.symbol :: style.operand 6 operand (expr operand)
  | .binary _ op lhs rhs =>
    style.operand op.level lhs (expr lhs) ++
      .symbol op.symbol :: style.operand (op.level + 1) rhs (expr rhs)

def exprs : List Expr → List (List Lexeme)
  | [] => []
  | e :: es => expr e :: exprs es

/-- The lexemes of a statement, without a semicolon behind it. -/
def stmt : Stmt → List Lexeme
  | .expr _ e => expr e
  | .cond _ test body none => .word "if" :: expr test ++ block body
  | .cond _ test body (some (.mk _ otherwise)) =>
    .word "if" :: expr test ++ block body ++
      .word "else" :: style.alternative otherwise (stmts otherwise)
  | .ret _ e => .word "return" :: expr e

def stmts : List Stmt → List (List Lexeme)
  | [] => []
  | s :: ss => stmt s :: stmts ss

/-- The lexemes of a block. -/
def block : Block → List Lexeme
  | .mk _ ss => style.braced ss (stmts ss)

end

/-- The lexemes behind the body of a condition. -/
def otherwise : Option Block → List Lexeme
  | none => []
  | some (.mk _ ss) => .word "else" :: style.alternative ss (style.stmts ss)

theorem stmt_cond (span : Span) (test : Expr) (body : Block) (otherwise : Option Block) :
    style.stmt (.cond span test body otherwise) =
      .word "if" :: (style.expr test ++ (style.block body ++ style.otherwise otherwise)) := by
  rcases otherwise with _ | ⟨_, ss⟩
  · rw [stmt, Style.otherwise, List.append_nil]
    rfl
  · rw [stmt, Style.otherwise, List.append_assoc]
    rfl

theorem exprs_eq_map (es : List Expr) : style.exprs es = es.map style.expr := by
  induction es with
  | nil => rfl
  | cons e es ih => rw [exprs, ih, List.map_cons]

/-- The lexemes of a direction with the given keyword. -/
def direction (keyword : String) (tree : DirectionTree) : List Lexeme :=
  .word keyword :: (if tree.params.isEmpty then [] else listedWords tree.params) ++
    style.block tree.body

/-- The lexemes of a projection. -/
def projection (tree : ProjectionTree) : List Lexeme :=
  [.word "projection", .word tree.selector.text, .symbol "#", .word tree.name.text,
    .symbol "\x7b"] ++
  (tree.forward?.toList.flatMap (style.direction "to") ++
    tree.backward?.toList.flatMap (style.direction "from")) ++
  [.symbol "\x7d"]

/-- The lexemes of a file. -/
def file (trees : List ProjectionTree) : List Lexeme := trees.flatMap style.projection

/-- **The text of a file**: its lexemes with a single space between them. -/
def text (trees : List ProjectionTree) : String :=
  " ".intercalate ((style.file trees).map Lexeme.spelling)

end Style

end SchemaProjection
