import SchemaProjection.Run.Editing
import SchemaProjection.Run.Operators
import SchemaProjection.Text.Words

/-!
# Evaluation

Expressions, blocks and applications of projections contain one another. Each is evaluated here for
the case that an `Evaluator` for what it contains is given, and `evaluator` ties the knot: at level
`n + 1` the parts are evaluated at level `n`.

The levels that a run needs are bounded. An expression or a block needs at most its height, and an
application the height of its body and then what the applications inside need, of which at most
`maxDepth` are active at once (`Setting.levels`).

**Applications.** Within a run a projection is applied to a node with given arguments at most once.
While that application is active it stands for the node itself, so that self-referential types end;
afterwards it stands for its result.
-/

namespace SchemaProjection

/-- How a statement or a block ends. -/
inductive Flow
  | proceed
  /-- A `return` was executed. -/
  | returned
deriving DecidableEq

/-- Evaluation of the parts that contain one another. -/
structure Evaluator where
  expr : Expr → Eval Operand
  block : Block → Eval Flow
  apply : NodeId → Projection → Direction → List Value → Eval NodeId

namespace Evaluation

/-! ### Names and fields -/

/-- What a name stands for: a binding, the node of the activation, an intrinsic type, a declared
type or a declared projection, in this order. -/
def resolve (word : Word) : Eval Operand := do
  let name := word.text
  let a ← Eval.activation
  match a.lookup? name with
  | some v => return .value v
  | none =>
    if name = "self" then return .value (.type a.self)
    match Intrinsic.ofName? name with
    | some i => return .value (.type (Graph.intrinsic i))
    | none =>
      match (← Eval.graph).lookup? name with
      | some id => return .value (.type id)
      | none =>
        if (← read).declarations.isDeclared name then return .projection name
        else Eval.fail word.span (.undeclaredIdentifier (.identifier name))

/-- A field of a node, if the node has it. -/
def nodeField? (shape : Shape) (name : String) : Option Operand :=
  match name with
  | "name" => some (.value ((shape.name?.map Value.string).getD .absent))
  | "kind" => some (.value (.string shape.kind.name))
  | "type" => shape.type?.map fun id => .value (.type id)
  | "returnType" => shape.returnType?.map fun id => .value (.type id)
  | "parameters" => shape.parameters?.map fun id => .value (.type id)
  | "optional" =>
    match shape with
    | .modelProperty _ _ optional => some (.value (.bool optional))
    | _ => none
  | "value" =>
    match shape with
    | .enumMember name value => some (.value (value.getD (.string name)))
    | _ => none
  | name => do
    let members ← shape.membersIn? (← Collection.ofName? name)
    return .members members.values

/-- A field of an operand. -/
def field (word : Word) (target : Operand) : Eval Operand := do
  let name := word.text
  let absent (what : Absence) : Eval Operand := Eval.fail word.span (.unknownMember what)
  match target with
  | .value (.type id) =>
    let g ← Eval.graph
    match nodeField? (g.shape id) name with
    | some operand => return operand
    | none => absent (.noField (g.describe id) name)
  | .value (.string s) =>
    if name = "length" then return .value (.number (.ofNat s.length))
    else absent (.noMember Value.Kind.string.name name)
  | .value v => absent (.noMember v.kindName name)
  | .members ids =>
    if name = "size" then return .value (.number (.ofNat ids.length))
    else absent (.noSuchMember name)
  | .projection _ => absent (.noSuchMember name)

/-! ### Host functions -/

/-- Calls an export of the host modules that are visible. What it returns has to be a value of this
graph. -/
def callHost (sort : Host.ExportSort) (word : Word) (args : List Value) : Eval Value := do
  let name := word.text
  let visible := (← read).hosts.take (← Eval.activation).hostCount
  match Host.find? visible sort name with
  | none => Eval.fail word.span (.undeclaredIdentifier (.hostExport sort name))
  | some f =>
    let run ← get
    match (f args).run run.graph |>.run run.metadata with
    | .error fault metadata =>
      set { run with metadata }
      Eval.fail word.span (.host name (.failed fault))
    | .ok value metadata =>
      set { run with metadata }
      match value with
      | .type id =>
        if run.graph.contains id then return .type id
        else Eval.fail word.span (.host name (.foreignNode id))
      | value => return value

/-- The methods of strings. -/
def casing? : String → Option Casing
  | "toCamelCase" => some .camel
  | "toPascalCase" => some .pascal
  | "toSnakeCase" => some .snake
  | "toKebabCase" => some .kebab
  | _ => none

variable (ev : Evaluator)

/-! ### Values -/

/-- The value of an expression that denotes one. -/
def value (e : Expr) : Eval Value := do
  match ← ev.expr e with
  | .value v => return v
  | .members _ => Eval.fail e.span (.typeMismatch .collectionAsValue)
  | .projection name => Eval.fail e.span (.typeMismatch (.projectionAsValue name))

/-- The values of expressions, from left to right. -/
def values (es : List Expr) : Eval (List Value) := es.mapM (value ev)

def truth (e : Expr) : Eval Bool := do
  let operand ← ev.expr e
  return operand.isTruthy (← Eval.graph)

/-! ### Applications -/

/-- Applies the projection of a name in the direction of the activation. A node to which no
projection of that name applies stays as it is; a name that no projection has is an error. -/
def applyNamed : Edits.Apply := fun span node name args => do
  let declarations := (← read).declarations
  if !declarations.isDeclared name then
    Eval.fail span (.unknownProjection (.undeclared name))
  let direction := ((← get).activations.head?.map Activation.direction).getD .forward
  match declarations.resolve? (← Eval.graph) node name with
  | some projection => ev.apply node projection direction args
  | none => return node

/-- The bindings of parameters. A missing argument is none; of two parameters with one name the
later one counts. -/
def bindings (params : List Word) (args : List Value) : Frame :=
  (params.zipIdx.map fun (word, i) => (word.text, (args[i]?).getD .absent)).reverse

/-- Runs the body of a projection in an activation of its own and returns what has become of the
node. The activation is removed even if the body fails. -/
def enter (node : NodeId) (projection : Projection) (direction : Direction) (tree : DirectionTree)
    (args : List Value) : Eval NodeId := do
  let depth := (← get).depth + 1
  Eval.pushActivation
    (.start depth node direction projection.hostCount (bindings tree.params args))
  let (_, a) ← Eval.closing (ev.block tree.body) Eval.popActivation
  return a.self

/-- Applies a direction of a projection to a node. -/
def apply (node : NodeId) (projection : Projection) (direction : Direction) (args : List Value) :
    Eval NodeId := do
  match projection.direction? direction with
  | none =>
    Eval.fail projection.span
      (.unknownProjection (.noDirection projection.name direction.name))
  | some tree =>
    let key : MemoKey := ⟨node, projection.id, direction, args⟩
    match ← Eval.remembered? key with
    | some (.done result) => return result
    | some .active => return node
    | none =>
      let limit := (← read).options.maxDepth
      if limit ≤ (← get).depth then
        Eval.fail projection.span
          (.recursionLimit limit projection.name (← Eval.describe node))
      Eval.remember key .active
      let result ← enter ev node projection direction tree args
      Eval.remember key (.done result)
      return result

/-! ### Calls -/

/-- Binds the parameters of a loop body: the item and its position. -/
def bindItem (params : List Word) (item : NodeId) (position : Nat) : Eval Unit := do
  match params with
  | [] => return ()
  | [p] => Eval.bind p.text (.type item)
  | p :: q :: _ =>
    Eval.bind p.text (.type item)
    Eval.bind q.text (.number (.ofNat position))

/-- Runs a loop body for each item, until a `return`. The frame of the parameters is removed even if
the body fails. -/
def forItems (params : List Word) (body : Block) : (position : Nat) → List NodeId → Eval Flow
  | _, [] => return .proceed
  | position, item :: rest => do
    Eval.pushFrame
    bindItem params item position
    let (flow, _) ← Eval.closing (ev.block body) Eval.popFrame
    match flow with
    | .returned => return .returned
    | .proceed => forItems params body (position + 1) rest

/-- A loop over the members of a collection as they were when it was read. -/
def forEach (span : Span) (items : List NodeId) (args : List Expr) : Eval Unit := do
  match args with
  | [.lambda _ params body] => discard (forItems ev params body 0 items)
  | [arg] => Eval.fail arg.span (.typeMismatch .loopBody)
  | _ => Eval.fail span (.typeMismatch .loopArity)

/-- A method called on what the receiver evaluated to. -/
def callMethod (span : Span) (receiver : Operand) (method : Word) (args : List Expr) :
    Eval Operand := do
  let name := method.text
  let absent (what : Absence) : Eval Operand := Eval.fail method.span (.unknownMember what)
  match receiver with
  | .members items =>
    if name = "forEach" then
      forEach ev span items args
      return .value .absent
    else absent (.noSuchMethod name)
  | .value (.string s) =>
    match casing? name with
    | some casing =>
      if args.isEmpty then return .value (.string (casing.apply s))
      else Eval.fail span (.typeMismatch (.surplusArguments name))
    | none => absent (.noMethod Value.Kind.string.name name)
  | .value (.type id) =>
    match Method.ofName? name with
    | some m =>
      let operands ← args.mapM ev.expr
      return .value (← Edits.run (applyNamed ev) ⟨span, method, id, operands⟩ m)
    | none => absent (.noMethod (← Eval.describe id) name)
  | .value v => absent (.noMethod v.kindName name)
  | .projection _ => absent (.noSuchMethod name)

def call (span : Span) (callee : Expr) (args : List Expr) : Eval Operand := do
  match callee with
  | .name word => return .value (← callHost .function word (← values ev args))
  | .member _ target method => callMethod ev span (← ev.expr target) method args
  | callee => Eval.fail callee.span (.typeMismatch .notCallable)

/-- The arguments of a decorator; a node that it is applied to is the run's own. -/
def decorated : List Value → Eval (List Value)
  | .type id :: rest => return .type (← Edits.materialize id) :: rest
  | args => return args

/-! ### Expressions -/

def unary (span : Span) (op : UnaryOp) (operand : Expr) : Eval Value := do
  let result ← ev.expr operand
  match op, result with
  | .not, result => return .bool (!result.isTruthy (← Eval.graph))
  | .neg, .value (.number x) => return .number (-x)
  | .neg, _ => Eval.fail span (.typeMismatch .negation)

def binary (span : Span) (op : BinaryOp) (lhs rhs : Expr) : Eval Value := do
  match op with
  | .arithmetic op =>
    let a ← value ev lhs
    let b ← value ev rhs
    match op.result? a b with
    | some v => return v
    | none => Eval.fail span (.typeMismatch (.arithmetic op a.kind b.kind))
  | .compare op =>
    let a ← value ev lhs
    let b ← value ev rhs
    match op.result? a b with
    | some v => return .bool v
    | none => Eval.fail span (.typeMismatch (.comparison op a.kind b.kind))
  | .logic op =>
    match op.shortcut? (← truth ev lhs) with
    | some v => return .bool v
    | none => return .bool (← truth ev rhs)

def expr : Expr → Eval Operand
  | .literal _ literal => return .value literal.value
  | .name word => resolve word
  | .member _ target word => do field word (← ev.expr target)
  | .call span callee args => call ev span callee args
  | .decorator _ name args => do
    let args ← decorated (← values ev args)
    return .value (← callHost .decorator name args)
  | .project _ target name args => do
    match ← value ev target with
    | .type id =>
      let args ← values ev args
      return .value (.type (← applyNamed ev name.span id name.text args))
    | v => Eval.fail target.span (.typeMismatch (.projectedValue name.text v))
  | .lambda span _ _ => Eval.fail span (.typeMismatch .strayLambda)
  | .unary span op operand => return .value (← unary ev span op operand)
  | .binary span op lhs rhs => return .value (← binary ev span op lhs rhs)

/-! ### Statements and blocks -/

/-- Replaces the node of the activation by a returned value and begins to unwind. -/
def giveBack (span : Span) (v : Value) : Eval Flow := do
  if v = .absent then Eval.fail span (.typeMismatch .returnsNone)
  let node ← Eval.build (Building.typeOf v)
  Eval.setSelf node
  Eval.modifyActivation ({ · with returning := true })
  return .returned

/-- A statement. A `return` inside a loop shows after the expression that contains the loop. -/
def stmt : Stmt → Eval Flow
  | .expr _ e => do
    discard (ev.expr e)
    return if (← Eval.activation).returning then .returned else .proceed
  | .cond _ test body otherwise => do
    if ← truth ev test then ev.block body
    else
      match otherwise with
      | some alternative => ev.block alternative
      | none => return .proceed
  | .ret span e => do giveBack span (← value ev e)

/-- Statements in order, until a `return`. -/
def stmts : List Stmt → Eval Flow
  | [] => return .proceed
  | s :: rest => do
    match ← stmt ev s with
    | .returned => return .returned
    | .proceed => stmts rest

/-- A block, with a frame of its own. If a statement fails, the frame stays, and goes with the
activation. -/
def block (b : Block) : Eval Flow := do
  Eval.pushFrame
  let flow ← stmts ev b.stmts
  Eval.popFrame
  return flow

end Evaluation

/-- Evaluation one level up. -/
def Evaluator.next (ev : Evaluator) : Evaluator where
  expr := Evaluation.expr ev
  block := Evaluation.block ev
  apply := Evaluation.apply ev

/-- Evaluation of what nests at most the given number of levels. A level comes into being when it
is entered, so a bound that is never reached costs nothing. -/
def evaluator : (levels : Nat) → Evaluator
  | 0 =>
    ⟨fun _ => Eval.internal .depth, fun _ => Eval.internal .depth,
      fun _ _ _ _ => Eval.internal .depth⟩
  | levels + 1 =>
    { expr := fun e => (evaluator levels).next.expr e
      block := fun b => (evaluator levels).next.block b
      apply := fun node projection direction args =>
        (evaluator levels).next.apply node projection direction args }

theorem evaluator_succ (levels : Nat) : evaluator (levels + 1) = (evaluator levels).next := rfl

/-! ### Heights -/

mutual

/-- How many levels of evaluation an expression contains, applications aside. -/
def Expr.height : Expr → Nat
  | .literal _ _ => 1
  | .name _ => 1
  | .member _ target _ => target.height + 1
  | .call _ callee args => max callee.height (Expr.heights args) + 1
  | .decorator _ _ args => Expr.heights args + 1
  | .project _ target _ args => max target.height (Expr.heights args) + 1
  | .lambda _ _ body => body.height + 1
  | .unary _ _ operand => operand.height + 1
  | .binary _ _ lhs rhs => max lhs.height rhs.height + 1

def Expr.heights : List Expr → Nat
  | [] => 0
  | e :: es => max e.height (Expr.heights es)

def Stmt.height : Stmt → Nat
  | .expr _ e => e.height
  | .cond _ test body none => max test.height body.height
  | .cond _ test body (some alternative) =>
    max test.height (max body.height alternative.height)
  | .ret _ e => e.height

def Stmt.heights : List Stmt → Nat
  | [] => 0
  | s :: ss => max s.height (Stmt.heights ss)

def Block.height : Block → Nat
  | .mk _ stmts => Stmt.heights stmts + 1

end

/-- The height of the tallest body of a projection. -/
def Projection.height (p : Projection) : Nat :=
  max ((p.forward?.map fun tree => tree.body.height).getD 0)
    ((p.backward?.map fun tree => tree.body.height).getD 0)

/-- The height of the tallest declared body. -/
def Declarations.height (d : Declarations) : Nat :=
  (d.projections.map Projection.height).foldr max 0

/-- How many levels of evaluation a run can need. -/
def Setting.levels (setting : Setting) : Nat :=
  (setting.declarations.height + 1) * setting.options.maxDepth + 1

end SchemaProjection
