import SchemaProjection.Proofs.Run.Editing
import SchemaProjection.Proofs.Run.Frames

/-!
# Evaluation as steps of a run

Every expression, block and application is a step of a run, at every level of the evaluator
(`evaluator_steps`): it moves, and it keeps the stack if it succeeds.

Whether a step may execute a `return` of the innermost activation is told by the syntax
(`Expr.returns`, `Block.returns`): a `return` stands in a block, and a block in a loop body, which
is an expression. An application runs in an activation of its own, so its `return`s stay inside.
-/

namespace SchemaProjection

/-! ### Where a `return` stands -/

mutual

/-- Whether a `return` stands somewhere in an expression, that is, in a loop body. -/
def Expr.returns : Expr → Bool
  | .literal _ _ => false
  | .name _ => false
  | .member _ target _ => target.returns
  | .call _ callee args => callee.returns || Expr.anyReturns args
  | .decorator _ _ args => Expr.anyReturns args
  | .project _ target _ args => target.returns || Expr.anyReturns args
  | .lambda _ _ body => body.returns
  | .unary _ _ operand => operand.returns
  | .binary _ _ lhs rhs => lhs.returns || rhs.returns

def Expr.anyReturns : List Expr → Bool
  | [] => false
  | e :: es => e.returns || Expr.anyReturns es

/-- Whether a statement is or contains a `return`. -/
def Stmt.returns : Stmt → Bool
  | .expr _ e => e.returns
  | .cond _ test body none => test.returns || body.returns
  | .cond _ test body (some alternative) =>
    test.returns || (body.returns || alternative.returns)
  | .ret _ _ => true

def Stmt.anyReturns : List Stmt → Bool
  | [] => false
  | s :: ss => s.returns || Stmt.anyReturns ss

/-- Whether a `return` stands somewhere in a block. -/
def Block.returns : Block → Bool
  | .mk _ stmts => Stmt.anyReturns stmts

end

/-- An evaluator whose parts are steps. -/
structure Evaluator.Steps (ev : Evaluator) (setting : Setting) : Prop where
  expr : ∀ {run : Run} {mayReturn : Bool} (e : Expr), (e.returns → mayReturn) →
    Eval.Steps setting run mayReturn (ev.expr e)
  block : ∀ {run : Run} {mayReturn : Bool} (b : Block), (b.returns → mayReturn) →
    Eval.Steps setting run mayReturn (ev.block b)
  apply : ∀ {run : Run} {mayReturn : Bool} (node : NodeId) (projection : Projection)
    (direction : Direction) (args : List Value),
    Eval.Steps setting run mayReturn (ev.apply node projection direction args)

namespace Evaluation

open Eval

variable {setting : Setting} {run : Run} {mayReturn : Bool} {α : Type}

/-! ### Names and fields -/

theorem steps_resolve (word : Word) : Steps setting run mayReturn (resolve word) := by
  refine Steps.activation.bind fun a _ _ => ?_
  split
  · exact .pure _
  · split
    · exact .pure _
    · split
      · exact .pure _
      · refine Steps.graph.bind fun g _ _ => ?_
        split
        · exact .pure _
        · refine Steps.read.bind fun s _ _ => ?_
          split
          · exact .pure _
          · exact .fail _ _

theorem steps_field (word : Word) (target : Operand) :
    Steps setting run mayReturn (field word target) := by
  unfold field
  dsimp only
  split
  · refine Steps.graph.bind fun g _ _ => ?_
    split
    · exact .pure _
    · exact .fail _ _
  · split
    · exact .pure _
    · exact .fail _ _
  · exact .fail _ _
  · split
    · exact .pure _
    · exact .fail _ _
  · exact .fail _ _

/-! ### Host functions -/

theorem steps_callHost {condition : Prop} (sort : Host.ExportSort) (word : Word)
    (args : List Value) (target : condition → sort = .decorator →
      ∀ id, args.head? = some (.type id) → run.watermark ≤ id.index) :
    StepsIf condition setting run mayReturn (callHost sort word args) := by
  refine StepsIf.bind (.still rfl) fun s _ hread => ?_
  cases hread
  refine StepsIf.activation.bind fun a after hactivation => ?_
  obtain ⟨rfl, -⟩ := ok_of_activation hactivation
  dsimp only
  cases hfound : Host.find? (setting.hosts.take a.hostCount) sort word.text with
  | none => exact .fail _ _
  | some f =>
    -- what the function wrote stays, whether it returned or failed
    have hmove : condition → after.Reaches setting
        { after with metadata := f.metadataAfter args after.graph after.metadata } := fun h =>
      (Run.Move.host after a.hostCount sort word.text f args hfound (target h)).reaches
    refine StepsIf.bind (.still rfl) fun start _ hget => ?_
    cases hget
    unfold Host.Function.metadataAfter at hmove
    cases hcall : ((f args).run after.graph).run after.metadata with
    | error fault metadata =>
      rw [hcall] at hmove
      exact ⟨hmove, .refl _⟩
    | ok value metadata =>
      rw [hcall] at hmove
      have hwrite : StepsIf condition setting after mayReturn (set { after with metadata }) :=
        ⟨hmove, .refl _⟩
      refine hwrite.bind fun _ _ _ => ?_
      split
      · split
        · exact .pure _
        · exact .fail _ _
      · exact .pure _

/-! ### Steps over lists -/

theorem steps_mapM {β : Type} {f : α → Eval β} (xs : List α)
    (hf : ∀ x ∈ xs, ∀ {run : Run}, Steps setting run mayReturn (f x)) :
    Steps setting run mayReturn (xs.mapM f) := by
  induction xs generalizing run with
  | nil =>
    rw [List.mapM_nil]
    exact .pure _
  | cons x rest ih =>
    rw [List.mapM_cons]
    refine (hf x List.mem_cons_self).bind fun b _ _ => ?_
    exact (ih fun y hy => hf y (List.mem_cons_of_mem x hy)).bind fun _ _ _ => .pure _

theorem returns_of_mem {e : Expr} {es : List Expr} (he : e ∈ es) (h : e.returns) :
    Expr.anyReturns es := by
  induction es with
  | nil => cases he
  | cons d rest ih =>
    rw [Expr.anyReturns, Bool.or_eq_true]
    cases he with
    | head => exact .inl h
    | tail _ hrest => exact .inr (ih hrest)

/-! ### Values -/

variable {ev : Evaluator} (hev : ev.Steps setting)
include hev

theorem steps_value (e : Expr) (he : e.returns → mayReturn) :
    Steps setting run mayReturn (value ev e) := by
  refine (hev.expr e he).bind fun operand _ _ => ?_
  split
  · exact .pure _
  · exact .fail _ _
  · exact .fail _ _

theorem steps_values (es : List Expr) (hes : Expr.anyReturns es → mayReturn) :
    Steps setting run mayReturn (values ev es) :=
  steps_mapM es fun e he => steps_value hev e fun h => hes (returns_of_mem he h)

theorem steps_truth (e : Expr) (he : e.returns → mayReturn) :
    Steps setting run mayReturn (truth ev e) :=
  (hev.expr e he).bind fun _ _ _ => Steps.graph.bind fun _ _ _ => .pure _

/-! ### Applications -/

theorem steps_applyNamed (span : Span) (node : NodeId) (name : String) (args : List Value) :
    Steps setting run mayReturn (applyNamed ev span node name args) := by
  refine Steps.read.bind fun s _ _ => ?_
  dsimp only
  split
  · exact .fail_bind _ _ _
  · refine Steps.get.bind fun start _ _ => ?_
    refine Steps.graph.bind fun g _ _ => ?_
    split
    · exact hev.apply _ _ _ _
    · exact .pure _

theorem steps_enter (node : NodeId) (projection : Projection) (direction : Direction)
    (tree : DirectionTree) (args : List Value) :
    Steps setting run mayReturn (enter ev node projection direction tree args) := by
  rw [enter_eq]
  exact Steps.get.bind fun start _ _ => .inActivation (hev.block tree.body fun _ => rfl)

theorem steps_apply (node : NodeId) (projection : Projection) (direction : Direction)
    (args : List Value) :
    Steps setting run mayReturn (Evaluation.apply ev node projection direction args) := by
  unfold Evaluation.apply
  split
  · exact .fail _ _
  · refine (Steps.remembered? _).bind fun entry _ _ => ?_
    split
    · exact .pure _
    · exact .pure _
    · refine Steps.read.bind fun s _ _ => ?_
      refine Steps.get.bind fun start _ _ => ?_
      dsimp only
      split
      · exact (Steps.describe _).bind fun _ _ _ => .fail_bind _ _ _
      · refine (Steps.remember _ _).bind fun _ _ _ => ?_
        refine (steps_enter hev _ _ _ _ _).bind fun result _ _ => ?_
        exact (Steps.remember _ _).bind fun _ _ _ => .pure _

/-! ### Calls -/

theorem steps_forItems (params : List Word) (body : Block) (hbody : body.returns → mayReturn)
    (position : Nat) (items : List NodeId) :
    Steps setting run mayReturn (forItems ev params body position items) := by
  induction items generalizing run position with
  | nil => exact .pure _
  | cons item rest ih =>
    rw [forItems_cons]
    refine (Steps.inRound (hev.block body hbody)).bind fun flow _ _ => ?_
    cases flow with
    | returned => exact .pure _
    | proceed => exact ih _

theorem steps_forEach (span : Span) (items : List NodeId) (args : List Expr)
    (hargs : Expr.anyReturns args → mayReturn) :
    Steps setting run mayReturn (forEach ev span items args) := by
  unfold forEach
  split
  · next lambdaSpan params body =>
    have hbody : body.returns → mayReturn := fun h =>
      hargs (by rw [Expr.anyReturns, Expr.returns, h, Bool.true_or])
    rw [discard_eq]
    exact (steps_forItems hev params body hbody 0 items).bind fun _ _ _ => .pure _
  · exact .fail _ _
  · exact .fail _ _

theorem steps_callMethod (span : Span) (receiver : Operand) (method : Word) (args : List Expr)
    (hargs : Expr.anyReturns args → mayReturn) :
    Steps setting run mayReturn (callMethod ev span receiver method args) := by
  unfold callMethod
  dsimp only
  split
  · split
    · exact (steps_forEach hev span _ args hargs).bind fun _ _ _ => .pure _
    · exact .fail _ _
  · split
    · split
      · exact .pure _
      · exact .fail _ _
    · exact .fail _ _
  · split
    · refine (steps_mapM args fun e he => hev.expr e fun h => hargs (returns_of_mem he h)).bind
        fun operands _ _ => ?_
      refine (Edits.steps_run ?_ _ _).bind fun _ _ _ => .pure _
      exact fun span node name args => steps_applyNamed hev span node name args
    · exact (Steps.describe _).bind fun _ _ _ => .fail _ _
  · exact .fail _ _
  · exact .fail _ _

theorem steps_call (span : Span) (callee : Expr) (args : List Expr)
    (hcallee : callee.returns → mayReturn) (hargs : Expr.anyReturns args → mayReturn) :
    Steps setting run mayReturn (call ev span callee args) := by
  unfold call
  split
  -- a function may be called on any node; only decorators write
  · refine (steps_values hev args hargs).bind fun vs _ _ => ?_
    have htarget : Host.ExportSort.function ≠ .decorator := by decide
    exact (steps_callHost .function _ vs fun _ h => absurd h htarget).bind fun _ _ _ => .pure _
  · next memberSpan target method =>
    refine (hev.expr target hcallee).bind fun receiver _ _ => ?_
    exact steps_callMethod hev span receiver method args hargs
  · exact .fail _ _

omit hev in
theorem steps_decorated (args : List Value) : Steps setting run mayReturn (decorated args) := by
  unfold decorated
  split
  · exact (Edits.steps_materialize _).bind fun _ _ _ => .pure _
  · exact .pure _

omit hev in
/-- A decorator is applied to a node of the run's own. -/
theorem watermark_le_of_decorated {args prepared : List Value} {after : Run} {id : NodeId}
    (hbegun : run.Begun) (h : (decorated args).result setting run = .ok prepared after)
    (hid : prepared.head? = some (.type id)) : after.watermark ≤ id.index := by
  have hsteps : Steps setting run false (decorated args) := steps_decorated args
  -- preparing the target does not move the watermark
  rw [(hsteps.of_ok hbegun h).extends.2]
  unfold decorated at h
  split at h
  · next target rest =>
    obtain ⟨own, middle, hown, hrest⟩ := ok_of_bind h
    cases hrest
    cases hid
    exact Edits.watermark_le_of_materialize hbegun hown
  · next hother =>
    cases h
    cases args with
    | nil => cases hid
    | cons v rest =>
      cases hid
      exact absurd rfl (hother id rest)

omit hev in
/-- The host function moves the run only once the target is prepared. -/
theorem steps_decorate (name : Word) (args : List Value) :
    Steps setting run mayReturn (decorated args >>= callHost .decorator name) := by
  refine StepsIf.bind (steps_decorated args) fun prepared after hprepared => ?_
  exact steps_callHost .decorator name prepared fun hbegun _ id hid =>
    watermark_le_of_decorated hbegun hprepared hid

/-! ### Expressions -/

theorem steps_unary (span : Span) (op : UnaryOp) (operand : Expr)
    (he : operand.returns → mayReturn) :
    Steps setting run mayReturn (unary ev span op operand) := by
  refine (hev.expr operand he).bind fun result _ _ => ?_
  split
  · exact Steps.graph.bind fun _ _ _ => .pure _
  · exact .pure _
  · exact .fail _ _

theorem steps_binary (span : Span) (op : BinaryOp) (lhs rhs : Expr)
    (hlhs : lhs.returns → mayReturn) (hrhs : rhs.returns → mayReturn) :
    Steps setting run mayReturn (binary ev span op lhs rhs) := by
  unfold binary
  split
  · refine (steps_value hev lhs hlhs).bind fun a _ _ => ?_
    refine (steps_value hev rhs hrhs).bind fun b _ _ => ?_
    split
    · exact .pure _
    · exact .fail _ _
  · refine (steps_value hev lhs hlhs).bind fun a _ _ => ?_
    refine (steps_value hev rhs hrhs).bind fun b _ _ => ?_
    split
    · exact .pure _
    · exact .fail _ _
  · refine (steps_truth hev lhs hlhs).bind fun a _ _ => ?_
    split
    · exact .pure _
    · exact (steps_truth hev rhs hrhs).bind fun _ _ _ => .pure _

theorem steps_expr (e : Expr) (he : e.returns → mayReturn) :
    Steps setting run mayReturn (expr ev e) := by
  have hor : ∀ {a b : Bool}, (a || b → mayReturn) → (a → mayReturn) ∧ (b → mayReturn) :=
    fun h => ⟨fun ha => h (by rw [ha, Bool.true_or]), fun hb => h (by rw [hb, Bool.or_true])⟩
  cases e with
  | literal span literal => exact .pure _
  | name word => exact steps_resolve word
  | member span target word =>
    exact (hev.expr target he).bind fun operand _ _ => steps_field word operand
  | call span callee args =>
    obtain ⟨hcallee, hargs⟩ := hor he
    exact steps_call hev span callee args hcallee hargs
  | decorator span name args =>
    refine (steps_values hev args he).bind fun vs _ _ => ?_
    rw [← bind_assoc]
    exact (steps_decorate name vs).bind fun _ _ _ => .pure _
  | project span target name args =>
    obtain ⟨htarget, hargs⟩ := hor he
    refine (steps_value hev target htarget).bind fun v _ _ => ?_
    split
    · refine (steps_values hev args hargs).bind fun vs _ _ => ?_
      exact (steps_applyNamed hev _ _ _ _).bind fun _ _ _ => .pure _
    · exact .fail _ _
  | lambda span params body => exact .fail _ _
  | unary span op operand =>
    exact (steps_unary hev span op operand he).bind fun _ _ _ => .pure _
  | binary span op lhs rhs =>
    obtain ⟨hlhs, hrhs⟩ := hor he
    exact (steps_binary hev span op lhs rhs hlhs hrhs).bind fun _ _ _ => .pure _

/-! ### Statements and blocks -/

omit hev in
theorem steps_giveBack (span : Span) (v : Value) : Steps setting run true (giveBack span v) := by
  unfold giveBack
  split
  · exact .fail_bind _ _ _
  · refine (Steps.build (Building.grows_typeOf v)).bind fun node _ _ => ?_
    refine (Steps.setSelf node).bind fun _ _ _ => ?_
    refine Steps.bind (.modifyActivation fun a => ?_) fun _ _ _ => .pure _
    exact ⟨rfl, rfl, rfl, rfl, fun h => (nomatch h), fun _ => rfl⟩

theorem steps_stmt (s : Stmt) (hs : s.returns → mayReturn) :
    Steps setting run mayReturn (stmt ev s) := by
  have hor : ∀ {a b : Bool}, (a || b → mayReturn) → (a → mayReturn) ∧ (b → mayReturn) :=
    fun h => ⟨fun ha => h (by rw [ha, Bool.true_or]), fun hb => h (by rw [hb, Bool.or_true])⟩
  cases s with
  | expr span e =>
    rw [stmt, discard_eq]
    -- the flag is read afterwards, which changes nothing
    refine Steps.bind ((hev.expr e hs).bind fun _ _ _ => .pure _) fun _ _ _ => ?_
    exact Steps.activation.bind fun a _ _ => .pure _
  | cond span test body otherwise =>
    cases otherwise with
    | none =>
      obtain ⟨htest, hbody⟩ := hor hs
      refine (steps_truth hev test htest).bind fun holds _ _ => ?_
      split
      · exact hev.block body hbody
      · exact .pure _
    | some alternative =>
      obtain ⟨htest, hblocks⟩ := hor hs
      obtain ⟨hbody, halternative⟩ := hor hblocks
      refine (steps_truth hev test htest).bind fun holds _ _ => ?_
      split
      · exact hev.block body hbody
      · exact hev.block alternative halternative
  | ret span e =>
    -- a statement that is a `return` may only be run where returning is allowed
    cases mayReturn with
    | false => exact absurd (hs rfl) (by decide)
    | true =>
      refine (steps_value hev e fun _ => rfl).bind fun v _ _ => ?_
      exact steps_giveBack span v

theorem steps_stmts (ss : List Stmt) (hss : Stmt.anyReturns ss → mayReturn) :
    Steps setting run mayReturn (stmts ev ss) := by
  induction ss generalizing run with
  | nil => exact .pure _
  | cons s rest ih =>
    have hs : s.returns → mayReturn := fun h => hss (by rw [Stmt.anyReturns, h, Bool.true_or])
    have hrest : Stmt.anyReturns rest → mayReturn := fun h =>
      hss (by rw [Stmt.anyReturns, h, Bool.or_true])
    refine (steps_stmt hev s hs).bind fun flow _ _ => ?_
    cases flow with
    | returned => exact .pure _
    | proceed => exact ih hrest

theorem steps_block (b : Block) (hb : b.returns → mayReturn) :
    Steps setting run mayReturn (block ev b) := by
  rw [block_eq]
  refine Steps.inFrame (steps_stmts hev b.stmts fun h => hb ?_)
  cases b with
  | mk span stmts => exact h

end Evaluation

theorem Evaluator.Steps.next {setting : Setting} {ev : Evaluator} (h : ev.Steps setting) :
    ev.next.Steps setting where
  expr := Evaluation.steps_expr h
  block := Evaluation.steps_block h
  apply := Evaluation.steps_apply h

/-- **Evaluation is made of steps** at every level. -/
theorem evaluator_steps (setting : Setting) (levels : Nat) :
    (evaluator levels).Steps setting := by
  induction levels with
  | zero => exact ⟨fun _ _ => .internal _, fun _ _ => .internal _, fun _ _ _ _ => .internal _⟩
  | succ levels ih =>
    rw [evaluator_succ]
    exact ih.next

/-- **A body that fails** leaves the activation that it ran in, with its frames, and all activations
below. -/
theorem Evaluation.left_of_block {setting : Setting} {levels : Nat} {body : Block}
    {run after : Run} {failure : Failure}
    (h : ((evaluator levels).block body).result setting run = .error failure after) :
    Activation.StackLeft true run.activations after.activations := by
  have hsteps : Eval.Steps setting run true ((evaluator levels).block body) :=
    (evaluator_steps setting levels).block body fun _ => rfl
  exact hsteps.left h

end SchemaProjection
