import SchemaProjection.Proofs.Run.Advances
import SchemaProjection.Proofs.Run.Returning

/-!
# Evaluation under a policy

A policy says, for each state of a run, to which nodes a decorator may be applied. Evaluation under
a policy (`Evaluation.governed`) is evaluation as it is, except that a decorator that the policy
does not allow fails, as if there were no such decorator. The policy that allows everything makes no
difference (`Evaluation.governed_all`).

Every step of evaluation under a policy has a record in which only allowed decorators occur
(`Evaluation.governed_advances`). So two questions are answered at once: what any run does, and what
a run does that gets by without certain decorators.

`Eval.ok_of_projectUnder` takes a whole run apart: the body of its own projection starts at
`Run.outset`, in the outermost activation.
-/

namespace SchemaProjection

namespace Evaluation

open Eval

/-! ### Policies -/

/-- Refuses a decorator on a node that it may not be applied to. -/
def permit (allows : Run → NodeId → Bool) (name : Word) (args : List Value) : Eval Unit := do
  match args with
  | .type target :: _ =>
    if !allows (← get) target then
      Eval.fail name.span (.undeclaredIdentifier (.hostExport .decorator name.text))
  | _ => return ()

/-- An expression, evaluated under a policy. -/
def governedExpr (allows : Run → NodeId → Bool) (ev : Evaluator) : Expr → Eval Operand
  | .decorator _ name args => do
    let args ← values ev args
    permit allows name args
    return .value (← callHost .decorator name (← decorated args))
  | e => expr ev e

/-- **Evaluation under a policy.** -/
def governed (allows : Run → NodeId → Bool) : (levels : Nat) → Evaluator
  | 0 => evaluator 0
  | levels + 1 =>
    { (governed allows levels).next with expr := governedExpr allows (governed allows levels) }

theorem governedExpr_all (ev : Evaluator) : governedExpr (fun _ _ => true) ev = expr ev := by
  funext e
  cases e with
  | decorator span name args =>
    have hpermit : ∀ vs, permit (fun _ _ => true) name vs = pure () := by
      intro vs
      cases vs with
      | nil => rfl
      | cons v rest => cases v <;> rfl
    simp only [governedExpr, hpermit, pure_bind]
    rfl
  | _ => rfl

/-- A policy that allows everything makes no difference. -/
theorem governed_all (levels : Nat) : governed (fun _ _ => true) levels = evaluator levels := by
  induction levels with
  | zero => rfl
  | succ levels ih =>
    rw [governed, ih, governedExpr_all, evaluator_succ]
    rfl

/-! ### Steps under a policy -/

section

variable {setting : Setting} {run : Run} {mayReturn : Bool} {allows : Run → NodeId → Bool}

theorem steps_permit (name : Word) (args : List Value) :
    Steps setting run mayReturn (permit allows name args) := by
  unfold permit
  split
  · refine Steps.get.bind fun start _ _ => ?_
    split
    · exact .fail _ _
    · exact .pure _
  · exact .pure _

theorem steps_governedExpr {ev : Evaluator} (hev : ev.Steps setting) (e : Expr)
    (he : e.returns → mayReturn) : Steps setting run mayReturn (governedExpr allows ev e) := by
  cases e with
  | decorator span name args =>
    refine (steps_values hev args he).bind fun vs _ _ => ?_
    refine (steps_permit name vs).bind fun _ _ _ => ?_
    rw [← bind_assoc]
    exact (steps_decorate name vs).bind fun _ _ _ => .pure _
  | literal span literal => exact steps_expr hev (.literal span literal) he
  | name word => exact steps_expr hev (.name word) he
  | member span target word => exact steps_expr hev (.member span target word) he
  | call span callee args => exact steps_expr hev (.call span callee args) he
  | project span target name args => exact steps_expr hev (.project span target name args) he
  | lambda span params body => exact steps_expr hev (.lambda span params body) he
  | unary span op operand => exact steps_expr hev (.unary span op operand) he
  | binary span op lhs rhs => exact steps_expr hev (.binary span op lhs rhs) he

/-- Evaluation under a policy is made of steps, too. -/
theorem governed_steps (allows : Run → NodeId → Bool) (setting : Setting) (levels : Nat) :
    (governed allows levels).Steps setting := by
  induction levels with
  | zero => exact evaluator_steps setting 0
  | succ levels ih => exact ⟨steps_governedExpr ih, ih.next.block, ih.next.apply⟩

end

end Evaluation

/-! ### Records of evaluation -/

/-- An evaluator whose parts have records. -/
structure Evaluator.Advances (allows : Run → NodeId → Bool) (ev : Evaluator) (setting : Setting) :
    Prop where
  expr : ∀ {run : Run} (e : Expr), Eval.Advances allows setting run (ev.expr e)
  block : ∀ {run : Run} (b : Block), Eval.Advances allows setting run (ev.block b)
  apply : ∀ {run : Run} (node : NodeId) (projection : Projection) (direction : Direction)
    (args : List Value), Eval.Advances allows setting run (ev.apply node projection direction args)

namespace Evaluation

open Eval

variable {allows : Run → NodeId → Bool} {setting : Setting} {run : Run} {α : Type}

theorem advances_resolve (word : Word) : Advances allows setting run (resolve word) := by
  refine Advances.activation.bind fun a _ _ => ?_
  split
  · exact .pure _
  · split
    · exact .pure _
    · split
      · exact .pure _
      · refine Advances.graph.bind fun g _ _ => ?_
        split
        · exact .pure _
        · refine Advances.read.bind fun s _ _ => ?_
          split
          · exact .pure _
          · exact .fail _ _

theorem advances_field (word : Word) (target : Operand) :
    Advances allows setting run (field word target) := by
  unfold field
  dsimp only
  split
  · refine Advances.graph.bind fun g _ _ => ?_
    split
    · exact .pure _
    · exact .fail _ _
  · split
    · exact .pure _
    · exact .fail _ _
  · exact .fail _ _
  · split
    · exact .pure _
    · exact .fail _ _
  · exact .fail _ _

theorem advances_callHost (sort : Host.ExportSort) (word : Word) (args : List Value) :
    Advances allows setting run (callHost sort word args) := by
  refine Advances.read.bind fun s _ _ => ?_
  refine Advances.activation.bind fun a middle _ => ?_
  dsimp only
  split
  · exact .fail _ _
  · refine Advances.get.bind fun start after hget => ?_
    cases hget
    -- what the function wrote stays, whether it returned or failed
    have hwrite : ∀ metadata, Advances allows setting middle
        (set ({ middle with metadata } : Run) : Eval Unit) := by
      intro metadata _ written hok
      cases hok
      exact (Run.Advances.refl middle).metadata metadata
    split
    · next fault metadata _ => exact (hwrite metadata).bind fun _ _ _ => .fail _ _
    · next value metadata _ =>
      refine (hwrite metadata).bind fun _ _ _ => ?_
      split
      · split
        · exact .pure _
        · exact .fail _ _
      · exact .pure _

theorem advances_mapM {β : Type} {f : α → Eval β} (xs : List α)
    (hf : ∀ x ∈ xs, ∀ {run : Run}, Advances allows setting run (f x)) :
    Advances allows setting run (xs.mapM f) := by
  induction xs generalizing run with
  | nil =>
    rw [List.mapM_nil]
    exact .pure _
  | cons x rest ih =>
    rw [List.mapM_cons]
    refine (hf x List.mem_cons_self).bind fun b _ _ => ?_
    exact (ih fun y hy => hf y (List.mem_cons_of_mem x hy)).bind fun _ _ _ => .pure _

theorem advances_giveBack (span : Span) (v : Value) :
    Advances allows setting run (giveBack span v) := by
  intro flow after hok
  unfold giveBack at hok
  split at hok
  · exact absurd (ok_of_bind hok) fun ⟨_, _, hfail, _⟩ => nomatch hfail
  obtain ⟨node, _, hbuild, hok⟩ := ok_of_bind hok
  obtain ⟨g, hbuilt, rfl⟩ := ok_of_build hbuild
  obtain ⟨hsupplied, -⟩ := Building.ok_of_typeOf hbuilt
  obtain ⟨_, replaced, hreplace, hok⟩ := ok_of_bind hok
  rw [Eval.setSelf, result_modifyActivation] at hreplace
  obtain ⟨_, flagged, hflag, hok⟩ := ok_of_bind hok
  cases hok
  cases hstack : run.activations with
  | nil =>
    rw [hstack] at hreplace
    cases hreplace
  | cons a rest =>
    rw [hstack] at hreplace
    cases hreplace
    cases hflag
    exact ((Run.Advances.refl run).supply hsupplied).giveBack hstack node

/-- What is permitted is allowed, and asking for it changes nothing. -/
theorem ok_of_permit {name : Word} {args : List Value} {after : Run}
    (h : (permit allows name args).result setting run = .ok () after) :
    run = after ∧ ∀ target, args.head? = some (.type target) → allows run target := by
  cases args with
  | nil =>
    cases h
    exact ⟨rfl, fun _ hhead => nomatch hhead⟩
  | cons v rest =>
    cases v with
    | type node =>
      obtain ⟨start, _, hget, h⟩ := ok_of_bind h
      cases hget
      cases hallows : allows run node with
      | true =>
        rw [hallows] at h
        cases h
        refine ⟨rfl, fun target hhead => ?_⟩
        cases hhead
        exact hallows
      | false =>
        rw [hallows] at h
        cases h
    | absent | bool | number | string =>
      cases h
      exact ⟨rfl, fun _ hhead => nomatch hhead⟩

theorem advances_decorated {args : List Value}
    (hallowed : ∀ target, args.head? = some (.type target) → allows run target) :
    Advances allows setting run (decorated args) := by
  unfold decorated
  split
  · exact (Edits.advances_materialize (hallowed _ rfl)).bind fun _ _ _ => .pure _
  · exact .pure _

/-! ### Parts that contain others -/

variable {ev : Evaluator} (hev : ev.Advances allows setting)
include hev

theorem advances_value (e : Expr) : Advances allows setting run (value ev e) := by
  refine (hev.expr e).bind fun operand _ _ => ?_
  split
  · exact .pure _
  · exact .fail _ _
  · exact .fail _ _

theorem advances_values (es : List Expr) : Advances allows setting run (values ev es) :=
  advances_mapM es fun e _ => advances_value hev e

theorem advances_truth (e : Expr) : Advances allows setting run (truth ev e) :=
  (hev.expr e).bind fun _ _ _ => Advances.graph.bind fun _ _ _ => .pure _

theorem advances_applyNamed (span : Span) (node : NodeId) (name : String) (args : List Value) :
    Advances allows setting run (applyNamed ev span node name args) := by
  refine Advances.read.bind fun s _ _ => ?_
  dsimp only
  split
  · exact .fail_bind _ _ _
  · refine Advances.get.bind fun start _ _ => ?_
    refine Advances.graph.bind fun g _ _ => ?_
    split
    · exact hev.apply _ _ _ _
    · exact .pure _

theorem advances_enter (node : NodeId) (projection : Projection) (direction : Direction)
    (tree : DirectionTree) (args : List Value) :
    Advances allows setting run (enter ev node projection direction tree args) := by
  rw [enter_eq]
  refine Advances.get.bind fun start _ hget => ?_
  cases hget
  exact .inActivation rfl rfl (hev.block tree.body)

theorem advances_apply (node : NodeId) (projection : Projection) (direction : Direction)
    (args : List Value) :
    Advances allows setting run (Evaluation.apply ev node projection direction args) := by
  unfold Evaluation.apply
  split
  · exact .fail _ _
  · refine (Advances.remembered? _).bind fun entry _ _ => ?_
    split
    -- an application that is known or active does nothing
    · exact .pure _
    · exact .pure _
    · refine Advances.read.bind fun s _ _ => ?_
      refine Advances.get.bind fun start _ _ => ?_
      dsimp only
      split
      · exact (Advances.describe _).bind fun _ _ _ => .fail_bind _ _ _
      · refine (Advances.remember _ _).bind fun _ _ _ => ?_
        refine (advances_enter hev _ _ _ _ _).bind fun result _ _ => ?_
        exact (Advances.remember _ _).bind fun _ _ _ => .pure _

theorem advances_forItems (params : List Word) (body : Block) (position : Nat)
    (items : List NodeId) :
    Advances allows setting run (forItems ev params body position items) := by
  induction items generalizing run position with
  | nil => exact .pure _
  | cons item rest ih =>
    rw [forItems_cons]
    refine (Advances.inRound (hev.block body)).bind fun flow _ _ => ?_
    cases flow with
    | returned => exact .pure _
    | proceed => exact ih _

theorem advances_forEach (span : Span) (items : List NodeId) (args : List Expr) :
    Advances allows setting run (forEach ev span items args) := by
  unfold forEach
  split
  · rw [discard_eq]
    exact (advances_forItems hev _ _ 0 items).bind fun _ _ _ => .pure _
  · exact .fail _ _
  · exact .fail _ _

theorem advances_callMethod (span : Span) (receiver : Operand) (method : Word)
    (args : List Expr) : Advances allows setting run (callMethod ev span receiver method args) := by
  unfold callMethod
  dsimp only
  split
  · split
    · exact (advances_forEach hev span _ args).bind fun _ _ _ => .pure _
    · exact .fail _ _
  · split
    · split
      · exact .pure _
      · exact .fail _ _
    · exact .fail _ _
  · split
    · refine (advances_mapM args fun e _ => hev.expr e).bind fun operands _ _ => ?_
      refine (Edits.advances_run ?_ _ _).bind fun _ _ _ => .pure _
      exact fun span node name args => advances_applyNamed hev span node name args
    · exact (Advances.describe _).bind fun _ _ _ => .fail _ _
  · exact .fail _ _
  · exact .fail _ _

theorem advances_call (span : Span) (callee : Expr) (args : List Expr) :
    Advances allows setting run (call ev span callee args) := by
  unfold call
  split
  · refine (advances_values hev args).bind fun vs _ _ => ?_
    exact (advances_callHost .function _ vs).bind fun _ _ _ => .pure _
  · exact (hev.expr _).bind fun receiver _ _ => advances_callMethod hev span receiver _ args
  · exact .fail _ _

theorem advances_binary (span : Span) (op : BinaryOp) (lhs rhs : Expr) :
    Advances allows setting run (binary ev span op lhs rhs) := by
  unfold binary
  split
  · refine (advances_value hev lhs).bind fun a _ _ => ?_
    refine (advances_value hev rhs).bind fun b _ _ => ?_
    split
    · exact .pure _
    · exact .fail _ _
  · refine (advances_value hev lhs).bind fun a _ _ => ?_
    refine (advances_value hev rhs).bind fun b _ _ => ?_
    split
    · exact .pure _
    · exact .fail _ _
  · refine (advances_truth hev lhs).bind fun a _ _ => ?_
    split
    · exact .pure _
    · exact (advances_truth hev rhs).bind fun _ _ _ => .pure _

/-- **An expression under a policy**: only allowed decorators are applied. -/
theorem advances_governedExpr (e : Expr) :
    Advances allows setting run (governedExpr allows ev e) := by
  cases e with
  | literal span literal => exact .pure _
  | name word => exact advances_resolve word
  | member span target word =>
    exact (hev.expr target).bind fun operand _ _ => advances_field word operand
  | call span callee args => exact advances_call hev span callee args
  | decorator span name args =>
    refine (advances_values hev args).bind fun vs middle _ => ?_
    -- what follows the permission may rely on it
    refine Advances.bind (fun _ after hpermit => ?_) fun _ after hpermit => ?_
    · obtain ⟨rfl, -⟩ := ok_of_permit hpermit
      exact .refl _
    · obtain ⟨rfl, hallowed⟩ := ok_of_permit hpermit
      refine (advances_decorated hallowed).bind fun prepared _ _ => ?_
      exact (advances_callHost .decorator name prepared).bind fun _ _ _ => .pure _
  | project span target name args =>
    refine (advances_value hev target).bind fun v _ _ => ?_
    split
    · refine (advances_values hev args).bind fun vs _ _ => ?_
      exact (advances_applyNamed hev _ _ _ _).bind fun _ _ _ => .pure _
    · exact .fail _ _
  | lambda span params body => exact .fail _ _
  | unary span op operand =>
    refine Advances.bind ((hev.expr operand).bind fun result _ _ => ?_) fun _ _ _ => .pure _
    split
    · exact Advances.graph.bind fun _ _ _ => .pure _
    · exact .pure _
    · exact .fail _ _
  | binary span op lhs rhs => exact (advances_binary hev span op lhs rhs).bind fun _ _ _ => .pure _

theorem advances_stmt (s : Stmt) : Advances allows setting run (stmt ev s) := by
  cases s with
  | expr span e =>
    rw [stmt, discard_eq]
    refine Advances.bind ((hev.expr e).bind fun _ _ _ => .pure _) fun _ _ _ => ?_
    exact Advances.activation.bind fun a _ _ => .pure _
  | cond span test body otherwise =>
    refine (advances_truth hev test).bind fun holds _ _ => ?_
    split
    · exact hev.block body
    · split
      · exact hev.block _
      · exact .pure _
  | ret span e => exact (advances_value hev e).bind fun v _ _ => advances_giveBack span v

theorem advances_stmts (ss : List Stmt) : Advances allows setting run (stmts ev ss) := by
  induction ss generalizing run with
  | nil => exact .pure _
  | cons s rest ih =>
    refine (advances_stmt hev s).bind fun flow _ _ => ?_
    cases flow with
    | returned => exact .pure _
    | proceed => exact ih

theorem advances_block (b : Block) : Advances allows setting run (block ev b) := by
  rw [block_eq]
  exact .inFrame (advances_stmts hev b.stmts)

omit hev in
/-- **Evaluation under a policy has records** in which only allowed decorators occur. -/
theorem governed_advances (allows : Run → NodeId → Bool) (setting : Setting) (levels : Nat) :
    (governed allows levels).Advances allows setting := by
  induction levels with
  | zero => exact ⟨fun _ => .failWith _ _, fun _ => .failWith _ _, fun _ _ _ _ => .failWith _ _⟩
  | succ levels ih =>
    exact ⟨advances_governedExpr ih, advances_block ih, advances_apply ih⟩

omit hev in
theorem evaluator_advances (setting : Setting) (levels : Nat) :
    (evaluator levels).Advances (fun _ _ => true) setting := by
  rw [← governed_all]
  exact governed_advances _ setting levels

end Evaluation

/-! ### Applications -/

namespace Evaluation

open Eval

variable {setting : Setting} {run after : Run} {node id : NodeId} {projection : Projection}
  {direction : Direction} {args : List Value}

/-- **What is entered and left again** is a run of the body in an activation of its own. -/
theorem ok_of_enter {ev : Evaluator} {tree : DirectionTree}
    (h : (enter ev node projection direction tree args).result setting run = .ok id after) :
    ∃ flow finished a rest,
      (ev.block tree.body).result setting (run.entered node projection direction tree args) =
        .ok flow finished ∧
      finished.activations = a :: rest ∧ id = a.self ∧
      after = { finished with activations := rest } := by
  rw [enter_eq, result_bind_of_ok (result_get setting run), inActivation,
    result_bind_of_ok (result_pushActivation _)] at h
  obtain ⟨⟨flow, a⟩, last, hclosing, hself⟩ := ok_of_bind h
  cases hself
  rw [result_closing] at hclosing
  obtain ⟨finished, hblock, hpop⟩ := ok_of_closed hclosing
  cases hstack : finished.activations with
  | nil =>
    rw [result_popActivation_nil hstack] at hpop
    cases hpop
  | cons b rest =>
    rw [result_popActivation hstack] at hpop
    cases hpop
    exact ⟨flow, finished, a, rest, hblock, hstack, rfl, rfl⟩

/-- **An application that succeeds** is known from before, or it has run the body to the end in an
activation of its own. -/
theorem ok_of_apply {ev : Evaluator}
    (h : (Evaluation.apply ev node projection direction args).result setting run = .ok id after) :
    ∃ tree, projection.direction? direction = some tree ∧
      ((run = after ∧ ∃ entry, run.memo.find? ⟨node, projection.id, direction, args⟩ = some entry ∧
          (entry = .done id ∨ entry = .active ∧ id = node)) ∨
        ∃ flow finished a rest,
          (ev.block tree.body).result setting
            (Run.entered
              { run with memo := run.memo.insert ⟨node, projection.id, direction, args⟩ .active }
              node projection direction tree args) = .ok flow finished ∧
          finished.activations = a :: rest ∧ id = a.self ∧
          after = { finished with
            activations := rest
            memo := finished.memo.insert ⟨node, projection.id, direction, args⟩ (.done id) }) := by
  unfold Evaluation.apply at h
  split at h
  · cases h
  next tree htree =>
  refine ⟨tree, htree, ?_⟩
  obtain ⟨entry, _, hremembered, h⟩ := ok_of_bind h
  cases hremembered
  split at h
  · next result hentry =>
    cases h
    exact .inl ⟨rfl, _, hentry, .inl rfl⟩
  · next hentry =>
    cases h
    exact .inl ⟨rfl, _, hentry, .inr ⟨rfl, rfl⟩⟩
  -- it is new: it is noted as active, runs in an activation of its own, and is noted as done
  obtain ⟨options, _, hread, h⟩ := ok_of_bind h
  cases hread
  obtain ⟨start, _, hget, h⟩ := ok_of_bind h
  cases hget
  dsimp only at h
  split at h
  · obtain ⟨text, _, -, h⟩ := ok_of_bind h
    obtain ⟨_, _, hfail, -⟩ := ok_of_bind h
    cases hfail
  obtain ⟨_, noted, hnote, h⟩ := ok_of_bind h
  cases hnote
  obtain ⟨result, left, henter, h⟩ := ok_of_bind h
  obtain ⟨flow, finished, a, rest, hblock, hstack, rfl, rfl⟩ := ok_of_enter henter
  obtain ⟨_, done, hdone, h⟩ := ok_of_bind h
  cases hdone
  cases h
  exact .inr ⟨flow, finished, a, rest, hblock, hstack, rfl, rfl⟩

end Evaluation

/-! ### Whole runs -/

/-- How many levels the body of the outermost activation has. -/
def Setting.bodyLevels (setting : Setting) : Nat :=
  (setting.declarations.height + 1) * setting.options.maxDepth

/-- Applies a projection at the top level, under a policy. -/
def Eval.projectUnder (allows : Run → NodeId → Bool) (node : NodeId) (handle : Handle)
    (args : List Value) : Eval NodeId := do
  if !(← Eval.graph).contains node then
    failWith (.typeMismatch (.foreignNode node)) none
  match (← read).declarations.get? handle.projection with
  | none => failWith (.unknownProjection (.unknownId handle.projection.index)) none
  | some projection =>
    (Evaluation.governed allows (← read).levels).apply node projection handle.direction args

theorem Eval.projectUnder_all : Eval.projectUnder (fun _ _ => true) = Eval.projectNode := by
  funext node handle args
  simp only [Eval.projectUnder, Evaluation.governed_all]
  rfl

/-- **Where the body of a run's own projection starts**: in the outermost activation, with the
application noted as active. -/
def Run.outset (g : Graph) (m : Metadata) (trace : Option (List Instruction)) (node : NodeId)
    (projection : Projection) (direction : Direction) (tree : DirectionTree) (args : List Value) :
    Run :=
  ({ Run.start g m trace with
    memo := Memo.empty.insert ⟨node, projection.id, direction, args⟩ .active }).entered node
      projection direction tree args

namespace Eval

variable {allows : Run → NodeId → Bool} {setting : Setting} {g : Graph} {m : Metadata}
  {trace : Option (List Instruction)} {node id : NodeId} {handle : Handle} {args : List Value}
  {after : Run}

/-- **A whole run that succeeds** has run the body of its projection to the end, and the result is
what has become of the node there. -/
theorem ok_of_projectUnder
    (h : (projectUnder allows node handle args).result setting (Run.start g m trace) =
      .ok id after) :
    g.contains node ∧ ∃ projection tree flow finished a memo,
      setting.declarations.get? handle.projection = some projection ∧
      projection.direction? handle.direction = some tree ∧
      ((Evaluation.governed allows setting.bodyLevels).block tree.body).result setting
        (Run.outset g m trace node projection handle.direction tree args) = .ok flow finished ∧
      finished.activations = [a] ∧ id = a.self ∧
      after = { finished with activations := [], memo } := by
  obtain ⟨_, _, hgraph, h⟩ := ok_of_bind h
  cases hgraph
  cases hnode : g.contains node with
  | false =>
    have hstart : (Run.start g m trace).graph.contains node = false := hnode
    rw [hstart] at h
    obtain ⟨_, _, hfail, -⟩ := ok_of_bind h
    cases hfail
  | true =>
  refine ⟨rfl, ?_⟩
  have hstart : (Run.start g m trace).graph.contains node = true := hnode
  rw [hstart] at h
  obtain ⟨_, _, hread, h⟩ := ok_of_bind h
  cases hread
  split at h
  · cases h
  next projection hprojection =>
  obtain ⟨_, _, hread, h⟩ := ok_of_bind h
  cases hread
  have happly : (Evaluation.apply (Evaluation.governed allows setting.bodyLevels) node projection
      handle.direction args).result setting (Run.start g m trace) = .ok id after := h
  obtain ⟨tree, htree,
    ⟨-, entry, hknown, -⟩ | ⟨flow, finished, a, rest, hblock, hstack, hid, hafter⟩⟩ :=
    Evaluation.ok_of_apply happly
  · -- nothing is known at the start
    have hknown : Memo.empty.find? _ = some entry := hknown
    rw [Memo.find?_empty] at hknown
    cases hknown
  have hrecord := (Evaluation.governed_advances allows setting _).block tree.body flow finished
    hblock
  obtain ⟨b, hb, -, -⟩ := hrecord.frames_of.stack _ _ rfl
  cases hstack.symm.trans hb
  exact ⟨projection, tree, flow, finished, a, _, hprojection, htree, hblock, hstack, hid, hafter⟩

end Eval

end SchemaProjection
