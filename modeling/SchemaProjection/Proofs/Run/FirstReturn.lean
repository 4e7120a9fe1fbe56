import SchemaProjection.Proofs.Run.Evaluation

/-!
# The first `return`

A `return` in a block or in the branch of a condition is passed up as a `Flow`. A loop is an
expression and has no `Flow` to pass up; it leaves a flag, which is looked at after each expression
that is a statement of its own, and nowhere else.

`FirstReturn` tells how evaluation comes to its **first** `return` along the ways that the signal
travels: through statements, branches, and loops that are the last thing which an expression
statement evaluates. On these ways a `return` ends what it stands in: the rest is skipped without a
trace, and the node that it produced takes the place of the activation's
(`FirstReturn.atLevel_ends`).
-/

namespace SchemaProjection

namespace Run

/-! ### The innermost activation -/

/-- Whether a `return` was executed in the innermost activation. -/
def returning (run : Run) : Bool := (run.activations.head?.map Activation.returning).getD false

/-- The frames of the innermost activation. -/
def frames (run : Run) : List Frame := (run.activations.head?.map Activation.frames).getD []

/-- The state with one more frame. -/
def openFrame (frame : Frame) (run : Run) : Run :=
  match run.activations with
  | a :: rest => { run with activations := a.pushFrame frame :: rest }
  | [] => run

/-- The state after a `return`, back in the given frames. -/
def givenBack (node : NodeId) (frames : List Frame) (run : Run) : Run :=
  match run.activations with
  | a :: rest =>
    { run with activations := { a with self := node, returning := true, frames } :: rest }
  | [] => run

/-- A stack that is the same below the innermost activation. -/
def SameBelow (run after : Run) : Prop := ∃ a, after.activations = a :: run.activations.tail

/-- No `return` was executed in the innermost activation of the first state when the second state
was reached, which is in the same activation. -/
def Unreturned (run after : Run) : Prop :=
  ∃ a, after.activations = a :: run.activations.tail ∧ a.returning = false

variable {run after : Run}

theorem exists_of_frames_ne_nil (h : run.frames ≠ []) :
    ∃ a rest outer inner, run.activations = a :: rest ∧ a.frames = outer :: inner ∧
      run.frames = outer :: inner := by
  unfold frames at h ⊢
  cases hstack : run.activations with
  | nil =>
    rw [hstack] at h
    exact absurd rfl h
  | cons a rest =>
    rw [hstack] at h
    cases hframes : a.frames with
    | nil => exact absurd hframes h
    | cons outer inner => exact ⟨a, rest, outer, inner, rfl, hframes, hframes⟩

theorem frames_of_kept {mayReturn : Bool}
    (h : Activation.StackKept mayReturn run.activations after.activations) :
    after.frames = run.frames := by
  unfold frames
  cases hstack : run.activations with
  | nil =>
    rw [hstack] at h
    have hafter : after.activations = [] := h
    rw [hafter]
  | cons a rest =>
    rw [hstack] at h
    obtain ⟨b, hb, hkept⟩ := h
    rw [hb]
    exact hkept.frames

theorem returning_of_kept (h : Activation.StackKept false run.activations after.activations) :
    after.returning = run.returning := by
  unfold returning
  cases hstack : run.activations with
  | nil =>
    rw [hstack] at h
    have hafter : after.activations = [] := h
    rw [hafter]
  | cons a rest =>
    rw [hstack] at h
    obtain ⟨b, hb, hkept⟩ := h
    rw [hb]
    exact hkept.returning rfl

theorem tail_of_kept {mayReturn : Bool}
    (h : Activation.StackKept mayReturn run.activations after.activations) :
    after.activations.tail = run.activations.tail := by
  cases hstack : run.activations with
  | nil =>
    rw [hstack] at h
    have hafter : after.activations = [] := h
    rw [hafter]
  | cons a rest =>
    rw [hstack] at h
    obtain ⟨b, hb, -⟩ := h
    rw [hb]
    rfl

theorem sameBelow_of_kept {mayReturn : Bool} (hrun : run.frames ≠ [])
    (h : Activation.StackKept mayReturn run.activations after.activations) :
    run.SameBelow after := by
  obtain ⟨a, rest, outer, inner, hstack, -, -⟩ := exists_of_frames_ne_nil hrun
  rw [SameBelow, hstack]
  rw [hstack] at h
  obtain ⟨b, hb, -⟩ := h
  exact ⟨b, hb⟩

theorem Unreturned.of_tail {middle : Run} (h : middle.Unreturned after)
    (htail : middle.activations.tail = run.activations.tail) : run.Unreturned after := by
  unfold Unreturned at h ⊢
  rw [htail] at h
  exact h

theorem unreturned_of_kept {mayReturn : Bool} (hrun : run.frames ≠ [])
    (h : Activation.StackKept mayReturn run.activations after.activations)
    (hflag : after.returning = false) : run.Unreturned after := by
  obtain ⟨a, ha⟩ := sameBelow_of_kept hrun h
  rw [returning, ha] at hflag
  exact ⟨a, ha, hflag⟩

theorem unreturned_of_left (hrun : run.frames ≠ []) (hflag : run.returning = false)
    (h : Activation.StackLeft false run.activations after.activations) : run.Unreturned after := by
  obtain ⟨a, rest, outer, inner, hstack, -, -⟩ := exists_of_frames_ne_nil hrun
  rw [returning, hstack] at hflag
  rw [Unreturned, hstack]
  rw [hstack] at h
  obtain ⟨b, hafter, hleft⟩ := h
  exact ⟨b, hafter, (hleft.returning rfl).trans hflag⟩

/-- Closing a frame leaves the flag as it is. -/
theorem Unreturned.popFrame {setting : Setting} {closed : Run} (h : run.Unreturned after)
    (hpop : Eval.popFrame.result setting after = .ok () closed) : run.Unreturned closed := by
  obtain ⟨a, ha, hflag⟩ := h
  obtain ⟨b, rest, frames, hb, rfl⟩ := Eval.ok_of_popFrame hpop
  rw [ha] at hb
  cases hb
  exact ⟨{ a with frames }, rfl, hflag⟩

theorem frames_openFrame (h : run.frames ≠ []) (frame : Frame) :
    (run.openFrame frame).frames = frame :: run.frames := by
  obtain ⟨a, rest, outer, inner, hstack, hframes, hrun⟩ := exists_of_frames_ne_nil h
  rw [hrun, openFrame, hstack, frames]
  simp [Activation.pushFrame, hframes]

theorem returning_openFrame (run : Run) (frame : Frame) :
    (run.openFrame frame).returning = run.returning := by
  unfold openFrame returning
  cases hstack : run.activations <;> simp [hstack, Activation.pushFrame]

theorem tail_openFrame (run : Run) (frame : Frame) :
    (run.openFrame frame).activations.tail = run.activations.tail := by
  unfold openFrame
  cases hstack : run.activations <;> simp [hstack]

end Run

/-- What a frame is opened around ran before the frame was closed again. -/
theorem Eval.ok_of_inFrame {setting : Setting} {run after : Run} {α : Type} {frame : Frame}
    {x : Eval α} {result : α} (h : (inFrame frame x).result setting run = .ok result after) :
    ∃ middle, x.result setting (run.openFrame frame) = .ok result middle ∧
      after.returning = middle.returning := by
  obtain ⟨_, opened, hopen, hrest⟩ := ok_of_bind h
  have hopened : opened = run.openFrame frame := by
    rw [result_modifyActivation] at hopen
    rw [Run.openFrame]
    cases hstack : run.activations with
    | nil =>
      rw [hstack] at hopen
      cases hopen
    | cons a rest =>
      rw [hstack] at hopen
      cases hopen
      rfl
  subst hopened
  obtain ⟨_, middle, hx, hclose⟩ := ok_of_bind hrest
  obtain ⟨_, closed, hpop, hresult⟩ := ok_of_bind hclose
  cases hresult
  obtain ⟨b, rest, frames, hmiddle, rfl⟩ := ok_of_popFrame hpop
  refine ⟨middle, hx, ?_⟩
  rw [Run.returning, Run.returning, hmiddle]
  rfl

/-! ### Coming to the first `return` -/

/-- How evaluation of the parts that contain one another comes to its first `return`: from a state,
to the node that the `return` produces and the state in which it does. After the `return` an
expression is evaluated at once, to something that counts as true or false as it is told. -/
structure FirstReturn where
  expr : Run → Expr → (truthy : Bool) → NodeId → Run → Prop
  block : Run → Block → NodeId → Run → Prop

namespace Evaluation

variable (setting : Setting) (ev : Evaluator) (first : FirstReturn)

/-- A statement comes to its first `return` by being one, in the branch that it chooses, or in its
expression. -/
inductive StmtReturns : Run → Stmt → NodeId → Run → Prop
  | ret {run middle built : Run} {v : Value} {node : NodeId} (span : Span) (e : Expr) :
    (value ev e).result setting run = .ok v middle → middle.returning = false → v ≠ .absent →
    (Eval.build (Building.typeOf v)).result setting middle = .ok node built →
    StmtReturns run (.ret span e) node built
  | body {run middle built : Run} {node : NodeId} (span : Span) (test : Expr) (body : Block)
    (otherwise : Option Block) :
    (truth ev test).result setting run = .ok true middle → middle.returning = false →
    first.block middle body node built → StmtReturns run (.cond span test body otherwise) node built
  | alternative {run middle built : Run} {node : NodeId} (span : Span) (test : Expr)
    (body alternative : Block) :
    (truth ev test).result setting run = .ok false middle → middle.returning = false →
    first.block middle alternative node built →
    StmtReturns run (.cond span test body (some alternative)) node built
  | expr {run built : Run} {node : NodeId} {truthy : Bool} (span : Span) (e : Expr) :
    first.expr run e truthy node built → StmtReturns run (.expr span e) node built

/-- Statements come to their first `return` in the first one that comes to one. -/
inductive StmtsReturn : Run → List Stmt → NodeId → Run → Prop
  | head {run built : Run} {node : NodeId} {s : Stmt} {rest : List Stmt} :
    StmtReturns setting ev first run s node built → StmtsReturn run (s :: rest) node built
  | tail {run middle built : Run} {node : NodeId} {s : Stmt} {rest : List Stmt} :
    (stmt ev s).result setting run = .ok .proceed middle → middle.returning = false →
    StmtsReturn middle rest node built → StmtsReturn run (s :: rest) node built

/-- A loop comes to its first `return` in the first round that comes to one. -/
inductive ItemsReturn (params : List Word) (body : Block) :
    Run → (position : Nat) → List NodeId → NodeId → Run → Prop
  | head {run built : Run} {node item : NodeId} {position : Nat} {rest : List NodeId} :
    first.block (run.openFrame (itemFrame params item position)) body node built →
    ItemsReturn params body run position (item :: rest) node built
  | tail {run middle built : Run} {node item : NodeId} {position : Nat} {rest : List NodeId} :
    (Eval.inRound (itemFrame params item position) (ev.block body)).result setting run =
      .ok .proceed middle → middle.returning = false →
    ItemsReturn params body middle (position + 1) rest node built →
    ItemsReturn params body run position (item :: rest) node built

/-- **The positions in which a loop may stand**: alone, under a negation, and in a logical operator
that evaluates nothing after it. -/
inductive ExprReturns : Run → Expr → Bool → NodeId → Run → Prop
  | loop {run middle built : Run} {node : NodeId} {items : List NodeId}
    (span memberSpan lambdaSpan : Span) (target : Expr) (method : Word) (params : List Word)
    (body : Block) :
    (ev.expr target).result setting run = .ok (.members items) middle → middle.returning = false →
    method.text = "forEach" → ItemsReturn setting ev first params body middle 0 items node built →
    ExprReturns run (.call span (.member memberSpan target method) [.lambda lambdaSpan params body])
      false node built
  | not {run built : Run} {node : NodeId} {truthy : Bool} (span : Span) (operand : Expr) :
    first.expr run operand truthy node built →
    ExprReturns run (.unary span .not operand) (!truthy) node built
  | left {run built : Run} {node : NodeId} {truthy settled : Bool} (span : Span) (op : LogicOp)
    (lhs rhs : Expr) : first.expr run lhs truthy node built → op.shortcut? truthy = some settled →
    ExprReturns run (.binary span (.logic op) lhs rhs) settled node built
  | right {run middle built : Run} {node : NodeId} {holds truthy : Bool} (span : Span)
    (op : LogicOp) (lhs rhs : Expr) :
    (truth ev lhs).result setting run = .ok holds middle → op.shortcut? holds = none →
    middle.returning = false → first.expr middle rhs truthy node built →
    ExprReturns run (.binary span (.logic op) lhs rhs) truthy node built

end Evaluation

namespace FirstReturn

/-- One level up, as for `Evaluator.next`. -/
def next (setting : Setting) (ev : Evaluator) (first : FirstReturn) : FirstReturn where
  expr := Evaluation.ExprReturns setting ev first
  block run body := Evaluation.StmtsReturn setting ev first (run.openFrame []) body.stmts

/-- Coming to the first `return` in evaluation at a level. -/
def atLevel (setting : Setting) : (levels : Nat) → FirstReturn
  | 0 => ⟨fun _ _ _ _ _ => False, fun _ _ _ _ => False⟩
  | levels + 1 => (atLevel setting levels).next setting (evaluator levels)

end FirstReturn

/-! ### What it ends -/

namespace FirstReturn

/-- **What a first `return` ends.** The part that comes to one is done at once: it leaves the state
in which the node was produced, with this node in place of the activation's. -/
structure Ends (setting : Setting) (ev : Evaluator) (first : FirstReturn) : Prop where
  expr : ∀ {run built : Run} {e : Expr} {truthy : Bool} {node : NodeId},
    first.expr run e truthy node built → run.frames ≠ [] →
    run.SameBelow built ∧ ∃ operand : Operand, (∀ g, operand.isTruthy g = truthy) ∧
      (ev.expr e).result setting run = .ok operand (built.givenBack node run.frames)
  block : ∀ {run built : Run} {b : Block} {node : NodeId},
    first.block run b node built → run.frames ≠ [] →
    run.SameBelow built ∧
      (ev.block b).result setting run = .ok .returned (built.givenBack node run.frames)

end FirstReturn

namespace Evaluation

open Eval

variable {setting : Setting} {ev : Evaluator} {first : FirstReturn} {run built : Run}
  {node : NodeId}

theorem result_giveBack (span : Span) {v : Value} (hv : v ≠ .absent)
    (hbuild : (Eval.build (Building.typeOf v)).result setting run = .ok node built)
    (hbelow : run.SameBelow built) :
    (giveBack span v).result setting run = .ok .returned (built.givenBack node built.frames) := by
  obtain ⟨a, ha⟩ := hbelow
  unfold giveBack
  rw [if_neg hv, result_bind_of_ok hbuild]
  have hset : (Eval.setSelf node).result setting built =
      .ok () { built with activations := { a with self := node } :: run.activations.tail } := by
    rw [Eval.setSelf, result_modifyActivation, ha]
  rw [result_bind_of_ok hset, result_bind, result_modifyActivation]
  unfold Run.givenBack Run.frames
  rw [ha]
  rfl

theorem stmt_ends (hends : first.Ends setting ev) (hev : ev.Steps setting) {s : Stmt}
    (h : StmtReturns setting ev first run s node built) (hrun : run.frames ≠ []) :
    run.SameBelow built ∧
      (stmt ev s).result setting run = .ok .returned (built.givenBack node run.frames) := by
  cases h with
  | ret span e hvalue hmiddle hv hbuild =>
    -- evaluating the operand keeps the frames, so they are given back as they were
    have hkept : Activation.StackKept true _ _ := (steps_value hev e fun _ => rfl).kept hvalue
    have hbuilt : Activation.StackKept false _ _ :=
      (Steps.build (Building.grows_typeOf _)).kept hbuild
    have hframes := Run.frames_of_kept hkept
    have hbelow := Run.sameBelow_of_kept (hframes ▸ hrun) hbuilt
    have hresult := result_giveBack span hv hbuild hbelow
    rw [Run.SameBelow, Run.tail_of_kept hkept] at hbelow
    refine ⟨hbelow, ?_⟩
    rw [stmt, result_bind_of_ok hvalue, hresult, Run.frames_of_kept hbuilt, hframes]
  | body span test body otherwise htest hmiddle hbody =>
    -- the branch runs in the frames of the condition, which are those of the statement
    have hkept : Activation.StackKept true _ _ := (steps_truth hev test fun _ => rfl).kept htest
    have hframes := Run.frames_of_kept hkept
    obtain ⟨hbelow, hblock⟩ := hends.block hbody (hframes ▸ hrun)
    rw [Run.SameBelow, Run.tail_of_kept hkept] at hbelow
    refine ⟨hbelow, ?_⟩
    cases otherwise with
    | none => rw [stmt, result_bind_of_ok htest, if_pos rfl, hblock, hframes]
    | some alternative => rw [stmt, result_bind_of_ok htest, if_pos rfl, hblock, hframes]
  | alternative span test body alternative htest hmiddle halternative =>
    have hkept : Activation.StackKept true _ _ := (steps_truth hev test fun _ => rfl).kept htest
    have hframes := Run.frames_of_kept hkept
    obtain ⟨hbelow, hblock⟩ := hends.block halternative (hframes ▸ hrun)
    rw [Run.SameBelow, Run.tail_of_kept hkept] at hbelow
    refine ⟨hbelow, ?_⟩
    rw [stmt, result_bind_of_ok htest, if_neg Bool.false_ne_true]
    exact hblock.trans (by rw [hframes])
  | expr span e he =>
    -- the expression is evaluated; its flag is looked at and found set
    obtain ⟨⟨a, ha⟩, operand, -, hresult⟩ := hends.expr he hrun
    refine ⟨⟨a, ha⟩, ?_⟩
    rw [stmt, discard_eq, bind_assoc, result_bind_of_ok hresult, pure_bind, result_bind,
      result_activation]
    unfold Run.givenBack
    rw [ha]
    rfl

theorem stmts_end (hends : first.Ends setting ev) (hev : ev.Steps setting) {ss : List Stmt}
    (h : StmtsReturn setting ev first run ss node built) (hrun : run.frames ≠ []) :
    run.SameBelow built ∧
      (stmts ev ss).result setting run = .ok .returned (built.givenBack node run.frames) := by
  induction h with
  | head hs =>
    obtain ⟨hbelow, hresult⟩ := stmt_ends hends hev hs hrun
    refine ⟨hbelow, ?_⟩
    rw [stmts, result_bind_of_ok hresult]
    rfl
  | tail hs hmiddle _ ih =>
    -- the statements before were run to their ends and returned nothing
    have hkept : Activation.StackKept true _ _ := (steps_stmt hev _ fun _ => rfl).kept hs
    have hframes := Run.frames_of_kept hkept
    obtain ⟨hbelow, hresult⟩ := ih (hframes ▸ hrun)
    rw [Run.SameBelow, Run.tail_of_kept hkept] at hbelow
    refine ⟨hbelow, ?_⟩
    rw [stmts, result_bind_of_ok hs]
    exact hresult.trans (by rw [hframes])

/-- A frame that was opened around a first `return` is closed again. -/
theorem inFrame_ends {frame : Frame} {x : Eval Flow} (hrun : run.frames ≠ [])
    (hbelow : run.SameBelow built)
    (hx : x.result setting (run.openFrame frame) =
      .ok .returned (built.givenBack node (run.openFrame frame).frames)) :
    (Eval.inFrame frame x).result setting run =
      .ok .returned (built.givenBack node run.frames) := by
  obtain ⟨a, rest, outer, inner, hstack, hframes, hrunframes⟩ := Run.exists_of_frames_ne_nil hrun
  obtain ⟨b, hb⟩ := hbelow
  have hopen : (Eval.modifyActivation (Activation.pushFrame frame)).result setting run =
      .ok () (run.openFrame frame) := by
    rw [result_modifyActivation, Run.openFrame, hstack]
  rw [Run.frames_openFrame hrun, hrunframes] at hx
  -- the opened frame is still the innermost one when the body ends
  have hgiven : (built.givenBack node (frame :: outer :: inner)).activations =
      { b with self := node, returning := true, frames := frame :: outer :: inner } ::
        run.activations.tail := by
    rw [Run.givenBack, hb]
  rw [Eval.inFrame, result_bind_of_ok hopen, result_bind_of_ok hx,
    result_bind_of_ok (result_popFrame hgiven rfl), hrunframes]
  unfold Run.givenBack
  rw [hb]
  rfl

theorem forItems_ends (hends : first.Ends setting ev) (hev : ev.Steps setting)
    {params : List Word} {body : Block} {position : Nat} {items : List NodeId}
    (h : ItemsReturn setting ev first params body run position items node built)
    (hrun : run.frames ≠ []) :
    run.SameBelow built ∧
      (forItems ev params body position items).result setting run =
        .ok .returned (built.givenBack node run.frames) := by
  induction h with
  | @head _ _ _ item position rest hbody =>
    have hopen := Run.frames_openFrame hrun (itemFrame params item position)
    obtain ⟨hbelow, hresult⟩ := hends.block hbody (by rw [hopen]; exact List.cons_ne_nil _ _)
    rw [Run.SameBelow, Run.tail_openFrame] at hbelow
    refine ⟨hbelow, ?_⟩
    have hround := ok_inRound_iff.mpr (inFrame_ends hrun hbelow hresult)
    rw [forItems_cons, result_bind_of_ok hround]
    rfl
  | tail hround hmiddle _ ih =>
    have hkept : Activation.StackKept true _ _ :=
        (Steps.inRound (hev.block body fun _ => rfl)).kept hround
    have hframes := Run.frames_of_kept hkept
    obtain ⟨hbelow, hresult⟩ := ih (hframes ▸ hrun)
    rw [Run.SameBelow, Run.tail_of_kept hkept] at hbelow
    refine ⟨hbelow, ?_⟩
    rw [forItems_cons, result_bind_of_ok hround]
    exact hresult.trans (by rw [hframes])

private theorem result_truth {e : Expr} {operand : Operand} {truthy : Bool} {after : Run}
    (h : (ev.expr e).result setting run = .ok operand after)
    (htruthy : ∀ g, operand.isTruthy g = truthy) :
    (truth ev e).result setting run = .ok truthy after := by
  rw [truth, result_bind_of_ok h, ← htruthy after.graph]
  rfl

theorem expr_ends (hends : first.Ends setting ev) (hev : ev.Steps setting) {e : Expr}
    {truthy : Bool} (h : ExprReturns setting ev first run e truthy node built)
    (hrun : run.frames ≠ []) :
    run.SameBelow built ∧ ∃ operand : Operand, (∀ g, operand.isTruthy g = truthy) ∧
      (expr ev e).result setting run = .ok operand (built.givenBack node run.frames) := by
  cases h with
  | loop span memberSpan lambdaSpan target method params body htarget hmiddle hmethod hitems =>
    have hkept : Activation.StackKept true _ _ := (hev.expr target fun _ => rfl).kept htarget
    have hframes := Run.frames_of_kept hkept
    obtain ⟨hbelow, hresult⟩ := forItems_ends hends hev hitems (hframes ▸ hrun)
    rw [Run.SameBelow, Run.tail_of_kept hkept] at hbelow
    refine ⟨hbelow, .value .absent, fun _ => rfl, ?_⟩
    rw [expr, call, result_bind_of_ok htarget, callMethod, if_pos hmethod]
    rw [forEach, discard_eq, bind_assoc, result_bind_of_ok hresult, hframes]
    rfl
  | @not _ _ truthy span operand hoperand =>
    obtain ⟨hbelow, inner, htruthy, hresult⟩ := hends.expr hoperand hrun
    refine ⟨hbelow, .value (.bool !truthy), fun _ => rfl, ?_⟩
    -- the negation of what the loop came to is computed, and nothing else
    have hunary : (unary ev span .not operand).result setting run =
        .ok (.bool !truthy) (built.givenBack node run.frames) := by
      rw [unary, result_bind_of_ok hresult, ← htruthy (built.givenBack node run.frames).graph]
      rfl
    rw [expr, result_bind_of_ok hunary]
    rfl
  | left span op lhs rhs hlhs hsettled =>
    obtain ⟨hbelow, inner, htruthy, hresult⟩ := hends.expr hlhs hrun
    refine ⟨hbelow, .value (.bool truthy), fun _ => rfl, ?_⟩
    -- the left operand settles the result, so the right one is not evaluated
    have hbinary : (binary ev span (.logic op) lhs rhs).result setting run =
        .ok (.bool truthy) (built.givenBack node run.frames) := by
      rw [binary, result_bind_of_ok (result_truth hresult htruthy), hsettled]
      rfl
    rw [expr, result_bind_of_ok hbinary]
    rfl
  | @right middle _ _ holds truthy span op lhs rhs hlhs hopen hmiddle hrhs =>
    have hkept : Activation.StackKept true _ _ := (steps_truth hev lhs fun _ => rfl).kept hlhs
    have hframes : middle.frames = run.frames := Run.frames_of_kept hkept
    obtain ⟨hbelow, inner, htruthy, hresult⟩ := hends.expr hrhs (hframes ▸ hrun)
    rw [Run.SameBelow, Run.tail_of_kept hkept] at hbelow
    refine ⟨hbelow, .value (.bool truthy), fun _ => rfl, ?_⟩
    have htruth := result_truth hresult htruthy
    rw [hframes] at htruth
    have hbinary : (binary ev span (.logic op) lhs rhs).result setting run =
        .ok (.bool truthy) (built.givenBack node run.frames) := by
      rw [binary, result_bind_of_ok hlhs, hopen]
      exact (result_bind_of_ok htruth).trans rfl
    rw [expr, result_bind_of_ok hbinary]
    rfl

end Evaluation

namespace FirstReturn

variable {setting : Setting} {ev : Evaluator} {first : FirstReturn}

theorem Ends.next (hends : first.Ends setting ev) (hev : ev.Steps setting) :
    (first.next setting ev).Ends setting ev.next where
  expr h hrun := Evaluation.expr_ends hends hev h hrun
  block {run built b node} h hrun := by
    have hopen := Run.frames_openFrame hrun []
    obtain ⟨hbelow, hresult⟩ :=
      Evaluation.stmts_end hends hev h (by rw [hopen]; exact List.cons_ne_nil _ _)
    rw [Run.SameBelow, Run.tail_openFrame] at hbelow
    exact ⟨hbelow, Evaluation.inFrame_ends hrun hbelow hresult⟩

/-- **A first `return` ends what comes to it**, at every level. -/
theorem atLevel_ends (setting : Setting) (levels : Nat) :
    (atLevel setting levels).Ends setting (evaluator levels) := by
  induction levels with
  | zero => exact ⟨fun h => h.elim, fun h => h.elim⟩
  | succ levels ih =>
    rw [evaluator_succ]
    exact ih.next (evaluator_steps setting levels)

end FirstReturn

end SchemaProjection
