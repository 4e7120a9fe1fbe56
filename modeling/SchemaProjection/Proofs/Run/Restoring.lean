import SchemaProjection.Proofs.Run.SelfEdits

/-!
# Evaluation restores the stack

What is evaluated successfully leaves the stack as it found it, but for two things in the innermost
activation: its node, and its flag of a `return`. The flag is up afterwards exactly if it was up
before or a `return` was executed (`Evaluation.restores`); an application leaves even these.

That a `return` is executed is told by what evaluation comes to: `Executing` follows it through
statements, branches, rounds and operands, in their order, as far as each is reached. It does not
look at the flag. Applications run in activations of their own, so what they execute does not count.
-/

namespace SchemaProjection

open Eval

/-! ### Executing a `return` -/

/-- What holds of the result of a step that succeeds, and of the state behind it. -/
def Eval.After {α : Type} (setting : Setting) (run : Run) (x : Eval α) (P : α → Run → Prop) :
    Prop :=
  ∃ a after, x.result setting run = .ok a after ∧ P a after

/-- **Whether a `return` is executed** in the innermost activation, when a part is evaluated in some
state. -/
structure Executing where
  expr : Run → Expr → Prop
  block : Run → Block → Prop

namespace Evaluation

variable (setting : Setting) (ev : Evaluator) (executing : Executing)

/-- A `return` is executed in one of some operands, which are evaluated from left to right. -/
def OperandsExecute {α : Type} (evaluate : Expr → Eval α) : Run → List Expr → Prop
  | _, [] => False
  | run, e :: es =>
    executing.expr run e ∨
      After setting run (evaluate e) fun _ middle => OperandsExecute evaluate middle es

/-- A `return` is executed in one of the rounds of a loop. -/
def ItemsExecute (params : List Word) (body : Block) : Run → (position : Nat) → List NodeId → Prop
  | _, _, [] => False
  | run, position, item :: rest =>
    executing.block (run.openFrame (itemFrame params item position)) body ∨
      After setting run (inRound (itemFrame params item position) (ev.block body))
        fun flow middle => flow = .proceed ∧
          ItemsExecute params body middle (position + 1) rest

/-- A `return` is executed in a loop over some items. -/
def LoopExecutes (run : Run) (items : List NodeId) : (args : List Expr) → Prop
  | [.lambda _ params body] => ItemsExecute setting ev executing params body run 0 items
  | _ => False

/-- A `return` is executed when a method is called: in a loop, or in an operand of an edit. -/
def MethodExecutes (run : Run) (receiver : Operand) (method : Word) (args : List Expr) : Prop :=
  match receiver with
  | .members items =>
    method.text = "forEach" ∧ LoopExecutes setting ev executing run items args
  | .value (.type _) =>
    (Method.ofName? method.text).isSome ∧ OperandsExecute setting executing ev.expr run args
  | _ => False

/-- A `return` is executed in a part of an expression. -/
def ExprExecutes (run : Run) : Expr → Prop
  | .literal _ _ | .name _ | .lambda _ _ _ => False
  | .member _ target _ => executing.expr run target
  | .call _ callee args =>
    match callee with
    | .name _ => OperandsExecute setting executing (value ev) run args
    | .member _ target method =>
      executing.expr run target ∨
        After setting run (ev.expr target) fun receiver middle =>
          MethodExecutes setting ev executing middle receiver method args
    | _ => False
  | .decorator _ _ args => OperandsExecute setting executing (value ev) run args
  | .project _ target _ args =>
    executing.expr run target ∨
      After setting run (value ev target) fun _ middle =>
        OperandsExecute setting executing (value ev) middle args
  | .unary _ _ operand => executing.expr run operand
  | .binary _ (.logic op) lhs rhs =>
    executing.expr run lhs ∨
      After setting run (truth ev lhs) fun holds middle =>
        op.shortcut? holds = none ∧ executing.expr middle rhs
  | .binary _ _ lhs rhs =>
    executing.expr run lhs ∨
      After setting run (value ev lhs) fun _ middle => executing.expr middle rhs

/-- A `return` is executed by a statement that is one, or in a part of the statement. -/
def StmtExecutes (run : Run) : Stmt → Prop
  | .expr _ e => executing.expr run e
  | .cond _ test body otherwise =>
    executing.expr run test ∨
      After setting run (truth ev test) fun holds middle =>
        if holds then executing.block middle body
        else ∃ alternative ∈ otherwise, executing.block middle alternative
  | .ret _ e =>
    executing.expr run e ∨ After setting run (value ev e) fun v _ => v ≠ .absent

/-- A `return` is executed in one of some statements. -/
def StmtsExecute : Run → List Stmt → Prop
  | _, [] => False
  | run, s :: rest =>
    StmtExecutes setting ev executing run s ∨
      After setting run (stmt ev s) fun flow middle =>
        flow = .proceed ∧ StmtsExecute middle rest

end Evaluation

namespace Executing

/-- One level up, as for `Evaluator.next`. -/
def next (setting : Setting) (ev : Evaluator) (executing : Executing) : Executing where
  expr := Evaluation.ExprExecutes setting ev executing
  block run body := Evaluation.StmtsExecute setting ev executing (run.openFrame []) body.stmts

/-- Executing a `return` in evaluation at a level. -/
def atLevel (setting : Setting) : (levels : Nat) → Executing
  | 0 => ⟨fun _ _ => False, fun _ _ => False⟩
  | levels + 1 => (atLevel setting levels).next setting (evaluator levels)

end Executing

/-! ### What the flag says -/

namespace Eval

variable {setting : Setting} {run after : Run} {executed : Prop} {α β : Type}

/-- **A step raises the flag** exactly if a `return` is executed, and never lowers it. -/
def Raises (setting : Setting) (run : Run) (executed : Prop) (x : Eval α) : Prop :=
  ∀ a after, x.result setting run = .ok a after → (after.returning ↔ run.returning ∨ executed)

theorem Raises.congr {executed' : Prop} {x : Eval α} (h : Raises setting run executed x)
    (hiff : executed ↔ executed') : Raises setting run executed' x :=
  fun a after hok => (h a after hok).trans (or_congr_right hiff)

/-- A step without a `return` leaves the flag alone. -/
theorem Raises.of_steps {x : Eval α} (h : Steps setting run false x) :
    Raises setting run False x := by
  intro a after hok
  rw [or_false, Run.returning_of_kept (h.kept hok)]

theorem Raises.bind {x : Eval α} {f : α → Eval β} {executed' : α → Run → Prop}
    (hx : Raises setting run executed x)
    (hf : ∀ a middle, x.result setting run = .ok a middle →
      Raises setting middle (executed' a middle) (f a)) :
    Raises setting run (executed ∨ After setting run x executed') (x >>= f) := by
  intro b after hok
  obtain ⟨a, middle, hx', hf'⟩ := ok_of_bind hok
  rw [hf a middle hx' b after hf', hx a middle hx', or_assoc]
  refine or_congr_right (or_congr_right ⟨fun h => ⟨a, middle, hx', h⟩, ?_⟩)
  rintro ⟨a', middle', hx'', h⟩
  cases hx'.symm.trans hx''
  exact h

/-- What follows executes no `return`. -/
theorem Raises.bind_steps {x : Eval α} {f : α → Eval β} (hx : Raises setting run executed x)
    (hf : ∀ a middle, x.result setting run = .ok a middle → Steps setting middle false (f a)) :
    Raises setting run executed (x >>= f) := by
  refine (hx.bind fun a middle hok => .of_steps (hf a middle hok)).congr (or_iff_left ?_)
  rintro ⟨_, _, _, h⟩
  exact h

/-- A step that fails raises nothing. -/
theorem Raises.of_error {x : Eval α} {failure : Failure}
    (h : x.result setting run = .error failure after) : Raises setting run executed x := by
  intro a after hok
  rw [h] at hok
  cases hok

theorem Raises.fail (span : Span) (cause : Cause) :
    Raises setting run executed (Eval.fail span cause : Eval α) := .of_error rfl

theorem Raises.inFrame {frame : Frame} {x : Eval α}
    (hx : Raises setting (run.openFrame frame) executed x) :
    Raises setting run executed (Eval.inFrame frame x) := by
  intro a after hok
  obtain ⟨middle, hinside, hflag⟩ := ok_of_inFrame hok
  rw [hflag, hx a middle hinside, Run.returning_openFrame]

theorem Raises.inRound {frame : Frame} {x : Eval α}
    (hx : Raises setting (run.openFrame frame) executed x) :
    Raises setting run executed (Eval.inRound frame x) :=
  fun a after hok => Raises.inFrame hx a after (ok_inRound_iff.mp hok)

end Eval

/-- **What is executed raises the flag** in the parts that contain one another. -/
structure Executing.Raises (setting : Setting) (ev : Evaluator) (executing : Executing) : Prop where
  expr : ∀ run e, Eval.Raises setting run (executing.expr run e) (ev.expr e)
  block : ∀ run b, Eval.Raises setting run (executing.block run b) (ev.block b)

namespace Evaluation

variable {setting : Setting} {ev : Evaluator} {executing : Executing} {run : Run} {α : Type}

/-! ### Operands -/

theorem raises_mapM {evaluate : Expr → Eval α}
    (hevaluate : ∀ run e, Raises setting run (executing.expr run e) (evaluate e))
    (run : Run) (es : List Expr) :
    Raises setting run (OperandsExecute setting executing evaluate run es) (es.mapM evaluate) := by
  induction es generalizing run with
  | nil =>
    rw [List.mapM_nil]
    exact .of_steps (.pure _)
  | cons e rest ih =>
    rw [List.mapM_cons]
    refine (hevaluate run e).bind fun a middle _ => ?_
    exact (ih middle).bind_steps fun _ _ _ => .pure _

section Parts

variable (hexecuting : executing.Raises setting ev)
include hexecuting

theorem raises_value (run : Run) (e : Expr) :
    Raises setting run (executing.expr run e) (value ev e) := by
  refine (hexecuting.expr run e).bind_steps fun operand _ _ => ?_
  split
  · exact .pure _
  · exact .fail _ _
  · exact .fail _ _

theorem raises_truth (run : Run) (e : Expr) :
    Raises setting run (executing.expr run e) (truth ev e) :=
  (hexecuting.expr run e).bind_steps fun _ _ _ => Steps.graph.bind fun _ _ _ => .pure _

theorem raises_values (run : Run) (es : List Expr) :
    Raises setting run (OperandsExecute setting executing (value ev) run es) (values ev es) :=
  raises_mapM (raises_value hexecuting) run es

/-! ### Loops -/

theorem raises_forItems (params : List Word) (body : Block) (position : Nat)
    (items : List NodeId) (run : Run) :
    Raises setting run (ItemsExecute setting ev executing params body run position items)
      (forItems ev params body position items) := by
  induction items generalizing position run with
  | nil => exact .of_steps (.pure _)
  | cons item rest ih =>
    rw [forItems_cons]
    refine (Raises.inRound (hexecuting.block _ body)).bind fun flow middle _ => ?_
    cases flow with
    | returned => exact (Raises.of_steps (.pure _)).congr (by simp)
    | proceed => exact (ih (position + 1) middle).congr (by simp)

theorem raises_forEach (span : Span) (items : List NodeId) (args : List Expr) (run : Run) :
    Raises setting run (LoopExecutes setting ev executing run items args)
      (forEach ev span items args) := by
  unfold forEach
  split
  · next lambdaSpan params body =>
    rw [discard_eq]
    exact (raises_forItems hexecuting params body 0 items run).bind_steps fun _ _ _ => .pure _
  · exact .fail _ _
  · exact .fail _ _

variable (hev : ev.Steps setting)
include hev

/-! ### Calls -/

theorem raises_callMethod (span : Span) (receiver : Operand) (method : Word) (args : List Expr)
    (run : Run) :
    Raises setting run (MethodExecutes setting ev executing run receiver method args)
      (callMethod ev span receiver method args) := by
  unfold callMethod
  dsimp only
  split
  · next items =>
    split
    · next hloop =>
      have hitems := (raises_forEach hexecuting span items args run).bind_steps
        fun _ _ _ => Steps.pure (Operand.value .absent)
      exact hitems.congr (and_iff_right hloop).symm
    · exact .fail _ _
  · split
    · split
      · exact .of_steps (.pure _)
      · exact .fail _ _
    · exact .fail _ _
  · next id =>
    split
    · next m hmethod =>
      -- the edit may apply projections, but in activations of their own
      have hedit := (raises_mapM hexecuting.expr run args).bind_steps fun operands middle _ =>
        (Edits.steps_run (fun span node name args => steps_applyNamed hev span node name args)
          ⟨span, method, id, operands⟩ m).bind fun v _ _ => Steps.pure (Operand.value v)
      exact hedit.congr (and_iff_right (by rw [hmethod]; rfl)).symm
    · exact .of_error rfl
  · exact .fail _ _
  · exact .fail _ _

/-! ### Expressions -/

theorem raises_call (span callSpan : Span) (callee : Expr) (args : List Expr) (run : Run) :
    Raises setting run (ExprExecutes setting ev executing run (.call callSpan callee args))
      (call ev span callee args) := by
  cases callee with
  | name word =>
    refine (raises_values hexecuting run args).bind_steps fun vs _ _ => ?_
    have htarget : Host.ExportSort.function ≠ .decorator := by decide
    exact (steps_callHost .function word vs fun _ h => absurd h htarget).bind fun _ _ _ => .pure _
  | member memberSpan target method =>
    exact (hexecuting.expr run target).bind fun receiver middle _ =>
      raises_callMethod hexecuting hev span receiver method args middle
  | _ => exact .fail _ _

omit hev in
theorem raises_unary (span : Span) (op : UnaryOp) (operand : Expr) (run : Run) :
    Raises setting run (executing.expr run operand) (unary ev span op operand) := by
  refine (hexecuting.expr run operand).bind_steps fun result _ _ => ?_
  split
  · exact Steps.graph.bind fun _ _ _ => .pure _
  · exact .pure _
  · exact .fail _ _

omit hev in
theorem raises_binary (span exprSpan : Span) (op : BinaryOp) (lhs rhs : Expr) (run : Run) :
    Raises setting run (ExprExecutes setting ev executing run (.binary exprSpan op lhs rhs))
      (binary ev span op lhs rhs) := by
  cases op with
  | arithmetic op =>
    refine (raises_value hexecuting run lhs).bind fun a middle _ => ?_
    refine (raises_value hexecuting middle rhs).bind_steps fun b _ _ => ?_
    split
    · exact .pure _
    · exact .fail _ _
  | compare op =>
    refine (raises_value hexecuting run lhs).bind fun a middle _ => ?_
    refine (raises_value hexecuting middle rhs).bind_steps fun b _ _ => ?_
    split
    · exact .pure _
    · exact .fail _ _
  | logic op =>
    refine (raises_truth hexecuting run lhs).bind fun holds middle _ => ?_
    split
    · next hsettled => exact (Raises.of_steps (.pure _)).congr (by simp [hsettled])
    · next hopen =>
      have hrhs := (raises_truth hexecuting middle rhs).bind_steps
        fun holds _ _ => Steps.pure (Value.bool holds)
      exact hrhs.congr (and_iff_right hopen).symm

theorem raises_expr (run : Run) (e : Expr) :
    Raises setting run (ExprExecutes setting ev executing run e) (expr ev e) := by
  cases e with
  | literal span literal => exact .of_steps (.pure _)
  | name word => exact .of_steps (steps_resolve word)
  | member span target word =>
    exact (hexecuting.expr run target).bind_steps fun operand _ _ => steps_field word operand
  | call span callee args => exact raises_call hexecuting hev span span callee args run
  | decorator span name args =>
    refine (raises_values hexecuting run args).bind_steps fun vs _ _ => ?_
    rw [← bind_assoc]
    exact (steps_decorate name vs).bind fun _ _ _ => .pure _
  | project span target name args =>
    refine (raises_value hexecuting run target).bind fun v middle _ => ?_
    split
    · refine (raises_values hexecuting middle args).bind_steps fun vs _ _ => ?_
      exact (steps_applyNamed hev _ _ _ _).bind fun _ _ _ => .pure _
    · exact .fail _ _
  | lambda span params body => exact .fail _ _
  | unary span op operand =>
    exact (raises_unary hexecuting span op operand run).bind_steps fun _ _ _ => .pure _
  | binary span op lhs rhs =>
    exact (raises_binary hexecuting span span op lhs rhs run).bind_steps fun _ _ _ => .pure _

/-! ### Statements and blocks -/

omit hexecuting hev in
/-- **A `return` raises the flag**, unless there is nothing to return. -/
theorem raises_giveBack (span : Span) (v : Value) (run : Run) :
    Raises setting run (v ≠ .absent) (giveBack span v) := by
  unfold giveBack
  split
  · exact .of_error rfl
  · next hv =>
    intro flow after hok
    obtain ⟨node, built, -, hrest⟩ := ok_of_bind hok
    obtain ⟨_, middle, -, hrest⟩ := ok_of_bind hrest
    obtain ⟨_, raised, hraise, hflow⟩ := ok_of_bind hrest
    cases hflow
    rw [result_modifyActivation] at hraise
    cases hstack : middle.activations with
    | nil =>
      rw [hstack] at hraise
      cases hraise
    | cons a rest =>
      rw [hstack] at hraise
      cases hraise
      exact iff_of_true rfl (.inr hv)

omit hev in
theorem raises_stmt (run : Run) (s : Stmt) :
    Raises setting run (StmtExecutes setting ev executing run s) (stmt ev s) := by
  cases s with
  | expr span e =>
    rw [stmt, discard_eq, bind_assoc]
    refine (hexecuting.expr run e).bind_steps fun _ _ _ => ?_
    exact Steps.activation.bind fun a _ _ => .pure _
  | cond span test body otherwise =>
    refine (raises_truth hexecuting run test).bind fun holds middle _ => ?_
    cases holds with
    | true => exact hexecuting.block middle body
    | false =>
      cases otherwise with
      | none => exact (Raises.of_steps (.pure _)).congr (by simp)
      | some alternative => exact (hexecuting.block middle alternative).congr (by simp)
  | ret span e =>
    exact (raises_value hexecuting run e).bind fun v middle _ => raises_giveBack span v middle

omit hev in
theorem raises_stmts (run : Run) (ss : List Stmt) :
    Raises setting run (StmtsExecute setting ev executing run ss) (stmts ev ss) := by
  induction ss generalizing run with
  | nil => exact .of_steps (.pure _)
  | cons s rest ih =>
    refine (raises_stmt hexecuting run s).bind fun flow middle _ => ?_
    cases flow with
    | returned => exact (Raises.of_steps (.pure _)).congr (by simp)
    | proceed => exact (ih middle).congr (by simp)

end Parts

end Evaluation

namespace Executing

variable {setting : Setting} {ev : Evaluator} {executing : Executing}

theorem Raises.next (h : executing.Raises setting ev) (hev : ev.Steps setting) :
    (executing.next setting ev).Raises setting ev.next where
  expr run e := Evaluation.raises_expr h hev run e
  block run b := Eval.Raises.inFrame (Evaluation.raises_stmts h (run.openFrame []) b.stmts)

/-- **A `return` that is executed raises the flag**, and nothing else does, at every level. -/
theorem atLevel_raises (setting : Setting) (levels : Nat) :
    (atLevel setting levels).Raises setting (evaluator levels) := by
  induction levels with
  | zero => exact ⟨fun _ _ => .of_error rfl, fun _ _ => .of_error rfl⟩
  | succ levels ih =>
    rw [evaluator_succ]
    exact ih.next (evaluator_steps setting levels)

end Executing

/-! ### The stack -/

/-- **A stack that is restored**: of the innermost activation only the node and the flag may differ,
and the flag is up if it was up before or a `return` was executed. Nothing differs below. -/
def Run.Restored (run after : Run) (executed : Prop) : Prop :=
  match run.activations with
  | [] => after.activations = []
  | a :: rest => ∃ self returning, after.activations = { a with self, returning } :: rest ∧
      (returning = true ↔ a.returning = true ∨ executed)

theorem Eval.Raises.restored {setting : Setting} {run after : Run} {executed : Prop} {α : Type}
    {x : Eval α} {result : α} (hraises : Raises setting run executed x)
    (hsteps : Steps setting run true x) (hok : x.result setting run = .ok result after) :
    run.Restored after executed := by
  have hkept := hsteps.kept hok
  have hflag := hraises result after hok
  unfold Run.Restored
  unfold Run.returning at hflag
  cases hstack : run.activations with
  | nil =>
    rw [hstack] at hkept
    exact hkept
  | cons a rest =>
    rw [hstack] at hkept hflag
    obtain ⟨b, hb, hsame⟩ := hkept
    rw [hb] at hflag
    refine ⟨b.self, b.returning, ?_, hflag⟩
    rw [hb, ← hsame.depth, ← hsame.direction, ← hsame.hostCount, ← hsame.frames]

namespace Evaluation

/-- **Evaluation restores the stack.** An expression, a statement, a block or a loop that is
evaluated successfully changes nothing but the node and the flag of the innermost activation, and
raises the flag exactly if it executes a `return`. An application changes nothing at all. -/
theorem restores (setting : Setting) (levels : Nat) (run : Run) :
    (∀ e operand after, ((evaluator levels).expr e).result setting run = .ok operand after →
      run.Restored after ((Executing.atLevel setting levels).expr run e)) ∧
    (∀ s flow after, (stmt (evaluator levels) s).result setting run = .ok flow after →
      run.Restored after
        (StmtExecutes setting (evaluator levels) (Executing.atLevel setting levels) run s)) ∧
    (∀ b flow after, ((evaluator levels).block b).result setting run = .ok flow after →
      run.Restored after ((Executing.atLevel setting levels).block run b)) ∧
    (∀ span items args after,
      (forEach (evaluator levels) span items args).result setting run = .ok () after →
      run.Restored after
        (LoopExecutes setting (evaluator levels) (Executing.atLevel setting levels) run items
          args)) ∧
    (∀ node projection direction args result after,
      ((evaluator levels).apply node projection direction args).result setting run =
        .ok result after →
      after.activations = run.activations) := by
  have hraises := Executing.atLevel_raises setting levels
  have hsteps := evaluator_steps setting levels
  refine ⟨fun e operand after hok => ?_, fun s flow after hok => ?_, fun b flow after hok => ?_,
    fun span items args after hok => ?_, fun node projection direction args result after hok => ?_⟩
  · exact (hraises.expr run e).restored (hsteps.expr e fun _ => rfl) hok
  · exact (raises_stmt hraises run s).restored (steps_stmt hsteps s fun _ => rfl) hok
  · exact (hraises.block run b).restored (hsteps.block b fun _ => rfl) hok
  · exact (raises_forEach hraises span items args run).restored
      (steps_forEach hsteps span items args fun _ => rfl) hok
  · exact (aside_of_apply hok).activations

/-- `self.properties.forEach((item) => body);` -/
def overProperties (item : String) (body : Block) : Stmt :=
  .expr default (.call default
    (.member default (.member default (.name ⟨"self", default⟩) ⟨"properties", default⟩)
      ⟨"forEach", default⟩)
    [.lambda default [⟨item, default⟩] body])

/-- A `return` within two loops. -/
def nestedLoops : Block :=
  .mk default [overProperties "p" (.mk default [overProperties "q" (.mk default
    [.ret default (.member default (.name ⟨"q", default⟩) ⟨"type", default⟩)])])]

/-- A model with one property, node 25, in an activation within another one. -/
def withinAnother : Run :=
  { Run.start ((Graph.initial.push ⟨none, .model (some "M") (.ofList [("p", ⟨26⟩)])⟩).push
      ⟨none, .modelProperty "p" (Graph.intrinsic .void) false⟩) .empty none with
    activations := [.start 2 ⟨25⟩ .backward 0 [("x", .bool true)], .start 1 ⟨25⟩ .forward 0 []] }

/-- There the `return` is executed; it ends both loops and the block, and all frames are closed. -/
theorem restores_nestedLoops :
    ∃ after, ((evaluator 9).block nestedLoops).result ⟨.empty, [], .default⟩ withinAnother =
        .ok .returned after ∧
      (Executing.atLevel ⟨.empty, [], .default⟩ 9).block withinAnother nestedLoops ∧
      after.activations =
        [{ Activation.start 2 (Graph.intrinsic .void) .backward 0 [("x", .bool true)] with
            returning := true }, .start 1 ⟨25⟩ .forward 0 []] := by
  have hok : okAnd (fun flow after => decide (flow = .returned ∧
      after.activations.map Activation.self = [Graph.intrinsic .void, ⟨25⟩] ∧
      after.activations.map Activation.returning = [true, false]))
      (((evaluator 9).block nestedLoops).result ⟨.empty, [], .default⟩ withinAnother) := by
    decide +kernel
  obtain ⟨flow, after, hafter, hok⟩ := of_okAnd hok
  obtain ⟨rfl, hselves, hflags⟩ := of_decide_eq_true hok
  obtain ⟨self, returning, hstack, hflag⟩ :=
    (restores ⟨.empty, [], .default⟩ 9 withinAnother).2.2.1 nestedLoops .returned after hafter
  have hstack : after.activations =
      [{ Activation.start 2 self .backward 0 [("x", .bool true)] with returning },
        .start 1 ⟨25⟩ .forward 0 []] := hstack
  rw [hstack] at hselves hflags
  have hself : self = Graph.intrinsic .void := (List.cons.inj hselves).1
  have hreturning : returning = true := (List.cons.inj hflags).1
  have hexecuted := (hflag.mp hreturning).resolve_left Bool.false_ne_true
  exact ⟨after, hafter, hexecuted, by rw [hstack, hself, hreturning]⟩

end Evaluation

end SchemaProjection
