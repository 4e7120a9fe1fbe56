import SchemaProjection.Proofs.Grammar.Forms
import SchemaProjection.Proofs.Run.Frames

/-!
# What programs come to

Rules for evaluating a given program to its end. An expression of some form **yields** an operand
(`Expr.Yields`) and a statement, or a block, **proceeds** (`Stmt.Proceeds`, `Block.Proceeds`) if
every tree of that form does so, with any number of levels from its height on. Each rule says what a
form comes to, given what its parts come to, so a program is evaluated by putting the rules for its
parts together, and neither spans nor levels are seen again.

Loops are evaluated by a rule with an invariant (`Scene.yields_forEach`), which speaks of the graph,
of the node of the activation, and of the items that are still to come. All else stays the same in
such a loop, and is called its **scene** (`Scene`).
-/

namespace SchemaProjection

/-- **Expressions of a form yield an operand**, and leave a state. -/
def Expr.Yields (setting : Setting) (run : Run) (form : Expr) (operand : Operand) (after : Run) :
    Prop :=
  ∀ e : Expr, e.bare = form → ∀ levels, e.height ≤ levels →
    ((evaluator levels).expr e).result setting run = .ok operand after

/-- Expressions, one after the other. -/
inductive Expr.YieldAll (setting : Setting) : Run → List Expr → List Operand → Run → Prop
  | nil (run : Run) : YieldAll setting run [] [] run
  | cons {run middle after : Run} {form : Expr} {forms : List Expr} {operand : Operand}
    {operands : List Operand} (first : form.Yields setting run operand middle)
    (rest : YieldAll setting middle forms operands after) :
    YieldAll setting run (form :: forms) (operand :: operands) after

/-- **Statements of a form proceed** to the next one. -/
def Stmt.Proceeds (setting : Setting) (run : Run) (form : Stmt) (after : Run) : Prop :=
  ∀ s : Stmt, s.bare = form → ∀ levels, s.height ≤ levels →
    (Evaluation.stmt (evaluator levels) s).result setting run = .ok .proceed after

/-- Statements, one after the other. -/
inductive Stmt.ProceedAll (setting : Setting) : Run → List Stmt → Run → Prop
  | nil (run : Run) : ProceedAll setting run [] run
  | cons {run middle after : Run} {form : Stmt} {forms : List Stmt}
    (first : form.Proceeds setting run middle) (rest : ProceedAll setting middle forms after) :
    ProceedAll setting run (form :: forms) after

/-- **Blocks of a form proceed** to what follows them. -/
def Block.Proceeds (setting : Setting) (run : Run) (form : Block) (after : Run) : Prop :=
  ∀ b : Block, b.bare = form → ∀ levels, b.height ≤ levels →
    ((evaluator levels).block b).result setting run = .ok .proceed after

/-! ### Scenes -/

/-- **What stays as it is while a body edits its node**: all of the state but the graph, the node
and the bindings. Edits are not recorded. -/
structure Scene where
  metadata : Metadata
  memo : Memo
  watermark : Nat
  depth : Nat
  direction : Direction
  hostCount : Nat
  /-- The activations below the one of the body. -/
  below : List Activation

/-- The activation of the body. -/
def Scene.activation (scene : Scene) (self : NodeId) (frames : List Frame) : Activation :=
  ⟨scene.depth, self, scene.direction, scene.hostCount, false, frames⟩

/-- The state with the given graph, node and bindings. -/
def Scene.run (scene : Scene) (graph : Graph) (self : NodeId) (frames : List Frame) : Run where
  graph
  metadata := scene.metadata
  activations := scene.activation self frames :: scene.below
  memo := scene.memo
  trace := none
  watermark := scene.watermark

/-! ### Rules -/

variable {setting : Setting} {run middle after : Run}

/-- What is higher than something needs a level of its own. -/
theorem exists_level {height levels : Nat} (h : height + 1 ≤ levels) :
    ∃ below, levels = below + 1 ∧ height ≤ below := by
  cases levels with
  | zero => exact absurd h (Nat.not_succ_le_zero _)
  | succ below => exact ⟨below, rfl, Nat.le_of_succ_le_succ h⟩

open Eval Evaluation

/-! ### Lists of expressions -/

namespace Expr

variable {forms es : List Expr} {operands : List Operand}

theorem YieldAll.exprs (h : YieldAll setting run forms operands after) {es : List Expr}
    (hes : es.map bare = forms) {levels : Nat} (hlevels : heights es ≤ levels) :
    (es.mapM (evaluator levels).expr).result setting run = .ok operands after := by
  induction h generalizing es with
  | nil =>
    obtain rfl := List.map_eq_nil_iff.mp hes
    rfl
  | cons first rest ih =>
    obtain ⟨e, es, rfl, he, hes⟩ := List.map_eq_cons_iff.mp hes
    rw [heights] at hlevels
    have hfirst := first e he levels (Nat.le_trans (Nat.le_max_left ..) hlevels)
    have hrest := ih hes (Nat.le_trans (Nat.le_max_right ..) hlevels)
    rw [List.mapM_cons, result_bind_of_ok hfirst, result_bind_of_ok hrest]
    rfl

theorem Yields.value {form : Expr} {v : Value} (h : form.Yields setting run (.value v) after)
    {e : Expr} (he : e.bare = form) {levels : Nat} (hlevels : e.height ≤ levels) :
    (Evaluation.value (evaluator levels) e).result setting run = .ok v after := by
  rw [Evaluation.value, result_bind_of_ok (h e he levels hlevels)]
  rfl

theorem YieldAll.values {vs : List Value}
    (h : YieldAll setting run forms (vs.map Operand.value) after) {es : List Expr}
    (hes : es.map bare = forms) {levels : Nat} (hlevels : heights es ≤ levels) :
    (Evaluation.values (evaluator levels) es).result setting run = .ok vs after := by
  induction vs generalizing run forms es with
  | nil =>
    cases h
    obtain rfl := List.map_eq_nil_iff.mp hes
    rfl
  | cons v vs ih =>
    cases h with
    | cons first rest =>
      obtain ⟨e, es, rfl, he, hes⟩ := List.map_eq_cons_iff.mp hes
      rw [heights] at hlevels
      have hfirst := first.value he (Nat.le_trans (Nat.le_max_left ..) hlevels)
      have hrest := ih rest hes (Nat.le_trans (Nat.le_max_right ..) hlevels)
      rw [Evaluation.values] at hrest ⊢
      rw [List.mapM_cons, result_bind_of_ok hfirst, result_bind_of_ok hrest]
      rfl

/-! ### Expressions -/

theorem yields_name {text : String} {operand : Operand}
    (h : ∀ w : Word, w.text = text → (resolve w).result setting run = .ok operand run) :
    (Form.name text).Yields setting run operand run := by
  intro e he levels hlevels
  obtain ⟨w, rfl, hw⟩ := eq_name_of_bare he
  obtain ⟨below, rfl, -⟩ := exists_level hlevels
  exact h w hw

theorem Yields.field {target : Expr} {text : String} {operand result : Operand}
    (htarget : target.Yields setting run operand after)
    (h : ∀ w : Word, w.text = text →
      (Evaluation.field w operand).result setting after = .ok result after) :
    (Form.member target text).Yields setting run result after := by
  intro e he levels hlevels
  obtain ⟨span, t, w, rfl, ht, hw⟩ := eq_member_of_bare he
  obtain ⟨below, rfl, hbelow⟩ := exists_level hlevels
  show (Evaluation.expr (evaluator below) (.member span t w)).result setting run = _
  rw [Evaluation.expr, result_bind_of_ok (htarget t ht below hbelow)]
  exact h w hw

/-- A call of a host function that changes nothing. -/
theorem YieldAll.function {text : String} {args : List Value} {v : Value}
    (hargs : YieldAll setting run forms (args.map Operand.value) after)
    (h : ∀ w : Word, w.text = text →
      (callHost .function w args).result setting after = .ok v after) :
    (Form.call (Form.name text) forms).Yields setting run (.value v) after := by
  intro e he levels hlevels
  obtain ⟨span, c, as, rfl, hc, has⟩ := eq_call_of_bare he
  obtain ⟨w, rfl, hw⟩ := eq_name_of_bare hc
  obtain ⟨below, rfl, hbelow⟩ := exists_level hlevels
  have hvalues := hargs.values has (Nat.le_trans (Nat.le_max_right ..) hbelow)
  show (Evaluation.expr (evaluator below) (.call span (.name w) as)).result setting run = _
  rw [Evaluation.expr, Evaluation.call, result_bind_of_ok hvalues, result_bind_of_ok (h w hw)]
  rfl

/-- A call of a method comes to what the method does with what its receiver yields. -/
theorem Yields.call_member {target : Expr} {text : String} {operand : Operand}
    (htarget : target.Yields setting run operand middle) {e : Expr}
    (he : e.bare = Form.call (Form.member target text) forms) {levels : Nat}
    (hlevels : e.height ≤ levels) :
    ∃ below span as, ∃ w : Word, w.text = text ∧ as.map bare = forms ∧ heights as ≤ below ∧
      ((evaluator levels).expr e).result setting run =
        (callMethod (evaluator below) span operand w as).result setting middle := by
  obtain ⟨span, c, as, rfl, hc, has⟩ := eq_call_of_bare he
  obtain ⟨memberSpan, t, w, rfl, ht, hw⟩ := eq_member_of_bare hc
  obtain ⟨below, rfl, hbelow⟩ := exists_level hlevels
  have hheight : t.height ≤ below :=
    Nat.le_trans (Nat.le_succ _) (Nat.le_trans (Nat.le_max_left ..) hbelow)
  refine ⟨below, span, as, w, hw, has, Nat.le_trans (Nat.le_max_right ..) hbelow, ?_⟩
  show (Evaluation.call (evaluator below) span (.member memberSpan t w) as).result setting run = _
  rw [Evaluation.call, result_bind_of_ok (htarget t ht below hheight)]

/-- A string in another casing. -/
theorem Yields.casing {target : Expr} {text s : String} {casing : Casing}
    (htarget : target.Yields setting run (.value (.string s)) after)
    (hcasing : casing? text = some casing) :
    (Form.call (Form.member target text) []).Yields setting run
      (.value (.string (casing.apply s))) after := by
  intro e he levels hlevels
  obtain ⟨below, span, as, w, rfl, has, -, hcall⟩ := htarget.call_member he hlevels
  obtain rfl := List.map_eq_nil_iff.mp has
  rw [hcall, callMethod]
  dsimp only
  rw [hcasing]
  rfl

/-- A method of a node. -/
theorem Yields.method {target : Expr} {text : String} {m : Method} {id : NodeId}
    {operands : List Operand} {v : Value} {before : Run}
    (htarget : target.Yields setting run (.value (.type id)) middle)
    (hargs : YieldAll setting middle forms operands before)
    (hmethod : Method.ofName? text = some m)
    (h : ∀ ev span, ∀ w : Word, w.text = text →
      (Edits.run (applyNamed ev) ⟨span, w, id, operands⟩ m).result setting before = .ok v after) :
    (Form.call (Form.member target text) forms).Yields setting run (.value v) after := by
  intro e he levels hlevels
  obtain ⟨below, span, as, w, hw, has, hheights, hcall⟩ := htarget.call_member he hlevels
  rw [hcall, callMethod]
  dsimp only
  rw [hw, hmethod]
  dsimp only
  rw [result_bind_of_ok (hargs.exprs has hheights),
    result_bind_of_ok (h (evaluator below) span w hw)]
  rfl

/-- A comparison. -/
theorem Yields.compare {op : CompareOp} {lhs rhs : Expr} {a b : Value} {holds : Bool}
    (hlhs : lhs.Yields setting run (.value a) middle)
    (hrhs : rhs.Yields setting middle (.value b) after) (hop : op.result? a b = some holds) :
    (Form.compare op lhs rhs).Yields setting run (.value (.bool holds)) after := by
  intro e he levels hlevels
  obtain ⟨span, l, r, rfl, hl, hr⟩ := eq_compare_of_bare he
  obtain ⟨below, rfl, hbelow⟩ := exists_level hlevels
  have hleft := hlhs.value hl (Nat.le_trans (Nat.le_max_left ..) hbelow)
  have hright := hrhs.value hr (Nat.le_trans (Nat.le_max_right ..) hbelow)
  show (Evaluation.expr (evaluator below) (.binary span (.compare op) l r)).result setting run = _
  rw [Evaluation.expr, Evaluation.binary, bind_assoc, result_bind_of_ok hleft, bind_assoc,
    result_bind_of_ok hright, hop]
  rfl

/-- A loop over the members of a collection comes to what its rounds do. -/
theorem Yields.call_forEach {target : Expr} {params : List String} {body : Block}
    {items : List NodeId} (htarget : target.Yields setting run (.members items) middle) {e : Expr}
    (he : e.bare = Form.call (Form.member target "forEach") [Form.lambda params body])
    {levels : Nat} (hlevels : e.height ≤ levels) :
    ∃ below ps b, ps.map Word.text = params ∧ b.bare = body ∧ b.height ≤ below ∧
      ((evaluator levels).expr e).result setting run =
        (forItems (evaluator below) ps b 0 items >>= fun _ =>
          pure (Operand.value .absent)).result setting middle := by
  obtain ⟨below, span, as, w, hw, has, hheights, hcall⟩ := htarget.call_member he hlevels
  obtain ⟨arg, rest, rfl, harg, hrest⟩ := List.map_eq_cons_iff.mp has
  obtain rfl := List.map_eq_nil_iff.mp hrest
  obtain ⟨lambdaSpan, ps, b, rfl, hps, hb⟩ := eq_lambda_of_bare harg
  refine ⟨below, ps, b, hps, hb,
    Nat.le_trans (Nat.le_succ _) (Nat.le_trans (Nat.le_max_left ..) hheights), ?_⟩
  rw [hcall, callMethod]
  dsimp only
  rw [hw, if_pos rfl, Evaluation.forEach, discard_eq, bind_assoc]
  rfl

end Expr

variable {scene : Scene} {g h : Graph} {self updated : NodeId} {frame outer : Frame}
  {frames : List Frame}

/-! ### Statements and blocks -/

theorem Stmt.proceeds_expr {form : Expr} {operand : Operand}
    (hform : form.Yields setting run operand (scene.run h updated frames)) :
    (Form.stmt form).Proceeds setting run (scene.run h updated frames) := by
  intro s hs levels hlevels
  obtain ⟨span, e, rfl, he⟩ := Stmt.eq_expr_of_bare hs
  rw [Evaluation.stmt, discard_eq, bind_assoc, result_bind_of_ok (hform e he levels hlevels)]
  rfl

/-- A condition with two branches, of which the one that is taken proceeds. -/
theorem Stmt.proceeds_cond {test : Expr} {body otherwise : Block} {holds : Bool}
    (htest : test.Yields setting run (.value (.bool holds)) middle)
    (hbody : holds = true → body.Proceeds setting middle after)
    (hotherwise : holds = false → otherwise.Proceeds setting middle after) :
    (Form.cond test body (some otherwise)).Proceeds setting run after := by
  intro s hs levels hlevels
  obtain ⟨span, t, b, alternative, rfl, ht, hb, hother⟩ := Stmt.eq_cond_of_bare hs
  obtain ⟨o, rfl, ho⟩ := Option.map_eq_some_iff.mp hother
  have hheights : t.height ≤ levels ∧ b.height ≤ levels ∧ o.height ≤ levels :=
    ⟨Nat.le_trans (Nat.le_max_left ..) hlevels,
      Nat.le_trans (Nat.le_max_left ..) (Nat.le_trans (Nat.le_max_right ..) hlevels),
      Nat.le_trans (Nat.le_max_right ..) (Nat.le_trans (Nat.le_max_right ..) hlevels)⟩
  have htruth : (Evaluation.truth (evaluator levels) t).result setting run = .ok holds middle := by
    rw [Evaluation.truth, result_bind_of_ok (htest t ht levels hheights.1)]
    rfl
  rw [Evaluation.stmt, result_bind_of_ok htruth]
  cases holds with
  | true => exact hbody rfl b hb levels hheights.2.1
  | false => exact hotherwise rfl o ho levels hheights.2.2

theorem Stmt.ProceedAll.stmts {forms : List Stmt} (h : ProceedAll setting run forms after)
    {ss : List Stmt} (hss : ss.map Stmt.bare = forms) {levels : Nat}
    (hlevels : Stmt.heights ss ≤ levels) :
    (Evaluation.stmts (evaluator levels) ss).result setting run = .ok .proceed after := by
  induction h generalizing ss with
  | nil =>
    obtain rfl := List.map_eq_nil_iff.mp hss
    rfl
  | cons first rest ih =>
    obtain ⟨s, ss, rfl, hs, hss⟩ := List.map_eq_cons_iff.mp hss
    rw [Stmt.heights] at hlevels
    rw [Evaluation.stmts,
      result_bind_of_ok (first s hs levels (Nat.le_trans (Nat.le_max_left ..) hlevels))]
    exact ih hss (Nat.le_trans (Nat.le_max_right ..) hlevels)

/-- What is evaluated in a frame of its own leaves the frames below as they are. -/
theorem Scene.result_inFrame {α : Type} {x : Eval α} {a : α}
    (hx : x.result setting (scene.run g self (frame :: outer :: frames)) =
      .ok a (scene.run h updated (frame :: outer :: frames))) :
    (inFrame frame x).result setting (scene.run g self (outer :: frames)) =
      .ok a (scene.run h updated (outer :: frames)) := by
  have hopen : (modifyActivation (Activation.pushFrame frame)).result setting
      (scene.run g self (outer :: frames)) = .ok () (scene.run g self (frame :: outer :: frames)) :=
    result_modifyActivation _ _ _
  rw [inFrame, result_bind_of_ok hopen, result_bind_of_ok hx,
    result_bind_of_ok (result_popFrame rfl rfl)]
  rfl

theorem Stmt.ProceedAll.block {forms : List Stmt}
    (hforms : ProceedAll setting (scene.run g self ([] :: outer :: frames)) forms
      (scene.run h updated ([] :: outer :: frames))) :
    (Form.block forms).Proceeds setting (scene.run g self (outer :: frames))
      (scene.run h updated (outer :: frames)) := by
  intro b hb levels hlevels
  obtain ⟨span, ss, rfl, hss⟩ := Block.eq_of_bare hb
  obtain ⟨below, rfl, hbelow⟩ := exists_level hlevels
  exact Scene.result_inFrame (hforms.stmts hss hbelow)

/-- **A condition whose branches are single statements.** The branch that is taken leads to a state
of which something holds, and so does the condition. -/
theorem Scene.proceeds_choice {P : Graph → NodeId → Prop} {test : Expr} {body otherwise : Stmt}
    {holds : Bool} (htest : test.Yields setting (scene.run g self (outer :: frames))
      (.value (.bool holds)) (scene.run g self (outer :: frames)))
    (hbody : holds = true → ∃ h updated, P h updated ∧
      body.Proceeds setting (scene.run g self ([] :: outer :: frames))
        (scene.run h updated ([] :: outer :: frames)))
    (hotherwise : holds = false → ∃ h updated, P h updated ∧
      otherwise.Proceeds setting (scene.run g self ([] :: outer :: frames))
        (scene.run h updated ([] :: outer :: frames))) :
    ∃ h updated, P h updated ∧
      (Form.cond test (Form.block [body]) (some (Form.block [otherwise]))).Proceeds setting
        (scene.run g self (outer :: frames)) (scene.run h updated (outer :: frames)) := by
  cases holds with
  | true =>
    obtain ⟨h, updated, hP, hproceeds⟩ := hbody rfl
    exact ⟨h, updated, hP, Stmt.proceeds_cond htest
      (fun _ => Stmt.ProceedAll.block (.cons hproceeds (.nil _))) fun h => nomatch h⟩
  | false =>
    obtain ⟨h, updated, hP, hproceeds⟩ := hotherwise rfl
    exact ⟨h, updated, hP, Stmt.proceeds_cond htest (fun h => nomatch h)
      fun _ => Stmt.ProceedAll.block (.cons hproceeds (.nil _))⟩

/-! ### Loops -/

/-- **A loop with an invariant** about the graph, the node, and the items that are still to come. -/
theorem Scene.result_forItems {param : String} {body : Block}
    (invariant : Graph → NodeId → List NodeId → Prop)
    (hround : ∀ g self item rest, invariant g self (item :: rest) → ∃ h updated,
      invariant h updated rest ∧
      body.Proceeds setting (scene.run g self ([(param, .type item)] :: outer :: frames))
        (scene.run h updated ([(param, .type item)] :: outer :: frames)))
    {items : List NodeId} (hstart : invariant g self items) :
    ∃ h updated, invariant h updated [] ∧ ∀ ps : List Word, ps.map Word.text = [param] →
      ∀ b : Block, b.bare = body → ∀ levels, b.height ≤ levels → ∀ position,
        (forItems (evaluator levels) ps b position items).result setting
          (scene.run g self (outer :: frames)) =
            .ok .proceed (scene.run h updated (outer :: frames)) := by
  induction items generalizing g self with
  | nil => exact ⟨g, self, hstart, fun _ _ _ _ _ _ _ => rfl⟩
  | cons item rest ih =>
    -- the rest of the loop begins where the first round ends
    obtain ⟨g', self', hnext, hbody⟩ := hround g self item rest hstart
    obtain ⟨h, updated, hdone, hrest⟩ := ih hnext
    refine ⟨h, updated, hdone, fun ps hps b hb levels hlevels position => ?_⟩
    obtain ⟨p, rfl, rfl⟩ := List.map_eq_singleton_iff.mp hps
    have hitem : (inRound (itemFrame [p] item position) ((evaluator levels).block b)).result setting
        (scene.run g self (outer :: frames)) =
          .ok .proceed (scene.run g' self' (outer :: frames)) :=
      ok_inRound_iff.mpr (Scene.result_inFrame (hbody b hb levels hlevels))
    rw [forItems_cons, result_bind_of_ok hitem]
    exact hrest [p] rfl b hb levels hlevels (position + 1)

theorem Scene.yields_forEach {target : Expr} {param : String} {body : Block} {items : List NodeId}
    (invariant : Graph → NodeId → List NodeId → Prop)
    (htarget : target.Yields setting (scene.run g self (outer :: frames)) (.members items)
      (scene.run g self (outer :: frames)))
    (hround : ∀ g self item rest, invariant g self (item :: rest) → ∃ h updated,
      invariant h updated rest ∧
      body.Proceeds setting (scene.run g self ([(param, .type item)] :: outer :: frames))
        (scene.run h updated ([(param, .type item)] :: outer :: frames)))
    (hstart : invariant g self items) :
    ∃ h updated, invariant h updated [] ∧
      (Form.call (Form.member target "forEach") [Form.lambda [param] body]).Yields setting
        (scene.run g self (outer :: frames)) (.value .absent)
        (scene.run h updated (outer :: frames)) := by
  obtain ⟨h, updated, hdone, hloop⟩ := Scene.result_forItems invariant hround hstart
  refine ⟨h, updated, hdone, fun e he levels hlevels => ?_⟩
  obtain ⟨below, ps, b, hps, hb, hheight, hcall⟩ := htarget.call_forEach he hlevels
  rw [hcall, result_bind_of_ok (hloop ps hps b hb below hheight 0)]
  rfl

end SchemaProjection
