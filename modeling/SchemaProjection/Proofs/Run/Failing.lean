import SchemaProjection.Proofs.Run.PropertyLoops

/-!
# What programs fail for

The counterpart of the rules for programs that come to an end: expressions, statements and blocks
of some form **fail for a cause** (`Expr.Fails`, `Stmt.Fails`, `Block.Fails`) if every tree of that
form does so, wherever it stands. A failure passes through all that it is part of, so there is one
rule for each place where the first step of something fails.
-/

namespace SchemaProjection

variable {α β : Type} {setting : Setting} {run middle after : Run} {cause : Cause}

/-! ### Steps -/

namespace Eval

/-- **A step fails for a cause**, at some place. -/
def Fails (setting : Setting) (run : Run) (cause : Cause) (x : Eval α) : Prop :=
  ∃ span after, x.result setting run = .error ⟨cause, span⟩ after

variable {x : Eval α} {f : α → Eval β} {a : α}

theorem Fails.bind (hx : x.Fails setting run cause) (f : α → Eval β) :
    (x >>= f).Fails setting run cause := by
  obtain ⟨span, after, hx⟩ := hx
  exact ⟨span, after, by rw [result_bind, hx]⟩

theorem fails_bind_of_ok (hx : x.result setting run = .ok a middle)
    (hf : (f a).Fails setting middle cause) : (x >>= f).Fails setting run cause := by
  obtain ⟨span, after, hf⟩ := hf
  exact ⟨span, after, by rw [result_bind_of_ok hx, hf]⟩

theorem fails_fail (span : Span) : (fail span cause : Eval α).Fails setting run cause :=
  ⟨some span, run, rfl⟩

end Eval

/-! ### Forms -/

/-- **Expressions of a form fail for a cause.** -/
def Expr.Fails (setting : Setting) (run : Run) (form : Expr) (cause : Cause) : Prop :=
  ∀ e : Expr, e.bare = form → ∀ levels, e.height ≤ levels →
    ((evaluator levels).expr e).Fails setting run cause

/-- **Statements of a form fail for a cause.** -/
def Stmt.Fails (setting : Setting) (run : Run) (form : Stmt) (cause : Cause) : Prop :=
  ∀ s : Stmt, s.bare = form → ∀ levels, s.height ≤ levels →
    (Evaluation.stmt (evaluator levels) s).Fails setting run cause

/-- **Blocks of a form fail for a cause.** -/
def Block.Fails (setting : Setting) (run : Run) (form : Block) (cause : Cause) : Prop :=
  ∀ b : Block, b.bare = form → ∀ levels, b.height ≤ levels →
    ((evaluator levels).block b).Fails setting run cause

open Eval

/-- A host function that no module in sight has. -/
theorem Evaluation.fails_callHost {sort : Host.ExportSort} {word : Word} {a : Activation}
    {rest : List Activation} (hstack : run.activations = a :: rest)
    (hfound : Host.find? (setting.hosts.take a.hostCount) sort word.text = none)
    (args : List Value) :
    (callHost sort word args).Fails setting run
      (.undeclaredIdentifier (.hostExport sort word.text)) := by
  have hread : (read : Eval Setting).result setting run = .ok setting run := rfl
  have hactivation : activation.result setting run = .ok a run := by
    rw [result_activation, hstack]
  refine fails_bind_of_ok hread (fails_bind_of_ok hactivation ?_)
  dsimp only
  rw [hfound]
  exact fails_fail _

namespace Expr

variable {forms : List Expr}

/-- A call of a host function that fails. -/
theorem YieldAll.fails_function {text : String} {args : List Value}
    (hargs : YieldAll setting run forms (args.map Operand.value) after)
    (h : ∀ w : Word, w.text = text →
      (Evaluation.callHost .function w args).Fails setting after cause) :
    (Form.call (Form.name text) forms).Fails setting run cause := by
  intro e he levels hlevels
  obtain ⟨span, c, as, rfl, hc, has⟩ := eq_call_of_bare he
  obtain ⟨w, rfl, hw⟩ := eq_name_of_bare hc
  obtain ⟨below, rfl, hbelow⟩ := exists_level hlevels
  have hvalues := hargs.values has (Nat.le_trans (Nat.le_max_right ..) hbelow)
  exact fails_bind_of_ok hvalues ((h w hw).bind _)

/-- A comparison whose first operand fails. -/
theorem Fails.compare {op : CompareOp} {lhs : Expr} (hlhs : lhs.Fails setting run cause)
    (rhs : Expr) : (Form.compare op lhs rhs).Fails setting run cause := by
  intro e he levels hlevels
  obtain ⟨span, l, r, rfl, hl, -⟩ := eq_compare_of_bare he
  obtain ⟨below, rfl, hbelow⟩ := exists_level hlevels
  exact (((hlhs l hl below (Nat.le_trans (Nat.le_max_left ..) hbelow)).bind _).bind _).bind _

end Expr

theorem Expr.Fails.stmt {form : Expr} (h : form.Fails setting run cause) :
    (Form.stmt form).Fails setting run cause := by
  intro s hs levels hlevels
  obtain ⟨span, e, rfl, he⟩ := Stmt.eq_expr_of_bare hs
  rw [Evaluation.stmt, discard_eq, bind_assoc]
  exact (h e he levels hlevels).bind _

/-- A condition whose test fails. -/
theorem Expr.Fails.cond {test : Expr} (htest : test.Fails setting run cause) (body : Block)
    (otherwise : Block) : (Form.cond test body (some otherwise)).Fails setting run cause := by
  intro s hs levels hlevels
  obtain ⟨span, t, b, alternative, rfl, ht, -, hother⟩ := Stmt.eq_cond_of_bare hs
  obtain ⟨o, rfl, -⟩ := Option.map_eq_some_iff.mp hother
  exact ((htest t ht levels (Nat.le_trans (Nat.le_max_left ..) hlevels)).bind _).bind _

/-! ### Frames -/

variable {scene : Scene} {g : Graph} {self : NodeId} {frame outer : Frame} {frames : List Frame}

theorem Scene.fails_inFrame {x : Eval α}
    (hx : x.Fails setting (scene.run g self (frame :: frames)) cause) :
    (inFrame frame x).Fails setting (scene.run g self frames) cause := by
  have hopen : (modifyActivation (Activation.pushFrame frame)).result setting
      (scene.run g self frames) = .ok () (scene.run g self (frame :: frames)) :=
    result_modifyActivation _ _ _
  exact fails_bind_of_ok hopen (hx.bind _)

theorem Scene.fails_inRound {x : Eval α} (hsteps : ∀ {run : Run}, Steps setting run true x)
    (hx : x.Fails setting (scene.run g self (frame :: outer :: frames)) cause) :
    (inRound frame x).Fails setting (scene.run g self (outer :: frames)) cause := by
  obtain ⟨span, after, hfails⟩ := Scene.fails_inFrame hx
  -- there is a frame below the one of the round
  have hframes : ∀ a rest, (scene.run g self (outer :: frames)).activations = a :: rest →
      a.frames ≠ [] := by
    intro a rest hstack
    cases hstack
    exact List.cons_ne_nil _ _
  obtain ⟨last, hround⟩ :=
    error_of_outcome ((outcome_inRound hframes hsteps).trans (congrArg outcome hfails))
  exact ⟨span, last, hround⟩

/-- A block whose first statement fails. -/
theorem Stmt.Fails.block {form : Stmt}
    (h : form.Fails setting (scene.run g self ([] :: frames)) cause) (forms : List Stmt) :
    (Form.block (form :: forms)).Fails setting (scene.run g self frames) cause := by
  intro b hb levels hlevels
  obtain ⟨span, ss, rfl, hss⟩ := Block.eq_of_bare hb
  obtain ⟨s, ss, rfl, hs, -⟩ := List.map_eq_cons_iff.mp hss
  obtain ⟨below, rfl, hbelow⟩ := exists_level hlevels
  exact Scene.fails_inFrame ((h s hs below (Nat.le_trans (Nat.le_max_left ..) hbelow)).bind _)

/-- A loop that fails in its first round. -/
theorem Scene.fails_forEach {target : Expr} {param : String} {body : Block} {item : NodeId}
    {items : List NodeId}
    (htarget : target.Yields setting (scene.run g self (outer :: frames))
      (.members (item :: items)) (scene.run g self (outer :: frames)))
    (hbody : body.Fails setting (scene.run g self ([(param, .type item)] :: outer :: frames))
      cause) :
    (Form.call (Form.member target "forEach") [Form.lambda [param] body]).Fails setting
      (scene.run g self (outer :: frames)) cause := by
  intro e he levels hlevels
  obtain ⟨below, ps, b, hps, hb, hheight, hcall⟩ := htarget.call_forEach he hlevels
  obtain ⟨p, rfl, rfl⟩ := List.map_eq_singleton_iff.mp hps
  have hround : (inRound (Evaluation.itemFrame [p] item 0) ((evaluator below).block b)).Fails
      setting (scene.run g self (outer :: frames)) cause :=
    Scene.fails_inRound ((evaluator_steps setting below).block b fun _ => rfl)
      (hbody b hb below hheight)
  rw [Fails, hcall, Evaluation.forItems_cons, bind_assoc]
  exact hround.bind _

/-- **A loop over the properties of a model** that fails in its first round. -/
theorem Scene.fails_forProperties {name : Option String} {t : NameTable} {param : String}
    {body : Block} (hself : frames.findSome? (·.lookup "self") = none)
    (hmodel : g.shape self = .model name t) {e : String × NodeId}
    {rest : List (String × NodeId)} (hentries : t.entries = e :: rest)
    (hbody : body.Fails setting (scene.run g self ([(param, .type e.2)] :: [] :: frames)) cause) :
    (Form.forProperties param body).Fails setting (scene.run g self frames) cause := by
  have hitems : (Form.member (Form.name "self") "properties").Yields setting
      (scene.run g self ([] :: frames)) (.members (e.2 :: rest.map Prod.snd))
      (scene.run g self ([] :: frames)) := by
    refine Scene.yields_field (Scene.yields_self hself) ?_
    rw [hmodel]
    exact congrArg (fun entries => some (Operand.members (entries.map Prod.snd))) hentries
  exact (Scene.fails_forEach hitems hbody).stmt.block []

end SchemaProjection
