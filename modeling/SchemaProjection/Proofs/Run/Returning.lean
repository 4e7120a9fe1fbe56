import SchemaProjection.Proofs.Run.FirstReturn
import SchemaProjection.Workspace

/-!
# What a `return` ends

A body that comes to a first `return` ends there, and the node that this `return` produced is the
result of the projection. A loop in another position leaves its flag unseen: the condition of an
`if`, the operand of another `return`, an argument, a receiver, an operand of arithmetic. There what
follows is evaluated as if nothing had happened.

`Block.direct` is the condition that no loop with a `return` stands in such a position. Under it, a
projection that succeeds either comes to a first `return` or executes none
(`FirstReturn.atLevel_covers`), and one that fails has executed none before (`evaluator_spares`).
`Evaluation.enter_ends` puts this together; its first part is about all bodies.
-/

namespace SchemaProjection

/-! ### Bodies in which every `return` is seen -/

mutual

/-- Whether every loop with a `return` in an expression stands where nothing is evaluated after it.
What the expression then counts as, true or false, has to be allowed. -/
def Expr.direct (allowed : Bool → Bool) : Expr → Bool
  | .call _ (.member _ target _) [.lambda _ _ body] =>
    !target.returns && (!body.returns || (body.direct && allowed false))
  | .unary _ .not operand => operand.direct fun b => allowed (!b)
  | .binary _ (.logic op) lhs rhs =>
    lhs.direct (fun b => (op.shortcut? b).any allowed) && rhs.direct allowed
  | e => !e.returns

def Stmt.direct : Stmt → Bool
  | .expr _ e => e.direct fun _ => true
  | .cond _ test body none => !test.returns && body.direct
  | .cond _ test body (some alternative) => !test.returns && (body.direct && alternative.direct)
  | .ret _ e => !e.returns

def Stmt.allDirect : List Stmt → Bool
  | [] => true
  | s :: ss => s.direct && Stmt.allDirect ss

/-- **Whether every `return` in a block is seen**: no loop with a `return` stands in the condition
of an `if`, in the operand of a `return`, or in an expression that goes on to evaluate something. -/
def Block.direct : Block → Bool
  | .mk _ stmts => Stmt.allDirect stmts

end

namespace FirstReturn

/-- **A direct part either comes to a first `return` or executes none.** -/
structure Covers (setting : Setting) (ev : Evaluator) (first : FirstReturn) : Prop where
  expr : ∀ {run after : Run} {e : Expr} {allowed : Bool → Bool} {operand : Operand},
    e.direct allowed → run.frames ≠ [] → run.returning = false →
    (ev.expr e).result setting run = .ok operand after →
    after.returning = false ∨
      ∃ truthy node built, allowed truthy ∧ first.expr run e truthy node built
  block : ∀ {run after : Run} {b : Block} {flow : Flow},
    b.direct → run.frames ≠ [] → run.returning = false →
    (ev.block b).result setting run = .ok flow after →
    (flow = .proceed ∧ after.returning = false) ∨ ∃ node built, first.block run b node built
  /-- A loop body is no value. -/
  stray : ∀ {run : Run} {span : Span} {params : List Word} {body : Block},
    ∃ failure, (ev.expr (.lambda span params body)).result setting run = .error failure run

end FirstReturn

namespace Evaluation

open Eval

variable {setting : Setting} {ev : Evaluator} {first : FirstReturn} {run after : Run}

/-- An expression without a `return` leaves the flag as it is. -/
theorem returning_of_value (hev : ev.Steps setting) {e : Expr} (he : e.returns = false) {v : Value}
    (h : (value ev e).result setting run = .ok v after) :
    after.returning = run.returning ∧ after.frames = run.frames := by
  have hkept : Activation.StackKept false _ _ := (steps_value hev e he.symm.trans).kept h
  exact ⟨Run.returning_of_kept hkept, Run.frames_of_kept hkept⟩

theorem returning_of_truth (hev : ev.Steps setting) {e : Expr} (he : e.returns = false)
    {holds : Bool} (h : (truth ev e).result setting run = .ok holds after) :
    after.returning = run.returning ∧ after.frames = run.frames := by
  have hkept : Activation.StackKept false _ _ := (steps_truth hev e he.symm.trans).kept h
  exact ⟨Run.returning_of_kept hkept, Run.frames_of_kept hkept⟩

theorem stmt_covers (hcovers : first.Covers setting ev) (hev : ev.Steps setting) {s : Stmt}
    {flow : Flow} (hdirect : s.direct) (hrun : run.frames ≠ []) (hflag : run.returning = false)
    (h : (stmt ev s).result setting run = .ok flow after) :
    (flow = .proceed ∧ after.returning = false) ∨
      ∃ node built, StmtReturns setting ev first run s node built := by
  cases s with
  | expr span e =>
    rw [stmt, discard_eq, bind_assoc] at h
    obtain ⟨operand, middle, he, hrest⟩ := ok_of_bind h
    -- either the flag is still down and the next statement follows, or a `return` was reached
    rcases hcovers.expr hdirect hrun hflag he with hmiddle | ⟨truthy, node, built, -, hreturns⟩
    · left
      rw [pure_bind] at hrest
      obtain ⟨a, _, hactivation, hflow⟩ := ok_of_bind hrest
      obtain ⟨rfl, rest, hstack⟩ := ok_of_activation hactivation
      cases hflow
      have ha : a.returning = false := by
        rw [Run.returning, hstack] at hmiddle
        exact hmiddle
      rw [ha]
      exact ⟨rfl, hmiddle⟩
    · exact .inr ⟨node, built, .expr span e hreturns⟩
  | cond span test body otherwise =>
    obtain ⟨holds, middle, htest, hrest⟩ := ok_of_bind h
    cases otherwise with
    | none =>
      rw [Stmt.direct, Bool.and_eq_true, Bool.not_eq_true'] at hdirect
      obtain ⟨hmiddle, hframes⟩ := returning_of_truth hev hdirect.1 htest
      rw [hflag] at hmiddle
      rw [← hframes] at hrun
      cases holds with
      | true =>
        refine (hcovers.block hdirect.2 hrun hmiddle hrest).imp_right ?_
        rintro ⟨node, built, hblock⟩
        exact ⟨node, built, .body span test body none htest hmiddle hblock⟩
      | false =>
        cases hrest
        exact .inl ⟨rfl, hmiddle⟩
    | some alternative =>
      rw [Stmt.direct, Bool.and_eq_true, Bool.and_eq_true, Bool.not_eq_true'] at hdirect
      obtain ⟨hmiddle, hframes⟩ := returning_of_truth hev hdirect.1 htest
      rw [hflag] at hmiddle
      rw [← hframes] at hrun
      cases holds with
      | true =>
        refine (hcovers.block hdirect.2.1 hrun hmiddle hrest).imp_right ?_
        rintro ⟨node, built, hblock⟩
        exact ⟨node, built, .body span test body _ htest hmiddle hblock⟩
      | false =>
        refine (hcovers.block hdirect.2.2 hrun hmiddle hrest).imp_right ?_
        rintro ⟨node, built, hblock⟩
        exact ⟨node, built, .alternative span test body alternative htest hmiddle hblock⟩
  | ret span e =>
    rw [Stmt.direct, Bool.not_eq_true'] at hdirect
    obtain ⟨v, middle, hvalue, hrest⟩ := ok_of_bind h
    -- no loop in the operand returns, so this `return` is the first
    obtain ⟨hmiddle, -⟩ := returning_of_value hev hdirect hvalue
    unfold giveBack at hrest
    split at hrest
    · obtain ⟨_, _, hfail, -⟩ := ok_of_bind hrest
      cases hfail
    next hv =>
    obtain ⟨node, built, hbuild, -⟩ := ok_of_bind hrest
    exact .inr ⟨node, built, .ret span e hvalue (hmiddle.trans hflag) hv hbuild⟩

theorem stmts_cover (hcovers : first.Covers setting ev) (hev : ev.Steps setting)
    {ss : List Stmt} {flow : Flow} (hdirect : Stmt.allDirect ss) (hrun : run.frames ≠ [])
    (hflag : run.returning = false) (h : (stmts ev ss).result setting run = .ok flow after) :
    (flow = .proceed ∧ after.returning = false) ∨
      ∃ node built, StmtsReturn setting ev first run ss node built := by
  induction ss generalizing run with
  | nil =>
    cases h
    exact .inl ⟨rfl, hflag⟩
  | cons s rest ih =>
    rw [Stmt.allDirect, Bool.and_eq_true] at hdirect
    obtain ⟨signal, middle, hs, hrest⟩ := ok_of_bind h
    rcases stmt_covers hcovers hev hdirect.1 hrun hflag hs with
      ⟨rfl, hmiddle⟩ | ⟨node, built, hreturns⟩
    · have hkept : Activation.StackKept true _ _ := (steps_stmt hev s fun _ => rfl).kept hs
      rw [← Run.frames_of_kept hkept] at hrun
      refine (ih hdirect.2 hrun hmiddle hrest).imp_right ?_
      rintro ⟨node, built, hreturn⟩
      exact ⟨node, built, .tail hs hmiddle hreturn⟩
    · exact .inr ⟨node, built, .head hreturns⟩

theorem forItems_covers (hcovers : first.Covers setting ev) (hev : ev.Steps setting)
    {params : List Word} {body : Block} {position : Nat} {items : List NodeId} {flow : Flow}
    (hdirect : body.direct) (hrun : run.frames ≠ []) (hflag : run.returning = false)
    (h : (forItems ev params body position items).result setting run = .ok flow after) :
    after.returning = false ∨
      ∃ node built, ItemsReturn setting ev first params body run position items node built := by
  induction items generalizing run position with
  | nil =>
    cases h
    exact .inl hflag
  | cons item rest ih =>
    rw [forItems_cons] at h
    obtain ⟨signal, middle, hround, hrest⟩ := ok_of_bind h
    obtain ⟨inside, hbody, hsame⟩ := ok_of_inFrame (ok_inRound_iff.mp hround)
    have hopen : (run.openFrame (itemFrame params item position)).frames ≠ [] := by
      rw [Run.frames_openFrame hrun]
      exact List.cons_ne_nil _ _
    have hopenflag := (Run.returning_openFrame run (itemFrame params item position)).trans hflag
    -- a round that returns is the last one
    rcases hcovers.block hdirect hopen hopenflag hbody with ⟨rfl, hinside⟩ | ⟨node, built, hblock⟩
    · have hmiddle := hsame.trans hinside
      have hkept : Activation.StackKept true _ _ :=
        (Steps.inRound (hev.block body fun _ => rfl)).kept hround
      rw [← Run.frames_of_kept hkept] at hrun
      refine (ih hrun hmiddle hrest).imp_right ?_
      rintro ⟨node, built, hreturn⟩
      exact ⟨node, built, .tail hround hmiddle hreturn⟩
    · exact .inr ⟨node, built, .head hblock⟩

/-- An expression without a `return` executes none. -/
theorem returning_of_quiet (hev : ev.Steps setting) {e : Expr} (he : e.returns = false)
    {operand : Operand} (h : (expr ev e).result setting run = .ok operand after) :
    after.returning = run.returning :=
  Run.returning_of_kept ((steps_expr hev e he.symm.trans).kept h)

/-- A call with a loop body for its argument is a loop if it succeeds. -/
theorem loop_of_ok (hcovers : first.Covers setting ev) {span memberSpan lambdaSpan : Span}
    {target : Expr} {method : Word} {params : List Word} {body : Block} {operand : Operand}
    (h : (expr ev (.call span (.member memberSpan target method)
      [.lambda lambdaSpan params body])).result setting run = .ok operand after) :
    ∃ items middle flow, (ev.expr target).result setting run = .ok (.members items) middle ∧
      method.text = "forEach" ∧
      (forItems ev params body 0 items).result setting middle = .ok flow after := by
  rw [expr, call] at h
  obtain ⟨receiver, middle, htarget, hmethod⟩ := ok_of_bind h
  unfold callMethod at hmethod
  dsimp only at hmethod
  split at hmethod
  · next items =>
    split at hmethod
    · next hname =>
      rw [forEach, discard_eq, bind_assoc] at hmethod
      obtain ⟨flow, inside, hitems, hrest⟩ := ok_of_bind hmethod
      cases hrest
      exact ⟨items, middle, flow, htarget, hname, hitems⟩
    · cases hmethod
  -- no other receiver takes a loop body: methods of nodes evaluate their arguments first
  · split at hmethod
    · cases hmethod
    · cases hmethod
  · split at hmethod
    · obtain ⟨operands, inside, hargs, -⟩ := ok_of_bind hmethod
      rw [List.mapM_cons] at hargs
      obtain ⟨first, _, hlambda, -⟩ := ok_of_bind hargs
      obtain ⟨failure, hfail⟩ := hcovers.stray
      rw [hfail] at hlambda
      cases hlambda
    · obtain ⟨_, _, -, hfail⟩ := ok_of_bind hmethod
      cases hfail
  · cases hmethod
  · cases hmethod

theorem expr_covers (hcovers : first.Covers setting ev) (hev : ev.Steps setting) {e : Expr}
    {allowed : Bool → Bool} {operand : Operand} (hdirect : e.direct allowed)
    (hrun : run.frames ≠ []) (hflag : run.returning = false)
    (h : (expr ev e).result setting run = .ok operand after) :
    after.returning = false ∨ ∃ truthy node built, allowed truthy ∧
      ExprReturns setting ev first run e truthy node built := by
  unfold Expr.direct at hdirect
  split at hdirect
  · next span memberSpan target method lambdaSpan params body =>
    rw [Bool.and_eq_true, Bool.not_eq_true', Bool.or_eq_true, Bool.not_eq_true',
      Bool.and_eq_true] at hdirect
    obtain ⟨htarget, hbody⟩ := hdirect
    obtain ⟨items, middle, flow, hitems, hmethod, hloop⟩ := loop_of_ok hcovers h
    have hkept : Activation.StackKept false _ _ := (hev.expr target htarget.symm.trans).kept hitems
    have hmiddle := (Run.returning_of_kept hkept).trans hflag
    -- a loop without a `return` may stand anywhere
    rcases hbody with hquiet | ⟨hbody, hallowed⟩
    · left
      have hloopkept : Activation.StackKept false _ _ :=
        (steps_forItems hev params body hquiet.symm.trans 0 items).kept hloop
      exact (Run.returning_of_kept hloopkept).trans hmiddle
    · rw [← Run.frames_of_kept hkept] at hrun
      refine (forItems_covers hcovers hev hbody hrun hmiddle hloop).imp_right ?_
      rintro ⟨node, built, hreturn⟩
      exact ⟨false, node, built, hallowed,
        .loop span memberSpan lambdaSpan target method params body hitems hmiddle hmethod hreturn⟩
  · next span inner =>
    rw [expr] at h
    obtain ⟨v, middle, hunary, hv⟩ := ok_of_bind h
    cases hv
    obtain ⟨operand', inside, hinner, hrest⟩ := ok_of_bind hunary
    cases hrest
    refine (hcovers.expr hdirect hrun hflag hinner).imp_right ?_
    rintro ⟨truthy, node, built, hallowed, hreturn⟩
    exact ⟨!truthy, node, built, hallowed, .not span inner hreturn⟩
  · next span op lhs rhs =>
    rw [Bool.and_eq_true] at hdirect
    obtain ⟨hlhs, hrhs⟩ := hdirect
    rw [expr] at h
    obtain ⟨v, middle, hbinary, hv⟩ := ok_of_bind h
    cases hv
    obtain ⟨holds, inside, htruth, hrest⟩ := ok_of_bind hbinary
    obtain ⟨operand', lower, hl, hholds⟩ := ok_of_bind htruth
    obtain ⟨g, lower', hgraph, hholds⟩ := ok_of_bind hholds
    cases hgraph
    cases hholds
    -- if the left operand returned, it must have settled the result
    rcases hcovers.expr hlhs hrun hflag hl with hlower | ⟨truthy, node, built, hallowed, hreturn⟩
    · split at hrest
      · cases hrest
        exact .inl hlower
      · next hopen =>
        obtain ⟨holds, last, hrtruth, hfinal⟩ := ok_of_bind hrest
        cases hfinal
        obtain ⟨operand'', middle', hr, hholds⟩ := ok_of_bind hrtruth
        cases hholds
        have hkept : Activation.StackKept true _ _ := (hev.expr lhs fun _ => rfl).kept hl
        rw [← Run.frames_of_kept hkept] at hrun
        refine (hcovers.expr hrhs hrun hlower hr).imp_right ?_
        rintro ⟨truthy, node, built, hallowed, hreturn⟩
        exact ⟨truthy, node, built, hallowed,
          .right span op lhs rhs htruth hopen hlower hreturn⟩
    · right
      rw [Option.any_eq_true] at hallowed
      obtain ⟨settled, hsettled, hallowed⟩ := hallowed
      exact ⟨settled, node, built, hallowed, .left span op lhs rhs hreturn hsettled⟩
  · rw [Bool.not_eq_true'] at hdirect
    exact .inl ((returning_of_quiet hev hdirect h).trans hflag)

end Evaluation

namespace FirstReturn

variable {setting : Setting} {ev : Evaluator} {first : FirstReturn}

theorem Covers.next (hcovers : first.Covers setting ev) (hev : ev.Steps setting) :
    (first.next setting ev).Covers setting ev.next where
  expr hdirect hrun hflag h := Evaluation.expr_covers hcovers hev hdirect hrun hflag h
  block {run after b flow} hdirect hrun hflag h := by
    obtain ⟨span, ss⟩ := b
    have hblock : (Eval.inFrame [] (Evaluation.stmts ev ss)).result setting run = .ok flow after :=
      h
    obtain ⟨inside, hstmts, hsame⟩ := Eval.ok_of_inFrame hblock
    have hopen : (run.openFrame []).frames ≠ [] := by
      rw [Run.frames_openFrame hrun]
      exact List.cons_ne_nil _ _
    rw [hsame]
    exact Evaluation.stmts_cover hcovers hev hdirect hopen
      ((Run.returning_openFrame run []).trans hflag) hstmts
  stray := ⟨_, rfl⟩

/-- **Direct parts come to a first `return` or to none**, at every level. -/
theorem atLevel_covers (setting : Setting) (levels : Nat) :
    (atLevel setting levels).Covers setting (evaluator levels) := by
  induction levels with
  | zero => exact ⟨fun _ _ _ h => (nomatch h), fun _ _ _ h => (nomatch h), ⟨_, rfl⟩⟩
  | succ levels ih =>
    rw [evaluator_succ]
    exact ih.next (evaluator_steps setting levels)

end FirstReturn

/-! ### Bodies that fail -/

/-- **A direct part that fails has executed no `return`** of the activation that it ran in. -/
structure Evaluator.Spares (ev : Evaluator) (setting : Setting) : Prop where
  expr : ∀ {run after : Run} {e : Expr} {allowed : Bool → Bool} {failure : Failure},
    e.direct allowed → run.frames ≠ [] → run.returning = false →
    (ev.expr e).result setting run = .error failure after → run.Unreturned after
  block : ∀ {run after : Run} {b : Block} {failure : Failure},
    b.direct → run.frames ≠ [] → run.returning = false →
    (ev.block b).result setting run = .error failure after → run.Unreturned after

namespace Evaluation

open Eval

variable {setting : Setting} {ev : Evaluator} {first : FirstReturn} {run after : Run}
  {failure : Failure}

theorem unreturned_of_truth (hev : ev.Steps setting) {e : Expr} (he : e.returns = false)
    (hrun : run.frames ≠ []) (hflag : run.returning = false)
    (h : (truth ev e).result setting run = .error failure after) : run.Unreturned after :=
  Run.unreturned_of_left hrun hflag
    ((steps_truth hev e he.symm.trans : Steps setting run false _).left h)

theorem unreturned_of_value (hev : ev.Steps setting) {e : Expr} (he : e.returns = false)
    (hrun : run.frames ≠ []) (hflag : run.returning = false)
    (h : (value ev e).result setting run = .error failure after) : run.Unreturned after :=
  Run.unreturned_of_left hrun hflag
    ((steps_value hev e he.symm.trans : Steps setting run false _).left h)

theorem stmt_spares (hspares : ev.Spares setting) (hev : ev.Steps setting) {s : Stmt}
    (hdirect : s.direct) (hrun : run.frames ≠ []) (hflag : run.returning = false)
    (h : (stmt ev s).result setting run = .error failure after) : run.Unreturned after := by
  cases s with
  | expr span e =>
    rw [stmt, discard_eq, bind_assoc] at h
    rcases error_of_bind h with he | ⟨operand, middle, he, hrest⟩
    · exact hspares.expr hdirect hrun hflag he
    · -- looking at the flag does not fail, since the activation is still there
      have hkept : Activation.StackKept true _ _ := (hev.expr e fun _ => rfl).kept he
      obtain ⟨a, ha⟩ := Run.sameBelow_of_kept hrun hkept
      rw [pure_bind, result_bind, result_activation, ha] at hrest
      cases hrest
  | cond span test body otherwise =>
    cases otherwise with
    | none =>
      rw [Stmt.direct, Bool.and_eq_true, Bool.not_eq_true'] at hdirect
      rcases error_of_bind h with htest | ⟨holds, middle, htest, hrest⟩
      · exact unreturned_of_truth hev hdirect.1 hrun hflag htest
      have hkept : Activation.StackKept true _ _ := (steps_truth hev test fun _ => rfl).kept htest
      obtain ⟨hmiddle, hframes⟩ := returning_of_truth hev hdirect.1 htest
      cases holds with
      | true =>
        have hblock := hspares.block hdirect.2 (hframes ▸ hrun) (hmiddle.trans hflag) hrest
        exact hblock.of_tail (Run.tail_of_kept hkept)
      | false => cases hrest
    | some alternative =>
      rw [Stmt.direct, Bool.and_eq_true, Bool.and_eq_true, Bool.not_eq_true'] at hdirect
      rcases error_of_bind h with htest | ⟨holds, middle, htest, hrest⟩
      · exact unreturned_of_truth hev hdirect.1 hrun hflag htest
      have hkept : Activation.StackKept true _ _ := (steps_truth hev test fun _ => rfl).kept htest
      obtain ⟨hmiddle, hframes⟩ := returning_of_truth hev hdirect.1 htest
      cases holds with
      | true =>
        have hblock := hspares.block hdirect.2.1 (hframes ▸ hrun) (hmiddle.trans hflag) hrest
        exact hblock.of_tail (Run.tail_of_kept hkept)
      | false =>
        have hblock := hspares.block hdirect.2.2 (hframes ▸ hrun) (hmiddle.trans hflag) hrest
        exact hblock.of_tail (Run.tail_of_kept hkept)
  | ret span e =>
    rw [Stmt.direct, Bool.not_eq_true'] at hdirect
    rcases error_of_bind h with hvalue | ⟨v, middle, hvalue, hrest⟩
    · exact unreturned_of_value hev hdirect hrun hflag hvalue
    have hkept : Activation.StackKept true _ _ := (steps_value hev e fun _ => rfl).kept hvalue
    obtain ⟨hmiddle, hframes⟩ := returning_of_value hev hdirect hvalue
    rw [← hframes] at hrun
    rw [← hmiddle] at hflag
    refine Run.Unreturned.of_tail ?_ (Run.tail_of_kept hkept)
    -- giving back can only fail before the flag is set
    by_cases hv : v = .absent
    · have hfail : Steps setting middle false (giveBack span v) := by
        rw [giveBack, if_pos hv]
        exact .fail_bind _ _ _
      exact Run.unreturned_of_left hrun hflag (hfail.left hrest)
    · have hbuilding : Steps setting middle false (Eval.build (Building.typeOf v)) :=
        .build (Building.grows_typeOf v)
      cases hbuild : (Eval.build (Building.typeOf v)).result setting middle with
      | ok node built =>
        rw [result_giveBack span hv hbuild
          (Run.sameBelow_of_kept hrun (hbuilding.kept hbuild))] at hrest
        cases hrest
      | error fault built =>
        rw [giveBack, if_neg hv, result_bind, hbuild] at hrest
        cases hrest
        exact Run.unreturned_of_left hrun hflag (hbuilding.left hbuild)

theorem stmts_spare (hspares : ev.Spares setting) (hends : first.Ends setting ev)
    (hcovers : first.Covers setting ev) (hev : ev.Steps setting) {ss : List Stmt}
    (hdirect : Stmt.allDirect ss) (hrun : run.frames ≠ []) (hflag : run.returning = false)
    (h : (stmts ev ss).result setting run = .error failure after) : run.Unreturned after := by
  induction ss generalizing run with
  | nil => cases h
  | cons s rest ih =>
    rw [Stmt.allDirect, Bool.and_eq_true] at hdirect
    rcases error_of_bind h with hs | ⟨signal, middle, hs, hrest⟩
    · exact stmt_spares hspares hev hdirect.1 hrun hflag hs
    rcases stmt_covers hcovers hev hdirect.1 hrun hflag hs with
      ⟨rfl, hmiddle⟩ | ⟨node, built, hreturns⟩
    · have hkept : Activation.StackKept true _ _ := (steps_stmt hev s fun _ => rfl).kept hs
      rw [← Run.frames_of_kept hkept] at hrun
      exact (ih hdirect.2 hrun hmiddle hrest).of_tail (Run.tail_of_kept hkept)
    · -- after a first `return` nothing is left that could fail
      rw [(stmts_end hends hev (.head hreturns) hrun).2] at h
      cases h

/-- A frame is closed without failure, so what fails is what it was opened around. -/
theorem error_of_inFrame {frame : Frame} {x : Eval Flow} (hrun : run.frames ≠ [])
    (hx : ∀ {run : Run}, Steps setting run true x)
    (h : (Eval.inFrame frame x).result setting run = .error failure after) :
    x.result setting (run.openFrame frame) = .error failure after := by
  obtain ⟨a, rest, outer, inner, hstack, hframes, -⟩ := Run.exists_of_frames_ne_nil hrun
  have hopen : (Eval.modifyActivation (Activation.pushFrame frame)).result setting run =
      .ok () (run.openFrame frame) := by
    rw [result_modifyActivation, Run.openFrame, hstack]
  rw [Eval.inFrame, result_bind_of_ok hopen] at h
  rcases error_of_bind h with hinside | ⟨flow, middle, hinside, hclose⟩
  · exact hinside
  · have hkept := hx.kept hinside
    rw [Run.openFrame, hstack] at hkept
    obtain ⟨b, hb, hkept⟩ := hkept
    have hbframes : b.frames = frame :: outer :: inner := by
      rw [hkept.frames, Activation.pushFrame, hframes]
    rw [result_bind_of_ok (result_popFrame hb hbframes)] at hclose
    cases hclose

/-- The same goes for a round, where the frame is closed after the failure. -/
theorem error_of_inRound {frame : Frame} {x : Eval Flow} (hrun : run.frames ≠ [])
    (hx : ∀ {run : Run}, Steps setting run true x)
    (h : (Eval.inRound frame x).result setting run = .error failure after) :
    ∃ middle, x.result setting (run.openFrame frame) = .error failure middle ∧
      popFrame.result setting middle = .ok () after := by
  obtain ⟨a, rest, outer, inner, hstack, hframes, -⟩ := Run.exists_of_frames_ne_nil hrun
  have hopen : (Eval.modifyActivation (Activation.pushFrame frame)).result setting run =
      .ok () (run.openFrame frame) := by
    rw [result_modifyActivation, Run.openFrame, hstack]
  have hopened : (run.openFrame frame).activations = a.pushFrame frame :: rest := by
    rw [Run.openFrame, hstack]
  -- whatever the step inside comes to, there are the opened frame and another one
  have hpop : ∀ middle, Activation.StackLeft true (run.openFrame frame).activations
      middle.activations → ∃ last, popFrame.result setting middle = .ok () last := by
    intro middle hleft
    rw [hopened] at hleft
    rcases result_popFrame_of_left hleft with ⟨b, hpop, -⟩ | ⟨hnil, -⟩
    · exact ⟨_, hpop⟩
    · rw [hframes] at hnil
      cases hnil
  rw [Eval.inRound, result_bind_of_ok hopen, result_bind, result_closing] at h
  cases hinside : x.result setting (run.openFrame frame) with
  | ok flow middle =>
    obtain ⟨last, hpop⟩ := hpop middle ((hx.kept hinside).trans_left (.refl _))
    rw [hinside, closed_ok hpop] at h
    cases h
  | error failure' middle =>
    obtain ⟨last, hpop⟩ := hpop middle (hx.left hinside)
    rw [hinside, closed_error hpop] at h
    cases h
    exact ⟨middle, rfl, hpop⟩

theorem forItems_spares (hspares : ev.Spares setting) (hends : first.Ends setting ev)
    (hcovers : first.Covers setting ev) (hev : ev.Steps setting) {params : List Word}
    {body : Block} {position : Nat} {items : List NodeId} (hdirect : body.direct)
    (hrun : run.frames ≠ []) (hflag : run.returning = false)
    (h : (forItems ev params body position items).result setting run = .error failure after) :
    run.Unreturned after := by
  induction items generalizing run position with
  | nil => cases h
  | cons item rest ih =>
    have hopen : (run.openFrame (itemFrame params item position)).frames ≠ [] := by
      rw [Run.frames_openFrame hrun]
      exact List.cons_ne_nil _ _
    have hopenflag := (Run.returning_openFrame run (itemFrame params item position)).trans hflag
    have hrest := h
    rw [forItems_cons] at hrest
    rcases error_of_bind hrest with hround | ⟨signal, middle, hround, hrest⟩
    · obtain ⟨inside, hbody, hpop⟩ := error_of_inRound hrun (hev.block body fun _ => rfl) hround
      have hunreturned := hspares.block hdirect hopen hopenflag hbody
      exact (hunreturned.of_tail (Run.tail_openFrame run _)).popFrame hpop
    obtain ⟨inside, hbody, hsame⟩ := ok_of_inFrame (ok_inRound_iff.mp hround)
    rcases hcovers.block hdirect hopen hopenflag hbody with ⟨rfl, hinside⟩ | ⟨node, built, hblock⟩
    · have hkept : Activation.StackKept true _ _ :=
        (Steps.inRound (hev.block body fun _ => rfl)).kept hround
      rw [← Run.frames_of_kept hkept] at hrun
      exact (ih hrun (hsame.trans hinside) hrest).of_tail (Run.tail_of_kept hkept)
    · rw [(forItems_ends hends hev (.head hblock) hrun).2] at h
      cases h

theorem unreturned_of_quiet (hev : ev.Steps setting) {e : Expr} (he : e.returns = false)
    (hrun : run.frames ≠ []) (hflag : run.returning = false)
    (h : (expr ev e).result setting run = .error failure after) : run.Unreturned after :=
  Run.unreturned_of_left hrun hflag
    ((steps_expr hev e he.symm.trans : Steps setting run false _).left h)

/-- A call with a loop body for its argument fails in the loop, or before anything is returned. -/
theorem callMethod_spares (hspares : ev.Spares setting) (hends : first.Ends setting ev)
    (hcovers : first.Covers setting ev) (hev : ev.Steps setting) {span lambdaSpan : Span}
    {receiver : Operand} {method : Word} {params : List Word} {body : Block}
    (hdirect : body.direct) (hrun : run.frames ≠ []) (hflag : run.returning = false)
    (h : (callMethod ev span receiver method [.lambda lambdaSpan params body]).result setting run =
      .error failure after) : run.Unreturned after := by
  have hhere : run.Unreturned run := Run.unreturned_of_kept hrun (.refl _ : Activation.StackKept
    false _ _) hflag
  unfold callMethod at h
  dsimp only at h
  split at h
  · split at h
    · rw [forEach, discard_eq, bind_assoc] at h
      rcases error_of_bind h with hloop | ⟨flow, inside, hloop, hrest⟩
      · exact forItems_spares hspares hends hcovers hev hdirect hrun hflag hloop
      · cases hrest
    · cases h
      exact hhere
  · split at h
    · cases h
      exact hhere
    · cases h
      exact hhere
  · split at h
    · rw [List.mapM_cons, bind_assoc] at h
      -- methods of nodes evaluate their arguments first, and a loop body is no value
      obtain ⟨stray, hstray⟩ := hcovers.stray
      rw [result_bind, hstray] at h
      cases h
      exact hhere
    · cases h
      exact hhere
  · cases h
    exact hhere
  · cases h
    exact hhere

theorem expr_spares (hspares : ev.Spares setting) (hends : first.Ends setting ev)
    (hcovers : first.Covers setting ev) (hev : ev.Steps setting) {e : Expr}
    {allowed : Bool → Bool} (hdirect : e.direct allowed) (hrun : run.frames ≠ [])
    (hflag : run.returning = false)
    (h : (expr ev e).result setting run = .error failure after) : run.Unreturned after := by
  unfold Expr.direct at hdirect
  split at hdirect
  · next span memberSpan target method lambdaSpan params body =>
    rw [Bool.and_eq_true, Bool.not_eq_true', Bool.or_eq_true, Bool.not_eq_true',
      Bool.and_eq_true] at hdirect
    obtain ⟨htarget, hquiet | ⟨hbody, -⟩⟩ := hdirect
    · have hreturns : (Expr.call span (.member memberSpan target method)
          [.lambda lambdaSpan params body]).returns = false := by
        simp only [Expr.returns, Expr.anyReturns, htarget, hquiet, Bool.or_false]
      exact unreturned_of_quiet hev hreturns hrun hflag h
    · have hsteps : Steps setting run false (ev.expr target) := hev.expr target htarget.symm.trans
      rcases error_of_bind h with hreceiver | ⟨receiver, middle, hreceiver, hmethod⟩
      · exact Run.unreturned_of_left hrun hflag (hsteps.left hreceiver)
      · have hkept := hsteps.kept hreceiver
        rw [← Run.frames_of_kept hkept] at hrun
        rw [← Run.returning_of_kept hkept] at hflag
        exact (callMethod_spares hspares hends hcovers hev hbody hrun hflag hmethod).of_tail
          (Run.tail_of_kept hkept)
  · next span inner =>
    rw [expr, unary, bind_assoc] at h
    rcases error_of_bind h with hinner | ⟨operand, middle, hinner, hrest⟩
    · exact hspares.expr hdirect hrun hflag hinner
    · cases hrest
  · next span op lhs rhs =>
    rw [Bool.and_eq_true] at hdirect
    obtain ⟨hlhs, hrhs⟩ := hdirect
    have hfull := h
    rw [expr, binary, truth, bind_assoc, bind_assoc] at h
    rcases error_of_bind h with hl | ⟨operand, middle, hl, hrest⟩
    · exact hspares.expr hlhs hrun hflag hl
    rcases hcovers.expr hlhs hrun hflag hl with hmiddle | ⟨truthy, node, built, hallowed, hreturn⟩
    · have hkept : Activation.StackKept true _ _ := (hev.expr lhs fun _ => rfl).kept hl
      rw [← Run.frames_of_kept hkept] at hrun
      refine Run.Unreturned.of_tail ?_ (Run.tail_of_kept hkept)
      obtain ⟨g, _, hgraph, hrest⟩ := (error_of_bind hrest).resolve_left fun h => by cases h
      cases hgraph
      rcases error_of_bind hrest with hshort | ⟨v, last, -, hfinal⟩
      · split at hshort
        · cases hshort
        · rw [truth, bind_assoc] at hshort
          rcases error_of_bind hshort with hr | ⟨operand', last, -, hfinal⟩
          · exact hspares.expr hrhs hrun hmiddle hr
          · cases hfinal
      · cases hfinal
    · -- the left operand returned and settled the result, so nothing is left that could fail
      rw [Option.any_eq_true] at hallowed
      obtain ⟨settled, hsettled, -⟩ := hallowed
      obtain ⟨-, operand, -, hresult⟩ :=
        expr_ends hends hev (.left span op lhs rhs hreturn hsettled) hrun
      rw [hresult] at hfull
      cases hfull
  · rw [Bool.not_eq_true'] at hdirect
    exact unreturned_of_quiet hev hdirect hrun hflag h

end Evaluation

namespace Evaluator.Spares

variable {setting : Setting} {ev : Evaluator} {first : FirstReturn}

theorem next (hspares : ev.Spares setting) (hends : first.Ends setting ev)
    (hcovers : first.Covers setting ev) (hev : ev.Steps setting) : ev.next.Spares setting where
  expr hdirect hrun hflag h :=
    Evaluation.expr_spares hspares hends hcovers hev hdirect hrun hflag h
  block {run after b failure} hdirect hrun hflag h := by
    obtain ⟨span, ss⟩ := b
    have hblock : (Eval.inFrame [] (Evaluation.stmts ev ss)).result setting run =
      .error failure after := h
    have hstmts := Evaluation.error_of_inFrame hrun
      (Evaluation.steps_stmts hev ss fun _ => rfl) hblock
    have hopen : (run.openFrame []).frames ≠ [] := by
      rw [Run.frames_openFrame hrun]
      exact List.cons_ne_nil _ _
    have hunreturned := Evaluation.stmts_spare hspares hends hcovers hev hdirect hopen
      ((Run.returning_openFrame run []).trans hflag) hstmts
    exact hunreturned.of_tail (Run.tail_openFrame run [])

end Evaluator.Spares

/-- **Direct parts that fail have executed no `return`**, at every level. -/
theorem evaluator_spares (setting : Setting) (levels : Nat) :
    (evaluator levels).Spares setting := by
  induction levels with
  | zero =>
    constructor
    · intro run after e allowed failure _ hrun hflag h
      cases h
      exact Run.unreturned_of_left hrun hflag (.refl _)
    · intro run after b failure _ hrun hflag h
      cases h
      exact Run.unreturned_of_left hrun hflag (.refl _)
  | succ levels ih =>
    rw [evaluator_succ]
    exact ih.next (FirstReturn.atLevel_ends setting levels)
      (FirstReturn.atLevel_covers setting levels) (evaluator_steps setting levels)

/-! ### Invocations -/

/-- The state in which a body starts: in an activation of its own. -/
def Run.entered (run : Run) (node : NodeId) (projection : Projection) (direction : Direction)
    (tree : DirectionTree) (args : List Value) : Run :=
  { run with
    activations := .start (run.depth + 1) node direction projection.hostCount
      (Evaluation.bindings tree.params args) :: run.activations }

theorem Run.frames_entered (run : Run) (node : NodeId) (projection : Projection)
    (direction : Direction) (tree : DirectionTree) (args : List Value) :
    (run.entered node projection direction tree args).frames ≠ [] := List.cons_ne_nil _ _

namespace Evaluation

open Eval

section

variable {ev : Evaluator} {setting : Setting} {run after : Run} {node : NodeId}
  {projection : Projection} {direction : Direction} {tree : DirectionTree} {args : List Value}
  (hev : ev.Steps setting)
include hev

/-- A body that succeeds leaves the node of its activation. -/
theorem result_enter_ok {flow : Flow}
    (h : (ev.block tree.body).result setting (run.entered node projection direction tree args) =
      .ok flow after) :
    ∃ a, after.activations = a :: run.activations ∧
      (enter ev node projection direction tree args).result setting run =
        .ok a.self { after with activations := run.activations } := by
  rw [enter_eq, result_bind_of_ok (result_get setting run)]
  exact result_inActivation_ok (hev.block tree.body fun _ => rfl) h

/-- The activation of a body that fails is removed, and the failure is passed on. -/
theorem result_enter_error {failure : Failure}
    (h : (ev.block tree.body).result setting (run.entered node projection direction tree args) =
      .error failure after) :
    (enter ev node projection direction tree args).result setting run =
      .error failure { after with activations := run.activations } := by
  rw [enter_eq, result_bind_of_ok (result_get setting run)]
  exact result_inActivation_error (hev.block tree.body fun _ => rfl) h

end

/-- **The first `return` ends the projection.** A body that comes to a first `return` leaves what
this `return` left, and the node that it produced is the result. Nothing else can happen to a direct
body: if it is run to its end, it comes to a first `return`, or no `return` is executed, and if it
fails, none was executed in its activation, which is removed in the end. -/
theorem enter_ends (setting : Setting) (levels : Nat) (run : Run) (node : NodeId)
    (projection : Projection) (direction : Direction) (tree : DirectionTree) (args : List Value) :
    (∀ produced built,
      (FirstReturn.atLevel setting levels).block
        (run.entered node projection direction tree args) tree.body produced built →
      (enter (evaluator levels) node projection direction tree args).result setting run =
        .ok produced { built with activations := run.activations }) ∧
    (tree.body.direct → ∀ result after,
      (enter (evaluator levels) node projection direction tree args).result setting run =
        .ok result after →
      (∃ built, (FirstReturn.atLevel setting levels).block
        (run.entered node projection direction tree args) tree.body result built) ∨
      ∃ finished, ((evaluator levels).block tree.body).result setting
        (run.entered node projection direction tree args) = .ok .proceed finished ∧
        finished.returning = false) ∧
    (tree.body.direct → ∀ failure after,
      (enter (evaluator levels) node projection direction tree args).result setting run =
        .error failure after →
      ∃ failed, ((evaluator levels).block tree.body).result setting
        (run.entered node projection direction tree args) = .error failure failed ∧
        (run.entered node projection direction tree args).Unreturned failed ∧
        after = { failed with activations := run.activations }) := by
  have hsteps := evaluator_steps setting levels
  have hends : ∀ produced built,
      (FirstReturn.atLevel setting levels).block
        (run.entered node projection direction tree args) tree.body produced built →
      (enter (evaluator levels) node projection direction tree args).result setting run =
        .ok produced { built with activations := run.activations } := by
    intro produced built hreturn
    obtain ⟨⟨a, ha⟩, hblock⟩ :=
      (FirstReturn.atLevel_ends setting levels).block hreturn
        (run.frames_entered node projection direction tree args)
    obtain ⟨b, hb, henter⟩ := result_enter_ok hsteps hblock
    rw [Run.givenBack, ha] at hb henter
    cases hb
    exact henter
  have hframes := run.frames_entered node projection direction tree args
  refine ⟨hends, fun hdirect result after henter => ?_, fun hdirect failure after henter => ?_⟩
  · cases hblock : ((evaluator levels).block tree.body).result setting
        (run.entered node projection direction tree args) with
    | error failure failed =>
      rw [result_enter_error hsteps hblock] at henter
      cases henter
    | ok flow finished =>
      rcases (FirstReturn.atLevel_covers setting levels).block hdirect hframes rfl hblock with
        ⟨rfl, hflag⟩ | ⟨produced, built, hreturn⟩
      · exact .inr ⟨finished, rfl, hflag⟩
      · have hresult := hends produced built hreturn
        rw [henter] at hresult
        cases hresult
        exact .inl ⟨built, hreturn⟩
  · cases hblock : ((evaluator levels).block tree.body).result setting
        (run.entered node projection direction tree args) with
    | ok flow finished =>
      obtain ⟨a, -, hresult⟩ := result_enter_ok hsteps hblock
      rw [hresult] at henter
      cases henter
    | error failure' failed =>
      rw [result_enter_error hsteps hblock] at henter
      cases henter
      exact ⟨failed, rfl, (evaluator_spares setting levels).block hdirect hframes rfl hblock, rfl⟩

/-- A workspace with a model, node 25, of one property, and a projection of models. -/
def oneModel (text : String) : Workspace :=
  ((Workspace.ofGraph ((Graph.initial.push ⟨none, .model (some "M") (.ofList [("p", ⟨26⟩)])⟩).push
    ⟨none, .modelProperty "p" (Graph.intrinsic .void) false⟩)).declare "schema" text).2

/-- Returns the type of the first property from a loop, and would go on to add a property. -/
def loopThenEdit : Workspace :=
  oneModel ("projection model#p \x7b to \x7b " ++
    "self.properties.forEach((p) => \x7b return p.type; \x7d); " ++
    "self.addProperty(\"x\", string); \x7d \x7d")

def loopProjection : Projection :=
  (loopThenEdit.declarations.get? ⟨0⟩).get (by decide +kernel)

def loopTree : DirectionTree := loopProjection.forward?.get (by decide +kernel)

/-- Adds a property of a name that is taken. -/
def collision : Workspace :=
  oneModel "projection model#p \x7b to \x7b self.addProperty(\"p\", string); \x7d \x7d"

def collisionProjection : Projection :=
  (collision.declarations.get? ⟨0⟩).get (by decide +kernel)

def collisionTree : DirectionTree := collisionProjection.forward?.get (by decide +kernel)

/-- That loop comes to a first `return`, which ends the projection without an edit. A projection
that fails instead has executed no `return`. -/
theorem enter_ends_loop :
    (∃ built,
      (FirstReturn.atLevel loopThenEdit.setting 8).block
        ((Run.start loopThenEdit.graph .empty (some [])).entered ⟨25⟩ loopProjection .forward
          loopTree []) loopTree.body (Graph.intrinsic .void) built ∧
      (enter (evaluator 8) ⟨25⟩ loopProjection .forward loopTree []).result loopThenEdit.setting
        (Run.start loopThenEdit.graph .empty (some [])) =
          .ok (Graph.intrinsic .void) { built with activations := [] } ∧
      built.trace = some []) ∧
    ∃ failure after failed,
      (enter (evaluator 8) ⟨25⟩ collisionProjection .forward collisionTree []).result
        collision.setting (Run.start collision.graph .empty none) = .error failure after ∧
      ((evaluator 8).block collisionTree.body).result collision.setting
        ((Run.start collision.graph .empty none).entered ⟨25⟩ collisionProjection .forward
          collisionTree []) = .error failure failed ∧
      ((Run.start collision.graph .empty none).entered ⟨25⟩ collisionProjection .forward
        collisionTree []).Unreturned failed := by
  have hends := enter_ends loopThenEdit.setting 8 (Run.start loopThenEdit.graph .empty (some []))
    ⟨25⟩ loopProjection .forward loopTree []
  have hok : okAnd (fun id after => id = Graph.intrinsic .void && after.trace = some [])
      ((enter (evaluator 8) ⟨25⟩ loopProjection .forward loopTree []).result loopThenEdit.setting
        (Run.start loopThenEdit.graph .empty (some []))) := by decide +kernel
  have hreturned : okAnd (fun flow _ => flow = .proceed)
      (((evaluator 8).block loopTree.body).result loopThenEdit.setting
        ((Run.start loopThenEdit.graph .empty (some [])).entered ⟨25⟩ loopProjection .forward
          loopTree [])) = false := by decide +kernel
  refine ⟨?_, ?_⟩
  · obtain ⟨id, after, henter, hok⟩ := of_okAnd hok
    rw [Bool.and_eq_true, decide_eq_true_iff, decide_eq_true_iff] at hok
    obtain ⟨rfl, htrace⟩ := hok
    rcases hends.2.1 (by decide +kernel) _ _ henter with
      ⟨built, hreturn⟩ | ⟨finished, hblock, -⟩
    · have hresult := hends.1 _ _ hreturn
      refine ⟨built, hreturn, hresult, ?_⟩
      rw [henter] at hresult
      cases hresult
      exact htrace
    · rw [hblock] at hreturned
      cases hreturned
  · have hfails : okAnd (fun _ _ => true) ((enter (evaluator 8) ⟨25⟩ collisionProjection .forward
        collisionTree []).result collision.setting (Run.start collision.graph .empty none)) =
          false := by decide +kernel
    obtain ⟨failure, after, henter⟩ := error_of_not_okAnd hfails
    obtain ⟨failed, hblock, hunreturned, -⟩ := (enter_ends collision.setting 8
      (Run.start collision.graph .empty none) ⟨25⟩ collisionProjection .forward collisionTree
      []).2.2 (by decide +kernel) _ _ henter
    exact ⟨failure, after, failed, henter, hblock, hunreturned⟩

/-- Unless the loop is in a condition: then the edit that follows is tried on the returned type. -/
example :
    ((oneModel ("projection model#p \x7b to \x7b " ++
      "if self.properties.forEach((p) => \x7b return p.type; \x7d) \x7b \x7d " ++
      "self.addProperty(\"x\", string); \x7d \x7d")).tryProject ⟨25⟩ ⟨⟨0⟩, .forward⟩
      []).1.toOption = none := by
  decide +kernel

end Evaluation

end SchemaProjection
