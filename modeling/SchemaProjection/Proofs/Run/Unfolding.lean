import SchemaProjection.Proofs.Run.Applications
import SchemaProjection.Proofs.Run.Quiet
import SchemaProjection.Proofs.Run.SafeEvaluation

/-!
# Unfolding the evaluator

What does evaluation ask for on the way, and in which states? A step that depends on an evaluator
**unfolds** (`Eval.Unfolds`) if the calls that it makes have valid call trees, with an accepted log
and of bounded height. Steps in sequence unfold if each does (`Eval.Unfolds.bind`), and quiet steps
make no calls and keep the run where it is (`Eval.Unfolds.quiet`). No state of the graph and no
property of the arguments is assumed; all that counts is that the run is where its log says
(`Progress.At`).

The trees belong to the strict setting of a relaxation. They are valid under its lax setting as
well, unless they end with an excuse.

The bound on the height is the one of the levels: an expression or a block needs its own height,
and beyond that the **reserve** for the applications inside (`Setting.reserve`), which shrinks with
their depth. Here everything but the application itself is unfolded, along the syntax, from one
level to the next.
-/

namespace SchemaProjection

/-! ### The judgement -/

namespace Progress

variable {R : Relaxation} {depth : Nat} {s : Progress} {run after : Run} {α : Type}

/-- A run is where a log says, at a given depth. -/
structure At (R : Relaxation) (depth : Nat) (s : Progress) (run : Run) : Prop where
  shows : s.Shows R.strict run
  sees : R.Sees run
  framed : run.Framed
  length_active : s.active.length = depth

/-- **What a step leads to**, from what was known before it to what is known after it. If it
succeeds, the same applications are active again. It does not fail for want of levels. -/
def Leads (R : Relaxation) (s s' : Progress) : EStateM.Result Failure Run α → Prop
  | .ok _ after => s'.active = s.active ∧ s'.Shows R.strict after ∧ R.Sees after ∧ after.Framed
  | .error failure _ => failure.cause ≠ .internal .depth

theorem Shows.of_standing {setting : Setting} (h : s.Shows setting run)
    (hstanding : after.standing = run.standing) : s.Shows setting after where
  memo := (congrArg Prod.fst hstanding).trans h.memo
  depths := by
    have hdepths := congrArg (fun standing => standing.2.map Prod.fst) hstanding
    simp only [Run.standing, List.map_map] at hdepths
    exact hdepths.trans h.depths
  bounded := h.bounded

theorem At.of_stands (h : s.At R depth run) (hstands : run.Stands after) : s.At R depth after :=
  ⟨h.shows.of_standing hstands.standing, h.sees.of_standing hstands.standing,
    hstands.framed h.framed, h.length_active⟩

end Progress

/-- **What is asked for unfolds**: under the strict setting it has a valid call tree, not higher
than a level, with an accepted log. The tree is valid under the lax setting as well, unless it ends
with an excuse. -/
def Query.Unfolds (R : Relaxation) (level : Nat) (s : Progress) (run : Run) (query : Query) :
    Prop :=
  ∃ ending inside, (CallTree.mk query run ending inside).Valid R.strict ∧
    (CallTree.mk query run ending inside).height ≤ level ∧
    s.Accepts R.strict (CallTree.mk query run ending inside).log ∧
    Progress.Leads R s (s.along (CallTree.mk query run ending inside).log) ending ∧
    ((CallTree.mk query run ending inside).Valid R.lax ∨ R.Excuses ending)

namespace Eval

variable {R : Relaxation} {level depth : Nat} {s : Progress} {run after : Run} {α β : Type}

/-- **A step unfolds**: what it asks for does. -/
def Unfolds (R : Relaxation) (level : Nat) (s : Progress) (run : Run)
    (x : Evaluator → Eval α) : Prop :=
  ∃ calls ending, Makes R.strict run x calls ending ∧
    (∀ t ∈ calls, t.Valid R.strict ∧ t.height ≤ level) ∧
    s.Accepts R.strict (CallTree.logs calls) ∧
    Progress.Leads R s (s.along (CallTree.logs calls)) ending ∧
    (Makes R.lax run x calls ending ∧ (∀ t ∈ calls, t.Valid R.lax) ∨ R.Excuses ending)

namespace Unfolds

theorem ask {query : Query} (h : query.Unfolds R level s run) :
    Unfolds R level s run fun ev => ev.ask query := by
  obtain ⟨ending, inside, hvalid, hheight, haccepts, hleads, hlax⟩ := h
  have hlog : CallTree.logs [.mk query run ending inside] =
      (CallTree.mk query run ending inside).log := List.append_nil _
  have heach : ∀ {P : CallTree → Prop}, P (.mk query run ending inside) →
      ∀ t ∈ [CallTree.mk query run ending inside], P t := fun h t ht =>
    List.mem_singleton.mp ht ▸ h
  refine ⟨[.mk query run ending inside], ending, .ask query ending inside,
    heach ⟨hvalid, hheight⟩, ?_, ?_, ?_⟩
  · rw [hlog]
    exact haccepts
  · rw [hlog]
    exact hleads
  · exact hlax.imp (fun h => ⟨.ask query ending inside, heach h⟩) id

/-- A quiet step asks for nothing. -/
theorem quiet (hs : s.At R depth run) {x : Eval α} (hx : Quiet R run x) :
    Unfolds R level s run fun _ => x := by
  rw [Quiet] at hx
  refine ⟨[], x.result R.strict run, .const x, List.forall_mem_nil _, trivial, ?_⟩
  cases hresult : x.result R.strict run with
  | ok a after =>
    rw [hresult] at hx
    obtain ⟨hstands, hlax⟩ := hx
    have hafter := hs.of_stands hstands
    exact ⟨⟨rfl, hafter.shows, hafter.sees, hafter.framed⟩, .inl ⟨hlax ▸ .const x, List.forall_mem_nil _⟩⟩
  | error failure after =>
    rw [hresult] at hx
    obtain ⟨hcause, hexcused | hlax⟩ := hx
    · exact ⟨hcause, .inr hexcused⟩
    · exact ⟨hcause, .inl ⟨hlax ▸ .const x, List.forall_mem_nil _⟩⟩

/-- A step may fail at once. -/
theorem failing {x : Evaluator → Eval α} {failure : Failure}
    (hstrict : ∀ ev, (x ev).result R.strict run = .error failure run)
    (hcause : failure.cause.isDepth = false)
    (hlax : (∀ ev, (x ev).result R.lax run = .error failure run) ∨ R.excused failure) :
    Unfolds R level s run x := by
  have hfail : ∀ {setting : Setting}, (∀ ev, (x ev).result setting run = .error failure run) →
      Makes setting run x [] (.error failure run) :=
    fun h => (Makes.const (failWith failure.cause failure.span)).congr h
  exact ⟨[], .error failure run, hfail hstrict, List.forall_mem_nil _, trivial,
    Cause.ne_depth hcause, hlax.imp (fun h => ⟨hfail h, List.forall_mem_nil _⟩) id⟩

/-- **Sequencing.** The second step starts where the log of the first one has led. -/
theorem bind {x : Evaluator → Eval α} {f : α → Evaluator → Eval β} (hs : s.At R depth run)
    (hx : Unfolds R level s run x)
    (hf : ∀ a after s', Progress.At R depth s' after → Unfolds R level s' after (f a)) :
    Unfolds R level s run fun ev => x ev >>= fun a => f a ev := by
  obtain ⟨first, ending, hmakes, hfirst, haccepts, hleads, hlax⟩ := hx
  cases ending with
  | error failure after =>
    exact ⟨first, .error failure after, hmakes.bind_error f, hfirst, haccepts, hleads,
      hlax.imp (fun h => ⟨h.1.bind_error f, h.2⟩) id⟩
  | ok a middle =>
    obtain ⟨hactive, hshows, hsees, hframed⟩ := hleads
    have hmiddle : Progress.At R depth (s.along (CallTree.logs first)) middle :=
      ⟨hshows, hsees, hframed, hactive ▸ hs.length_active⟩
    obtain ⟨second, ending, hmakes', hsecond, haccepts', hleads', hlax'⟩ := hf a middle _ hmiddle
    -- the first step has succeeded, which is no excuse
    obtain ⟨hmakesLax, hvalidLax⟩ := hlax.resolve_right id
    refine ⟨first ++ second, ending, hmakes.bind hmakes',
      List.forall_mem_append.mpr ⟨hfirst, hsecond⟩, ?_, ?_, ?_⟩
    · rw [CallTree.logs_append]
      exact (Progress.accepts_append _ _).mpr ⟨haccepts, haccepts'⟩
    · rw [CallTree.logs_append, Progress.along_append]
      cases ending with
      | error failure after => exact hleads'
      | ok b after => exact ⟨hleads'.1.trans hactive, hleads'.2⟩
    · exact hlax'.imp (fun h => ⟨hmakesLax.bind h.1,
        List.forall_mem_append.mpr ⟨hvalidLax, h.2⟩⟩) id

/-- What follows a quiet step may use what the step came to. -/
theorem quiet_bind (hs : s.At R depth run) {x : Eval α} {f : α → Evaluator → Eval β}
    (hx : Quiet R run x)
    (hf : ∀ a after, x.result R.strict run = .ok a after → s.At R depth after →
      Unfolds R level s after (f a)) :
    Unfolds R level s run fun ev => x >>= fun a => f a ev := by
  have hconst : ∀ {setting : Setting} {ending : EStateM.Result Failure Run α},
      x.result setting run = ending → Makes setting run (fun _ : Evaluator => x) [] ending :=
    fun h => h ▸ .const x
  rw [Quiet] at hx
  cases hresult : x.result R.strict run with
  | error failure after =>
    rw [hresult] at hx
    exact ⟨[], .error failure after, (hconst hresult).bind_error f, List.forall_mem_nil _, trivial,
      hx.1, hx.2.symm.imp (fun h => ⟨(hconst h).bind_error f, List.forall_mem_nil _⟩) id⟩
  | ok a after =>
    rw [hresult] at hx
    obtain ⟨hstands, hlax⟩ := hx
    obtain ⟨calls, ending, hmakes, hcalls, haccepts, hleads, hlax'⟩ :=
      hf a after hresult (hs.of_stands hstands)
    exact ⟨calls, ending, (hconst hresult).bind hmakes, hcalls, haccepts, hleads,
      hlax'.imp (fun h => ⟨(hconst hlax).bind h.1, h.2⟩) id⟩

/-- What follows may be quiet. -/
theorem bind_quiet {x : Evaluator → Eval α} {f : α → Eval β} (hs : s.At R depth run)
    (hx : Unfolds R level s run x)
    (hf : ∀ a after, Quiet R after (f a)) : Unfolds R level s run fun ev => x ev >>= f :=
  hx.bind hs fun a after _ hafter => .quiet hafter (hf a after)

/-- Reading the setting, if what follows does the same with either one. -/
theorem read_bind {f : Setting → Evaluator → Eval α} (h : Unfolds R level s run (f R.strict))
    (hsame : ∀ ev, f R.lax ev = f R.strict ev) :
    Unfolds R level s run fun ev => read >>= fun setting => f setting ev := by
  obtain ⟨calls, ending, hmakes, hcalls, haccepts, hleads, hlax⟩ := h
  refine ⟨calls, ending, hmakes.congr fun _ => rfl, hcalls, haccepts, hleads,
    hlax.imp (fun h => ⟨h.1.congr fun ev => ?_, h.2⟩) id⟩
  rw [← hsame]
  rfl

theorem ite {c : Prop} [Decidable c] {x y : Evaluator → Eval α}
    (hx : c → Unfolds R level s run x) (hy : ¬ c → Unfolds R level s run y) :
    Unfolds R level s run fun ev => if c then x ev else y ev := by
  by_cases hc : c
  · simpa only [if_pos hc] using hx hc
  · simpa only [if_neg hc] using hy hc

/-- A frame is opened and closed quietly. -/
theorem inFrame (hs : s.At R depth run) {frame : Frame} {x : Evaluator → Eval α}
    (hx : ∀ {run : Run} {s : Progress}, s.At R depth run → Unfolds R level s run x) :
    Unfolds R level s run fun ev => Eval.inFrame frame (x ev) := by
  refine quiet_bind hs (.pushFrame frame) fun _ opened _ hs => ?_
  exact (hx hs).bind_quiet hs fun a after => Quiet.popFrame.bind fun _ _ _ => .pure _

/-- **Closing quietly.** Whatever the step comes to under the levels that it needs, there is
something to close. -/
theorem closing {x : Evaluator → Eval α} {close : Eval β} (hx : Unfolds R level s run x)
    (hsteps : Steps R.strict run true (x (evaluator level)))
    (hcloses : ∀ setting, ClosesOnly setting close)
    (hclose : ∀ middle, Activation.StackLeft true run.activations middle.activations →
      ∃ b last, close.result R.strict middle = .ok b last)
    (hquiet : ∀ middle, Quiet R middle close) :
    Unfolds R level s run fun ev => Eval.closing (x ev) close := by
  obtain ⟨calls, ending, hmakes, hcalls, haccepts, hleads, hlax⟩ := hx
  have hresult : (x (evaluator level)).result R.strict run = ending :=
    hmakes.decides _ fun t ht => (hcalls t ht).1.answered_evaluator (hcalls t ht).2
  cases ending with
  | ok a middle =>
    obtain ⟨b, last, hpop⟩ := hclose middle ((hsteps.kept hresult).trans_left (.refl _))
    have hpopped := hquiet middle
    rw [Quiet, hpop] at hpopped
    obtain ⟨hstands, hpopLax⟩ := hpopped
    obtain ⟨hactive, hshows, hsees, hframed⟩ := hleads
    obtain ⟨hmakesLax, hvalidLax⟩ := hlax.resolve_right id
    refine ⟨calls, .ok (a, b) last, hmakes.closing_ok (hcloses _) hpop, hcalls, haccepts, ?_,
      .inl ⟨hmakesLax.closing_ok (hcloses _) hpopLax, hvalidLax⟩⟩
    exact ⟨hactive, hshows.of_standing hstands.standing, hsees.of_standing hstands.standing,
      hstands.framed hframed⟩
  | error failure middle =>
    obtain ⟨b, last, hpop⟩ := hclose middle (hsteps.left hresult)
    have hpopped := hquiet middle
    rw [Quiet, hpop] at hpopped
    exact ⟨calls, .error failure last, hmakes.closing_error (hcloses _) hpop, hcalls, haccepts,
      hleads, hlax.imp (fun h => ⟨h.1.closing_error (hcloses _) hpopped.2, h.2⟩) id⟩

/-- A frame is closed quietly after a failure, too. -/
theorem inRound (hs : s.At R depth run) {frame : Frame} {x : Evaluator → Eval α}
    (hsteps : ∀ {run : Run}, Steps R.strict run true (x (evaluator level)))
    (hx : ∀ {run : Run} {s : Progress}, s.At R depth run → Unfolds R level s run x) :
    Unfolds R level s run fun ev => Eval.inRound frame (x ev) := by
  refine quiet_bind hs (.pushFrame frame) fun _ opened hopen hs' => ?_
  refine (closing (hx hs') hsteps (fun _ _ _ _ => ofClosing_of_popFrame) (fun middle hleft => ?_)
    fun _ => .popFrame).bind_quiet hs' fun _ _ => .pure _
  rw [result_modifyActivation] at hopen
  cases hstack : run.activations with
  | nil =>
    rw [hstack] at hopen
    cases hopen
  | cons a rest =>
    rw [hstack] at hopen
    cases hopen
    rcases result_popFrame_of_left hleft with ⟨b, hpop, -⟩ | ⟨hnil, -⟩
    · exact ⟨_, _, hpop⟩
    · exact absurd hnil (hs.framed.head a rest hstack)

/-- Steps along a list. -/
theorem mapM {γ : Type} (xs : List γ) {f : Evaluator → γ → Eval α} (hs : s.At R depth run)
    (hf : ∀ x ∈ xs, ∀ {run : Run} {s : Progress}, s.At R depth run →
      Unfolds R level s run fun ev => f ev x) :
    Unfolds R level s run fun ev => xs.mapM (f ev) := by
  induction xs generalizing run s with
  | nil =>
    simp only [List.mapM_nil]
    exact .quiet hs (.pure _)
  | cons x rest ih =>
    simp only [List.mapM_cons]
    refine (hf x List.mem_cons_self hs).bind hs fun a _ _ hs => ?_
    exact (ih hs fun y hy => hf y (List.mem_cons_of_mem x hy)).bind_quiet hs fun _ _ => .pure _

end Unfolds

end Eval

/-! ### Edits that apply a projection -/

namespace Edits

open Eval

variable {R : Relaxation} {level depth : Nat} {s : Progress} {run : Run}
  {apply : Evaluator → Apply} (hs : s.At R depth run)
  (happly : ∀ {run : Run} {s : Progress} span node name args, s.At R depth run →
    Unfolds R level s run fun ev => apply ev span node name args)
include hs happly

theorem unfolds_projected (call : MethodCall) (collection : Collection) (member : NodeId)
    (projection : String) (args : List Value) :
    Unfolds R level s run fun ev =>
      projected (apply ev) call collection member projection args := by
  unfold projected
  -- an operation is projected itself, of any other member it is the type
  refine .ite (fun _ => happly _ _ _ _ hs) fun _ => ?_
  refine .quiet_bind hs .graph fun g _ _ hs => ?_
  cases (g.shape member).type? with
  | none => exact .quiet hs (.fail _ rfl)
  | some type =>
    refine (happly _ _ _ _ hs).bind_quiet hs fun result _ => ?_
    split
    · exact .pure _
    · exact .build _

theorem unfolds_project (call : MethodCall) (collection : Collection) :
    Unfolds R level s run fun ev => project (apply ev) call collection := by
  refine .quiet_bind hs (quiet_stringArg call 0) fun name _ _ hs => ?_
  refine .quiet_bind hs (quiet_projectionArg call) fun projection _ _ hs => ?_
  refine .quiet_bind hs (quiet_valueArgs call _) fun args _ _ hs => ?_
  refine .quiet_bind hs (quiet_membersOf call collection) fun members _ _ hs => ?_
  refine .quiet_bind hs (quiet_existing call members name _) fun member _ _ hs => ?_
  refine (unfolds_projected hs happly call collection member projection args).bind_quiet hs
    fun result _ => ?_
  split
  · exact .pure _
  · exact (Quiet.build _).bind fun updated _ _ => quiet_conclude _ _ _ _ _ _

theorem unfolds_run (hR : R.Sound) (call : MethodCall) (method : Method) :
    Unfolds R level s run fun ev => Edits.run (apply ev) call method := by
  cases method with
  | edit edit =>
    cases edit with
    | add c => exact .quiet hs (quiet_add call c)
    | delete c => exact .quiet hs (quiet_delete hR call c)
    | rename c => exact .quiet hs (quiet_rename call c)
    | project c => exact unfolds_project hs happly call c
    | setType => exact .quiet hs (quiet_setType call .declared)
    | setReturnType => exact .quiet hs (quiet_setType call .returned)
  | get c => exact .quiet hs (quiet_get call c)

end Edits

/-! ### Evaluation -/

/-- **Everything unfolds at a level**, if it does not need more levels. -/
structure Evaluation.UnfoldsAt (R : Relaxation) (level : Nat) : Prop where
  expr : ∀ {depth : Nat} {s : Progress} {run : Run} (e : Expr), s.At R depth run →
    e.height + R.strict.reserve depth ≤ level → (Query.expr e).Unfolds R level s run
  block : ∀ {depth : Nat} {s : Progress} {run : Run} (b : Block), s.At R depth run →
    b.height + R.strict.reserve depth ≤ level → (Query.block b).Unfolds R level s run
  apply : ∀ {depth : Nat} {s : Progress} {run : Run} (node : NodeId) {p : Projection}
    (direction : Direction) (args : List Value), s.At R depth run →
    p ∈ R.strict.declarations.projections → R.strict.reserve depth ≤ level →
    (Query.apply node p direction args).Unfolds R level s run

namespace Evaluation

open Eval

variable {R : Relaxation} {level depth : Nat} {s : Progress} {run : Run}
  (hev : UnfoldsAt R level) (hs : s.At R depth run)
include hev hs

theorem UnfoldsAt.step_expr (e : Expr) (hlevel : e.height + R.strict.reserve depth ≤ level) :
    Unfolds R level s run fun ev => ev.expr e := .ask (hev.expr e hs hlevel)

theorem UnfoldsAt.step_block (b : Block) (hlevel : b.height + R.strict.reserve depth ≤ level) :
    Unfolds R level s run fun ev => ev.block b := .ask (hev.block b hs hlevel)

/-! #### Values -/

theorem unfolds_value (e : Expr) (hlevel : e.height + R.strict.reserve depth ≤ level) :
    Unfolds R level s run fun ev => value ev e := by
  refine (hev.step_expr hs e hlevel).bind_quiet hs fun operand _ => ?_
  split
  · exact .pure _
  · exact .fail _ rfl
  · exact .fail _ rfl

theorem unfolds_values (es : List Expr)
    (hlevel : Expr.heights es + R.strict.reserve depth ≤ level) :
    Unfolds R level s run fun ev => values ev es :=
  .mapM es hs fun e he _ _ hs => unfolds_value hev hs e
    (Nat.le_trans (Nat.add_le_add_right (Expr.height_le_heights he) _) hlevel)

theorem unfolds_truth (e : Expr) (hlevel : e.height + R.strict.reserve depth ≤ level) :
    Unfolds R level s run fun ev => truth ev e :=
  (hev.step_expr hs e hlevel).bind_quiet hs fun _ _ => Quiet.graph.bind fun _ _ _ => .pure _

/-! #### Applications by name -/

theorem unfolds_applyNamed (hR : R.Sound) (hlevel : R.strict.reserve depth ≤ level) (span : Span)
    (node : NodeId) (name : String) (args : List Value) :
    Unfolds R level s run fun ev => applyNamed ev span node name args := by
  cases hdeclared : R.strict.declarations.isDeclared name with
  | false =>
    -- an undeclared name is an error under the strict setting, and an excuse if the lax one has it
    have hfail : ∀ {setting : Setting}, setting.declarations.isDeclared name = false → ∀ ev,
        (applyNamed ev span node name args).result setting run =
          .error ⟨.unknownProjection (.undeclared name), some span⟩ run := by
      intro setting hnone ev
      have hread : (read : Eval Setting).result setting run = .ok setting run := rfl
      rw [applyNamed, result_bind_of_ok hread]
      dsimp only
      rw [hnone]
      rfl
    refine .failing (hfail hdeclared) rfl ?_
    rcases hR.isDeclared name with hsame | ⟨-, hexcused⟩
    · exact .inl (hfail (hsame.trans hdeclared))
    · exact .inr (hexcused _)
  | true =>
    have hlax : R.lax.declarations.isDeclared name = true := by
      rcases hR.isDeclared name with hsame | ⟨hnone, -⟩
      · exact hsame.trans hdeclared
      · rw [hdeclared] at hnone
        cases hnone
    refine .read_bind ?_ fun ev => ?_
    · dsimp only
      rw [hdeclared]
      refine .quiet_bind hs .get fun start _ _ hs => ?_
      refine .quiet_bind hs .graph fun g _ _ hs => ?_
      cases hresolved : R.strict.declarations.resolve? g node name with
      | none => exact .quiet hs (.pure _)
      | some projection =>
        have hp := List.mem_of_find?_eq_some hresolved
        exact .ask (hev.apply node _ args hs hp hlevel)
    · simp only [hlax, hdeclared, hR.resolve _ _ _ hdeclared]

/-! #### Loops and calls -/

theorem unfolds_forItems (params : List Word) (body : Block)
    (hlevel : body.height + R.strict.reserve depth ≤ level) (position : Nat) (items : List NodeId) :
    Unfolds R level s run fun ev => forItems ev params body position items := by
  induction items generalizing run s position with
  | nil => exact .quiet hs (.pure _)
  | cons item rest ih =>
    simp only [forItems_cons]
    have hround : Unfolds R level s run fun ev =>
        Eval.inRound (itemFrame params item position) (ev.block body) :=
      .inRound hs ((evaluator_steps R.strict level).block body fun _ => rfl) fun hs =>
        hev.step_block hs body hlevel
    refine hround.bind hs fun flow _ _ hs => ?_
    cases flow with
    | returned => exact .quiet hs (.pure _)
    | proceed => exact ih hs _

theorem unfolds_forEach (span : Span) (items : List NodeId) (args : List Expr)
    (hlevel : Expr.heights args + R.strict.reserve depth ≤ level) :
    Unfolds R level s run fun ev => forEach ev span items args := by
  unfold forEach
  split
  · next lambdaSpan params body =>
    -- the body of the loop is a part of a part of the argument
    have hbody : body.height + R.strict.reserve depth ≤ level := by
      rw [Expr.heights, Expr.heights, Expr.height] at hlevel
      omega
    simp only [discard_eq]
    exact (unfolds_forItems hev hs params body hbody 0 items).bind_quiet hs fun _ _ => .pure _
  · exact .quiet hs (.fail _ rfl)
  · exact .quiet hs (.fail _ rfl)

theorem unfolds_callMethod (hR : R.Sound) (span : Span) (receiver : Operand) (method : Word)
    (args : List Expr) (hlevel : Expr.heights args + R.strict.reserve depth ≤ level) :
    Unfolds R level s run fun ev => callMethod ev span receiver method args := by
  unfold callMethod
  dsimp only
  split
  · refine .ite (fun _ => ?_) fun _ => .quiet hs (.fail _ rfl)
    exact (unfolds_forEach hev hs span _ args hlevel).bind_quiet hs fun _ _ => .pure _
  · -- strings have methods of their own, which take no arguments
    refine .quiet hs ?_
    split
    · split
      · exact .pure _
      · exact .fail _ rfl
    · exact .fail _ rfl
  · split
    · -- a method of nodes, whose operands may be lists and projections too
      have hoperands : Unfolds R level s run fun ev => args.mapM ev.expr :=
        .mapM args hs fun e he _ _ hs => hev.step_expr hs e
          (Nat.le_trans (Nat.add_le_add_right (Expr.height_le_heights he) _) hlevel)
      refine hoperands.bind hs fun operands _ _ hs => ?_
      have hreserve : R.strict.reserve depth ≤ level := Nat.le_trans (Nat.le_add_left _ _) hlevel
      have happly : ∀ {run : Run} {s : Progress} span node name args, s.At R depth run →
          Unfolds R level s run fun ev => applyNamed ev span node name args :=
        fun span node name args hs => unfolds_applyNamed hev hs hR hreserve span node name args
      exact (Edits.unfolds_run hs happly hR _ _).bind_quiet hs fun _ _ => .pure _
    · exact .quiet hs ((Quiet.describe _).bind fun _ _ _ => .fail _ rfl)
  · exact .quiet hs (.fail _ rfl)
  · exact .quiet hs (.fail _ rfl)

theorem unfolds_call (hR : R.Sound) (span : Span) (callee : Expr) (args : List Expr)
    (hcallee : callee.height + R.strict.reserve depth ≤ level + 1)
    (hargs : Expr.heights args + R.strict.reserve depth ≤ level) :
    Unfolds R level s run fun ev => call ev span callee args := by
  unfold call
  split
  · refine (unfolds_values hev hs args hargs).bind hs fun vs _ _ hs => .quiet hs ?_
    exact (quiet_callHost hR hs.sees .function _ vs).bind fun _ _ _ => .pure _
  · next memberSpan target method =>
    -- the receiver is asked for by the call itself, past the member access
    have htarget : target.height + R.strict.reserve depth ≤ level := by
      rw [Expr.height] at hcallee
      omega
    refine (hev.step_expr hs target htarget).bind hs fun receiver _ _ hs => ?_
    exact unfolds_callMethod hev hs hR span receiver method args hargs
  · exact .quiet hs (.fail _ rfl)

/-! #### Expressions -/

theorem unfolds_unary (span : Span) (op : UnaryOp) (operand : Expr)
    (hlevel : operand.height + R.strict.reserve depth ≤ level) :
    Unfolds R level s run fun ev => unary ev span op operand := by
  refine (hev.step_expr hs operand hlevel).bind_quiet hs fun result _ => ?_
  split
  · exact Quiet.graph.bind fun _ _ _ => .pure _
  · exact .pure _
  · exact .fail _ rfl

theorem unfolds_binary (span : Span) (op : BinaryOp) (lhs rhs : Expr)
    (hlhs : lhs.height + R.strict.reserve depth ≤ level)
    (hrhs : rhs.height + R.strict.reserve depth ≤ level) :
    Unfolds R level s run fun ev => binary ev span op lhs rhs := by
  unfold binary
  split
  -- arithmetic and comparisons take both sides, a logical operator may take one only
  · refine (unfolds_value hev hs lhs hlhs).bind hs fun a _ _ hs => ?_
    refine (unfolds_value hev hs rhs hrhs).bind_quiet hs fun b _ => ?_
    split
    · exact .pure _
    · exact .fail _ rfl
  · refine (unfolds_value hev hs lhs hlhs).bind hs fun a _ _ hs => ?_
    refine (unfolds_value hev hs rhs hrhs).bind_quiet hs fun b _ => ?_
    split
    · exact .pure _
    · exact .fail _ rfl
  · next op =>
    refine (unfolds_truth hev hs lhs hlhs).bind hs fun a _ _ hs => ?_
    cases op.shortcut? a with
    | some v => exact .quiet hs (.pure _)
    | none => exact (unfolds_truth hev hs rhs hrhs).bind_quiet hs fun _ _ => .pure _

/-- What an expression consists of is lower than the expression. -/
theorem unfolds_expr (hR : R.Sound) (e : Expr)
    (hlevel : e.height + R.strict.reserve depth ≤ level + 1) :
    Unfolds R level s run fun ev => expr ev e := by
  cases e with
  | literal span literal => exact .quiet hs (.pure _)
  | name word => exact .quiet hs (quiet_resolve hR word)
  | member span target word =>
    rw [Expr.height] at hlevel
    exact (hev.step_expr hs target (by omega)).bind_quiet hs fun operand _ =>
      quiet_field word operand
  | call span callee args =>
    rw [Expr.height] at hlevel
    exact unfolds_call hev hs hR span callee args (by omega) (by omega)
  | decorator span name args =>
    rw [Expr.height] at hlevel
    refine (unfolds_values hev hs args (by omega)).bind hs fun vs _ _ hs => ?_
    refine .quiet_bind hs (quiet_decorated vs) fun prepared _ _ hs => .quiet hs ?_
    exact (quiet_callHost hR hs.sees .decorator name prepared).bind fun _ _ _ => .pure _
  | project span target name args =>
    rw [Expr.height] at hlevel
    refine (unfolds_value hev hs target (by omega)).bind hs fun v _ _ hs => ?_
    cases v with
    | type id =>
      refine (unfolds_values hev hs args (by omega)).bind hs fun vs _ _ hs => ?_
      have happly := unfolds_applyNamed hev hs hR (by omega) name.span id name.text vs
      exact happly.bind_quiet hs fun _ _ => .pure _
    | absent | bool | number | string => exact .quiet hs (.fail _ rfl)
  | lambda span params body => exact .quiet hs (.fail _ rfl)
  | unary span op operand =>
    rw [Expr.height] at hlevel
    exact (unfolds_unary hev hs span op operand (by omega)).bind_quiet hs fun _ _ => .pure _
  | binary span op lhs rhs =>
    rw [Expr.height] at hlevel
    exact (unfolds_binary hev hs span op lhs rhs (by omega) (by omega)).bind_quiet hs
      fun _ _ => .pure _

/-! #### Statements and blocks -/

theorem unfolds_stmt (t : Stmt) (hlevel : t.height + R.strict.reserve depth ≤ level) :
    Unfolds R level s run fun ev => stmt ev t := by
  cases t with
  | expr span e =>
    rw [Stmt.height] at hlevel
    simp only [stmt, discard_eq]
    refine Unfolds.bind hs (.bind_quiet hs (hev.step_expr hs e hlevel) fun _ _ => .pure _)
      fun _ _ _ hs => ?_
    exact .quiet hs (Quiet.activation.bind fun _ _ _ => .pure _)
  | cond span test body otherwise =>
    cases otherwise with
    | none =>
      rw [Stmt.height] at hlevel
      refine (unfolds_truth hev hs test (by omega)).bind hs fun holds _ _ hs => ?_
      refine .ite (fun _ => hev.step_block hs body (by omega)) fun _ => ?_
      exact .quiet hs (.pure _)
    | some alternative =>
      rw [Stmt.height] at hlevel
      refine (unfolds_truth hev hs test (by omega)).bind hs fun holds _ _ hs => ?_
      refine .ite (fun _ => hev.step_block hs body (by omega)) fun _ => ?_
      exact hev.step_block hs alternative (by omega)
  | ret span e =>
    exact (unfolds_value hev hs e hlevel).bind_quiet hs fun v _ => quiet_giveBack span v

theorem unfolds_stmts (ts : List Stmt) (hlevel : Stmt.heights ts + R.strict.reserve depth ≤ level) :
    Unfolds R level s run fun ev => stmts ev ts := by
  induction ts generalizing run s with
  | nil => exact .quiet hs (.pure _)
  | cons t rest ih =>
    rw [Stmt.heights] at hlevel
    refine (unfolds_stmt hev hs t (by omega)).bind hs fun flow _ _ hs => ?_
    cases flow with
    | returned => exact .quiet hs (.pure _)
    | proceed => exact ih hs (by omega)

theorem unfolds_block (b : Block) (hlevel : b.height + R.strict.reserve depth ≤ level + 1) :
    Unfolds R level s run fun ev => block ev b := by
  simp only [block_eq]
  refine .inFrame hs fun hs => unfolds_stmts hev hs b.stmts ?_
  have hheight := b.heights_lt_height
  omega

end Evaluation

end SchemaProjection
