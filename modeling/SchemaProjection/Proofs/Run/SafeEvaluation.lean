import Mathlib.Data.List.MinMax
import SchemaProjection.Proofs.Run.SafeEdits

/-!
# Evaluation is safe

Evaluation is safe at every level that is high enough (`Evaluation.safeAt`). An expression or a
block uses up as many levels as its height says, and an application inside it needs a **reserve**
beyond them: its own level, the height of its body, and the reserve of the applications inside
(`Setting.reserve`). The reserve shrinks with the depth of the activation, until the recursion limit
is reached and an application fails. The levels of a whole run are the reserve at the beginning, so
they suffice for all projections (`Eval.safe_projectNode`).
-/

namespace SchemaProjection

/-! ### Levels -/

theorem Expr.height_le_heights {e : Expr} {es : List Expr} (he : e ∈ es) :
    e.height ≤ Expr.heights es := by
  induction es with
  | nil => cases he
  | cons d rest ih =>
    rw [Expr.heights]
    cases he with
    | head => exact Nat.le_max_left _ _
    | tail _ hrest => exact Nat.le_trans (ih hrest) (Nat.le_max_right _ _)

theorem Block.heights_lt_height (b : Block) : Stmt.heights b.stmts < b.height := by
  cases b with
  | mk span stmts => exact Nat.lt_succ_self _

theorem Declarations.height_body_le {d : Declarations} {p : Projection}
    (hp : p ∈ d.projections) {direction : Direction} {tree : DirectionTree}
    (htree : p.direction? direction = some tree) : tree.body.height ≤ d.height := by
  have hprojection : tree.body.height ≤ p.height := by
    unfold Projection.height
    cases direction with
    | forward =>
      have htree : p.forward? = some tree := htree
      rw [htree]
      exact Nat.le_max_left _ _
    | backward =>
      have htree : p.backward? = some tree := htree
      rw [htree]
      exact Nat.le_max_right _ _
  exact List.le_max_of_le' 0 (List.mem_map_of_mem hp) hprojection

namespace Setting

/-- **How many levels an application needs** in an activation of the given depth. -/
def reserve (setting : Setting) (depth : Nat) : Nat :=
  (setting.declarations.height + 1) * (setting.options.maxDepth - depth) + 1

theorem levels_eq_reserve (setting : Setting) : setting.levels = setting.reserve 0 := rfl

theorem reserve_pos (setting : Setting) (depth : Nat) : 0 < setting.reserve depth :=
  Nat.succ_pos _

/-- Below the recursion limit there is a level for the application, and enough for its body. -/
theorem reserve_of_lt (setting : Setting) {depth : Nat} (h : depth < setting.options.maxDepth) :
    setting.reserve depth = setting.declarations.height + setting.reserve (depth + 1) + 1 := by
  unfold reserve
  have hdepth : setting.options.maxDepth - depth = setting.options.maxDepth - (depth + 1) + 1 := by
    omega
  rw [hdepth, Nat.mul_succ]
  omega

end Setting

/-! ### The judgement -/

/-- **Safe evaluation at a level**, of all that does not need more levels. -/
structure Evaluation.SafeAt (setting : Setting) (base : Graph) (level : Nat) : Prop where
  expr : ∀ {run : Run} {depth : Nat} (e : Expr), run.Ready setting base depth →
    e.height + setting.reserve depth ≤ level →
    Eval.Safe setting base run ((evaluator level).expr e)
  block : ∀ {run : Run} {depth : Nat} (b : Block), run.Ready setting base depth →
    b.height + setting.reserve depth ≤ level →
    Eval.Safe setting base run ((evaluator level).block b)
  apply : ∀ {run : Run} (node : NodeId) {p : Projection} (direction : Direction)
    (args : List Value), run.Sound setting base → p ∈ setting.declarations.projections →
    setting.reserve run.depth ≤ level →
    Eval.Safe setting base run ((evaluator level).apply node p direction args)

namespace Evaluation

open Eval

variable {setting : Setting} {base : Graph} {run : Run} {depth level : Nat} {α : Type}

/-! ### Names and fields -/

section

variable (hrun : run.Ready setting base depth)
include hrun

theorem safe_resolve (word : Word) : Safe setting base run (resolve word) := by
  refine hrun.bind hrun.activation fun a after _ hafter => ?_
  split
  · exact hafter.pure _
  · split
    · exact hafter.pure _
    · split
      · exact hafter.pure _
      · refine hafter.bind hafter.graph fun g _ _ hrun => ?_
        split
        · exact hrun.pure _
        · refine hrun.bind hrun.read fun s _ _ hrun => ?_
          split
          · exact hrun.pure _
          · exact .fail _ trivial

theorem safe_field (word : Word) (target : Operand) :
    Safe setting base run (field word target) := by
  unfold field
  dsimp only
  split
  · refine hrun.bind hrun.graph fun g _ _ hrun => ?_
    split
    · exact hrun.pure _
    · exact .fail _ trivial
  · split
    · exact hrun.pure _
    · exact .fail _ trivial
  · exact .fail _ trivial
  · split
    · exact hrun.pure _
    · exact .fail _ trivial
  · exact .fail _ trivial

/-! ### Host functions -/

/-- A host function changes the metadata only, whether it returns or fails. -/
theorem safe_callHost (sort : Host.ExportSort) (word : Word) (args : List Value) :
    Safe setting base run (callHost sort word args) := by
  refine hrun.bind hrun.read fun s _ _ hrun => ?_
  refine hrun.bind hrun.activation fun a after _ hrun => ?_
  dsimp only
  split
  · exact .fail _ trivial
  refine hrun.bind hrun.get fun start _ hget hrun => ?_
  cases hget
  have hwrite : ∀ metadata, Safe setting base after (set { after with metadata } : Eval Unit) :=
    fun metadata => ⟨.of_ok rfl, fun _ _ h => by cases h; exact .metadata hrun.sound metadata⟩
  split
  · exact hrun.bind (hwrite _) fun _ _ _ _ => .fail _ trivial
  · refine hrun.bind (hwrite _) fun _ _ _ hrun => ?_
    split
    · split
      · exact hrun.pure _
      · exact .fail _ trivial
    · exact hrun.pure _

/-! ### Steps over lists -/

theorem safe_mapM {β : Type} {f : α → Eval β} (xs : List α)
    (hf : ∀ x ∈ xs, ∀ {run : Run}, run.Ready setting base depth → Safe setting base run (f x)) :
    Safe setting base run (xs.mapM f) := by
  induction xs generalizing run with
  | nil =>
    rw [List.mapM_nil]
    exact hrun.pure _
  | cons x rest ih =>
    rw [List.mapM_cons]
    refine hrun.bind (hf x List.mem_cons_self hrun) fun b _ _ hrun => ?_
    refine hrun.bind (ih hrun fun y hy => hf y (List.mem_cons_of_mem x hy)) fun _ _ _ hrun => ?_
    exact hrun.pure _

end

/-! ### Values -/

section

variable (hev : SafeAt setting base level) (hrun : run.Ready setting base depth)
include hev hrun

theorem safe_value (e : Expr) (hlevel : e.height + setting.reserve depth ≤ level) :
    Safe setting base run (value (evaluator level) e) := by
  refine hrun.bind (hev.expr e hrun hlevel) fun operand _ _ hrun => ?_
  split
  · exact hrun.pure _
  · exact .fail _ trivial
  · exact .fail _ trivial

theorem safe_values (es : List Expr) (hlevel : Expr.heights es + setting.reserve depth ≤ level) :
    Safe setting base run (values (evaluator level) es) :=
  safe_mapM hrun es fun e he _ hrun => safe_value hev hrun e
    (Nat.le_trans (Nat.add_le_add_right (Expr.height_le_heights he) _) hlevel)

theorem safe_truth (e : Expr) (hlevel : e.height + setting.reserve depth ≤ level) :
    Safe setting base run (truth (evaluator level) e) :=
  hrun.bind (hev.expr e hrun hlevel) fun _ _ _ hrun =>
    hrun.bind hrun.graph fun _ _ _ hrun => hrun.pure _

/-! ### Applications -/

theorem safe_applyNamed (hlevel : setting.reserve depth ≤ level) (span : Span) (node : NodeId)
    (name : String) (args : List Value) :
    Safe setting base run (applyNamed (evaluator level) span node name args) := by
  refine hrun.bind hrun.read fun s _ hread hrun => ?_
  cases hread
  dsimp only
  split
  · exact .fail_bind _ (by trivial) _
  · refine hrun.bind hrun.get fun start _ _ hrun => ?_
    refine hrun.bind hrun.graph fun g _ _ hrun => ?_
    split
    · next projection hresolved =>
      have hp := List.mem_of_find?_eq_some hresolved
      exact hev.apply node _ args hrun.sound hp (hrun.depth_eq ▸ hlevel)
    · exact hrun.pure _

omit hrun in
/-- Where operations are kept, what is applied to one contains no `return`. -/
theorem safeApply_applyNamed (hd : setting.declarations.Over base)
    (hlevel : setting.reserve depth ≤ level) :
    Edits.SafeApply setting base depth (applyNamed (evaluator level)) where
  safe span node name args hrun := safe_applyNamed hev hrun hlevel span node name args
  version {run after span node id name args} hrun hkept hkind h := by
    obtain ⟨s, _, hread, h⟩ := ok_of_bind h
    cases hread
    dsimp only at h
    split at h
    · obtain ⟨_, _, hfail, -⟩ := ok_of_bind h
      cases hfail
    · obtain ⟨start, _, hget, h⟩ := ok_of_bind h
      cases hget
      obtain ⟨g, _, hgraph, h⟩ := ok_of_bind h
      cases hgraph
      split at h
      · -- what resolves on an operation applies to operations, so it contains no `return`
        next projection hresolved =>
        have hquiet := hkept.quiet hd hrun.sound.above hrun.sound.tidy hkind hresolved
        have hindexed := hd.indexed projection (List.mem_of_find?_eq_some hresolved)
        exact version_of_apply hrun.sound.tidy.ordered hrun.sound.begun hrun.sound.faithful hindexed
          hquiet h
      · cases h
        exact .refl _ _

omit hrun in
/-- An application that begins is known to be active. -/
theorem safe_enter (hrun : run.Sound setting base) (node : NodeId) {p : Projection}
    (direction : Direction) {tree : DirectionTree} (args : List Value)
    (hlevel : tree.body.height + setting.reserve (run.depth + 1) ≤ level) :
    Safe setting base run (enter (evaluator level) node p direction tree args) := by
  rw [enter_eq]
  refine (Safe.get hrun).bind fun start after hget _ => ?_
  cases hget
  -- the new activation is one deeper and has a frame for the parameters
  exact .inActivation ((evaluator_steps setting level).block tree.body fun _ => rfl)
    (hev.block tree.body ⟨hrun.withStack _, List.cons_ne_nil _ _, rfl⟩ hlevel)

omit hrun in
theorem safe_apply (hd : setting.declarations.Over base) (hrun : run.Sound setting base)
    (node : NodeId) {p : Projection} (direction : Direction) (args : List Value)
    (hp : p ∈ setting.declarations.projections) (hlevel : setting.reserve run.depth ≤ level + 1) :
    Safe setting base run (Evaluation.apply (evaluator level) node p direction args) := by
  unfold Evaluation.apply
  split
  · exact .fail _ trivial
  next tree htree =>
  dsimp only
  refine (Safe.remembered? hrun _).bind fun entry _ hentry _ => ?_
  cases hentry
  -- what is noted in the memo already is not run again
  split
  · exact .pure hrun _
  · exact .pure hrun _
  refine (Safe.read hrun).bind fun s _ hread _ => ?_
  cases hread
  refine (Safe.get hrun).bind fun start _ hget _ => ?_
  cases hget
  split
  · exact (Safe.describe hrun node).bind fun _ _ _ _ => .fail_bind _ (by trivial) _
  -- below the recursion limit
  next hdepth =>
  refine (Safe.remember hrun hrun.faithful.insert_active).bind fun _ noted hnote hnoted => ?_
  cases hnote
  have hbody : tree.body.height + setting.reserve (run.depth + 1) ≤ level := by
    have hheight := Declarations.height_body_le hp htree
    rw [setting.reserve_of_lt (Nat.not_le.mp hdepth)] at hlevel
    omega
  refine (safe_enter hev hnoted.sound node direction args hbody).bind fun id left henter hleft => ?_
  refine (Safe.remember hleft.sound ?_).bind fun _ _ _ hdone => .pure hdone.sound _
  -- what is noted as done is a version of the node, if there is no `return`
  refine hleft.sound.faithful.insert fun result q hresult hq hquiet => ?_
  cases hresult
  cases (hd.indexed p hp).symm.trans hq
  exact version_of_enter hnoted.sound.tidy.ordered hnoted.sound.begun
    (p.returns_of_direction? htree hquiet) henter

/-! ### Loops and calls -/

theorem safe_forItems (params : List Word) (body : Block)
    (hlevel : body.height + setting.reserve depth ≤ level) (position : Nat) (items : List NodeId) :
    Safe setting base run (forItems (evaluator level) params body position items) := by
  induction items generalizing run position with
  | nil => exact hrun.pure _
  | cons item rest ih =>
    rw [forItems_cons]
    have hbody : Safe setting base run (Eval.inRound (itemFrame params item position)
        ((evaluator level).block body)) :=
      .inRound hrun ((evaluator_steps setting level).block body fun _ => rfl) fun hrun =>
        hev.block body hrun hlevel
    refine hrun.bind hbody fun flow _ _ hrun => ?_
    cases flow with
    | returned => exact hrun.pure _
    | proceed => exact ih hrun _

theorem safe_forEach (span : Span) (items : List NodeId) (args : List Expr)
    (hlevel : Expr.heights args + setting.reserve depth ≤ level) :
    Safe setting base run (forEach (evaluator level) span items args) := by
  unfold forEach
  split
  · next lambdaSpan params body =>
    rw [discard_eq]
    have hbody : body.height + setting.reserve depth ≤ level := by
      rw [Expr.heights, Expr.heights, Expr.height] at hlevel
      omega
    exact hrun.bind (safe_forItems hev hrun params body hbody 0 items)
      fun _ _ _ hrun => hrun.pure _
  · exact .fail _ trivial
  · exact .fail _ trivial

theorem safe_callMethod (hd : setting.declarations.Over base) (span : Span) (receiver : Operand)
    (method : Word) (args : List Expr)
    (hlevel : Expr.heights args + setting.reserve depth ≤ level) :
    Safe setting base run (callMethod (evaluator level) span receiver method args) := by
  unfold callMethod
  dsimp only
  split
  · split
    · exact hrun.bind (safe_forEach hev hrun span _ args hlevel) fun _ _ _ hrun => hrun.pure _
    · exact .fail _ trivial
  · split
    · split
      · exact hrun.pure _
      · exact .fail _ trivial
    · exact .fail _ trivial
  · split
    · -- a method of nodes, whose operands may be lists and projections too
      have hoperands : Safe setting base run (args.mapM (evaluator level).expr) :=
        safe_mapM hrun args fun e he _ hrun => hev.expr e hrun
          (Nat.le_trans (Nat.add_le_add_right (Expr.height_le_heights he) _) hlevel)
      refine hrun.bind hoperands fun operands _ _ hrun => ?_
      have happly := safeApply_applyNamed hev hd (Nat.le_trans (Nat.le_add_left _ _) hlevel)
      exact hrun.bind (Edits.safe_run hrun happly _ _) fun _ _ _ hrun => hrun.pure _
    · exact hrun.bind (hrun.describe _) fun _ _ _ _ => .fail _ trivial
  · exact .fail _ trivial
  · exact .fail _ trivial

theorem safe_call (hd : setting.declarations.Over base) (span : Span) (callee : Expr)
    (args : List Expr) (hcallee : callee.height + setting.reserve depth ≤ level + 1)
    (hargs : Expr.heights args + setting.reserve depth ≤ level) :
    Safe setting base run (call (evaluator level) span callee args) := by
  unfold call
  split
  · refine hrun.bind (safe_values hev hrun args hargs) fun vs _ _ hrun => ?_
    exact hrun.bind (safe_callHost hrun .function _ vs) fun _ _ _ hrun => hrun.pure _
  · next memberSpan target method =>
    have htarget : target.height + setting.reserve depth ≤ level := by
      rw [Expr.height] at hcallee
      omega
    refine hrun.bind (hev.expr target hrun htarget) fun receiver _ _ hrun => ?_
    exact safe_callMethod hev hrun hd span receiver method args hargs
  · exact .fail _ trivial

omit hev in
theorem safe_decorated (args : List Value) : Safe setting base run (decorated args) := by
  unfold decorated
  split
  · exact hrun.bind (Edits.safe_materialize hrun _) fun _ _ _ hrun => hrun.pure _
  · exact hrun.pure _

/-! ### Expressions -/

theorem safe_unary (span : Span) (op : UnaryOp) (operand : Expr)
    (hlevel : operand.height + setting.reserve depth ≤ level) :
    Safe setting base run (unary (evaluator level) span op operand) := by
  refine hrun.bind (hev.expr operand hrun hlevel) fun result _ _ hrun => ?_
  split
  · exact hrun.bind hrun.graph fun _ _ _ hrun => hrun.pure _
  · exact hrun.pure _
  · exact .fail _ trivial

theorem safe_binary (span : Span) (op : BinaryOp) (lhs rhs : Expr)
    (hlhs : lhs.height + setting.reserve depth ≤ level)
    (hrhs : rhs.height + setting.reserve depth ≤ level) :
    Safe setting base run (binary (evaluator level) span op lhs rhs) := by
  unfold binary
  split
  · refine hrun.bind (safe_value hev hrun lhs hlhs) fun a _ _ hrun => ?_
    refine hrun.bind (safe_value hev hrun rhs hrhs) fun b _ _ hrun => ?_
    split
    · exact hrun.pure _
    · exact .fail _ trivial
  · refine hrun.bind (safe_value hev hrun lhs hlhs) fun a _ _ hrun => ?_
    refine hrun.bind (safe_value hev hrun rhs hrhs) fun b _ _ hrun => ?_
    split
    · exact hrun.pure _
    · exact .fail _ trivial
  · refine hrun.bind (safe_truth hev hrun lhs hlhs) fun a _ _ hrun => ?_
    split
    · exact hrun.pure _
    · exact hrun.bind (safe_truth hev hrun rhs hrhs) fun _ _ _ hrun => hrun.pure _

theorem safe_expr (hd : setting.declarations.Over base) (e : Expr)
    (hlevel : e.height + setting.reserve depth ≤ level + 1) :
    Safe setting base run (expr (evaluator level) e) := by
  cases e with
  | literal span literal => exact hrun.pure _
  | name word => exact safe_resolve hrun word
  | member span target word =>
    rw [Expr.height] at hlevel
    refine hrun.bind (hev.expr target hrun (by omega)) fun operand _ _ hrun => ?_
    exact safe_field hrun word operand
  | call span callee args =>
    rw [Expr.height] at hlevel
    exact safe_call hev hrun hd span callee args (by omega) (by omega)
  | decorator span name args =>
    rw [Expr.height] at hlevel
    refine hrun.bind (safe_values hev hrun args (by omega)) fun vs _ _ hrun => ?_
    refine hrun.bind (safe_decorated hrun vs) fun prepared _ _ hrun => ?_
    exact hrun.bind (safe_callHost hrun .decorator name prepared) fun _ _ _ hrun => hrun.pure _
  | project span target name args =>
    rw [Expr.height] at hlevel
    refine hrun.bind (safe_value hev hrun target (by omega)) fun v _ _ hrun => ?_
    split
    · refine hrun.bind (safe_values hev hrun args (by omega)) fun vs _ _ hrun => ?_
      have happly := safe_applyNamed hev hrun (by omega) name.span
      exact hrun.bind (happly _ _ _) fun _ _ _ hrun => hrun.pure _
    · exact .fail _ trivial
  | lambda span params body => exact .fail _ trivial
  | unary span op operand =>
    rw [Expr.height] at hlevel
    exact hrun.bind (safe_unary hev hrun span op operand (by omega)) fun _ _ _ hrun => hrun.pure _
  | binary span op lhs rhs =>
    rw [Expr.height] at hlevel
    exact hrun.bind (safe_binary hev hrun span op lhs rhs (by omega) (by omega))
      fun _ _ _ hrun => hrun.pure _

/-! ### Statements and blocks -/

omit hev in
theorem safe_giveBack (span : Span) (v : Value) : Safe setting base run (giveBack span v) := by
  unfold giveBack
  split
  · exact .fail_bind _ (by trivial) _
  have hbuilt : Safe setting base run (Eval.build (Building.typeOf v)) := by
    refine ⟨.build (Building.succeeds_typeOf v), fun node after h => ?_⟩
    obtain ⟨g, htype, rfl⟩ := ok_of_build h
    exact .supplied hrun.sound (Building.ok_of_typeOf htype).1
  refine hrun.bind hbuilt fun node _ _ hrun => ?_
  -- a `return` may set the flag of the activation, but not take it back
  have hself : ∀ a : Activation, a.Kept true { a with self := node } := fun _ =>
    ⟨rfl, rfl, rfl, rfl, fun _ => rfl, fun h => h⟩
  have hflag : ∀ a : Activation, a.Kept true { a with returning := true } := fun _ =>
    ⟨rfl, rfl, rfl, rfl, fun h => (nomatch h), fun _ => rfl⟩
  refine hrun.bind (hrun.modifyActivation hself) fun _ _ _ hrun => ?_
  exact hrun.bind (hrun.modifyActivation hflag) fun _ _ _ hrun => hrun.pure _

theorem safe_stmt (s : Stmt) (hlevel : s.height + setting.reserve depth ≤ level) :
    Safe setting base run (stmt (evaluator level) s) := by
  cases s with
  | expr span e =>
    rw [stmt, discard_eq]
    rw [Stmt.height] at hlevel
    refine hrun.bind (hrun.bind (hev.expr e hrun hlevel) fun _ _ _ hrun => hrun.pure _)
      fun _ _ _ hrun => ?_
    exact hrun.bind hrun.activation fun _ _ _ hrun => hrun.pure _
  | cond span test body otherwise =>
    cases otherwise with
    | none =>
      rw [Stmt.height] at hlevel
      refine hrun.bind (safe_truth hev hrun test (by omega)) fun holds _ _ hrun => ?_
      split
      · exact hev.block body hrun (by omega)
      · exact hrun.pure _
    | some alternative =>
      rw [Stmt.height] at hlevel
      refine hrun.bind (safe_truth hev hrun test (by omega)) fun holds _ _ hrun => ?_
      split
      · exact hev.block body hrun (by omega)
      · exact hev.block alternative hrun (by omega)
  | ret span e =>
    refine hrun.bind (safe_value hev hrun e hlevel) fun v _ _ hrun => ?_
    exact safe_giveBack hrun span v

theorem safe_stmts (ss : List Stmt) (hlevel : Stmt.heights ss + setting.reserve depth ≤ level) :
    Safe setting base run (stmts (evaluator level) ss) := by
  induction ss generalizing run with
  | nil => exact hrun.pure _
  | cons s rest ih =>
    rw [Stmt.heights] at hlevel
    refine hrun.bind (safe_stmt hev hrun s (by omega)) fun flow _ _ hrun => ?_
    cases flow with
    | returned => exact hrun.pure _
    | proceed => exact ih hrun (by omega)

theorem safe_block (b : Block) (hlevel : b.height + setting.reserve depth ≤ level + 1) :
    Safe setting base run (block (evaluator level) b) := by
  rw [block_eq]
  refine .inFrame hrun fun hrun => safe_stmts hev hrun b.stmts ?_
  have hheight := b.heights_lt_height
  omega

end

/-! ### All levels -/

/-- **Evaluation is safe at every level.** -/
theorem safeAt (hd : setting.declarations.Over base) (level : Nat) : SafeAt setting base level := by
  induction level with
  | zero =>
    -- nothing can be evaluated without a level, since there is always a reserve
    have hpos := setting.reserve_pos
    refine ⟨fun {_ depth} e _ h => ?_, fun {_ depth} b _ h => ?_, fun {run} _ _ _ _ _ _ h => ?_⟩
    · have := hpos depth
      omega
    · have := hpos depth
      omega
    · have := hpos run.depth
      omega
  | succ level ih =>
    exact ⟨fun e hrun h => safe_expr ih hrun hd e h, fun b hrun h => safe_block ih hrun b h,
      fun node _ direction args hrun hp h => safe_apply ih hd hrun node direction args hp h⟩

end Evaluation

/-! ### Whole runs -/

/-- At the start of a run nothing has been changed yet. -/
theorem Run.sound_start {setting : Setting} {g : Graph} (metadata : Metadata)
    (trace : Option (List Instruction)) (hg : g.Tidy (setting.declarations.Orders g)) :
    (Run.start g metadata trace).Sound setting g where
  above := le_rfl
  begun := Nat.le_refl _
  tidy := hg
  faithful := Memo.faithful_empty _ _

/-- **A whole run is safe.** The levels suffice for any body that it may enter. -/
theorem Eval.safe_projectNode {setting : Setting} {g : Graph} {metadata : Metadata}
    {trace : Option (List Instruction)} (hd : setting.declarations.Over g)
    (hg : g.Tidy (setting.declarations.Orders g)) (node : NodeId) (handle : Handle)
    (args : List Value) :
    Safe setting g (Run.start g metadata trace) (projectNode node handle args) := by
  have hrun := Run.sound_start metadata trace hg
  refine Safe.bind (.still hrun .graph fun _ _ h => by cases h; rfl) fun _ _ hgraph _ => ?_
  cases hgraph
  dsimp only
  split
  · exact Safe.bind (.failWith (by trivial) _) fun _ _ hfail => nomatch hfail
  refine (Safe.read hrun).bind fun s _ hread _ => ?_
  cases hread
  split
  · exact .failWith (by trivial) _
  · next projection hprojection =>
    refine (Safe.read hrun).bind fun s _ hread _ => ?_
    cases hread
    have hp := List.mem_of_getElem? hprojection
    exact (Evaluation.safeAt hd setting.levels).apply node handle.direction args hrun hp
      (Nat.le_of_eq setting.levels_eq_reserve.symm)

end SchemaProjection
