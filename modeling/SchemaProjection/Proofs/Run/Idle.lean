import SchemaProjection.Proofs.Run.Documenting
import SchemaProjection.Proofs.Run.Policies

/-!
# Bodies without edits

What a body asks for beyond reading is told by its syntax: `return`s, decorators, host functions
and edits (`Block.effects`). A body is **idle** if all that it asks for is to project members and
to call functions that write nothing (`Effect.Idle`).

Projecting a member changes nothing if applying the projection leads back to the same node, and that
is what an idle body does. So idleness is carried through the recursion together with one fact about
the memo, that applications which are done have led to their nodes (`Memo.Still`). An idle step then
changes nothing but the memo (`Eval.IdleWith`), and an application to a node leads to that node
(`evaluator_idle`).
-/

namespace SchemaProjection

/-! ### What a body asks for -/

/-- What a body may ask for beyond reading. -/
inductive Effect
  | returns
  | decorates (name : String)
  | calls (function : String)
  | edits (edit : Edit)
deriving DecidableEq

/-- What calling an expression asks for. -/
def Expr.callEffects : Expr → List Effect
  | .name word => [.calls word.text]
  | .member _ _ method =>
    match Method.ofName? method.text with
    | some (.edit edit) => [.edits edit]
    | _ => []
  | _ => []

mutual

def Expr.effects : Expr → List Effect
  | .literal _ _ => []
  | .name _ => []
  | .member _ target _ => target.effects
  | .call _ callee args => callee.callEffects ++ (callee.effects ++ Expr.allEffects args)
  | .decorator _ name args => .decorates name.text :: Expr.allEffects args
  | .project _ target _ args => target.effects ++ Expr.allEffects args
  | .lambda _ _ body => body.effects
  | .unary _ _ operand => operand.effects
  | .binary _ _ lhs rhs => lhs.effects ++ rhs.effects

def Expr.allEffects : List Expr → List Effect
  | [] => []
  | e :: es => e.effects ++ Expr.allEffects es

def Stmt.effects : Stmt → List Effect
  | .expr _ e => e.effects
  | .cond _ test body none => test.effects ++ body.effects
  | .cond _ test body (some alternative) =>
    test.effects ++ (body.effects ++ alternative.effects)
  | .ret _ e => .returns :: e.effects

def Stmt.allEffects : List Stmt → List Effect
  | [] => []
  | s :: ss => s.effects ++ Stmt.allEffects ss

/-- What a block asks for, in the order of its text. -/
def Block.effects : Block → List Effect
  | .mk _ stmts => Stmt.allEffects stmts

end

/-- **A host function that writes nothing**, whether it returns or fails. -/
def Host.Function.Silent (f : Host.Function) : Prop :=
  ∀ args graph metadata, f.metadataAfter args graph metadata = metadata

/-- **What an idle body may ask for**: functions that write nothing, of the modules that it sees,
and projecting members. -/
def Effect.Idle (visible : List Host.Module) : Effect → Prop
  | .calls name => ∀ f, Host.find? visible .function name = some f → f.Silent
  | .edits (.project _) => True
  | .returns | .decorates _ | .edits _ => False

/-- What the bodies of a projection ask for. -/
def Projection.effects (p : Projection) : List Effect :=
  (p.forward?.map fun tree => tree.body.effects).getD [] ++
    (p.backward?.map fun tree => tree.body.effects).getD []

theorem Projection.effects_of_direction? {p : Projection} {direction : Direction}
    {tree : DirectionTree} (htree : p.direction? direction = some tree) {effect : Effect}
    (h : effect ∈ tree.body.effects) : effect ∈ p.effects := by
  cases direction with
  | forward =>
    have htree : p.forward? = some tree := htree
    exact List.mem_append_left _ (by rw [htree]; exact h)
  | backward =>
    have htree : p.backward? = some tree := htree
    exact List.mem_append_right _ (by rw [htree]; exact h)

/-- **Declarations without edits**: every body that is declared is idle, with the modules that it
sees. -/
def Declarations.Idle (d : Declarations) (hosts : List Host.Module) : Prop :=
  ∀ p ∈ d.projections, ∀ effect ∈ p.effects, effect.Idle (hosts.take p.hostCount)

/-- Applications that are done have led to the nodes that they were made to. -/
def Memo.Still (m : Memo) : Prop :=
  ∀ key result, m.find? key = some (.done result) → result = key.node

theorem Memo.still_empty : empty.Still := by
  intro key result h
  rw [find?_empty] at h
  cases h

theorem Memo.Still.insert {m : Memo} (hm : m.Still) {key : MemoKey} {entry : MemoEntry}
    (hentry : ∀ result, entry = .done result → result = key.node) : (m.insert key entry).Still := by
  intro other result h
  rw [find?_insert] at h
  split at h
  · next hsame => exact hsame ▸ hentry result (Option.some.inj h)
  · exact hm other result h

/-! ### Idle steps -/

/-- A state in which nothing has changed so far, seen from a body to which a number of modules is
visible. -/
structure Run.AtRest (visible : Nat) (run : Run) : Prop where
  still : run.memo.Still
  sees : ∀ a ∈ run.activations.head?, a.hostCount = visible

namespace Eval

variable {setting : Setting} {visible : Nat} {run : Run} {α β : Type}

/-- **An idle step**: if it succeeds then it has changed nothing but the memo, and its result is as
expected. -/
def IdleWith (expected : α → Prop) (setting : Setting) (visible : Nat) (run : Run) (x : Eval α) :
    Prop :=
  run.AtRest visible → ∀ a after, x.result setting run = .ok a after →
    expected a ∧ after.memo.Still ∧ after = { run with memo := after.memo }

/-- An idle step of whose result nothing is said. -/
abbrev Idle (setting : Setting) (visible : Nat) (run : Run) (x : Eval α) : Prop :=
  IdleWith (fun _ => True) setting visible run x

variable {expected : α → Prop}

theorem IdleWith.bind {result : β → Prop} {x : Eval α} {f : α → Eval β}
    (hx : IdleWith expected setting visible run x)
    (hf : ∀ a after, expected a → IdleWith result setting visible after (f a)) :
    IdleWith result setting visible run (x >>= f) := by
  intro hready b after h
  obtain ⟨a, middle, hfirst, hrest⟩ := ok_of_bind h
  obtain ⟨ha, hstill, hmiddle⟩ := hx hready a middle hfirst
  -- the stack is the same in the middle
  have hsees : ∀ b ∈ middle.activations.head?, b.hostCount = visible := by
    rw [hmiddle]
    exact hready.sees
  obtain ⟨hb, hstill', hafter⟩ := hf a middle ha ⟨hstill, hsees⟩ b after hrest
  refine ⟨hb, hstill', ?_⟩
  rw [hmiddle] at hafter
  exact hafter

/-- A step that leaves the state as it is. -/
theorem IdleWith.still {x : Eval α}
    (h : ∀ a after, x.result setting run = .ok a after → after = run ∧ expected a) :
    IdleWith expected setting visible run x := by
  intro hready a after hok
  obtain ⟨rfl, ha⟩ := h a after hok
  exact ⟨ha, hready.still, rfl⟩

namespace Idle

theorem pure (a : α) : Idle setting visible run (Pure.pure a) :=
  .still fun _ _ h => by cases h; exact ⟨rfl, trivial⟩

theorem fail (span : Span) (cause : Cause) :
    IdleWith expected setting visible run (Eval.fail span cause) :=
  fun _ _ _ h => nomatch h

theorem failWith (cause : Cause) (span : Option Span) :
    IdleWith expected setting visible run (Eval.failWith cause span) :=
  fun _ _ _ h => nomatch h

theorem failWith_bind {result : β → Prop} (cause : Cause) (span : Option Span) (f : α → Eval β) :
    IdleWith result setting visible run (Eval.failWith cause span >>= f) := by
  intro _ _ _ h
  obtain ⟨_, _, hfail, -⟩ := ok_of_bind h
  cases hfail

theorem fail_bind {result : β → Prop} (span : Span) (cause : Cause) (f : α → Eval β) :
    IdleWith result setting visible run (Eval.fail span cause >>= f) := failWith_bind _ _ f

theorem get : Idle setting visible run (get : Eval Run) :=
  .still fun _ _ h => by cases h; exact ⟨rfl, trivial⟩

theorem read : IdleWith (· = setting) setting visible run (read : Eval Setting) :=
  .still fun _ _ h => by cases h; exact ⟨rfl, rfl⟩

theorem graph : Idle setting visible run Eval.graph :=
  .still fun _ _ h => by cases h; exact ⟨rfl, trivial⟩

theorem describe (id : NodeId) : Idle setting visible run (Eval.describe id) :=
  .still fun _ _ h => by cases h; exact ⟨rfl, trivial⟩

theorem activation : Idle setting visible run Eval.activation :=
  .still fun _ _ h => ⟨(ok_of_activation h).1, trivial⟩

/-- **A frame around an idle step** is opened and closed again. -/
theorem inFrame {frame : Frame} {x : Eval α} (hx : ∀ {run : Run}, Idle setting visible run x) :
    Idle setting visible run (Eval.inFrame frame x) := by
  intro hready result after h
  obtain ⟨_, opened, hopen, h⟩ := ok_of_bind h
  rw [result_modifyActivation] at hopen
  cases hstack : run.activations with
  | nil =>
    rw [hstack] at hopen
    cases hopen
  | cons a rest =>
    rw [hstack] at hopen
    cases hopen
    obtain ⟨b, closing, hinside, h⟩ := ok_of_bind h
    have hopened : Run.AtRest visible { run with activations := a.pushFrame frame :: rest } :=
      ⟨hready.still, fun c hc => by cases hc; exact hready.sees a (hstack ▸ rfl)⟩
    obtain ⟨-, hstill, hclosing⟩ := hx hopened b closing hinside
    have hstack' : closing.activations = a.pushFrame frame :: rest := by rw [hclosing]
    obtain ⟨_, closed, hclose, h⟩ := ok_of_bind h
    cases h
    cases hframes : a.frames with
    | nil =>
      -- there is always the frame of the parameters below
      rw [result_popFrame_last hstack' (by rw [Activation.pushFrame, hframes])] at hclose
      cases hclose
    | cons outer frames =>
      rw [result_popFrame hstack' (by rw [Activation.pushFrame, hframes])] at hclose
      cases hclose
      refine ⟨trivial, hstill, ?_⟩
      have hsame : { a.pushFrame frame with frames := outer :: frames } = a := by
        rw [← hframes]
        rfl
      dsimp only
      rw [hsame, ← hstack]
      rw [hclosing]

theorem inRound {frame : Frame} {x : Eval α} (hx : ∀ {run : Run}, Idle setting visible run x) :
    Idle setting visible run (Eval.inRound frame x) :=
  fun hready result after h => Idle.inFrame hx hready result after (ok_inRound_iff.mp h)

theorem mapM {f : α → Eval β} (xs : List α)
    (hf : ∀ x ∈ xs, ∀ {run : Run}, Idle setting visible run (f x)) :
    Idle setting visible run (xs.mapM f) := by
  induction xs generalizing run with
  | nil =>
    rw [List.mapM_nil]
    exact pure _
  | cons x rest ih =>
    rw [List.mapM_cons]
    refine (hf x List.mem_cons_self).bind fun b _ _ => ?_
    exact (ih fun y hy => hf y (List.mem_cons_of_mem x hy)).bind fun _ _ _ => pure _

end Idle

end Eval

/-! ### Edits -/

namespace Edits

open Eval

variable {setting : Setting} {visible : Nat} {run : Run} {apply : Apply}

/-- **Projecting a member** by a projection that leads back changes nothing. -/
theorem idle_project (call : MethodCall) (collection : Collection)
    (happly : ∀ span node name args,
      IdleWith (· = node) setting visible run (apply span node name args)) :
    Idle setting visible run (project apply call collection) := by
  intro hready v after h
  have hextends : ∀ span node name args result prepared,
      (apply span node name args).result setting run = .ok result prepared →
        run.graph ≤ prepared.graph := by
    intro span node name args result prepared happlied
    rw [(happly span node name args hready result prepared happlied).2.2]
  obtain ⟨name, projection, args, member, result, prepared, -, -, -, -, hprojects, hafter⟩ :=
    ok_of_project hextends h
  -- what is made of the member, or of its type, is that node itself
  have hsame : Unchanged run.graph collection member result ∧
      prepared.memo.Still ∧ prepared = { run with memo := prepared.memo } := by
    cases hprojects with
    | operation is_operation applied =>
      obtain ⟨rfl, hidle⟩ := happly _ _ _ _ hready _ _ applied
      exact ⟨by rw [Unchanged, if_pos is_operation], hidle⟩
    | type not_operation found applied =>
      obtain ⟨rfl, hidle⟩ := happly _ _ _ _ hready _ _ applied
      exact ⟨by rw [Unchanged, if_neg not_operation, found], hidle⟩
  obtain ⟨hunchanged, hidle⟩ := hsame
  rcases hafter with ⟨-, rfl⟩ | ⟨hchanged, -⟩
  · exact ⟨trivial, hidle⟩
  · exact absurd hunchanged hchanged

theorem idle_get (call : MethodCall) (collection : Collection) :
    Idle setting visible run (get call collection) := by
  refine .still fun v after h => ?_
  obtain ⟨name, _, hname, h⟩ := ok_of_bind h
  obtain ⟨rfl, -⟩ := ok_of_stringArg hname
  obtain ⟨members, _, hmembers, h⟩ := ok_of_bind h
  obtain ⟨rfl, -⟩ := ok_of_membersOf hmembers
  obtain ⟨member, _, hmember, h⟩ := ok_of_bind h
  obtain ⟨rfl, -⟩ := ok_of_existing hmember
  cases h
  exact ⟨rfl, trivial⟩

/-- Of the methods, reading a member and projecting one are idle. -/
theorem idle_run (call : MethodCall) {method : Method} {modules : List Host.Module}
    (hmethod : ∀ edit, method = .edit edit → (Effect.edits edit).Idle modules)
    (happly : ∀ span node name args,
      IdleWith (· = node) setting visible run (apply span node name args)) :
    Idle setting visible run (Edits.run apply call method) := by
  cases method with
  | get collection => exact idle_get call collection
  | edit edit =>
    cases edit with
    | project collection => exact idle_project call collection happly
    | add | delete | rename | setType | setReturnType => exact (hmethod _ rfl).elim

end Edits

/-! ### Evaluation -/

/-- **An evaluator that is idle** on bodies without edits: such expressions and blocks change
nothing, and an application to a node leads to it. -/
structure Evaluator.Idle (ev : Evaluator) (setting : Setting) : Prop where
  expr : ∀ {visible : Nat} {run : Run} (e : Expr),
    (∀ effect ∈ e.effects, effect.Idle (setting.hosts.take visible)) →
      Eval.Idle setting visible run (ev.expr e)
  block : ∀ {visible : Nat} {run : Run} (b : Block),
    (∀ effect ∈ b.effects, effect.Idle (setting.hosts.take visible)) →
      Eval.Idle setting visible run (ev.block b)
  apply : ∀ {visible : Nat} {run : Run} (node : NodeId), ∀ p ∈ setting.declarations.projections,
    ∀ (direction : Direction) (args : List Value),
      Eval.IdleWith (· = node) setting visible run (ev.apply node p direction args)

namespace Evaluation

open Eval

variable {setting : Setting} {visible : Nat} {run : Run}

theorem idle_resolve (word : Word) : Idle setting visible run (resolve word) := by
  refine Idle.activation.bind fun a _ _ => ?_
  split
  · exact Idle.pure _
  split
  · exact Idle.pure _
  split
  · exact Idle.pure _
  refine Idle.graph.bind fun g _ _ => ?_
  split
  · exact Idle.pure _
  refine Idle.read.bind fun s _ _ => ?_
  split
  · exact Idle.pure _
  · exact Idle.fail _ _

theorem idle_field (word : Word) (target : Operand) :
    Idle setting visible run (field word target) := by
  unfold field
  dsimp only
  split
  · refine Idle.graph.bind fun g _ _ => ?_
    split
    · exact Idle.pure _
    · exact Idle.fail _ _
  · split
    · exact Idle.pure _
    · exact Idle.fail _ _
  · exact Idle.fail _ _
  · split
    · exact Idle.pure _
    · exact Idle.fail _ _
  · exact Idle.fail _ _

/-- **A function that writes nothing** leaves the state as it is. -/
theorem idle_callHost (word : Word) (args : List Value)
    (hsilent : (Effect.calls word.text).Idle (setting.hosts.take visible)) :
    Idle setting visible run (callHost .function word args) := by
  intro hready v after h
  obtain ⟨a, rest, f, metadata, hstack, hfound, hcall, rfl⟩ := ok_of_callHost h
  -- the activation sees the modules of which silence is known
  rw [hready.sees a (hstack ▸ rfl)] at hfound
  have hwritten := hsilent f hfound args run.graph run.metadata
  have hcall : ((f args).run run.graph).run run.metadata = .ok v metadata := hcall
  rw [Host.Function.metadataAfter, hcall] at hwritten
  dsimp only at hwritten
  rw [hwritten]
  exact ⟨trivial, hready.still, rfl⟩

/-! ### Values -/

variable {ev : Evaluator} (hev : ev.Idle setting)
include hev

theorem idle_value (e : Expr)
    (he : ∀ effect ∈ e.effects, effect.Idle (setting.hosts.take visible)) :
    Idle setting visible run (value ev e) := by
  refine (hev.expr e he).bind fun operand _ _ => ?_
  split
  · exact Idle.pure _
  · exact Idle.fail _ _
  · exact Idle.fail _ _

omit hev in
theorem effects_of_mem {e : Expr} {es : List Expr} (he : e ∈ es) {effect : Effect}
    (h : effect ∈ e.effects) : effect ∈ Expr.allEffects es := by
  induction es with
  | nil => cases he
  | cons d rest ih =>
    rw [Expr.allEffects]
    cases he with
    | head => exact List.mem_append_left _ h
    | tail _ hrest => exact List.mem_append_right _ (ih hrest)

theorem idle_values (es : List Expr)
    (hes : ∀ effect ∈ Expr.allEffects es, effect.Idle (setting.hosts.take visible)) :
    Idle setting visible run (values ev es) :=
  Idle.mapM es fun e he => idle_value hev e fun effect h => hes effect (effects_of_mem he h)

theorem idle_truth (e : Expr)
    (he : ∀ effect ∈ e.effects, effect.Idle (setting.hosts.take visible)) :
    Idle setting visible run (truth ev e) :=
  (hev.expr e he).bind fun _ _ _ => Idle.graph.bind fun _ _ _ => Idle.pure _

/-! ### Applications -/

theorem idle_applyNamed (span : Span) (node : NodeId) (name : String) (args : List Value) :
    IdleWith (· = node) setting visible run (applyNamed ev span node name args) := by
  refine Idle.read.bind fun s _ hs => ?_
  subst hs
  dsimp only
  split
  · exact Idle.fail_bind _ _ _
  refine Idle.get.bind fun start _ _ => ?_
  refine Idle.graph.bind fun g _ _ => ?_
  split
  · next p hp => exact hev.apply node p (List.mem_of_find?_eq_some hp) _ _
  · exact .still fun _ _ h => by cases h; exact ⟨rfl, rfl⟩

/-- **An application to a node leads to that node**: it is known to from before, or the body is run
and leaves the activation as it was opened. -/
theorem idle_apply (hidle : setting.declarations.Idle setting.hosts) (node : NodeId)
    (p : Projection) (hp : p ∈ setting.declarations.projections) (direction : Direction)
    (args : List Value) :
    IdleWith (· = node) setting visible run (Evaluation.apply ev node p direction args) := by
  intro hready result after h
  obtain ⟨tree, htree, ⟨rfl, entry, hentry, hknown⟩ | ⟨flow, finished, a, rest, hblock, hstack,
    rfl, rfl⟩⟩ := ok_of_apply h
  · refine ⟨?_, hready.still, rfl⟩
    rcases hknown with rfl | ⟨-, rfl⟩
    · exact hready.still _ _ hentry
    · rfl
  · have hentered : Run.AtRest p.hostCount (Run.entered
        { run with memo := run.memo.insert ⟨node, p.id, direction, args⟩ .active }
        node p direction tree args) :=
      ⟨hready.still.insert fun _ h => (nomatch h), fun b hb => by cases hb; rfl⟩
    have hbody : ∀ effect ∈ tree.body.effects, effect.Idle (setting.hosts.take p.hostCount) :=
      fun effect h => hidle p hp effect (p.effects_of_direction? htree h)
    obtain ⟨-, hstill, hfinished⟩ := hev.block tree.body hbody hentered flow finished hblock
    -- the activation is the one that was entered, and its node the one it was entered with
    rw [hfinished] at hstack
    cases hstack
    refine ⟨rfl, hstill.insert fun result h => (MemoEntry.done.inj h).symm, ?_⟩
    rw [hfinished]
    rfl

/-! ### Calls -/

theorem idle_forItems (params : List Word) (body : Block)
    (hbody : ∀ effect ∈ body.effects, effect.Idle (setting.hosts.take visible)) (position : Nat)
    (items : List NodeId) : Idle setting visible run (forItems ev params body position items) := by
  induction items generalizing run position with
  | nil => exact Idle.pure _
  | cons item rest ih =>
    rw [forItems_cons]
    refine (Idle.inRound (hev.block body hbody)).bind fun flow _ _ => ?_
    cases flow with
    | returned => exact Idle.pure _
    | proceed => exact ih _

theorem idle_forEach (span : Span) (items : List NodeId) (args : List Expr)
    (hargs : ∀ effect ∈ Expr.allEffects args, effect.Idle (setting.hosts.take visible)) :
    Idle setting visible run (forEach ev span items args) := by
  unfold forEach
  split
  · next lambdaSpan params body =>
    have hbody : ∀ effect ∈ body.effects, effect.Idle (setting.hosts.take visible) :=
      fun effect h => hargs effect (List.mem_append_left _ h)
    rw [discard_eq]
    exact (idle_forItems hev params body hbody 0 items).bind fun _ _ _ => Idle.pure _
  · exact Idle.fail _ _
  · exact Idle.fail _ _

theorem idle_callMethod (span : Span) (receiver : Operand) (method : Word) (args : List Expr)
    (hmethod : ∀ edit, Method.ofName? method.text = some (.edit edit) →
      (Effect.edits edit).Idle (setting.hosts.take visible))
    (hargs : ∀ effect ∈ Expr.allEffects args, effect.Idle (setting.hosts.take visible)) :
    Idle setting visible run (callMethod ev span receiver method args) := by
  unfold callMethod
  dsimp only
  split
  · split
    · exact (idle_forEach hev span _ args hargs).bind fun _ _ _ => Idle.pure _
    · exact Idle.fail _ _
  · split
    · split
      · exact Idle.pure _
      · exact Idle.fail _ _
    · exact Idle.fail _ _
  · split
    · next m hm =>
      have hoperands : Idle setting visible run (args.mapM ev.expr) :=
        Idle.mapM args fun e he => hev.expr e fun effect h => hargs effect (effects_of_mem he h)
      refine hoperands.bind fun operands _ _ => ?_
      refine (Edits.idle_run _ (fun edit h => hmethod edit (h ▸ hm)) ?_).bind
        fun _ _ _ => Idle.pure _
      exact idle_applyNamed hev
    · exact (Idle.describe _).bind fun _ _ _ => Idle.fail _ _
  · exact Idle.fail _ _
  · exact Idle.fail _ _

theorem idle_call (span : Span) (callee : Expr) (args : List Expr)
    (heffects : ∀ effect ∈ (Expr.call span callee args).effects,
      effect.Idle (setting.hosts.take visible)) :
    Idle setting visible run (call ev span callee args) := by
  rw [Expr.effects] at heffects
  obtain ⟨hcalled, heffects⟩ := List.forall_mem_append.mp heffects
  obtain ⟨hcallee, hargs⟩ := List.forall_mem_append.mp heffects
  cases callee with
  | name word =>
    refine (idle_values hev args hargs).bind fun vs _ _ => ?_
    refine (idle_callHost word vs ?_).bind fun _ _ _ => Idle.pure _
    exact hcalled _ List.mem_cons_self
  | member memberSpan target method =>
    refine IdleWith.bind (hev.expr target hcallee) fun receiver _ _ => ?_
    refine idle_callMethod hev span receiver method args (fun edit hm => hcalled _ ?_) hargs
    rw [Expr.callEffects, hm]
    exact List.mem_cons_self
  | literal | call | decorator | project | lambda | unary | binary => exact Idle.fail _ _

/-! ### Expressions -/

theorem idle_unary (span : Span) (op : UnaryOp) (operand : Expr)
    (he : ∀ effect ∈ operand.effects, effect.Idle (setting.hosts.take visible)) :
    Idle setting visible run (unary ev span op operand) := by
  refine (hev.expr operand he).bind fun result _ _ => ?_
  split
  · exact Idle.graph.bind fun _ _ _ => Idle.pure _
  · exact Idle.pure _
  · exact Idle.fail _ _

theorem idle_binary (span : Span) (op : BinaryOp) (lhs rhs : Expr)
    (hlhs : ∀ effect ∈ lhs.effects, effect.Idle (setting.hosts.take visible))
    (hrhs : ∀ effect ∈ rhs.effects, effect.Idle (setting.hosts.take visible)) :
    Idle setting visible run (binary ev span op lhs rhs) := by
  unfold binary
  split
  · refine (idle_value hev lhs hlhs).bind fun a _ _ => ?_
    refine (idle_value hev rhs hrhs).bind fun b _ _ => ?_
    split
    · exact Idle.pure _
    · exact Idle.fail _ _
  · refine (idle_value hev lhs hlhs).bind fun a _ _ => ?_
    refine (idle_value hev rhs hrhs).bind fun b _ _ => ?_
    split
    · exact Idle.pure _
    · exact Idle.fail _ _
  · refine (idle_truth hev lhs hlhs).bind fun a _ _ => ?_
    split
    · exact Idle.pure _
    · exact (idle_truth hev rhs hrhs).bind fun _ _ _ => Idle.pure _

theorem idle_expr (e : Expr)
    (he : ∀ effect ∈ e.effects, effect.Idle (setting.hosts.take visible)) :
    Idle setting visible run (expr ev e) := by
  cases e with
  | literal span literal => exact Idle.pure _
  | name word => exact idle_resolve word
  | member span target word =>
    exact (hev.expr target he).bind fun operand _ _ => idle_field word operand
  | call span callee args => exact idle_call hev span callee args he
  | decorator span name args => exact (he _ List.mem_cons_self).elim
  | project span target name args =>
    obtain ⟨htarget, hargs⟩ := List.forall_mem_append.mp he
    refine (idle_value hev target htarget).bind fun v _ _ => ?_
    split
    · refine (idle_values hev args hargs).bind fun vs _ _ => ?_
      exact (idle_applyNamed hev _ _ _ _).bind fun _ _ _ => Idle.pure _
    · exact Idle.fail _ _
  | lambda span params body => exact Idle.fail _ _
  | unary span op operand =>
    exact (idle_unary hev span op operand he).bind fun _ _ _ => Idle.pure _
  | binary span op lhs rhs =>
    obtain ⟨hlhs, hrhs⟩ := List.forall_mem_append.mp he
    exact (idle_binary hev span op lhs rhs hlhs hrhs).bind fun _ _ _ => Idle.pure _

/-! ### Statements and blocks -/

theorem idle_stmt (s : Stmt)
    (hs : ∀ effect ∈ s.effects, effect.Idle (setting.hosts.take visible)) :
    Idle setting visible run (stmt ev s) := by
  cases s with
  | expr span e =>
    rw [stmt, discard_eq]
    refine IdleWith.bind ((hev.expr e hs).bind fun _ _ _ => Idle.pure _) fun _ _ _ => ?_
    exact Idle.activation.bind fun a _ _ => Idle.pure _
  | cond span test body otherwise =>
    cases otherwise with
    | none =>
      obtain ⟨htest, hbody⟩ := List.forall_mem_append.mp hs
      refine (idle_truth hev test htest).bind fun holds _ _ => ?_
      split
      · exact hev.block body hbody
      · exact Idle.pure _
    | some alternative =>
      obtain ⟨htest, hblocks⟩ := List.forall_mem_append.mp hs
      obtain ⟨hbody, halternative⟩ := List.forall_mem_append.mp hblocks
      refine (idle_truth hev test htest).bind fun holds _ _ => ?_
      split
      · exact hev.block body hbody
      · exact hev.block alternative halternative
  | ret span e => exact (hs _ List.mem_cons_self).elim

theorem idle_stmts (ss : List Stmt)
    (hss : ∀ effect ∈ Stmt.allEffects ss, effect.Idle (setting.hosts.take visible)) :
    Idle setting visible run (stmts ev ss) := by
  induction ss generalizing run with
  | nil => exact Idle.pure _
  | cons s rest ih =>
    obtain ⟨hs, hrest⟩ := List.forall_mem_append.mp hss
    refine (idle_stmt hev s hs).bind fun flow _ _ => ?_
    cases flow with
    | returned => exact Idle.pure _
    | proceed => exact ih hrest

theorem idle_block (b : Block)
    (hb : ∀ effect ∈ b.effects, effect.Idle (setting.hosts.take visible)) :
    Idle setting visible run (block ev b) := by
  rw [block_eq]
  cases b with
  | mk span stmts => exact Idle.inFrame (idle_stmts hev stmts hb)

end Evaluation

/-- **Evaluation is idle** at every level, if all that is declared is. -/
theorem evaluator_idle {setting : Setting} (hidle : setting.declarations.Idle setting.hosts)
    (levels : Nat) : (evaluator levels).Idle setting := by
  induction levels with
  | zero =>
    exact ⟨fun _ _ => Eval.Idle.failWith _ _, fun _ _ => Eval.Idle.failWith _ _,
      fun _ _ _ _ _ => Eval.Idle.failWith _ _⟩
  | succ levels ih =>
    rw [evaluator_succ]
    exact ⟨Evaluation.idle_expr ih, Evaluation.idle_block ih, Evaluation.idle_apply ih hidle⟩

/-! ### Whole runs -/

/-- **A run without edits** that succeeds leads to its node and changes nothing but the memo. -/
theorem Run.idle_projectNode {setting : Setting}
    (hidle : setting.declarations.Idle setting.hosts) {g : Graph} {m : Metadata}
    {trace : Option (List Instruction)} {node result : NodeId} {handle : Handle}
    {args : List Value} {after : Run}
    (h : (Eval.projectNode node handle args).result setting (start g m trace) = .ok result after) :
    result = node ∧ ∃ memo, after = { start g m trace with memo } := by
  have hrun : Eval.IdleWith (· = node) setting 0 (start g m trace)
      (Eval.projectNode node handle args) := by
    refine Eval.Idle.graph.bind fun g _ _ => ?_
    dsimp only
    split
    · exact Eval.Idle.failWith_bind _ _ _
    refine Eval.Idle.read.bind fun s _ hs => ?_
    subst hs
    split
    · exact Eval.Idle.failWith _ _
    · next p hp =>
      refine Eval.Idle.read.bind fun s _ hs => ?_
      subst hs
      exact (evaluator_idle hidle _).apply node p (List.mem_of_getElem? hp) _ _
  have hready : Run.AtRest 0 (start g m trace) := ⟨Memo.still_empty, fun _ h => nomatch h⟩
  obtain ⟨hresult, -, hafter⟩ := hrun hready result after h
  exact ⟨hresult, after.memo, hafter⟩

end SchemaProjection
