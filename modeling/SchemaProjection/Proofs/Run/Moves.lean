import Mathlib.Logic.Relation
import SchemaProjection.Proofs.Graph.Growth
import SchemaProjection.Proofs.Host.Standard
import SchemaProjection.Run.Basic

/-!
# Moves of a run

Everything that evaluation does to the state of a run is a sequence of **moves** (`Run.Move`): it
allocates nodes, lets host functions write metadata, and changes the stack, the memo and the trace.
What holds of each move holds of a whole run (`Run.Reaches`), so an invariant of runs needs one
case for each move and no look at the evaluator.

The stack is the exception, since pushes and pops only balance over a whole step. A step that
succeeds **keeps** the stack (`Activation.StackKept`): of the innermost activation it changes at
most the node and the flag of a `return`, and nothing below. A step that fails has closed all
activations that it has opened, so it ends in the one that it ran in, but there it may leave open
frames behind (`Activation.StackLeft`).

`Eval.Steps` says all of this of one step. This module holds the steps that all others are made
of.
-/

namespace SchemaProjection

namespace Run

variable {setting : Setting}

/-- **The moves of a run.** -/
inductive Move (setting : Setting) : Run → Run → Prop
  /-- Allocates a node without an origin. -/
  | create (run : Run) (shape : Shape) :
    Move setting run { run with graph := run.graph.push ⟨none, shape⟩ }
  /-- Allocates a changed copy of a node, of the same kind. -/
  | derive (run : Run) (id : NodeId) (shape : Shape)
    (known : run.graph.contains id ∨ id.index < run.watermark)
    (same_kind : shape.kind = run.graph.kind id) :
    Move setting run { run with graph := run.graph.push ⟨some id, shape⟩ }
  /-- Lets an export of a visible module write metadata. What a decorator is applied to is not
  older than the run, whose nodes stand from the watermark on. -/
  | host (run : Run) (visible : Nat) (sort : Host.ExportSort) (name : String) (f : Host.Function)
    (args : List Value) (found : Host.find? (setting.hosts.take visible) sort name = some f)
    (target : sort = .decorator → ∀ id, args.head? = some (.type id) → run.watermark ≤ id.index) :
    Move setting run { run with metadata := f.metadataAfter args run.graph run.metadata }
  | stack (run : Run) (activations : List Activation) : Move setting run { run with activations }
  | memo (run : Run) (memo : Memo) : Move setting run { run with memo }
  | trace (run : Run) (trace : Option (List Instruction)) : Move setting run { run with trace }

/-- Any number of moves, one after the other. -/
def Reaches (setting : Setting) : Run → Run → Prop := Relation.ReflTransGen (Move setting)

theorem Reaches.refl (run : Run) : Reaches setting run run := Relation.ReflTransGen.refl

theorem Reaches.trans {r₁ r₂ r₃ : Run} (h₁ : Reaches setting r₁ r₂) (h₂ : Reaches setting r₂ r₃) :
    Reaches setting r₁ r₃ := Relation.ReflTransGen.trans h₁ h₂

theorem Move.reaches {r₁ r₂ : Run} (h : Move setting r₁ r₂) : Reaches setting r₁ r₂ :=
  Relation.ReflTransGen.single h

/-- What every move preserves is preserved. -/
theorem Reaches.preserves {P : Run → Prop} (hmove : ∀ {r₁ r₂}, Move setting r₁ r₂ → P r₁ → P r₂)
    {r₁ r₂ : Run} (h : Reaches setting r₁ r₂) (hP : P r₁) : P r₂ := by
  induction h with
  | refl => exact hP
  | tail _ hlast ih => exact hmove hlast ih

/-- **A run only ever extends the graph**; its watermark stands. -/
theorem Reaches.extends {r₁ r₂ : Run} (h : Reaches setting r₁ r₂) :
    r₁.graph ≤ r₂.graph ∧ r₂.watermark = r₁.watermark := by
  refine h.preserves (P := fun r => r₁.graph ≤ r.graph ∧ r.watermark = r₁.watermark) ?_
    ⟨le_rfl, rfl⟩
  -- only allocation touches the graph, and nothing moves the watermark
  rintro s t hmove ⟨hle, hmark⟩
  cases hmove with
  | create shape => exact ⟨le_trans hle (Graph.le_push _ _), hmark⟩
  | derive id shape known same_kind => exact ⟨le_trans hle (Graph.le_push _ _), hmark⟩
  | host | stack | memo | trace => exact ⟨hle, hmark⟩

/-- The watermark does not stand behind the end of the graph. -/
def Begun (run : Run) : Prop := run.watermark ≤ run.graph.size

theorem Reaches.begun {r₁ r₂ : Run} (h : Reaches setting r₁ r₂) (hbegun : r₁.Begun) :
    r₂.Begun := by
  obtain ⟨hle, heq⟩ := h.extends
  rw [Begun, heq]
  exact Nat.le_trans hbegun (Graph.size_le_of_le hle)

end Run

/-! ### The stack -/

/-- What a step keeps of the activation that it runs in. It keeps the flag of a `return` as well
unless it may execute one. -/
structure Activation.Kept (mayReturn : Bool) (a b : Activation) : Prop where
  depth : b.depth = a.depth
  direction : b.direction = a.direction
  hostCount : b.hostCount = a.hostCount
  frames : b.frames = a.frames
  returning : mayReturn = false → b.returning = a.returning
  still_returning : a.returning = true → b.returning = true

/-- A stack is kept but for the node and the flag of its innermost activation. -/
def Activation.StackKept (mayReturn : Bool) : List Activation → List Activation → Prop
  | [], after => after = []
  | a :: rest, after => ∃ b, after = b :: rest ∧ a.Kept mayReturn b

/-- What a step that fails leaves of the activation that it runs in. There may be frames on top of
its own ones, and it keeps the flag of a `return` unless it may execute one. -/
structure Activation.Left (mayReturn : Bool) (a b : Activation) : Prop where
  depth : b.depth = a.depth
  direction : b.direction = a.direction
  hostCount : b.hostCount = a.hostCount
  frames : a.frames <:+ b.frames
  returning : mayReturn = false → b.returning = a.returning

/-- **What a step that fails leaves of a stack**: the innermost activation is the one that it ran
in, and nothing is changed below. -/
def Activation.StackLeft (mayReturn : Bool) : List Activation → List Activation → Prop
  | [], after => after = []
  | a :: rest, after => ∃ b, after = b :: rest ∧ a.Left mayReturn b

namespace Activation

variable {mayReturn : Bool} {a b c : Activation} {s t u : List Activation}

theorem Kept.refl (a : Activation) : a.Kept mayReturn a :=
  ⟨rfl, rfl, rfl, rfl, fun _ => rfl, id⟩

theorem Kept.trans (h₁ : a.Kept mayReturn b) (h₂ : b.Kept mayReturn c) : a.Kept mayReturn c where
  depth := h₂.depth.trans h₁.depth
  direction := h₂.direction.trans h₁.direction
  hostCount := h₂.hostCount.trans h₁.hostCount
  frames := h₂.frames.trans h₁.frames
  returning h := (h₂.returning h).trans (h₁.returning h)
  still_returning := h₂.still_returning ∘ h₁.still_returning

theorem StackKept.refl (s : List Activation) : StackKept mayReturn s s := by
  cases s with
  | nil => rfl
  | cons a rest => exact ⟨a, rfl, .refl a⟩

theorem StackKept.trans (h₁ : StackKept mayReturn s t) (h₂ : StackKept mayReturn t u) :
    StackKept mayReturn s u := by
  cases s with
  | nil =>
    cases h₁
    exact h₂
  | cons a rest =>
    obtain ⟨b, rfl, hb⟩ := h₁
    obtain ⟨c, rfl, hc⟩ := h₂
    exact ⟨c, rfl, hb.trans hc⟩

theorem Left.refl (a : Activation) : a.Left mayReturn a :=
  ⟨rfl, rfl, rfl, List.suffix_refl _, fun _ => rfl⟩

theorem Kept.trans_left (h₁ : a.Kept mayReturn b) (h₂ : b.Left mayReturn c) :
    a.Left mayReturn c where
  depth := h₂.depth.trans h₁.depth
  direction := h₂.direction.trans h₁.direction
  hostCount := h₂.hostCount.trans h₁.hostCount
  frames := h₁.frames ▸ h₂.frames
  returning h := (h₂.returning h).trans (h₁.returning h)

theorem StackLeft.refl (s : List Activation) : StackLeft mayReturn s s := by
  cases s with
  | nil => rfl
  | cons a rest => exact ⟨a, rfl, .refl a⟩

theorem StackKept.trans_left (h₁ : StackKept mayReturn s t) (h₂ : StackLeft mayReturn t u) :
    StackLeft mayReturn s u := by
  cases s with
  | nil =>
    cases h₁
    exact h₂
  | cons a rest =>
    obtain ⟨b, rfl, hb⟩ := h₁
    obtain ⟨c, rfl, hc⟩ := h₂
    exact ⟨c, rfl, hb.trans_left hc⟩

end Activation

/-! ### Steps -/

namespace Eval

variable {setting : Setting} {run after : Run} {mayReturn : Bool} {α β : Type}

/-- What a step comes to: its result or failure, and the state that it leaves. -/
def result (step : Eval α) (setting : Setting) (run : Run) : EStateM.Result Failure Run α :=
  (step.run setting).run run

/-- The state that a step leaves, whether it succeeds or fails. -/
def stateAfter (step : Eval α) (setting : Setting) (run : Run) : Run :=
  match step.result setting run with
  | .ok _ after => after
  | .error _ after => after

/-- A step keeps the stack if it succeeds, and leaves it but for open frames if it fails. It moves
under a condition. -/
def StepsIf (condition : Prop) (setting : Setting) (run : Run) (mayReturn : Bool)
    (step : Eval α) : Prop :=
  match step.result setting run with
  | .ok _ after =>
    (condition → run.Reaches setting after) ∧
      Activation.StackKept mayReturn run.activations after.activations
  | .error _ after =>
    (condition → run.Reaches setting after) ∧
      Activation.StackLeft mayReturn run.activations after.activations

/-- **One step of a run.** It keeps the stack if it succeeds, leaves it if it fails, and moves, once
the run has begun. -/
abbrev Steps (setting : Setting) (run : Run) (mayReturn : Bool) (step : Eval α) : Prop :=
  StepsIf run.Begun setting run mayReturn step

theorem result_get (setting : Setting) (run : Run) :
    (get : Eval Run).result setting run = .ok run run := rfl

theorem result_bind (x : Eval α) (f : α → Eval β) :
    (x >>= f).result setting run =
      match x.result setting run with
      | .ok a after => (f a).result setting after
      | .error e after => .error e after := by
  simp only [result, ReaderT.run_bind, EStateM.run_bind]
  cases (x.run setting).run run <;> rfl

theorem result_bind_of_ok {x : Eval α} {f : α → Eval β} {a : α}
    (h : x.result setting run = .ok a after) :
    (x >>= f).result setting run = (f a).result setting after := by
  rw [result_bind, h]

/-- What closing makes of what a step comes to. If it fails, its failure is the one that shows. -/
def closed (close : Eval β) (setting : Setting) :
    EStateM.Result Failure Run α → EStateM.Result Failure Run (α × β)
  | .ok a middle =>
    match close.result setting middle with
    | .ok b after => .ok (a, b) after
    | .error failure after => .error failure after
  | .error failure middle =>
    match close.result setting middle with
    | .ok _ after => .error failure after
    | .error failure after => .error failure after

theorem result_closing (x : Eval α) (close : Eval β) :
    (closing x close).result setting run = closed close setting (x.result setting run) := by
  simp only [closing, result, tryFinally', ReaderT.run, EStateM.run]
  cases x setting run with
  | ok a middle =>
    dsimp only [closed, result, ReaderT.run, EStateM.run]
    cases close setting middle <;> rfl
  | error failure middle =>
    dsimp only [closed, result, ReaderT.run, EStateM.run]
    cases close setting middle <;> rfl

/-- What fails with closing leaves what closing makes of the state that it is tried in. -/
theorem error_of_closing {x : Eval α} {close : Eval β} {failure : Failure}
    (h : (closing x close).result setting run = .error failure after) :
    after = close.stateAfter setting (x.stateAfter setting run) := by
  rw [result_closing] at h
  unfold stateAfter
  cases hx : x.result setting run with
  | ok a middle =>
    rw [hx, closed] at h
    cases hclose : close.result setting middle <;> rw [hclose] at h <;> cases h
    rfl
  | error failure middle =>
    rw [hx, closed] at h
    cases hclose : close.result setting middle <;> rw [hclose] at h <;> cases h <;> rfl

section

variable {close : Eval β} {a : α} {b : β} {middle : Run} {failure : Failure}

theorem closed_ok (h : close.result setting middle = .ok b after) :
    closed close setting (.ok a middle) = .ok (a, b) after := by rw [closed, h]

theorem closed_error (h : close.result setting middle = .ok b after) :
    closed close setting (.error failure middle : EStateM.Result Failure Run α) =
      .error failure after := by rw [closed, h]

/-- What is closed successfully was successful. -/
theorem ok_of_closed {ending : EStateM.Result Failure Run α}
    (h : closed close setting ending = .ok (a, b) after) :
    ∃ middle, ending = .ok a middle ∧ close.result setting middle = .ok b after := by
  cases ending with
  | ok a' middle =>
    rw [closed] at h
    cases hclose : close.result setting middle with
    | ok b' last =>
      rw [hclose] at h
      cases h
      exact ⟨middle, rfl, hclose⟩
    | error failure last =>
      rw [hclose] at h
      cases h
  | error failure middle =>
    rw [closed] at h
    cases hclose : close.result setting middle <;> rw [hclose] at h <;> cases h

end

/-- Whether a step succeeds, with a result and a state of which something holds. -/
def okAnd (p : α → Run → Bool) : EStateM.Result Failure Run α → Bool
  | .ok a after => p a after
  | .error _ _ => false

theorem of_okAnd {p : α → Run → Bool} {r : EStateM.Result Failure Run α} (h : okAnd p r) :
    ∃ a after, r = .ok a after ∧ p a after := by
  cases r with
  | ok a after => exact ⟨a, after, rfl, h⟩
  | error failure after => cases h

theorem error_of_not_okAnd {r : EStateM.Result Failure Run α}
    (h : okAnd (fun _ _ => true) r = false) : ∃ failure after, r = .error failure after := by
  cases r with
  | ok a after => cases h
  | error failure after => exact ⟨failure, after, rfl⟩

/-- A sequence of two steps succeeds if both do. -/
theorem ok_of_bind {x : Eval α} {f : α → Eval β} {b : β}
    (h : (x >>= f).result setting run = .ok b after) :
    ∃ a middle, x.result setting run = .ok a middle ∧
      (f a).result setting middle = .ok b after := by
  rw [result_bind] at h
  cases hx : x.result setting run with
  | ok a middle =>
    rw [hx] at h
    exact ⟨a, middle, rfl, h⟩
  | error e middle =>
    rw [hx] at h
    cases h

/-- A sequence of two steps fails if the first one does, or the second one after it. -/
theorem error_of_bind {x : Eval α} {f : α → Eval β} {failure : Failure}
    (h : (x >>= f).result setting run = .error failure after) :
    x.result setting run = .error failure after ∨
      ∃ a middle, x.result setting run = .ok a middle ∧
        (f a).result setting middle = .error failure after := by
  rw [result_bind] at h
  cases hx : x.result setting run with
  | ok a middle =>
    rw [hx] at h
    exact .inr ⟨a, middle, rfl, h⟩
  | error e middle =>
    rw [hx] at h
    cases h
    exact .inl rfl

section

variable {condition : Prop} {step : Eval α}

theorem StepsIf.kept {a : α} (h : StepsIf condition setting run mayReturn step)
    (hok : step.result setting run = .ok a after) :
    Activation.StackKept mayReturn run.activations after.activations := by
  rw [StepsIf, hok] at h
  exact h.2

theorem StepsIf.of_ok {a : α} (h : StepsIf condition setting run mayReturn step)
    (hcondition : condition) (hok : step.result setting run = .ok a after) :
    run.Reaches setting after := by
  rw [StepsIf, hok] at h
  exact h.1 hcondition

theorem StepsIf.of_error {e : Failure} (h : StepsIf condition setting run mayReturn step)
    (hcondition : condition) (herror : step.result setting run = .error e after) :
    run.Reaches setting after := by
  rw [StepsIf, herror] at h
  exact h.1 hcondition

theorem StepsIf.left {e : Failure} (h : StepsIf condition setting run mayReturn step)
    (herror : step.result setting run = .error e after) :
    Activation.StackLeft mayReturn run.activations after.activations := by
  rw [StepsIf, herror] at h
  exact h.2

theorem StepsIf.imp {stronger : Prop} (h : StepsIf condition setting run mayReturn step)
    (himp : stronger → condition) : StepsIf stronger setting run mayReturn step := by
  unfold StepsIf at h ⊢
  cases hstep : step.result setting run with
  | ok a after =>
    rw [hstep] at h
    exact ⟨h.1 ∘ himp, h.2⟩
  | error e after =>
    rw [hstep] at h
    exact ⟨h.1 ∘ himp, h.2⟩

/-- A step that leaves the state as it is. -/
theorem StepsIf.still {a : α} (h : step.result setting run = .ok a run) :
    StepsIf condition setting run mayReturn step := by
  rw [StepsIf, h]
  exact ⟨fun _ => .refl run, .refl _⟩

theorem StepsIf.bind {x : Eval α} {f : α → Eval β}
    (hx : StepsIf condition setting run mayReturn x)
    (hf : ∀ a after, x.result setting run = .ok a after →
      StepsIf condition setting after mayReturn (f a)) :
    StepsIf condition setting run mayReturn (x >>= f) := by
  rw [StepsIf, result_bind]
  cases hx' : x.result setting run with
  | error e after => exact ⟨fun hcondition => hx.of_error hcondition hx', hx.left hx'⟩
  | ok a middle =>
    -- the second part starts where the first one ended
    have hrest := hf a middle hx'
    dsimp only
    cases hf' : (f a).result setting middle with
    | error e after =>
      exact ⟨fun hcondition => (hx.of_ok hcondition hx').trans (hrest.of_error hcondition hf'),
        (hx.kept hx').trans_left (hrest.left hf')⟩
    | ok b after =>
      exact ⟨fun hcondition => (hx.of_ok hcondition hx').trans (hrest.of_ok hcondition hf'),
        (hx.kept hx').trans (hrest.kept hf')⟩

end

/-- However a step ends, it leaves the stack. -/
theorem StepsIf.left_stateAfter {condition : Prop} {step : Eval α}
    (h : StepsIf condition setting run mayReturn step) :
    Activation.StackLeft mayReturn run.activations (step.stateAfter setting run).activations := by
  unfold stateAfter
  cases hresult : step.result setting run with
  | ok a after => exact (h.kept hresult).trans_left (.refl _)
  | error failure after => exact h.left hresult

/-- A step moves to the state that it leaves. -/
theorem Steps.reaches {step : Eval α} (h : Steps setting run mayReturn step) (hbegun : run.Begun) :
    run.Reaches setting (step.stateAfter setting run) := by
  unfold stateAfter
  cases hresult : step.result setting run with
  | ok a after => exact h.of_ok hbegun hresult
  | error failure after => exact h.of_error hbegun hresult

theorem StepsIf.pure {condition : Prop} (a : α) :
    StepsIf condition setting run mayReturn (pure a) := .still rfl

theorem Steps.pure (a : α) : Steps setting run mayReturn (pure a) := StepsIf.pure a

/-- **Sequencing.** The second part may use what the first part came to. -/
theorem Steps.bind {x : Eval α} {f : α → Eval β} (hx : Steps setting run mayReturn x)
    (hf : ∀ a after, x.result setting run = .ok a after → Steps setting after mayReturn (f a)) :
    Steps setting run mayReturn (x >>= f) :=
  StepsIf.bind hx fun a after hok => (hf a after hok).imp fun hbegun =>
    (hx.of_ok hbegun hok).begun hbegun

theorem Steps.failWith (cause : Cause) (span : Option Span) :
    Steps setting run mayReturn (Eval.failWith cause span : Eval α) :=
  ⟨fun _ => .refl run, .refl _⟩

theorem StepsIf.fail {condition : Prop} (span : Span) (cause : Cause) :
    StepsIf condition setting run mayReturn (Eval.fail span cause : Eval α) :=
  ⟨fun _ => .refl run, .refl _⟩

theorem Steps.fail (span : Span) (cause : Cause) :
    Steps setting run mayReturn (Eval.fail span cause : Eval α) := StepsIf.fail span cause

/-- Nothing follows a failure. -/
theorem Steps.fail_bind (span : Span) (cause : Cause) (f : α → Eval β) :
    Steps setting run mayReturn (Eval.fail span cause >>= f) :=
  (Steps.fail span cause).bind fun _ _ h => nomatch h

theorem Steps.internal (fault : InternalFault) :
    Steps setting run mayReturn (Eval.internal fault : Eval α) := .failWith _ _

/-! ### Reading -/

theorem Steps.get : Steps setting run mayReturn (get : Eval Run) := .still rfl

theorem Steps.read : Steps setting run mayReturn (read : Eval Setting) := .still rfl

theorem Steps.graph : Steps setting run mayReturn Eval.graph := .still rfl

theorem Steps.describe (id : NodeId) : Steps setting run mayReturn (Eval.describe id) := .still rfl

theorem Steps.remembered? (key : MemoKey) : Steps setting run mayReturn (Eval.remembered? key) :=
  .still rfl

theorem result_activation (setting : Setting) (run : Run) :
    Eval.activation.result setting run =
      match run.activations with
      | a :: _ => .ok a run
      | [] => .error ⟨.internal .noActivation, none⟩ run := by
  obtain ⟨graph, metadata, activations, memo, trace, watermark⟩ := run
  cases activations <;> rfl

/-- Reading the innermost activation succeeds if there is one, and changes nothing. -/
theorem ok_of_activation {a : Activation} (h : Eval.activation.result setting run = .ok a after) :
    after = run ∧ ∃ rest, run.activations = a :: rest := by
  rw [result_activation] at h
  cases hstack : run.activations with
  | nil =>
    rw [hstack] at h
    cases h
  | cons b rest =>
    rw [hstack] at h
    cases h
    exact ⟨rfl, rest, rfl⟩

theorem result_modifyActivation (f : Activation → Activation) (setting : Setting) (run : Run) :
    (Eval.modifyActivation f).result setting run =
      match run.activations with
      | a :: rest => .ok () { run with activations := f a :: rest }
      | [] => .error ⟨.internal .noActivation, none⟩ run := by
  obtain ⟨graph, metadata, activations, memo, trace, watermark⟩ := run
  cases activations <;> rfl

/-! ### Changing the innermost activation -/

/-- Reading the node of the activation changes nothing. -/
theorem ok_of_self {id : NodeId} (h : Eval.self.result setting run = .ok id after) :
    after = run ∧ ∃ a rest, run.activations = a :: rest ∧ id = a.self := by
  obtain ⟨a, middle, hactivation, hid⟩ := ok_of_bind h
  obtain ⟨rfl, rest, hstack⟩ := ok_of_activation hactivation
  cases hid
  exact ⟨rfl, a, rest, hstack, rfl⟩

theorem StepsIf.activation {condition : Prop} :
    StepsIf condition setting run mayReturn Eval.activation := by
  rw [StepsIf, result_activation]
  cases hstack : run.activations with
  | nil => exact ⟨fun _ => .refl run, hstack⟩
  | cons a rest => exact ⟨fun _ => .refl run, hstack ▸ .refl _⟩

theorem Steps.activation : Steps setting run mayReturn Eval.activation := StepsIf.activation

theorem Steps.self : Steps setting run mayReturn Eval.self :=
  Steps.activation.bind fun _ _ _ => .pure _

theorem Steps.modifyActivation {f : Activation → Activation}
    (hf : ∀ a : Activation, a.Kept mayReturn (f a)) :
    Steps setting run mayReturn (Eval.modifyActivation f) := by
  rw [Steps, StepsIf, result_modifyActivation]
  cases hstack : run.activations with
  | nil => exact ⟨fun _ => .refl run, hstack⟩
  | cons a rest => exact ⟨fun _ => (Run.Move.stack run _).reaches, f a, rfl, hf a⟩

theorem Steps.setSelf (id : NodeId) : Steps setting run mayReturn (Eval.setSelf id) :=
  .modifyActivation fun _ => ⟨rfl, rfl, rfl, rfl, fun _ => rfl, fun h => h⟩

/-! ### Changing the rest of the state -/

theorem reaches_of_grown {g : Graph} (h : run.graph.Grown run.watermark g) :
    run.Reaches setting { run with graph := g } := by
  induction h with
  | refl => exact .refl run
  | create shape _ ih => exact ih.trans (Run.Move.create { run with graph := _ } shape).reaches
  | derive id shape known same_kind _ ih =>
    exact ih.trans (Run.Move.derive { run with graph := _ } id shape known same_kind).reaches

/-- The graph is the only part that building changes, also when it fails. -/
theorem result_build (setting : Setting) (run : Run) (action : Building α) :
    (build action).result setting run =
      match action.run run.graph with
      | .ok a graph => .ok a { run with graph }
      | .error fault graph => .error ⟨.internal (.graph fault), none⟩ { run with graph } := by
  rw [build, result_bind, result_get]
  dsimp only
  cases action.run run.graph <;> rfl

theorem Steps.build {action : Building α} (h : action.Grows run.watermark run.graph) :
    Steps setting run mayReturn (Eval.build action) := by
  rw [Steps, StepsIf, result_build]
  unfold Building.Grows at h
  cases haction : action.run run.graph with
  | ok a graph =>
    rw [haction] at h
    exact ⟨fun _ => reaches_of_grown h, .refl _⟩
  | error fault graph =>
    rw [haction] at h
    exact ⟨fun _ => reaches_of_grown h, .refl _⟩

theorem Steps.record (edit : Edit) (target : String) (args : List Value) :
    Steps setting run mayReturn (Eval.record edit target args) := by
  have hresult : (Eval.record edit target args).result setting run =
      .ok () (if run.depth = 1 then
        { run with trace := run.trace.map (· ++ [⟨edit, target, args⟩]) } else run) := rfl
  rw [Steps, StepsIf, hresult]
  by_cases hdepth : run.depth = 1
  · rw [if_pos hdepth]
    exact ⟨fun _ => (Run.Move.trace run _).reaches, .refl _⟩
  · rw [if_neg hdepth]
    exact ⟨fun _ => .refl run, .refl _⟩

theorem Steps.remember (key : MemoKey) (entry : MemoEntry) :
    Steps setting run mayReturn (Eval.remember key entry) :=
  ⟨fun _ => (Run.Move.memo run _).reaches, .refl _⟩

end Eval

end SchemaProjection
