import SchemaProjection.Proofs.Run.Moves
import SchemaProjection.Run.Evaluation

/-!
# Frames and activations around a step

Evaluation opens a frame for a block and for each round of a loop, and an activation for each
application, and closes them after the step inside. The brackets are written by hand where they are
used. Here they get names:

* `Eval.inFrame frame x` runs `x` with one more frame, which is closed if `x` succeeds. Blocks are
  such steps (`Evaluation.block_eq`);
* `Eval.inRound frame x` closes the frame even if `x` fails, as the rounds of loops do
  (`Evaluation.forItems_cons`);
* `Eval.inActivation a x` runs `x` in an activation of its own, which is closed even if `x` fails.
  An application enters a body in this way (`Evaluation.enter_eq`).

A step that keeps the stack finds the frame and the activation that were opened for it on top when
it is done, so that closing them leads back to the stack before (`Eval.Steps.inFrame`,
`Eval.Steps.inRound`, `Eval.Steps.inActivation`). A step that fails may leave frames open on top of
the one that was opened for it, but no activation. So there is something to close after a failure
as well, and an application that fails leaves the stack as it was
(`Eval.result_inActivation_error`).
-/

namespace SchemaProjection

/-- An activation with one more frame. -/
def Activation.pushFrame (frame : Frame) (a : Activation) : Activation :=
  { a with frames := frame :: a.frames }

/-- All activations have the frame of their parameters. -/
def Run.Framed (run : Run) : Prop := ∀ a ∈ run.activations, a.frames ≠ []

theorem Run.framed_iff {run : Run} {a : Activation} {rest : List Activation}
    (hstack : run.activations = a :: rest) :
    run.Framed ↔ a.frames ≠ [] ∧ ∀ b ∈ rest, b.frames ≠ [] := by
  rw [Framed, hstack]
  exact List.forall_mem_cons

theorem Run.Framed.head {run : Run} (h : run.Framed) (a : Activation) (rest : List Activation)
    (hstack : run.activations = a :: rest) : a.frames ≠ [] := ((framed_iff hstack).mp h).1

/-- Frames left open on top of one that was opened are on top of the ones below it as well. -/
theorem Activation.StackLeft.below {mayReturn : Bool} {a : Activation} {frame : Frame}
    {rest s : List Activation} (h : StackLeft mayReturn (a.pushFrame frame :: rest) s) :
    StackLeft mayReturn (a :: rest) s := by
  obtain ⟨b, rfl, hb⟩ := h
  have hsuffix : a.frames <:+ b.frames := (List.suffix_cons frame a.frames).trans hb.frames
  exact ⟨b, rfl, hb.depth, hb.direction, hb.hostCount, hsuffix, hb.returning⟩

/-- **How closing fails**: there is no activation, or it has no frame but that of its parameters. -/
inductive Failure.OfClosing : Failure → Prop
  | noActivation : OfClosing ⟨.internal .noActivation, none⟩
  | activation : OfClosing ⟨.internal .activationUnderflow, none⟩
  | frame : OfClosing ⟨.internal .frameUnderflow, none⟩

namespace Eval

variable {setting : Setting} {run after : Run} {mayReturn : Bool} {α β γ : Type}

/-- A step with a frame of its own, which is closed if the step succeeds. -/
def inFrame (frame : Frame) (x : Eval α) : Eval α := do
  modifyActivation (Activation.pushFrame frame)
  let result ← x
  popFrame
  return result

/-- A step with a frame of its own, which is closed even if the step fails. -/
def inRound (frame : Frame) (x : Eval α) : Eval α := do
  modifyActivation (Activation.pushFrame frame)
  let (result, _) ← closing x popFrame
  return result

/-- A step in an activation of its own, of which the node is the result. The activation is closed
even if the step fails. -/
def inActivation (a : Activation) (x : Eval α) : Eval NodeId := do
  pushActivation a
  let (_, b) ← closing x popActivation
  return b.self

theorem discard_eq (x : Eval α) : discard x = x >>= fun _ => pure () := by
  have hmap : discard x = (fun _ => ()) <$> x := rfl
  rw [hmap, map_eq_pure_bind]

end Eval

namespace Evaluation

variable (ev : Evaluator)

/-- The bindings of a loop body: the item and its position. -/
def itemFrame (params : List Word) (item : NodeId) (position : Nat) : Frame :=
  match params with
  | [] => []
  | [p] => [(p.text, .type item)]
  | p :: q :: _ => [(q.text, .number (.ofNat position)), (p.text, .type item)]

theorem block_eq (b : Block) : block ev b = Eval.inFrame [] (stmts ev b.stmts) := rfl

private theorem bindItem_eq (params : List Word) (item : NodeId) (position : Nat) :
    (Eval.pushFrame >>= fun _ => bindItem params item position) =
      Eval.modifyActivation (Activation.pushFrame (itemFrame params item position)) := by
  funext setting run
  obtain ⟨graph, metadata, activations, memo, trace, watermark⟩ := run
  cases activations with
  | nil => rfl
  | cons a rest =>
    match params with
    | [] => rfl
    | [p] => rfl
    | p :: q :: more => rfl

private theorem inRound_item_bind {α β : Type} (params : List Word) (item : NodeId) (position : Nat)
    (x : Eval α) (f : α → Eval β) :
    Eval.inRound (itemFrame params item position) x >>= f =
      Eval.pushFrame >>= fun _ => bindItem params item position >>= fun _ =>
        Eval.closing x Eval.popFrame >>= fun closed => f closed.1 := by
  rw [Eval.inRound, ← bindItem_eq]
  simp only [bind_assoc, pure_bind]

theorem forItems_cons (params : List Word) (body : Block) (position : Nat) (item : NodeId)
    (rest : List NodeId) :
    forItems ev params body position (item :: rest) =
      (Eval.inRound (itemFrame params item position) (ev.block body) >>= fun flow =>
        match flow with
        | .returned => return .returned
        | .proceed => forItems ev params body (position + 1) rest) := by
  rw [inRound_item_bind]
  rfl

theorem enter_eq (node : NodeId) (projection : Projection) (direction : Direction)
    (tree : DirectionTree) (args : List Value) :
    enter ev node projection direction tree args =
      (get >>= fun run => Eval.inActivation
        (.start (run.depth + 1) node direction projection.hostCount (bindings tree.params args))
        (ev.block tree.body)) := rfl

end Evaluation

namespace Eval

variable {setting : Setting} {run after : Run} {mayReturn : Bool} {α β γ : Type}

/-! ### What opening and closing come to -/

theorem result_popFrame {a : Activation} {rest : List Activation} {frame outer : Frame}
    {frames : List Frame} (hstack : run.activations = a :: rest)
    (hframes : a.frames = frame :: outer :: frames) :
    popFrame.result setting run =
      .ok () { run with activations := { a with frames := outer :: frames } :: rest } := by
  obtain ⟨graph, metadata, activations, memo, trace, watermark⟩ := run
  obtain ⟨depth, self, direction, hostCount, returning, frames'⟩ := a
  cases hstack
  cases hframes
  rfl

/-- The frame of the parameters stays. -/
theorem result_popFrame_last {a : Activation} {rest : List Activation} {frame : Frame}
    (hstack : run.activations = a :: rest) (hframes : a.frames = [frame]) :
    popFrame.result setting run = .error ⟨.internal .frameUnderflow, none⟩ run := by
  obtain ⟨graph, metadata, activations, memo, trace, watermark⟩ := run
  obtain ⟨depth, self, direction, hostCount, returning, frames'⟩ := a
  cases hstack
  cases hframes
  rfl

theorem result_pushActivation (a : Activation) :
    (pushActivation a).result setting run =
      .ok () { run with activations := a :: run.activations } := rfl

theorem result_popActivation {a : Activation} {rest : List Activation}
    (hstack : run.activations = a :: rest) :
    popActivation.result setting run = .ok a { run with activations := rest } := by
  obtain ⟨graph, metadata, activations, memo, trace, watermark⟩ := run
  cases hstack
  rfl

theorem result_popActivation_nil (hstack : run.activations = []) :
    popActivation.result setting run = .error ⟨.internal .activationUnderflow, none⟩ run := by
  obtain ⟨graph, metadata, activations, memo, trace, watermark⟩ := run
  cases hstack
  rfl

/-- A frame that is closed is one of the innermost activation. -/
theorem ok_of_popFrame {after : Run} (h : popFrame.result setting run = .ok () after) :
    ∃ a rest frames, run.activations = a :: rest ∧
      after = { run with activations := { a with frames } :: rest } := by
  obtain ⟨a, _, hactivation, hclose⟩ := ok_of_bind h
  obtain ⟨rfl, rest, hstack⟩ := ok_of_activation hactivation
  split at hclose
  · rw [result_modifyActivation, hstack] at hclose
    cases hclose
    exact ⟨a, rest, _, hstack, rfl⟩
  · cases hclose

theorem ofClosing_of_popFrame {failure : Failure}
    (h : popFrame.result setting run = .error failure after) : failure.OfClosing := by
  rcases error_of_bind h with hactivation | ⟨a, _, hactivation, hclose⟩
  · rw [result_activation] at hactivation
    split at hactivation <;> cases hactivation
    exact .noActivation
  · obtain ⟨rfl, rest, hstack⟩ := ok_of_activation hactivation
    split at hclose
    · rw [result_modifyActivation, hstack] at hclose
      cases hclose
    · cases hclose
      exact .frame

theorem ofClosing_of_popActivation {failure : Failure}
    (h : popActivation.result setting run = .error failure after) : failure.OfClosing := by
  cases hstack : run.activations with
  | nil =>
    rw [result_popActivation_nil hstack] at h
    cases h
    exact .activation
  | cons a rest =>
    rw [result_popActivation hstack] at h
    cases h

/-! ### Closing after a failure -/

/-- **After a failure inside there is a frame to close**: the one that was opened, or one that was
left open on top of it. Only if there was no frame before, it may be the last one. -/
theorem result_popFrame_of_left {a : Activation} {rest : List Activation} {frame : Frame}
    {middle : Run}
    (hleft : Activation.StackLeft mayReturn (a.pushFrame frame :: rest) middle.activations) :
    (∃ b, popFrame.result setting middle = .ok () { middle with activations := b :: rest } ∧
      a.Left mayReturn b) ∨
    (a.frames = [] ∧
      popFrame.result setting middle = .error ⟨.internal .frameUnderflow, none⟩ middle) := by
  obtain ⟨b, hb, hleft⟩ := hleft
  have hsuffix : frame :: a.frames <:+ b.frames := hleft.frames
  have hbelow : a.frames <:+ frame :: a.frames := List.suffix_cons frame a.frames
  match hframes : b.frames with
  | [] =>
    rw [hframes] at hsuffix
    cases List.suffix_nil.mp hsuffix
  | [last] =>
    rw [hframes] at hsuffix
    have hnil : a.frames = [] := by simpa using hsuffix.length_le
    exact .inr ⟨hnil, result_popFrame_last hb hframes⟩
  | top :: outer :: frames =>
    rw [hframes] at hsuffix
    refine .inl ⟨_, result_popFrame hb hframes, hleft.depth, hleft.direction, hleft.hostCount, ?_,
      hleft.returning⟩
    rcases List.suffix_cons_iff.mp hsuffix with hsame | hdeeper
    · exact (List.cons.inj hsame).2 ▸ List.suffix_refl _
    · exact hbelow.trans hdeeper

/-- **After any step inside** closing the frame leaves the stack as it was outside. -/
theorem left_popFrame {a : Activation} {rest : List Activation} {frame : Frame} {middle : Run}
    (hleft : Activation.StackLeft mayReturn (a.pushFrame frame :: rest) middle.activations) :
    middle.Reaches setting (popFrame.stateAfter setting middle) ∧
      Activation.StackLeft mayReturn (a :: rest)
        (popFrame.stateAfter setting middle).activations := by
  unfold stateAfter
  rcases result_popFrame_of_left hleft with ⟨b, hpop, hb⟩ | ⟨-, hpop⟩
  · rw [hpop]
    exact ⟨(Run.Move.stack _ _).reaches, b, rfl, hb⟩
  · rw [hpop]
    exact ⟨.refl _, hleft.below⟩

/-- A round succeeds exactly if a step with a frame does. -/
theorem ok_inRound_iff {frame : Frame} {x : Eval α} {a : α} :
    (inRound frame x).result setting run = .ok a after ↔
      (inFrame frame x).result setting run = .ok a after := by
  constructor
  · intro h
    obtain ⟨_, opened, hopen, h⟩ := ok_of_bind h
    obtain ⟨⟨b, _⟩, last, hclosing, hresult⟩ := ok_of_bind h
    rw [result_closing] at hclosing
    obtain ⟨middle, hx, hclose⟩ := ok_of_closed hclosing
    rw [inFrame, result_bind_of_ok hopen, result_bind_of_ok hx, result_bind_of_ok hclose]
    exact hresult
  · intro h
    obtain ⟨_, opened, hopen, h⟩ := ok_of_bind h
    obtain ⟨b, middle, hx, h⟩ := ok_of_bind h
    obtain ⟨_, last, hclose, hresult⟩ := ok_of_bind h
    have hclosing : (closing x popFrame).result setting opened = .ok (b, ()) last := by
      rw [result_closing, hx, closed_ok hclose]
    rw [inRound, result_bind_of_ok hopen, result_bind_of_ok hclosing]
    exact hresult

/-- What a step comes to, leaving aside the state after a failure. -/
def outcome : EStateM.Result Failure Run α → Except Failure (α × Run)
  | .ok a after => .ok (a, after)
  | .error failure _ => .error failure

theorem error_of_outcome {ending : EStateM.Result Failure Run α} {failure : Failure}
    (h : outcome ending = .error failure) : ∃ after, ending = .error failure after := by
  cases ending with
  | ok a after => cases h
  | error failure' after =>
    cases h
    exact ⟨after, rfl⟩

/-- If closing succeeds after a failure, too, it makes no difference whether it is tried. -/
theorem outcome_closing {x : Eval α} {close : Eval β} {f : α × β → Eval γ}
    (hclose : ∀ failure middle, x.result setting run = .error failure middle →
      ∃ b after, close.result setting middle = .ok b after) :
    outcome ((closing x close >>= f).result setting run) =
      outcome ((x >>= fun a => close >>= fun b => f (a, b)).result setting run) := by
  rw [result_bind, result_bind, result_closing]
  cases hx : x.result setting run with
  | ok a middle =>
    dsimp only
    rw [result_bind, closed]
    cases close.result setting middle <;> rfl
  | error failure middle =>
    obtain ⟨b, after, hclose⟩ := hclose failure middle hx
    rw [closed_error hclose]
    rfl

/-- **A round comes to what a step with a frame comes to**, if there is a frame to go back to. -/
theorem outcome_inRound {frame : Frame} {x : Eval α}
    (hframes : ∀ a rest, run.activations = a :: rest → a.frames ≠ [])
    (hx : ∀ {run : Run}, Steps setting run mayReturn x) :
    outcome ((inRound frame x).result setting run) =
      outcome ((inFrame frame x).result setting run) := by
  rw [inRound, inFrame, result_bind, result_bind, result_modifyActivation]
  cases hstack : run.activations with
  | nil => rfl
  | cons a rest =>
    refine outcome_closing fun failure middle hfails => ?_
    rcases result_popFrame_of_left (hx.left hfails) with ⟨b, hpop, -⟩ | ⟨hnil, -⟩
    · exact ⟨_, _, hpop⟩
    · exact absurd hnil (hframes a rest hstack)

section

variable {a : Activation} {x : Eval α} {middle : Run}
  (hx : ∀ {run : Run}, Steps setting run mayReturn x)
include hx

/-- **What succeeds in an activation of its own** leaves the stack as it was, and the result is the
node of the activation. -/
theorem result_inActivation_ok {v : α}
    (hok : x.result setting { run with activations := a :: run.activations } = .ok v middle) :
    ∃ b, middle.activations = b :: run.activations ∧
      (inActivation a x).result setting run =
        .ok b.self { middle with activations := run.activations } := by
  obtain ⟨b, hb, -⟩ := hx.kept hok
  refine ⟨b, hb, ?_⟩
  rw [inActivation, result_bind_of_ok (result_pushActivation a), result_bind, result_closing, hok,
    closed_ok (result_popActivation hb)]
  rfl

/-- **What fails there** leaves the stack as it was, too. -/
theorem result_inActivation_error {failure : Failure}
    (herror : x.result setting { run with activations := a :: run.activations } =
      .error failure middle) :
    (inActivation a x).result setting run =
      .error failure { middle with activations := run.activations } := by
  obtain ⟨b, hb, -⟩ := hx.left herror
  rw [inActivation, result_bind_of_ok (result_pushActivation a), result_bind, result_closing,
    herror, closed_error (result_popActivation hb)]

end

theorem outcome_inActivation {a : Activation} {x : Eval α}
    (hx : ∀ {run : Run}, Steps setting run mayReturn x) :
    outcome ((inActivation a x).result setting run) =
      outcome ((pushActivation a >>= fun _ => x >>= fun _ => popActivation >>= fun b =>
        pure b.self).result setting run) := by
  rw [inActivation, result_bind_of_ok (result_pushActivation a),
    result_bind_of_ok (result_pushActivation a)]
  refine outcome_closing fun failure middle hfails => ?_
  obtain ⟨b, hb, -⟩ := hx.left hfails
  exact ⟨_, _, result_popActivation hb⟩

/-! ### Brackets as steps -/

/-- **A bracketed step keeps the stack** if the step inside does. -/
theorem Steps.inFrame {frame : Frame} {x : Eval α}
    (hx : ∀ {run : Run}, Steps setting run mayReturn x) :
    Steps setting run mayReturn (Eval.inFrame frame x) := by
  rw [Steps, StepsIf, Eval.inFrame, result_bind, result_modifyActivation]
  cases hstack : run.activations with
  | nil => exact ⟨fun _ => .refl run, hstack⟩
  | cons a rest =>
    dsimp only
    rw [result_bind]
    have hopen : run.Reaches setting _ := (Run.Move.stack run (a.pushFrame frame :: rest)).reaches
    cases hx' : x.result setting _ with
    | error e middle =>
      -- the opened frame stays in the way, but it hides nothing of what is below
      exact ⟨fun hbegun => hopen.trans (hx.of_error (hopen.begun hbegun) hx'), (hx.left hx').below⟩
    | ok v middle =>
      obtain ⟨b, hb, hkept⟩ := hx.kept hx'
      have hmoves : run.Begun → run.Reaches setting middle := fun hbegun =>
        hopen.trans (hx.of_ok (hopen.begun hbegun) hx')
      dsimp only
      rw [result_bind]
      cases hframes : a.frames with
      | nil =>
        rw [result_popFrame_last hb (hkept.frames.trans (by rw [Activation.pushFrame, hframes]))]
        exact ⟨hmoves, ((hx.kept hx').trans_left (.refl _)).below⟩
      | cons outer frames =>
        rw [result_popFrame hb (hkept.frames.trans (by rw [Activation.pushFrame, hframes]))]
        refine ⟨fun hbegun => (hmoves hbegun).trans (Run.Move.stack _ _).reaches, _, rfl, ?_⟩
        exact ⟨hkept.depth, hkept.direction, hkept.hostCount, hframes.symm, hkept.returning,
          hkept.still_returning⟩

/-- **A round keeps the stack** if the step inside does. -/
theorem Steps.inRound {frame : Frame} {x : Eval α}
    (hx : ∀ {run : Run}, Steps setting run mayReturn x) :
    Steps setting run mayReturn (Eval.inRound frame x) := by
  cases hround : (Eval.inRound frame x).result setting run with
  | ok v after =>
    -- a round that succeeds is a step with a frame
    have hframe := ok_inRound_iff.mp hround
    have hsteps : Steps setting run mayReturn (Eval.inFrame frame x) := .inFrame hx
    rw [Steps, StepsIf, hround]
    exact ⟨fun hbegun => hsteps.of_ok hbegun hframe, hsteps.kept hframe⟩
  | error failure after =>
    rw [Steps, StepsIf, hround]
    rw [Eval.inRound, result_bind, result_modifyActivation] at hround
    cases hstack : run.activations with
    | nil =>
      rw [hstack] at hround
      cases hround
      exact ⟨fun _ => .refl run, hstack⟩
    | cons a rest =>
      rw [hstack] at hround
      have hopen : run.Reaches setting { run with activations := a.pushFrame frame :: rest } :=
        (Run.Move.stack run (a.pushFrame frame :: rest)).reaches
      have hsteps : Steps setting { run with activations := a.pushFrame frame :: rest } mayReturn
        x := hx
      rcases error_of_bind hround with hclosing | ⟨_, _, -, hresult⟩
      · obtain rfl := error_of_closing hclosing
        obtain ⟨hpop, hleft⟩ := left_popFrame hsteps.left_stateAfter
        exact ⟨fun hbegun => (hopen.trans (hsteps.reaches (hopen.begun hbegun))).trans hpop, hleft⟩
      · cases hresult

/-- **An application keeps the stack**, a `return` inside included. -/
theorem Steps.inActivation {a : Activation} {x : Eval α}
    (hx : ∀ {run : Run}, Steps setting run true x) :
    Steps setting run mayReturn (Eval.inActivation a x) := by
  have hopen : run.Reaches setting { run with activations := a :: run.activations } :=
    (Run.Move.stack run (a :: run.activations)).reaches
  cases hx' : x.result setting { run with activations := a :: run.activations } with
  | error e middle =>
    rw [Steps, StepsIf, result_inActivation_error hx hx']
    refine ⟨fun hbegun => ?_, .refl _⟩
    exact (hopen.trans (hx.of_error (hopen.begun hbegun) hx')).trans (Run.Move.stack _ _).reaches
  | ok v middle =>
    obtain ⟨b, -, hresult⟩ := result_inActivation_ok hx hx'
    rw [Steps, StepsIf, hresult]
    refine ⟨fun hbegun => ?_, .refl _⟩
    exact (hopen.trans (hx.of_ok (hopen.begun hbegun) hx')).trans (Run.Move.stack _ _).reaches

end Eval

end SchemaProjection
