import SchemaProjection.Proofs.Graph.Acceptance
import SchemaProjection.Proofs.Run.Operations

/-!
# Safe steps

A run is **sound** (`Run.Sound`) if the containers of its graph are in order and its memo is
faithful. A step is **safe** (`Eval.Safe`) if what it leads to is sound again, with the same
activations and frames, and if it fails for expected causes only (`Cause.Expected`): no stack is
empty when it is needed, the levels of evaluation suffice, and the graph refuses no edit.

There is one exception to the last. An interface may come to hold a node that is no operation, when
an operation was projected by a projection that returns, and that node may be one without a name.
Then renaming the member is refused.

A step may rely on the sound run that it starts in, so safety is stated for each run. Safe steps in
sequence are safe (`Eval.Safe.bind`), and so are safe steps between brackets
(`Eval.Safe.inFrame`, `Eval.Safe.inRound`, `Eval.Safe.inActivation`). The last two are closed after
a failure as well. That this does not fail for lack of a frame or an activation rests on what a step
that fails leaves of the stack (`Activation.StackLeft`).
-/

namespace SchemaProjection

/-- **The causes for which a run may fail.** Of the internal ones there is one, and only where the
declarations do not keep operations. -/
def Cause.Expected (d : Declarations) (base : Graph) : Cause → Prop
  | .internal (.graph (.noName _)) => ¬ d.KeepOperations base
  | .internal _ => False
  | _ => True

namespace Run

variable {setting : Setting} {base : Graph} {run after last : Run} {depth : Nat}

/-! ### Sound runs -/

/-- **A sound run**, among those that start from a given graph. -/
structure Sound (setting : Setting) (base : Graph) (run : Run) : Prop where
  above : base ≤ run.graph
  begun : run.Begun
  tidy : run.graph.Tidy (setting.declarations.Orders base)
  faithful : run.memo.Faithful setting.declarations run.graph

/-- The stack has no part in this. -/
theorem Sound.withStack (hrun : run.Sound setting base) (stack : List Activation) :
    { run with activations := stack }.Sound setting base :=
  ⟨hrun.above, hrun.begun, hrun.tidy, hrun.faithful⟩

/-- **What a safe step leads to.** -/
structure Follows (setting : Setting) (base : Graph) (run after : Run) : Prop where
  sound : after.Sound setting base
  graph : run.graph ≤ after.graph
  stack : Activation.StackKept true run.activations after.activations

namespace Follows

theorem refl (hrun : run.Sound setting base) : run.Follows setting base run :=
  ⟨hrun, le_rfl, .refl _⟩

theorem trans (h₁ : run.Follows setting base after) (h₂ : after.Follows setting base last) :
    run.Follows setting base last :=
  ⟨h₂.sound, le_trans h₁.graph h₂.graph, h₁.stack.trans h₂.stack⟩

/-- A larger tidy graph. -/
theorem grown (hrun : run.Sound setting base) {g : Graph} (hle : run.graph ≤ g)
    (htidy : g.Tidy (setting.declarations.Orders base)) :
    run.Follows setting base { run with graph := g } where
  sound := ⟨le_trans hrun.above hle, Nat.le_trans hrun.begun (Graph.size_le_of_le hle), htidy,
    hrun.faithful.mono hrun.tidy.ordered hle⟩
  graph := hle
  stack := .refl _

theorem supplied (hrun : run.Sound setting base) {g : Graph} (hs : run.graph.Supplied g) :
    run.Follows setting base { run with graph := g } :=
  grown hrun hs.extends (hrun.tidy.supplied hs)

theorem metadata (hrun : run.Sound setting base) (metadata : Metadata) :
    run.Follows setting base { run with metadata } :=
  ⟨⟨hrun.above, hrun.begun, hrun.tidy, hrun.faithful⟩, le_rfl, .refl _⟩

theorem memo (hrun : run.Sound setting base) {memo : Memo}
    (hmemo : memo.Faithful setting.declarations run.graph) :
    run.Follows setting base { run with memo } :=
  ⟨⟨hrun.above, hrun.begun, hrun.tidy, hmemo⟩, le_rfl, .refl _⟩

theorem modifyHead (h : run.Follows setting base after) {f : Activation → Activation}
    (hf : ∀ a : Activation, a.Kept true (f a)) :
    run.Follows setting base { after with activations := after.activations.modifyHead f } where
  sound := h.sound.withStack _
  graph := h.graph
  stack := by
    refine h.stack.trans ?_
    cases after.activations with
    | nil => rfl
    | cons a rest => exact ⟨_, rfl, hf a⟩

/-- Another node in the place of the activation's. -/
theorem adopt (h : run.Follows setting base after) (id : NodeId) :
    run.Follows setting base (after.adopt id) :=
  h.modifyHead fun _ => ⟨rfl, rfl, rfl, rfl, fun _ => rfl, fun hreturning => hreturning⟩

theorem note (h : run.Follows setting base after) (i : Instruction) :
    run.Follows setting base (after.note i) := by
  unfold Run.note
  split
  · exact ⟨⟨h.sound.above, h.sound.begun, h.sound.tidy, h.sound.faithful⟩, h.graph, h.stack⟩
  · exact h

end Follows

/-- A sound run in an activation with a frame, of which the depth is given. -/
structure Ready (setting : Setting) (base : Graph) (depth : Nat) (run : Run) : Prop where
  sound : run.Sound setting base
  frames : run.frames ≠ []
  depth_eq : run.depth = depth

theorem depth_of_kept {mayReturn : Bool}
    (h : Activation.StackKept mayReturn run.activations after.activations) :
    after.depth = run.depth := by
  unfold depth
  cases hstack : run.activations with
  | nil =>
    rw [hstack] at h
    have hnil : after.activations = [] := h
    rw [hnil]
  | cons a rest =>
    rw [hstack] at h
    obtain ⟨b, hb, hkept⟩ := h
    rw [hb]
    exact hkept.depth

theorem Ready.follows (hrun : run.Ready setting base depth)
    (h : run.Follows setting base after) : after.Ready setting base depth where
  sound := h.sound
  frames := (frames_of_kept h.stack).trans_ne hrun.frames
  depth_eq := (depth_of_kept h.stack).trans hrun.depth_eq

/-- There is an activation. -/
theorem Ready.exists_activation (hrun : run.Ready setting base depth) :
    ∃ a rest, run.activations = a :: rest := by
  obtain ⟨a, rest, -, -, hstack, -⟩ := exists_of_frames_ne_nil hrun.frames
  exact ⟨a, rest, hstack⟩

end Run

namespace Eval

variable {setting : Setting} {base : Graph} {run after : Run} {depth : Nat} {α β : Type}

/-! ### Expected failures -/

/-- **A step that fails for expected causes only.** -/
def Benign (setting : Setting) (base : Graph) (run : Run) (x : Eval α) : Prop :=
  ∀ failure after, x.result setting run = .error failure after →
    failure.cause.Expected setting.declarations base

namespace Benign

theorem of_ok {x : Eval α} {a : α} (h : x.result setting run = .ok a after) :
    Benign setting base run x := by
  intro failure after h'
  rw [h] at h'
  cases h'

theorem pure (a : α) : Benign setting base run (pure a) := .of_ok rfl

theorem failWith {cause : Cause} (h : cause.Expected setting.declarations base)
    (span : Option Span) : Benign setting base run (Eval.failWith cause span : Eval α) := by
  intro failure after hfail
  cases hfail
  exact h

theorem fail (span : Span) {cause : Cause} (h : cause.Expected setting.declarations base) :
    Benign setting base run (Eval.fail span cause : Eval α) := .failWith h _

theorem bind {x : Eval α} {f : α → Eval β} (hx : Benign setting base run x)
    (hf : ∀ a after, x.result setting run = .ok a after → Benign setting base after (f a)) :
    Benign setting base run (x >>= f) := by
  intro failure after h
  rcases error_of_bind h with herror | ⟨a, middle, hok, herror⟩
  · exact hx failure after herror
  · exact hf a middle hok failure after herror

theorem fail_bind (span : Span) {cause : Cause} (h : cause.Expected setting.declarations base)
    (f : α → Eval β) : Benign setting base run (Eval.fail span cause >>= f) :=
  (Benign.fail span h).bind fun _ _ hfail => nomatch hfail

theorem get : Benign setting base run (get : Eval Run) := .of_ok rfl

theorem read : Benign setting base run (read : Eval Setting) := .of_ok rfl

theorem graph : Benign setting base run Eval.graph := .of_ok rfl

theorem describe (id : NodeId) : Benign setting base run (Eval.describe id) := .of_ok rfl

theorem record (edit : Edit) (target : String) (args : List Value) :
    Benign setting base run (Eval.record edit target args) := .of_ok rfl

section

variable {a : Activation} {rest : List Activation} (hstack : run.activations = a :: rest)
include hstack

theorem activation : Benign setting base run Eval.activation := by
  have hok : Eval.activation.result setting run = .ok a run := by rw [result_activation, hstack]
  exact .of_ok hok

theorem modifyActivation (f : Activation → Activation) :
    Benign setting base run (Eval.modifyActivation f) := by
  have hok : (Eval.modifyActivation f).result setting run =
      .ok () { run with activations := f a :: rest } := by
    rw [result_modifyActivation, hstack]
  exact .of_ok hok

theorem self : Benign setting base run Eval.self :=
  (Benign.activation hstack).bind fun _ _ _ => .pure _

theorem setSelf (id : NodeId) : Benign setting base run (Eval.setSelf id) :=
  .modifyActivation hstack _

end

theorem build {action : Building α} (h : Building.Succeeds run.graph action) :
    Benign setting base run (Eval.build action) := by
  obtain ⟨a, g, haction⟩ := h
  have hok : (Eval.build action).result setting run = .ok a { run with graph := g } := by
    rw [result_build, haction]
  exact .of_ok hok

end Benign

/-! ### Safe steps -/

/-- **A safe step.** -/
structure Safe (setting : Setting) (base : Graph) (run : Run) (x : Eval α) : Prop where
  benign : Benign setting base run x
  follows : ∀ a after, x.result setting run = .ok a after → run.Follows setting base after

namespace Safe

/-- A step that changes nothing, if it succeeds. -/
theorem still {x : Eval α} (hrun : run.Sound setting base) (hbenign : Benign setting base run x)
    (hstill : ∀ a after, x.result setting run = .ok a after → after = run) :
    Safe setting base run x :=
  ⟨hbenign, fun a after h => by rw [hstill a after h]; exact .refl hrun⟩

theorem pure (hrun : run.Sound setting base) (a : α) : Safe setting base run (pure a) :=
  still hrun (.pure a) fun _ _ h => by cases h; rfl

theorem failWith {cause : Cause} (h : cause.Expected setting.declarations base)
    (span : Option Span) : Safe setting base run (Eval.failWith cause span : Eval α) :=
  ⟨.failWith h span, fun _ _ hfail => nomatch hfail⟩

theorem fail (span : Span) {cause : Cause} (h : cause.Expected setting.declarations base) :
    Safe setting base run (Eval.fail span cause : Eval α) := .failWith h _

/-- **Safe steps in sequence.** The second one starts where the first one has led. -/
theorem bind {x : Eval α} {f : α → Eval β} (hx : Safe setting base run x)
    (hf : ∀ a after, x.result setting run = .ok a after → run.Follows setting base after →
      Safe setting base after (f a)) : Safe setting base run (x >>= f) where
  benign := hx.benign.bind fun a after h => (hf a after h (hx.follows a after h)).benign
  follows b after h := by
    obtain ⟨a, middle, hok, hrest⟩ := ok_of_bind h
    have hmiddle := hx.follows a middle hok
    exact hmiddle.trans ((hf a middle hok hmiddle).follows b after hrest)

theorem fail_bind (span : Span) {cause : Cause} (h : cause.Expected setting.declarations base)
    (f : α → Eval β) : Safe setting base run (Eval.fail span cause >>= f) :=
  (Safe.fail span h).bind fun _ _ hfail => nomatch hfail

theorem get (hrun : run.Sound setting base) : Safe setting base run (get : Eval Run) :=
  .still hrun .get fun _ _ h => by cases h; rfl

theorem read (hrun : run.Sound setting base) : Safe setting base run (read : Eval Setting) :=
  .still hrun .read fun _ _ h => by cases h; rfl

theorem describe (hrun : run.Sound setting base) (id : NodeId) :
    Safe setting base run (Eval.describe id) :=
  .still hrun (.describe id) fun _ _ h => by cases h; rfl

theorem remembered? (hrun : run.Sound setting base) (key : MemoKey) :
    Safe setting base run (Eval.remembered? key) :=
  .still hrun (.of_ok rfl) fun _ _ h => by cases h; rfl

theorem remember (hrun : run.Sound setting base) {key : MemoKey} {entry : MemoEntry}
    (hmemo : (run.memo.insert key entry).Faithful setting.declarations run.graph) :
    Safe setting base run (Eval.remember key entry) :=
  ⟨.of_ok rfl, fun _ _ h => by cases h; exact .memo hrun hmemo⟩

end Safe

end Eval

namespace Run.Ready

open Eval

variable {setting : Setting} {base : Graph} {run : Run} {depth : Nat} {α β : Type}
  (hrun : run.Ready setting base depth)
include hrun

theorem pure (a : α) : Safe setting base run (pure a) := .pure hrun.sound a

theorem get : Safe setting base run (get : Eval Run) := .get hrun.sound

theorem read : Safe setting base run (read : Eval Setting) := .read hrun.sound

theorem graph : Safe setting base run Eval.graph :=
  .still hrun.sound .graph fun _ _ h => by cases h; rfl

theorem describe (id : NodeId) : Safe setting base run (Eval.describe id) :=
  .describe hrun.sound id

theorem activation : Safe setting base run Eval.activation := by
  obtain ⟨a, rest, hstack⟩ := hrun.exists_activation
  exact .still hrun.sound (.activation hstack) fun _ _ h => (ok_of_activation h).1

theorem modifyActivation {f : Activation → Activation} (hf : ∀ a : Activation, a.Kept true (f a)) :
    Safe setting base run (Eval.modifyActivation f) := by
  obtain ⟨a, rest, hstack⟩ := hrun.exists_activation
  refine ⟨.modifyActivation hstack f, fun _ after h => ?_⟩
  have hhead : { run with activations := run.activations.modifyHead f } = after := by
    rw [result_modifyActivation, hstack] at h
    cases h
    rw [hstack]
    rfl
  exact hhead ▸ (Follows.refl hrun.sound).modifyHead hf

/-- **Safe steps in sequence**, in one activation. -/
theorem bind {x : Eval α} {f : α → Eval β} (hx : Safe setting base run x)
    (hf : ∀ a after, x.result setting run = .ok a after → after.Ready setting base depth →
      Safe setting base after (f a)) : Safe setting base run (x >>= f) :=
  hx.bind fun a after h hafter => hf a after h (hrun.follows hafter)

end Run.Ready

/-! ### Brackets -/

namespace Eval

variable {setting : Setting} {base : Graph} {run : Run} {depth : Nat} {α : Type}

/-- **A safe step in a frame of its own is safe.** -/
theorem Safe.inFrame {frame : Frame} {x : Eval α} (hrun : run.Ready setting base depth)
    (hx : ∀ {run : Run}, run.Ready setting base depth → Safe setting base run x) :
    Safe setting base run (Eval.inFrame frame x) := by
  obtain ⟨a, rest, outer, inner, hstack, hframes, -⟩ := Run.exists_of_frames_ne_nil hrun.frames
  have hopened : (modifyActivation (Activation.pushFrame frame)).result setting run =
      .ok () { run with activations := a.pushFrame frame :: rest } := by
    rw [result_modifyActivation, hstack]
  have hready : Run.Ready setting base depth
      { run with activations := a.pushFrame frame :: rest } := by
    refine ⟨hrun.sound.withStack _, List.cons_ne_nil _ _, ?_⟩
    rw [← hrun.depth_eq, Run.depth, Run.depth, hstack]
    rfl
  have hinside := hx hready
  -- the frame is still there at the end, and there is another one to go back to
  have hclosed : ∀ v middle, x.result setting
        { run with activations := a.pushFrame frame :: rest } = .ok v middle →
      ∃ b, middle.activations = b :: rest ∧ a.Kept true { b with frames := outer :: inner } ∧
        popFrame.result setting middle = .ok ()
          { middle with activations := { b with frames := outer :: inner } :: rest } := by
    intro v middle hok
    obtain ⟨b, hb, hkept⟩ := (hinside.follows v middle hok).stack
    have hbframes : b.frames = frame :: outer :: inner :=
      hkept.frames.trans (by rw [Activation.pushFrame, hframes])
    exact ⟨b, hb, ⟨hkept.depth, hkept.direction, hkept.hostCount, hframes.symm, hkept.returning,
      hkept.still_returning⟩, result_popFrame hb hbframes⟩
  constructor
  · refine Benign.bind (.of_ok hopened) fun _ _ hopen => ?_
    rw [hopened] at hopen
    cases hopen
    refine hinside.benign.bind fun v middle hok => ?_
    obtain ⟨b, hb, -, hpop⟩ := hclosed v middle hok
    exact (Benign.of_ok hpop).bind fun _ _ _ => .pure v
  · intro v last h
    obtain ⟨_, _, hopen, h⟩ := ok_of_bind h
    rw [hopened] at hopen
    cases hopen
    obtain ⟨w, middle, hok, h⟩ := ok_of_bind h
    have hfollows := hinside.follows w middle hok
    obtain ⟨b, hb, hkept, hpop⟩ := hclosed w middle hok
    obtain ⟨_, _, hpopped, h⟩ := ok_of_bind h
    rw [hpop] at hpopped
    cases hpopped
    cases h
    refine ⟨hfollows.sound.withStack _, hfollows.graph, ?_⟩
    rw [hstack]
    exact ⟨_, rfl, hkept⟩

/-- Safety does not depend on the state after a failure. -/
theorem Safe.of_outcome {x y : Eval α}
    (h : outcome (y.result setting run) = outcome (x.result setting run))
    (hx : Safe setting base run x) : Safe setting base run y := by
  constructor
  · intro failure after hy
    rw [hy] at h
    cases hresult : x.result setting run with
    | ok a last =>
      rw [hresult] at h
      cases h
    | error failure' last =>
      rw [hresult] at h
      cases h
      exact hx.benign failure last hresult
  · intro a after hy
    rw [hy] at h
    cases hresult : x.result setting run with
    | ok a' last =>
      rw [hresult] at h
      cases h
      exact hx.follows a after hresult
    | error failure' last =>
      rw [hresult] at h
      cases h

/-- **A safe round is safe**: there is a frame to close, whether the step inside succeeds or not. -/
theorem Safe.inRound {frame : Frame} {x : Eval α} (hrun : run.Ready setting base depth)
    (hsteps : ∀ {run : Run}, Steps setting run true x)
    (hx : ∀ {run : Run}, run.Ready setting base depth → Safe setting base run x) :
    Safe setting base run (Eval.inRound frame x) := by
  refine .of_outcome (outcome_inRound (fun a rest hstack hnil => hrun.frames ?_) hsteps)
    (.inFrame hrun hx)
  rw [Run.frames, hstack]
  exact hnil

/-- **A safe step in an activation of its own is safe**: there is an activation to close, whether
the step inside succeeds or not. -/
theorem Safe.inActivation {a : Activation} {x : Eval α}
    (hsteps : ∀ {run : Run}, Steps setting run true x)
    (hx : Safe setting base { run with activations := a :: run.activations } x) :
    Safe setting base run (Eval.inActivation a x) := by
  constructor
  · intro failure last h
    cases hinside : x.result setting { run with activations := a :: run.activations } with
    | ok v middle =>
      obtain ⟨b, -, hresult⟩ := result_inActivation_ok hsteps hinside
      rw [hresult] at h
      cases h
    | error failure' middle =>
      rw [result_inActivation_error hsteps hinside] at h
      cases h
      exact hx.benign failure middle hinside
  · intro id last h
    cases hinside : x.result setting { run with activations := a :: run.activations } with
    | ok v middle =>
      have hfollows := hx.follows v middle hinside
      obtain ⟨b, -, hresult⟩ := result_inActivation_ok hsteps hinside
      rw [hresult] at h
      cases h
      exact ⟨hfollows.sound.withStack _, hfollows.graph, .refl _⟩
    | error failure middle =>
      rw [result_inActivation_error hsteps hinside] at h
      cases h

end Eval

end SchemaProjection
