import SchemaProjection.Proofs.Workspace.Inheritance
import SchemaProjection.Proofs.Workspace.Operations

/-!
# Internal failures

A run fails internally if it meets a state that no run is meant to reach: a stack without an
activation or a frame, evaluation that nests too deep, or an edit that the graph refuses.

`Workspace.internal_failure` says that in a reachable workspace there is one way to get there. A
projected operation may be replaced by a node without a name, if the projection that applies to it
returns one, and then the graph refuses to rename the member. All other faults are out of reach, for
all declared projections, nodes and arguments.

Activations and the rounds of loops are closed also if a body fails, and a failure to close them
would take the place of the failure of the body. That there is always something to close rests on
what a failing body leaves of the stack (`Activation.StackLeft`).
-/

namespace SchemaProjection

/-- Of the internal causes only one is expected. -/
theorem Cause.Expected.noName {cause : Cause} {d : Declarations} {base : Graph}
    (h : cause.Expected d base) (hsort : cause.sort = .internal) :
    ¬ d.KeepOperations base ∧ ∃ node, cause = .internal (.graph (.noName node)) := by
  cases cause with
  | internal fault =>
    cases fault with
    | graph fault =>
      cases fault with
      | noName node => exact ⟨h, node, rfl⟩
      | _ => exact h.elim
    | _ => exact h.elim
  | _ => cases hsort

/-- **A run closes every activation**, whether it fails or not. -/
theorem ProjectionCall.activations_reached (w : Workspace) (call : ProjectionCall) :
    (call.reached w).activations = [] := by
  have hstart : (call.outset w).activations = [] := by cases call <;> rfl
  have hsteps : Eval.Steps w.setting (call.outset w) true
      (Eval.projectNode call.request.node call.request.handle call.request.args) :=
    Eval.steps_projectNode _ _ _
  have hleft := hsteps.left_stateAfter
  rwa [hstart] at hleft

namespace Workspace

variable {w : Workspace}

/-- **A failure of a run is expected**, whichever way the run is asked for. -/
theorem Reachable.expected_failure (hw : w.Reachable Event.Regular) (r : Request)
    {failure : Failure}
    (h : (w.tryProject r.node r.handle r.args).1 = .error failure ∨
      (w.tryInstructions r.node r.handle r.args).1 = .error failure) :
    failure.cause.Expected w.declarations w.graph := by
  -- the two calls differ in whether the run is recorded, and it is safe either way
  have hsafe : ∀ trace, Eval.Safe w.setting w.graph (Run.start w.graph w.metadata trace)
      (Eval.projectNode r.node r.handle r.args) := fun trace =>
    Eval.safe_projectNode hw.fit.declared hw.fit.tidy r.node r.handle r.args
  rcases h with h | h
  · have h : (Run.project w.setting w.graph w.metadata r.node r.handle r.args).result =
      .error failure := h
    cases hrun : (Eval.projectNode r.node r.handle r.args).result w.setting
        (Run.start w.graph w.metadata none) with
    | ok id after =>
      rw [Run.project_of_ok hrun] at h
      cases h
    | error failure' after =>
      cases (Run.project_of_error hrun).symm.trans h
      exact (hsafe none).benign failure after hrun
  · have h : (Run.instructions w.setting w.graph w.metadata r.node r.handle r.args).result =
      .error failure := h
    cases hrun : (Eval.projectNode r.node r.handle r.args).result w.setting
        (Run.start w.graph w.metadata (some [])) with
    | ok id after =>
      rw [Run.instructions_of_ok hrun] at h
      cases h
    | error failure' after =>
      cases (Run.instructions_of_error hrun).symm.trans h
      exact (hsafe (some [])).benign failure after hrun

/-- **Internal failures.** In every reachable workspace, whatever is projected:

1. a body that fails, anywhere in the run, leaves the activation that it ran in, with all its frames
   and with all activations below;
2. the run closes every activation, whether it fails or not;
3. it fails internally only where the graph refuses to rename a member without a name, and only if
   some projection that applies to operations contains a `return`. -/
theorem internal_failure (hw : w.Reachable Event.Regular) (r : Request) :
    (∀ levels (body : Block) (run after : Run) failure,
      ((evaluator levels).block body).result w.setting run = .error failure after →
        Activation.StackLeft true run.activations after.activations) ∧
    (∀ call : ProjectionCall, call.request = r → (call.reached w).activations = []) ∧
    ∀ failure : Failure, (w.tryProject r.node r.handle r.args).1 = .error failure ∨
        (w.tryInstructions r.node r.handle r.args).1 = .error failure →
      failure.sort = .internal →
        ¬ w.declarations.KeepOperations w.graph ∧
          ∃ node, failure.cause = .internal (.graph (.noName node)) :=
  ⟨fun _ _ _ _ _ hfails => Evaluation.left_of_block hfails,
    fun call _ => call.activations_reached w,
    fun _ h hsort => (hw.expected_failure r h).noName hsort⟩

/-- An interface, and a projection that renames what it has made of its operation. -/
def namelessSteps : List Event :=
  [.construct (.interface "I"), .construct (.interfaceOperation ⟨25⟩ "a" [] ⟨0⟩),
    .declare "schema" ("projection op#k \x7b to \x7b return \"x\"; \x7d \x7d " ++
      "projection interface#c \x7b to \x7b self.projectOperation(\"a\", k); " ++
      "self.renameOperation(\"a\", \"b\"); \x7d \x7d")]

def namelessWorkspace : Workspace := namelessSteps.foldl after (ofGraph .initial)

/-- The operation is replaced by a literal type, which has no name. -/
theorem internal_failure_nameless :
    namelessWorkspace.Reachable Event.Regular ∧
      (ProjectionCall.reached namelessWorkspace
        (.tryProject ⟨⟨25⟩, ⟨⟨1⟩, .forward⟩, []⟩)).activations = [] ∧
      ∃ failure, (namelessWorkspace.tryProject ⟨25⟩ ⟨⟨1⟩, .forward⟩ []).1 = .error failure ∧
        failure.sort = .internal ∧
        ¬ namelessWorkspace.declarations.KeepOperations namelessWorkspace.graph ∧
        ∃ node, failure.cause = .internal (.graph (.noName node)) := by
  have hreachable : namelessWorkspace.Reachable Event.Regular := by
    refine Reachable.start.steps (fun e he => ?_) (by decide +kernel)
    simp only [namelessSteps, List.mem_cons, List.not_mem_nil, or_false] at he
    rcases he with rfl | rfl | rfl <;> trivial
  have hrun : (namelessWorkspace.tryProject ⟨25⟩ ⟨⟨1⟩, .forward⟩ []).1 =
      .error ⟨.internal (.graph (.noName "\"x\"")), none⟩ := by
    decide +kernel
  obtain ⟨-, hclosed, hinternal⟩ := internal_failure hreachable ⟨⟨25⟩, ⟨⟨1⟩, .forward⟩, []⟩
  exact ⟨hreachable, hclosed _ rfl, _, hrun, rfl, hinternal _ (.inl hrun) rfl⟩

end Workspace

end SchemaProjection
