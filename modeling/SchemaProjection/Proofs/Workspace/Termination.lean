import SchemaProjection.Proofs.Workspace.Endings

/-!
# Runs end

Evaluation is written for a number of levels, and a level too few would be an internal error. No run
comes to that (`Workspace.runs_end`): whatever is projected, the recursion is not deeper than the
declared bodies and the recursion limit say, and never are there more activations than the limit
allows. So a run has a result or a failure of its own, and more levels, or anything else below them,
make no difference.

Nothing is asked of the workspace. The graph may refer to itself, bodies may apply their own
projections to nodes and with arguments that the run has made, and loops may run over what the run
has edited. The recursion ends since each body that is entered is an activation more.
-/

namespace SchemaProjection

namespace Progress

variable {setting : Setting} {s : Progress}

/-- Where a log starts something, there are not more activations than the limit allows. -/
theorem Accepts.length_activations_le {log : List LogEntry} (h : s.Accepts setting log) {run : Run}
    (hrun : .starts run ∈ log) : run.activations.length ≤ setting.options.maxDepth := by
  obtain ⟨front, back, rfl⟩ := List.append_of_mem hrun
  obtain ⟨-, hshows⟩ := h.split
  rw [hshows.length_activations]
  exact hshows.bounded

end Progress

namespace Workspace

/-- A run does not end for want of levels. -/
theorem ending_ne_depth (w : Workspace) (call : ProjectionCall) {failure : Failure} {after : Run}
    (h : call.ending w = .error failure after) : failure.cause ≠ .internal .depth := by
  by_cases hnode : w.graph.contains call.request.node = true
  · cases hprojection : w.declarations.get? call.request.handle.projection with
    | some projection =>
      obtain ⟨-, -, -, -, hcause⟩ := call.exists_tree w hprojection hnode
      exact hcause failure after h
    | none =>
      -- without a projection nothing is evaluated
      have hget : w.setting.declarations.get? call.request.handle.projection = none := hprojection
      rw [call.ending_eq, Eval.result_projectWith, call.graph_outset w, if_pos hnode, hget] at h
      cases h
      exact Cause.ne_depth rfl
  · rw [call.ending_eq, Eval.result_projectWith, call.graph_outset w, if_neg hnode] at h
    cases h
    exact Cause.ne_depth rfl

/-- **Every run ends, within its levels.** A call returns a result or a failure that is not for want
of levels. Evaluation with as many levels as the recursion limit and the declared bodies ask for, or
more of them, comes to what the run comes to, whatever stands below the levels. If there is anything
to evaluate, its call tree is not higher than that, and wherever an expression or a block starts to
be evaluated, there are not more activations than the limit allows. -/
theorem runs_end (w : Workspace) (r : Request) :
    (∀ failure, (w.tryProject r.node r.handle r.args).1 = .error failure ∨
        (w.tryInstructions r.node r.handle r.args).1 = .error failure →
      failure.cause ≠ .internal .depth) ∧
    ∀ call : ProjectionCall, call.request = r →
      (∀ (bottom : Evaluator) (levels : Nat),
        (w.declarations.height + 1) * w.options.maxDepth + 1 ≤ levels →
        (Eval.projectWith (bottom.above levels) r.node r.handle r.args).result w.setting
          (call.outset w) = call.ending w) ∧
      ∀ projection, w.declarations.get? r.handle.projection = some projection →
        w.graph.contains r.node →
        ∃ t, call.HasTree w t ∧
          t.height ≤ (w.declarations.height + 1) * w.options.maxDepth + 1 ∧
          ∀ run, .starts run ∈ t.log → run.activations.length ≤ w.options.maxDepth := by
  refine ⟨fun failure h => ?_, ?_⟩
  · rcases h with hproject | hinstructions
    · obtain ⟨after, hending⟩ := tryProject_fails.mp hproject
      exact ending_ne_depth w _ hending
    · obtain ⟨after, hending⟩ := tryInstructions_fails.mp hinstructions
      exact ending_ne_depth w _ hending
  rintro call rfl
  refine ⟨fun bottom levels hlevels => ?_, fun projection hprojection hnode => ?_⟩
  · by_cases hnode : w.graph.contains call.request.node = true
    · cases hprojection : w.declarations.get? call.request.handle.projection with
      | some projection =>
        -- the tree of the run decides what any evaluator with enough levels comes to
        obtain ⟨t, ⟨hvalid, q, inside, hq, -, rfl⟩, hheight, -⟩ :=
          call.exists_tree w hprojection hnode
        cases hprojection.symm.trans hq
        rw [call.result_projectWith w hprojection hnode]
        exact hvalid.answered bottom (Nat.le_trans hheight hlevels)
      | none =>
        have hget : w.setting.declarations.get? call.request.handle.projection = none := hprojection
        rw [call.ending_eq, Eval.result_projectWith, Eval.result_projectWith, call.graph_outset w,
          if_pos hnode, if_pos hnode, hget]
    · rw [call.ending_eq, Eval.result_projectWith, Eval.result_projectWith, call.graph_outset w,
        if_neg hnode, if_neg hnode]
  · obtain ⟨t, htree, hheight, haccepts, -⟩ := call.exists_tree w hprojection hnode
    exact ⟨t, htree, hheight, fun run hrun => haccepts.length_activations_le hrun⟩

/-- A projection that applies itself to its node without end, each time with another argument. -/
def growingSteps : List Event :=
  [.construct (.model "Foo"), .setOptions ⟨.ignore, 2⟩,
    .declare "deep" "projection model#grow \x7b to(n) \x7b return self#grow(n + 1); \x7d \x7d"]

def growingWorkspace : Workspace := growingSteps.foldl after (ofGraph .initial)

def grow : Request := ⟨⟨25⟩, ⟨⟨0⟩, .forward⟩, [.number (.ofNat 0)]⟩

/-- It ends at the recursion limit. Its body is four levels high, so eleven levels are enough. -/
theorem runs_end_growing :
    (∃ failure, (growingWorkspace.tryProject grow.node grow.handle grow.args).1 = .error failure ∧
        failure.sort = .recursionLimit ∧ failure.cause ≠ .internal .depth) ∧
      (∀ bottom : Evaluator, (Eval.projectWith (bottom.above 11) grow.node grow.handle
          grow.args).result growingWorkspace.setting
            (ProjectionCall.outset growingWorkspace (.tryProject grow)) =
          ProjectionCall.ending growingWorkspace (.tryProject grow)) ∧
      ∃ t, ProjectionCall.HasTree growingWorkspace (.tryProject grow) t ∧ t.height ≤ 11 ∧
        ∀ run, .starts run ∈ t.log → run.activations.length ≤ 2 := by
  obtain ⟨hfails, hcall⟩ := runs_end growingWorkspace grow
  obtain ⟨hlevels, htree⟩ := hcall (.tryProject grow) rfl
  have hresult : (growingWorkspace.tryProject grow.node grow.handle grow.args).1 =
      .error ⟨.recursionLimit 2 "grow" "Model `Foo`", some ⟨"deep", 1, 1, 0, 60⟩⟩ := by
    decide +kernel
  have hbound : (growingWorkspace.declarations.height + 1) * growingWorkspace.options.maxDepth + 1 =
      11 := by decide +kernel
  have hlimit : growingWorkspace.options.maxDepth = 2 := by decide +kernel
  have hdeclared : (growingWorkspace.declarations.get? grow.handle.projection).isSome := by
    decide +kernel
  obtain ⟨projection, hprojection⟩ := Option.isSome_iff_exists.mp hdeclared
  obtain ⟨t, ht, hheight, hactivations⟩ := htree projection hprojection (by decide +kernel)
  rw [hbound] at hheight
  rw [hlimit] at hactivations
  exact ⟨⟨_, hresult, rfl, hfails _ (.inl hresult)⟩,
    fun bottom => hlevels bottom 11 (Nat.le_of_eq hbound), t, ht, hheight, hactivations⟩

end Workspace

end SchemaProjection
