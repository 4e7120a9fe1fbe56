import SchemaProjection.Proofs.Run.Projecting
import SchemaProjection.Proofs.Workspace.Events

/-!
# Runs change no node

However a projection is run, and whether the run succeeds or fails, the graph is only extended
(`ProjectionCall.le_graph_after`): every node that was there is the same node afterwards, at the
same id, and the declarations are the same. Nothing is asked of the workspace, the projections or
the host modules.

So an id that a client holds keeps its meaning through any number of runs
(`Workspace.nodes_stable`).
-/

namespace SchemaProjection

/-- **A run only extends the graph** of its workspace. -/
theorem ProjectionCall.le_graph_after (w : Workspace) (call : ProjectionCall) :
    w.graph ≤ (call.after w).graph := by
  have hproject : ∀ r : Request, w.graph ≤ (w.tryProject r.node r.handle r.args).2.graph := by
    intro r
    obtain ⟨reached, kept, hleaves⟩ :=
      Run.leaves_project w.setting w.graph w.metadata r.node r.handle r.args
    exact hleaves.le_graph
  have hinstructions : ∀ r : Request,
      w.graph ≤ (w.tryInstructions r.node r.handle r.args).2.graph := by
    intro r
    obtain ⟨reached, kept, hleaves⟩ :=
      Run.leaves_instructions w.setting w.graph w.metadata r.node r.handle r.args
    exact hleaves.le_graph
  -- the calls that report a failure leave the graph of those that return it
  cases call with
  | tryProject r => exact hproject r
  | project r => exact hproject r
  | tryInstructions r => exact hinstructions r
  | instructions r => exact hinstructions r

namespace Workspace

/-- The workspace that runs leave, one after the other. -/
def afterRuns (w : Workspace) (calls : List ProjectionCall) : Workspace :=
  calls.foldl ProjectionCall.after w

theorem le_graph_afterRuns (w : Workspace) (calls : List ProjectionCall) :
    w.graph ≤ (w.afterRuns calls).graph := by
  induction calls generalizing w with
  | nil => exact le_rfl
  | cons call rest ih => exact le_trans (call.le_graph_after w) (ih (call.after w))

/-- **Runs change no node.** Through any number of runs, each successful or not, the nodes stay the
first ones in the same order, the declarations and the intrinsic types stay what they are, and every
id of the graph goes on to denote the same node. -/
theorem nodes_stable (w : Workspace) (calls : List ProjectionCall) :
    w.graph.nodes.toList <+: (w.afterRuns calls).graph.nodes.toList ∧
      (w.afterRuns calls).graph.globals = w.graph.globals ∧
      (∀ id, w.graph.contains id →
        (w.afterRuns calls).graph.contains id ∧
          (w.afterRuns calls).graph.node? id = w.graph.node? id) ∧
      ∀ i, w.graph.contains (Graph.intrinsic i) →
        (w.afterRuns calls).graph.isIntrinsic (Graph.intrinsic i) i =
          w.graph.isIntrinsic (Graph.intrinsic i) i := by
  have hle := w.le_graph_afterRuns calls
  refine ⟨hle.nodes, hle.globals, fun id hid => ?_, fun i hi => ?_⟩
  · exact ⟨Graph.contains_of_le hle hid, Graph.node?_of_le hle hid⟩
  · rw [Graph.isIntrinsic, Graph.shape_of_le hle hi, Graph.isIntrinsic]

end Workspace

end SchemaProjection
