import SchemaProjection.Proofs.Run.Evaluation
import SchemaProjection.Run.Projecting

/-!
# What a whole run leaves

A run moves from its start to some state, of which it keeps the first nodes and what is known about
them (`Run.Leaves`): at least the nodes that were given, and exactly these if it fails. Both ways to
run a projection are of this form (`Run.leaves_project`, `Run.leaves_instructions`).

So a run extends the graph, since it releases only nodes that it allocated itself
(`Run.Leaves.le_graph`), and a failed run leaves the graph as it was (`Run.Leaves.graph_of_error`).
-/

namespace SchemaProjection

namespace Eval

/-- A whole run is a step. -/
theorem steps_projectNode {setting : Setting} {run : Run} {mayReturn : Bool} (node : NodeId)
    (handle : Handle) (args : List Value) :
    Steps setting run mayReturn (projectNode node handle args) := by
  refine Steps.graph.bind fun g _ _ => ?_
  dsimp only
  split
  · exact (Steps.failWith _ _).bind fun _ _ h => nomatch h
  · refine Steps.read.bind fun s _ _ => ?_
    split
    · exact .failWith _ _
    · exact Steps.read.bind fun s _ _ => (evaluator_steps setting s.levels).apply _ _ _ _

end Eval

namespace Run

/-! ### Releasing -/

theorem graph_release (size : Nat) (run : Run) :
    (run.release size).graph = run.graph.truncate size := by
  unfold release
  split
  · rfl
  · next hsize => exact (Graph.truncate_of_size_le (Nat.not_lt.mp hsize)).symm

/-- Nothing is released if nothing stands behind the position. -/
theorem release_size (run : Run) : run.release run.graph.size = run :=
  if_neg (Nat.lt_irrefl _)

theorem size_le_sizeKept (size : Nat) (instructions : List Instruction) :
    size ≤ sizeKept size instructions := by
  unfold sizeKept
  generalize instructions.flatMap Instruction.args = args
  induction args generalizing size with
  | nil => exact Nat.le_refl _
  | cons v rest ih =>
    refine Nat.le_trans ?_ (ih _)
    cases v with
    | type id => exact Nat.le_max_left _ _
    | absent | bool | number | string => exact Nat.le_refl _

/-! ### Outcomes -/

variable {setting : Setting} {graph : Graph} {metadata : Metadata} {α : Type}

/-- **What a run leaves.** It reached some state, of which it keeps the nodes before a position. -/
structure Leaves (setting : Setting) (graph : Graph) (metadata : Metadata) (outcome : Outcome α)
    (trace : Option (List Instruction)) (reached : Run) (kept : Nat) : Prop where
  reaches : (start graph metadata trace).Reaches setting reached
  size_le : graph.size ≤ kept
  outcome_graph : outcome.graph = (reached.release kept).graph
  outcome_metadata : outcome.metadata = (reached.release kept).metadata
  kept_of_error : ∀ failure, outcome.result = .error failure → kept = graph.size

/-- **A run extends the graph.** -/
theorem Leaves.le_graph {outcome : Outcome α} {trace : Option (List Instruction)} {reached : Run}
    {kept : Nat} (h : Leaves setting graph metadata outcome trace reached kept) :
    graph ≤ outcome.graph := by
  rw [h.outcome_graph, graph_release]
  exact Graph.le_truncate h.reaches.extends.1 h.size_le

/-- **A failed run leaves the graph as it was.** -/
theorem Leaves.graph_of_error {outcome : Outcome α} {trace : Option (List Instruction)}
    {reached : Run} {kept : Nat} (h : Leaves setting graph metadata outcome trace reached kept)
    {failure : Failure} (hfailure : outcome.result = .error failure) : outcome.graph = graph := by
  rw [h.outcome_graph, graph_release, h.kept_of_error failure hfailure]
  exact Graph.truncate_of_le h.reaches.extends.1

theorem execute_eq (setting : Setting) (run : Run) (step : Eval α) :
    run.execute setting step =
      match step.result setting run with
      | .ok a reached => (.ok a, reached)
      | .error failure reached => (.error failure, reached.release run.graph.size) := rfl

/-- A step from the start of a run either succeeds, or fails and releases what it allocated. -/
theorem execute_cases (setting : Setting) (graph : Graph) (metadata : Metadata)
    (trace : Option (List Instruction)) {step : Eval α}
    (hsteps : Eval.Steps setting (start graph metadata trace) false step) :
    ∃ reached, (start graph metadata trace).Reaches setting reached ∧
      ((∃ a, (start graph metadata trace).execute setting step = (.ok a, reached)) ∨
        ∃ failure, (start graph metadata trace).execute setting step =
          (.error failure, reached.release graph.size)) := by
  have hbegun : (start graph metadata trace).Begun := Nat.le_refl _
  rw [execute_eq]
  -- a failed step has reached some state, too, and that is what is released from
  cases hstep : step.result setting (start graph metadata trace) with
  | ok a reached => exact ⟨reached, hsteps.of_ok hbegun hstep, .inl ⟨a, rfl⟩⟩
  | error failure reached => exact ⟨reached, hsteps.of_error hbegun hstep, .inr ⟨failure, rfl⟩⟩

variable (setting graph metadata) (node : NodeId) (handle : Handle) (args : List Value)

theorem leaves_project : ∃ reached kept,
    Leaves setting graph metadata (project setting graph metadata node handle args) none reached
      kept := by
  obtain ⟨reached, hreaches, ⟨id, hok⟩ | ⟨failure, herror⟩⟩ :=
    execute_cases setting graph metadata none (Eval.steps_projectNode node handle args)
  · refine ⟨reached, reached.graph.size, ?_⟩
    rw [project, hok]
    refine ⟨hreaches, Graph.size_le_of_le hreaches.extends.1, ?_, ?_, fun _ h => nomatch h⟩
    · rw [release_size]
    · rw [release_size]
  · refine ⟨reached, graph.size, ?_⟩
    rw [project, herror]
    exact ⟨hreaches, Nat.le_refl _, rfl, rfl, fun _ _ => rfl⟩

theorem leaves_instructions : ∃ reached kept,
    Leaves setting graph metadata (instructions setting graph metadata node handle args) (some [])
      reached kept := by
  obtain ⟨reached, hreaches, ⟨id, hok⟩ | ⟨failure, herror⟩⟩ :=
    execute_cases setting graph metadata (some []) (Eval.steps_projectNode node handle args)
  · refine ⟨reached, sizeKept graph.size (reached.trace.getD []), ?_⟩
    rw [instructions, hok]
    exact ⟨hreaches, size_le_sizeKept _ _, rfl, rfl, fun _ h => nomatch h⟩
  · refine ⟨reached, graph.size, ?_⟩
    rw [instructions, herror]
    exact ⟨hreaches, Nat.le_refl _, rfl, rfl, fun _ _ => rfl⟩

end Run

end SchemaProjection
