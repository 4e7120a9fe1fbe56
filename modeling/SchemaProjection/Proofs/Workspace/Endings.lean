import SchemaProjection.Proofs.Run.Unfolded
import SchemaProjection.Proofs.Workspace.Inheritance

/-!
# What the run of a call comes to

A call for a run starts it at its outset (`ProjectionCall.outset`), and the run comes to an ending
(`ProjectionCall.ending`): a result or a failure, and a state. Everything that the call returns and
leaves is taken from there (`Workspace.tryProject_eq`, `Workspace.tryInstructions_eq`), so two calls
with the same ending, in workspaces with the same graph and metadata, cannot be told apart
(`Workspace.Alike`).

If the projection is declared and the node is one of the graph, the run has a call tree
(`ProjectionCall.HasTree`, `ProjectionCall.exists_tree`).
-/

namespace SchemaProjection

namespace ProjectionCall

/-- What the run of a call comes to. -/
def ending (w : Workspace) (call : ProjectionCall) : EStateM.Result Failure Run NodeId :=
  (Eval.projectNode call.request.node call.request.handle call.request.args).result w.setting
    (call.outset w)

/-- **A call tree of a run.** It is valid, it starts where the run does, with the application of a
declared projection to a node of the graph, and it comes to what the run comes to. -/
def HasTree (w : Workspace) (call : ProjectionCall) (t : CallTree) : Prop :=
  t.Valid w.setting ∧ ∃ projection inside,
    w.declarations.get? call.request.handle.projection = some projection ∧
    w.graph.contains call.request.node ∧
    t = .mk (.apply call.request.node projection call.request.handle.direction call.request.args)
      (call.outset w) (call.ending w) inside

variable (w : Workspace) (call : ProjectionCall)

theorem outset_eq : ∃ trace, call.outset w = Run.start w.graph w.metadata trace := by
  cases call with
  | tryProject r | project r => exact ⟨none, rfl⟩
  | tryInstructions r | instructions r => exact ⟨some [], rfl⟩

theorem graph_outset : (call.outset w).graph = w.graph := by
  obtain ⟨trace, houtset⟩ := call.outset_eq w
  rw [houtset]
  rfl

/-- A run evaluates the application of its projection. -/
theorem result_projectWith {ev : Evaluator} {projection : Projection}
    (hprojection : w.declarations.get? call.request.handle.projection = some projection)
    (hnode : w.graph.contains call.request.node) :
    (Eval.projectWith ev call.request.node call.request.handle call.request.args).result w.setting
        (call.outset w) =
      (ev.apply call.request.node projection call.request.handle.direction
        call.request.args).result w.setting (call.outset w) := by
  have hget : w.setting.declarations.get? call.request.handle.projection = some projection :=
    hprojection
  rw [Eval.result_projectWith, call.graph_outset w, if_pos hnode, hget]

theorem ending_eq : call.ending w =
    (Eval.projectWith (evaluator w.setting.levels) call.request.node call.request.handle
      call.request.args).result w.setting (call.outset w) := Eval.result_projectNode

/-- **The run of a declared projection has a call tree**, within the levels of the workspace, and
with an accepted log. -/
theorem exists_tree {projection : Projection}
    (hprojection : w.declarations.get? call.request.handle.projection = some projection)
    (hnode : w.graph.contains call.request.node) :
    ∃ t, call.HasTree w t ∧ t.height ≤ w.setting.levels ∧
      Progress.start.Accepts w.setting t.log ∧
      ∀ failure after, call.ending w = .error failure after →
        failure.cause ≠ .internal .depth := by
  obtain ⟨trace, houtset⟩ := call.outset_eq w
  have hp : projection ∈ w.setting.declarations.projections := List.mem_of_getElem? hprojection
  have hunfolds : (Query.apply call.request.node projection call.request.handle.direction
      call.request.args).Unfolds (.same w.setting) w.setting.levels Progress.start
        (call.outset w) := by
    rw [houtset]
    exact Eval.unfolds_start (Relaxation.same_sound w.setting) hp _ _ _
  obtain ⟨ending, inside, hvalid, hheight, haccepts, hleads, -⟩ := hunfolds
  -- what the tree ends with is what the levels of the workspace come to
  have hending : call.ending w = ending := by
    rw [ending_eq, call.result_projectWith w hprojection hnode]
    exact hvalid.answered_evaluator hheight
  subst hending
  refine ⟨_, ⟨hvalid, projection, inside, hprojection, hnode, rfl⟩, hheight, haccepts, ?_⟩
  intro failure after herror
  rw [herror] at hleads
  exact hleads

end ProjectionCall

namespace Workspace

/-- What a call for a node returns and leaves, after a run with the given ending. -/
def leaving (w : Workspace) : EStateM.Result Failure Run NodeId → Except Failure NodeId × Workspace
  | .ok id after => (.ok id, { w with graph := after.graph, metadata := after.metadata })
  | .error failure after => (.error failure, { w with
      graph := (after.release w.graph.size).graph
      metadata := (after.release w.graph.size).metadata })

theorem tryProject_eq (w : Workspace) (r : Request) :
    w.tryProject r.node r.handle r.args = w.leaving (ProjectionCall.ending w (.tryProject r)) := by
  unfold tryProject Run.project leaving ProjectionCall.ending
  rw [Run.execute_eq]
  dsimp only [ProjectionCall.request, ProjectionCall.outset]
  cases (Eval.projectNode r.node r.handle r.args).result w.setting
      (Run.start w.graph w.metadata none) <;> rfl

/-- What a call for the edits returns and leaves, after a run with the given ending. -/
def leavingEdits (w : Workspace) :
    EStateM.Result Failure Run NodeId → Except Failure (List Instruction) × Workspace
  | .ok _ after =>
    let kept := after.release (Run.sizeKept w.graph.size (after.trace.getD []))
    (.ok (after.trace.getD []), { w with graph := kept.graph, metadata := kept.metadata })
  | .error failure after => (.error failure, { w with
      graph := (after.release w.graph.size).graph
      metadata := (after.release w.graph.size).metadata })

theorem tryInstructions_eq (w : Workspace) (r : Request) :
    w.tryInstructions r.node r.handle r.args =
      w.leavingEdits (ProjectionCall.ending w (.tryInstructions r)) := by
  unfold tryInstructions Run.instructions leavingEdits ProjectionCall.ending
  rw [Run.execute_eq]
  dsimp only [ProjectionCall.request, ProjectionCall.outset]
  cases (Eval.projectNode r.node r.handle r.args).result w.setting
      (Run.start w.graph w.metadata (some [])) <;> rfl

/-- A call fails as its run does. -/
theorem tryProject_fails {w : Workspace} {r : Request} {failure : Failure} :
    (w.tryProject r.node r.handle r.args).1 = .error failure ↔
      ∃ after, ProjectionCall.ending w (.tryProject r) = .error failure after := by
  rw [tryProject_eq]
  cases ProjectionCall.ending w (.tryProject r) with
  | ok id after => simp [leaving]
  | error failure' after => simp [leaving]

theorem tryInstructions_fails {w : Workspace} {r : Request} {failure : Failure} :
    (w.tryInstructions r.node r.handle r.args).1 = .error failure ↔
      ∃ after, ProjectionCall.ending w (.tryInstructions r) = .error failure after := by
  rw [tryInstructions_eq]
  cases ProjectionCall.ending w (.tryInstructions r) with
  | ok id after => simp [leavingEdits]
  | error failure' after => simp [leavingEdits]

/-- **Two calls cannot be told apart**: they return the same and leave the same graph and the same
metadata. -/
structure Alike {α : Type} (one other : Except Failure α × Workspace) : Prop where
  result : other.1 = one.1
  graph : other.2.graph = one.2.graph
  metadata : other.2.metadata = one.2.metadata

section

variable {w w' : Workspace} (hgraph : w'.graph = w.graph)
include hgraph

theorem alike_tryProject {r : Request}
    (h : ProjectionCall.ending w' (.tryProject r) = ProjectionCall.ending w (.tryProject r)) :
    Alike (w.tryProject r.node r.handle r.args) (w'.tryProject r.node r.handle r.args) := by
  rw [tryProject_eq, tryProject_eq, h]
  cases ProjectionCall.ending w (.tryProject r) with
  | ok id after => exact ⟨rfl, rfl, rfl⟩
  | error failure after =>
    rw [leaving, leaving, hgraph]
    exact ⟨rfl, rfl, rfl⟩

theorem alike_tryInstructions {r : Request}
    (h : ProjectionCall.ending w' (.tryInstructions r) =
      ProjectionCall.ending w (.tryInstructions r)) :
    Alike (w.tryInstructions r.node r.handle r.args)
      (w'.tryInstructions r.node r.handle r.args) := by
  rw [tryInstructions_eq, tryInstructions_eq, h]
  cases ProjectionCall.ending w (.tryInstructions r) with
  | ok id after =>
    rw [leavingEdits, leavingEdits, hgraph]
    exact ⟨rfl, rfl, rfl⟩
  | error failure after =>
    rw [leavingEdits, leavingEdits, hgraph]
    exact ⟨rfl, rfl, rfl⟩

end

end Workspace

/-- **Two workspaces of which the second is more permissive.** They have the same graph and the same
metadata, and their settings are those of a sound relaxation. -/
structure Relaxation.Compares (R : Relaxation) (w w' : Workspace) : Prop where
  sound : R.Sound
  strict : R.strict = w.setting
  lax : R.lax = w'.setting
  graph : w'.graph = w.graph
  metadata : w'.metadata = w.metadata

namespace Relaxation.Compares

open Workspace

variable {R : Relaxation} {w w' : Workspace} {r : Request}

/-- **A run comes to the same in the more permissive workspace**, unless it fails with an excuse. -/
theorem ending (h : R.Compares w w') (call : ProjectionCall)
    (hfails : ∀ failure after, call.ending w = .error failure after → ¬ R.excused failure) :
    call.ending w' = call.ending w := by
  have houtset : call.outset w' = call.outset w := by
    cases call with
    | tryProject r | tryInstructions r | project r | instructions r =>
      show Run.start w'.graph w'.metadata _ = Run.start w.graph w.metadata _
      rw [h.graph, h.metadata]
  have hrelaxed : call.ending w' = call.ending w ∨ R.Excuses (call.ending w) := by
    obtain ⟨trace, hstart⟩ := call.outset_eq w
    rw [ProjectionCall.ending, ProjectionCall.ending, houtset, hstart, ← h.strict, ← h.lax]
    exact Eval.result_relaxed h.sound _ _ _
  rcases hrelaxed with hsame | hexcused
  · exact hsame
  cases hending : call.ending w with
  | ok id after =>
    rw [hending] at hexcused
    exact False.elim hexcused
  | error failure after =>
    rw [hending] at hexcused
    exact absurd hexcused (hfails failure after hending)

/-- **So a call for a node does the same**, unless it fails with an excuse. -/
theorem tryProject (h : R.Compares w w')
    (hfails : ∀ failure, (w.tryProject r.node r.handle r.args).1 = .error failure →
      ¬ R.excused failure) :
    Alike (w.tryProject r.node r.handle r.args) (w'.tryProject r.node r.handle r.args) := by
  refine alike_tryProject h.graph (h.ending _ fun failure after hending => ?_)
  exact hfails failure (tryProject_fails.mpr ⟨after, hending⟩)

/-- **And so does a call for the edits.** -/
theorem tryInstructions (h : R.Compares w w')
    (hfails : ∀ failure, (w.tryInstructions r.node r.handle r.args).1 = .error failure →
      ¬ R.excused failure) :
    Alike (w.tryInstructions r.node r.handle r.args)
      (w'.tryInstructions r.node r.handle r.args) := by
  refine alike_tryInstructions h.graph (h.ending _ fun failure after hending => ?_)
  exact hfails failure (tryInstructions_fails.mpr ⟨after, hending⟩)

end Relaxation.Compares

end SchemaProjection
