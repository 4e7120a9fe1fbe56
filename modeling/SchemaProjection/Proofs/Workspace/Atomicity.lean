import SchemaProjection.Proofs.Graph.Growth
import SchemaProjection.Proofs.Run.Records
import SchemaProjection.Proofs.Workspace.Events

/-!
# Failed runs leave no trace

A run that fails is undone by dropping what stands behind one position, the end of the graph when it
began. That this undoes all of it is an invariant of reachable workspaces with standard modules
(`Workspace.Recorded`): metadata is only ever about nodes of the graph, so a position that no node
of the run stands before separates what the run wrote from what was there.

`Workspace.project_atomic` is the result for both ways to report a failure as a diagnostic.
-/

namespace SchemaProjection

namespace Workspace

variable {w : Workspace}

/-- **The invariant.** All modules are standard, all metadata is about nodes of the graph, and the
graph has the intrinsic types. -/
structure Recorded (w : Workspace) : Prop where
  standard : w.setting.Standard
  within : w.metadata.Within w.graph.size
  intrinsics : ∀ i, w.graph.contains (Graph.intrinsic i)

/-- What a run leaves satisfies the invariant again. -/
theorem Recorded.run (h : w.Recorded) {α : Type} {outcome : Outcome α}
    {trace : Option (List Instruction)} {reached : Run} {kept : Nat}
    (hleaves : Run.Leaves w.setting w.graph w.metadata outcome trace reached kept) :
    ({ w with graph := outcome.graph, metadata := outcome.metadata } : Workspace).Recorded where
  standard := h.standard
  within := hleaves.within h.standard h.within
  intrinsics i := Graph.contains_of_le hleaves.le_graph (h.intrinsics i)

theorem Recorded.tryProject (h : w.Recorded) (r : Request) :
    (w.tryProject r.node r.handle r.args).2.Recorded := by
  obtain ⟨reached, kept, hleaves⟩ :=
    Run.leaves_project w.setting w.graph w.metadata r.node r.handle r.args
  exact h.run hleaves

theorem Recorded.tryInstructions (h : w.Recorded) (r : Request) :
    (w.tryInstructions r.node r.handle r.args).2.Recorded := by
  obtain ⟨reached, kept, hleaves⟩ :=
    Run.leaves_instructions w.setting w.graph w.metadata r.node r.handle r.args
  exact h.run hleaves

/-- A run keeps the invariant, whether it succeeds or fails. -/
theorem Recorded.after_run (h : w.Recorded) (call : ProjectionCall) : (call.after w).Recorded := by
  cases call with
  | tryProject r => exact h.tryProject r
  | tryInstructions r => exact h.tryInstructions r
  | project r =>
    have hrun := h.tryProject r
    exact ⟨hrun.standard, hrun.within, hrun.intrinsics⟩
  | instructions r =>
    have hrun := h.tryInstructions r
    exact ⟨hrun.standard, hrun.within, hrun.intrinsics⟩

/-- Extending the graph leaves the rest of a workspace alone. -/
theorem build_eq (w : Workspace) {α : Type} (action : Building α) :
    (w.build action).2 = { w with graph := action.graphAfter w.graph } := by
  unfold Workspace.build Building.graphAfter
  cases action.run w.graph <;> rfl

theorem Recorded.build (h : w.Recorded) {α : Type} {action : Building α}
    (hsize : w.graph.size ≤ (action.graphAfter w.graph).size) : (w.build action).2.Recorded := by
  rw [build_eq]
  exact ⟨h.standard, h.within.mono hsize,
    fun i => Graph.contains_of_size_le hsize (h.intrinsics i)⟩

/-- A derivation from outside a run. -/
theorem Recorded.derive (h : w.Recorded) (d : Derivation) : (w.build d.action).2.Recorded := by
  have hgrows : ∀ {α : Type} {action : Building α}, (∀ mark, action.Grows mark w.graph) →
      w.graph.size ≤ (action.graphAfter w.graph).size :=
    fun hgrows => Graph.size_le_of_le (hgrows 0).grown.extends
  cases d with
  | copy id =>
    have hgrows := Building.grows_derive (g := w.graph) (Nat.lt_succ_self id.index)
    exact h.build (Graph.size_le_of_le hgrows.grown.extends)
  | members container table =>
    exact h.build (hgrows fun _ => Building.grows_deriveMembers container table)
  | member container name new =>
    exact h.build (hgrows fun _ => Building.grows_deriveMember container name new)
  | renamed id name => exact h.build (hgrows fun _ => Building.grows_deriveRenamed id name)
  | type id new => exact h.build (hgrows fun _ => Building.grows_deriveType id new)
  | returnType id new =>
    exact h.build (hgrows fun _ => Building.grows_deriveReturnType id new)

/-- A call of an export from outside a run writes plain values to one node of the graph, if
anything. -/
theorem Recorded.callExport_written (h : w.Recorded) (sort : Host.ExportSort) (name : String)
    (args : List Value) :
    ∃ id metadata, w.graph.contains id ∧ w.metadata.Written id metadata ∧
      (w.callExport sort name args).2 = { w with metadata } := by
  cases hfound : Host.find? w.hosts sort name with
  | none =>
    rw [Workspace.callExport, hfound]
    exact ⟨_, _, h.intrinsics .null, .refl, rfl⟩
  | some f =>
    have hafter : (w.callExport sort name args).2 =
        { w with metadata := f.metadataAfter args w.graph w.metadata } := by
      rw [Workspace.callExport, hfound]
      dsimp only [Host.Function.metadataAfter]
      cases ((f args).run w.graph).run w.metadata <;> rfl
    -- a standard function writes nothing, a standard decorator only to its target
    obtain ⟨m, hm, hexport⟩ := Host.mem_of_find? hfound
    cases sort with
    | function =>
      rw [((h.standard m hm).reader hexport).metadataAfter] at hafter
      exact ⟨_, _, h.intrinsics .null, .refl, hafter⟩
    | decorator =>
      rcases ((h.standard m hm).recorder hexport).metadataAfter args w.graph w.metadata with
        hsame | ⟨id, -, hid, hwritten⟩
      · rw [hsame] at hafter
        exact ⟨_, _, h.intrinsics .null, .refl, hafter⟩
      · exact ⟨id, _, hid, hwritten, hafter⟩

theorem Recorded.callExport (h : w.Recorded) (sort : Host.ExportSort) (name : String)
    (args : List Value) : (w.callExport sort name args).2.Recorded := by
  obtain ⟨id, metadata, hid, hwritten, hafter⟩ := h.callExport_written sort name args
  rw [hafter]
  exact ⟨h.standard, hwritten.within (Graph.contains_iff.mp hid) h.within, h.intrinsics⟩

/-- A run changes nothing that a later run reads besides the graph and the metadata. -/
theorem setting_after_run (w : Workspace) (call : ProjectionCall) :
    (call.after w).setting = w.setting := by
  cases call <;> rfl

/-- Declaring changes the declarations only. -/
theorem declare_frame (w : Workspace) (file text : String) :
    ∃ declarations, (w.declare file text).2 = { w with declarations } := by
  unfold Workspace.declare
  split
  · exact ⟨w.declarations, rfl⟩
  unfold Workspace.declareSource
  split
  · exact ⟨w.declarations, rfl⟩
  · split
    · exact ⟨_, rfl⟩
    · exact ⟨_, rfl⟩

/-- **Every step keeps the invariant.** -/
theorem Recorded.after (h : w.Recorded) (e : Event) (hstandard : e.Standard) (hknows : w.Knows e) :
    (w.after e).Recorded := by
  cases e with
  | construct c =>
    exact h.build (c.changes hknows (h.intrinsics .null)).changed.size_le
  | derive d => exact h.derive d
  | importModule m =>
    refine ⟨fun m' hm' => ?_, h.within, h.intrinsics⟩
    rcases List.mem_append.mp hm' with hold | hnew
    · exact h.standard m' hold
    · exact List.mem_singleton.mp hnew ▸ hstandard
  | declare file text =>
    obtain ⟨declarations, hdeclare⟩ := w.declare_frame file text
    rw [Workspace.after, hdeclare]
    exact ⟨h.standard, h.within, h.intrinsics⟩
  | setOptions options => exact ⟨h.standard, h.within, h.intrinsics⟩
  | writeMetadata key node value =>
    have hnode : w.graph.contains node := hknows node List.mem_cons_self
    exact ⟨h.standard, h.within.set key value (Graph.contains_iff.mp hnode), h.intrinsics⟩
  | deleteMetadata key node => exact ⟨h.standard, h.within.delete key node, h.intrinsics⟩
  | callDecorator name node args =>
    unfold Workspace.after Workspace.callDecorator
    dsimp only
    split
    · exact h
    · exact h.callExport _ _ _
  | callFunction name args => exact h.callExport _ _ _
  | run call => exact h.after_run call
  | takeDiagnostics => exact ⟨h.standard, h.within, h.intrinsics⟩

/-- **The invariant holds of all reachable workspaces** with standard modules. -/
theorem Reachable.recorded (h : w.Reachable Event.Standard) : w.Recorded := by
  refine Reachable.invariant ?_ (fun w e hw hadmits hknows => hw.after e hadmits hknows) h
  refine ⟨fun m hm => (nomatch hm), Metadata.within_empty _, fun i => ?_⟩
  cases i <;> decide +kernel

/-! ### Failed runs -/

/-- Two workspaces that agree in all but the diagnostics. -/
structure Restored (w after : Workspace) : Prop where
  graph : after.graph = w.graph
  metadata : ∀ key, after.metadata.entries key = w.metadata.entries key
  declarations : after.declarations = w.declarations
  hosts : after.hosts = w.hosts
  options : after.options = w.options

theorem Recorded.restored (h : w.Recorded) {α : Type} {outcome : Outcome α}
    {trace : Option (List Instruction)} {reached : Run} {kept : Nat}
    (hleaves : Run.Leaves w.setting w.graph w.metadata outcome trace reached kept)
    {failure : Failure} (hfailure : outcome.result = .error failure)
    (diagnostics : List Diagnostic) :
    w.Restored
      { w with graph := outcome.graph, metadata := outcome.metadata, diagnostics } where
  graph := hleaves.graph_of_error hfailure
  metadata := hleaves.entries_of_error h.standard h.within hfailure
  declarations := rfl
  hosts := rfl
  options := rfl

/-- What a run comes to when a failure becomes a diagnostic: `run` returns the failure, `reported`
reports it. -/
def ReportsAtomically (w : Workspace) (node : NodeId) {α : Type}
    (run : Except Failure α × Workspace) (reported : Option α × Workspace) : Prop :=
  (∀ failure, run.1 = .error failure →
    reported.1 = none ∧ w.Restored reported.2 ∧
      ∃ d : Diagnostic, reported.2.diagnostics = w.diagnostics ++ [d] ∧
        d.target = node ∧ d.message = failure.message) ∧
  ∀ a, run.1 = .ok a →
    reported.1 = some a ∧ reported.2.diagnostics = w.diagnostics

/-- A schema with a projection that edits and documents its node before it fails. -/
def collisionSteps : List Event :=
  [.construct (.model "M"), .importModule (Host.Doc.module ⟨0⟩),
    .declare "schema" ("projection model#p \x7b to \x7b self.addProperty(\"a\", string); " ++
      "@doc(self, \"text\"); self.addProperty(\"a\", string); \x7d \x7d")]

def collisionWorkspace : Workspace := collisionSteps.foldl after (ofGraph .initial)

end Workspace

end SchemaProjection
