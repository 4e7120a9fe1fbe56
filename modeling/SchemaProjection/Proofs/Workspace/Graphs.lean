import SchemaProjection.Proofs.Pairing.Recording
import SchemaProjection.Proofs.Workspace.Closure

/-!
# Graphs of reachable workspaces

Only three sorts of steps change the graph of a workspace: constructions, derivations from outside,
and runs. A run that fails leaves the graph as it was, and one that succeeds leaves the beginning of
the graph that it has reached. So an invariant of graphs needs one case for each of the three
(`Workspace.Reachable.graph_invariant`).

The first such invariant is that the graph is closed (`Workspace.Reachable.graph_closed`). It is
carried along with every other one, and it asks nothing of the host modules: a value that a host
function returns is checked, and what it writes is not part of the graph.
-/

namespace SchemaProjection

/-- What a run makes of an invariant of graphs: it holds again of what may be kept of the graph that
a successful run has reached. -/
def Run.Keeps (setting : Setting) (P : Graph → Prop) : Prop :=
  ∀ (g : Graph) (m : Metadata) (trace : Option (List Instruction)) (node : NodeId)
    (handle : Handle) (args : List Value) (id : NodeId) (after : Run),
    (Eval.projectNode node handle args).result setting (Run.start g m trace) = .ok id after →
      g.Closed → P g → ∀ n, g.size ≤ n →
        (after.graph.truncate n).Closed → P (after.graph.truncate n)

namespace Workspace

variable {w : Workspace} {P : Graph → Prop}

/-! ### Runs -/

/-- What a run leaves in the graph: all that was there, or the beginning of what it reached. -/
private theorem graph_of_run (hkeeps : Run.Keeps w.setting P) (hclosed : w.graph.Closed)
    (hP : P w.graph) {node : NodeId} {args : List Value} (hnode : w.graph.contains node)
    (hargs : w.graph.Knows args) {handle : Handle} {id : NodeId} {after : Run}
    {trace : Option (List Instruction)} (htrace : refs trace = [])
    (h : (Eval.projectNode node handle args).result w.setting
      (Run.start w.graph w.metadata trace) = .ok id after) {n : Nat} (hn : w.graph.size ≤ n) :
    (after.graph.truncate n).Closed ∧ P (after.graph.truncate n) := by
  obtain ⟨plain, -, -, hunrecorded⟩ := Run.unrecorded_of_ok hclosed hnode hargs htrace h
  have hbeginning := hunrecorded.prefixes n hn
  exact ⟨hbeginning, hkeeps _ _ _ _ _ _ _ _ h hclosed hP n hn hbeginning⟩

private theorem graph_tryProject (hkeeps : Run.Keeps w.setting P) (hclosed : w.graph.Closed)
    (hP : P w.graph) (r : Request) (hr : ∀ id ∈ r.refs, w.graph.contains id) :
    (w.tryProject r.node r.handle r.args).2.graph.Closed ∧
      P (w.tryProject r.node r.handle r.args).2.graph := by
  have hnode : w.graph.contains r.node := hr r.node List.mem_cons_self
  have hargs : w.graph.Knows r.args := fun id hid => hr id (List.mem_cons_of_mem _ hid)
  show (Run.project w.setting w.graph w.metadata r.node r.handle r.args).graph.Closed ∧
    P (Run.project w.setting w.graph w.metadata r.node r.handle r.args).graph
  cases hrun : (Eval.projectNode r.node r.handle r.args).result w.setting
      (Run.start w.graph w.metadata none) with
  | ok id after =>
    have hle : w.graph.size ≤ after.graph.size := by
      have hsteps : Eval.Steps w.setting (Run.start w.graph w.metadata none) false
          (Eval.projectNode r.node r.handle r.args) := Eval.steps_projectNode _ _ _
      exact Graph.size_le_of_le (hsteps.of_ok (Nat.le_refl _) hrun).extends.1
    have hkept := graph_of_run hkeeps hclosed hP hnode hargs rfl hrun hle
    rw [Graph.truncate_of_size_le (Nat.le_refl _)] at hkept
    rw [Run.project_of_ok hrun]
    exact hkept
  | error failure after =>
    obtain ⟨reached, kept, hleaves⟩ :=
      Run.leaves_project w.setting w.graph w.metadata r.node r.handle r.args
    rw [hleaves.graph_of_error (Run.project_of_error hrun)]
    exact ⟨hclosed, hP⟩

private theorem graph_tryInstructions (hkeeps : Run.Keeps w.setting P) (hclosed : w.graph.Closed)
    (hP : P w.graph) (r : Request) (hr : ∀ id ∈ r.refs, w.graph.contains id) :
    (w.tryInstructions r.node r.handle r.args).2.graph.Closed ∧
      P (w.tryInstructions r.node r.handle r.args).2.graph := by
  have hnode : w.graph.contains r.node := hr r.node List.mem_cons_self
  have hargs : w.graph.Knows r.args := fun id hid => hr id (List.mem_cons_of_mem _ hid)
  show (Run.instructions w.setting w.graph w.metadata r.node r.handle r.args).graph.Closed ∧
    P (Run.instructions w.setting w.graph w.metadata r.node r.handle r.args).graph
  cases hrun : (Eval.projectNode r.node r.handle r.args).result w.setting
      (Run.start w.graph w.metadata (some [])) with
  | ok id after =>
    rw [Run.instructions_of_ok hrun, Run.graph_release]
    exact graph_of_run hkeeps hclosed hP hnode hargs rfl hrun (Run.size_le_sizeKept _ _)
  | error failure after =>
    obtain ⟨reached, kept, hleaves⟩ :=
      Run.leaves_instructions w.setting w.graph w.metadata r.node r.handle r.args
    rw [hleaves.graph_of_error (Run.instructions_of_error hrun)]
    exact ⟨hclosed, hP⟩

/-- **A run keeps the invariant**, whichever way it is asked for. -/
theorem graph_after_run (hkeeps : Run.Keeps w.setting P) (hclosed : w.graph.Closed)
    (hP : P w.graph) (call : ProjectionCall) (hr : ∀ id ∈ call.request.refs, w.graph.contains id) :
    (call.after w).graph.Closed ∧ P (call.after w).graph := by
  -- the calls that report a failure leave the graph of those that return it
  cases call with
  | tryProject r => exact graph_tryProject hkeeps hclosed hP r hr
  | project r => exact graph_tryProject hkeeps hclosed hP r hr
  | tryInstructions r => exact graph_tryInstructions hkeeps hclosed hP r hr
  | instructions r => exact graph_tryInstructions hkeeps hclosed hP r hr

/-! ### All steps -/

/-- A call of an export from outside a run changes metadata only. -/
theorem callExport_frame (w : Workspace) (sort : Host.ExportSort) (name : String)
    (args : List Value) :
    (w.callExport sort name args).2 = w ∨
      ∃ f, Host.find? w.hosts sort name = some f ∧ (w.callExport sort name args).2 =
        { w with metadata := f.metadataAfter args w.graph w.metadata } := by
  unfold Workspace.callExport
  cases hfound : Host.find? w.hosts sort name with
  | none => exact .inl rfl
  | some f =>
    refine .inr ⟨f, rfl, ?_⟩
    dsimp only [Host.Function.metadataAfter]
    cases ((f args).run w.graph).run w.metadata <;> rfl

theorem callFunction_frame (w : Workspace) (name : String) (args : List Value) :
    ∃ metadata, (w.callFunction name args).2 = { w with metadata } := by
  rcases w.callExport_frame .function name args with hsame | ⟨f, -, hafter⟩
  · exact ⟨w.metadata, hsame⟩
  · exact ⟨_, hafter⟩

theorem callDecorator_frame (w : Workspace) (name : String) (node : NodeId) (args : List Value) :
    ∃ metadata, (w.callDecorator name node args).2 = { w with metadata } := by
  unfold Workspace.callDecorator
  split
  · exact ⟨w.metadata, rfl⟩
  · rcases w.callExport_frame .decorator name (.type node :: args) with hsame | ⟨f, -, hafter⟩
    · exact ⟨w.metadata, hsame⟩
    · exact ⟨_, hafter⟩

section

variable {sort : Host.ExportSort} {name : String} {f : Host.Function} {args : List Value}
  {after : Metadata}

/-- **A call of an export that is found**, by what the export comes to. -/
theorem callExport_of_ok (hfound : Host.find? w.hosts sort name = some f) {value : Value}
    (h : (f args).result w.graph w.metadata = .ok value after) :
    w.callExport sort name args = (.ok value, { w with metadata := after }) := by
  rw [Host.Call.result] at h
  rw [callExport, hfound]
  dsimp only
  rw [h]

theorem callExport_of_error (hfound : Host.find? w.hosts sort name = some f) {fault : Host.Fault}
    (h : (f args).result w.graph w.metadata = .error fault after) :
    w.callExport sort name args = (.error (.failed fault), { w with metadata := after }) := by
  rw [Host.Call.result] at h
  rw [callExport, hfound]
  dsimp only
  rw [h]

end

/-- **Only imports change the modules**, and they append to them. -/
theorem hosts_after (w : Workspace) (e : Event) : (w.after e).hosts = w.hosts ++ e.imports := by
  cases e with
  | importModule m => rfl
  | construct | derive =>
    rw [Workspace.after, build_eq]
    exact (List.append_nil _).symm
  | declare file text =>
    obtain ⟨declarations, hdeclare⟩ := w.declare_frame file text
    rw [Workspace.after, hdeclare]
    exact (List.append_nil _).symm
  | callDecorator name node args =>
    obtain ⟨metadata, hcall⟩ := w.callDecorator_frame name node args
    rw [Workspace.after, hcall]
    exact (List.append_nil _).symm
  | callFunction name args =>
    obtain ⟨metadata, hcall⟩ := w.callFunction_frame name args
    rw [Workspace.after, hcall]
    exact (List.append_nil _).symm
  | run call =>
    have hsame : (call.after w).hosts = w.hosts :=
      congrArg Setting.hosts (w.setting_after_run call)
    exact hsame.trans (List.append_nil _).symm
  | setOptions | writeMetadata | deleteMetadata | takeDiagnostics =>
    exact (List.append_nil _).symm

theorem hosts_foldl_after (w : Workspace) (es : List Event) :
    (es.foldl after w).hosts = w.hosts ++ es.flatMap Event.imports := by
  induction es generalizing w with
  | nil => exact (List.append_nil _).symm
  | cons e rest ih =>
    rw [List.foldl_cons, ih, hosts_after, List.append_assoc, List.flatMap_cons]

/-- **An invariant of graphs.** It holds of the graph of every reachable workspace if it holds at
the start and constructions, derivations and runs preserve it, on closed graphs. -/
theorem Reachable.graph_invariant {admits : Event → Prop} (hstart : P .initial)
    (hconstruct : ∀ g (c : Construction), (∀ id ∈ c.refs, g.contains id) → g.Closed → P g →
      P (c.action.graphAfter g))
    (hderive : ∀ g (d : Derivation), admits (.derive d) → (∀ id ∈ d.refs, g.contains id) →
      g.Closed → P g → P (d.action.graphAfter g))
    (hrun : ∀ setting, Run.Keeps setting P) (h : w.Reachable admits) :
    w.graph.Closed ∧ P w.graph := by
  refine Reachable.invariant (P := fun w => w.graph.Closed ∧ P w.graph)
    ⟨Graph.closed_initial, hstart⟩ ?_ h
  rintro w e ⟨hclosed, hP⟩ hadmits hknows
  cases e with
  | construct c =>
    rw [Workspace.after, build_eq]
    have hchanged := (c.changes hknows (hclosed.intrinsics .null)).changed
    exact ⟨hchanged.closed hclosed, hconstruct w.graph c hknows hclosed hP⟩
  | derive d =>
    rw [Workspace.after, build_eq]
    have hchanged := (d.changes hclosed hknows).changed
    exact ⟨hchanged.closed hclosed, hderive w.graph d hadmits hknows hclosed hP⟩
  | declare file text =>
    obtain ⟨declarations, hdeclare⟩ := w.declare_frame file text
    rw [Workspace.after, hdeclare]
    exact ⟨hclosed, hP⟩
  | callDecorator name node args =>
    obtain ⟨metadata, hcall⟩ := w.callDecorator_frame name node args
    rw [Workspace.after, hcall]
    exact ⟨hclosed, hP⟩
  | callFunction name args =>
    obtain ⟨metadata, hcall⟩ := w.callFunction_frame name args
    rw [Workspace.after, hcall]
    exact ⟨hclosed, hP⟩
  | run call => exact graph_after_run (hrun w.setting) hclosed hP call hknows
  | importModule m => exact ⟨hclosed, hP⟩
  | setOptions options => exact ⟨hclosed, hP⟩
  | writeMetadata key node value => exact ⟨hclosed, hP⟩
  | deleteMetadata key node => exact ⟨hclosed, hP⟩
  | takeDiagnostics => exact ⟨hclosed, hP⟩

/-- **The graph of every reachable workspace is closed**, with any host modules. -/
theorem Reachable.graph_closed {admits : Event → Prop} (h : w.Reachable admits) :
    w.graph.Closed :=
  (h.graph_invariant (P := fun _ => True) trivial (fun _ _ _ _ _ => trivial)
    (fun _ _ _ _ _ _ => trivial) fun _ _ _ _ _ _ _ _ _ _ _ _ _ _ _ => trivial).1

end Workspace

end SchemaProjection
