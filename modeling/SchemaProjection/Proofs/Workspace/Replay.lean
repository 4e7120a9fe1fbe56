import SchemaProjection.Proofs.Pairing.Policies
import SchemaProjection.Proofs.Run.Replaying
import SchemaProjection.Proofs.Workspace.Recording

/-!
# Instructions can be replayed

A client that asks for the edits of a projection replays them on the members that the node has. This
leads where the projection itself leads: `Workspace.trace_replays` says that the replay never gets
stuck, that it ends with the names of the members of the result, in their order, and that a member
that no instruction has replaced is still there.

Two things are not edits. A projection that executes a `return` has the returned node as its result
(`Workspace.returns`). And a decorator on a member is applied to a copy of it, which takes its place
without a record; whether a run does that to a member is asked by refusing it
(`Workspace.decorates`).
-/

namespace SchemaProjection.Workspace

/-- The outermost activation at the end of a recorded run. -/
def finalActivation? (w : Workspace) (r : Request) : Option Activation := do
  let projection ← w.declarations.get? r.handle.projection
  let tree ← projection.direction? r.handle.direction
  match ((evaluator w.setting.bodyLevels).block tree.body).result w.setting
      (Run.outset w.graph w.metadata (some []) r.node projection r.handle.direction tree
        r.args) with
  | .ok _ finished => finished.activations.getLast?
  | .error _ _ => none

/-- Whether a run executes a `return` in the outermost activation. -/
def returns (w : Workspace) (r : Request) : Bool := (w.finalActivation? r).any Activation.returning

/-- Whether a run applies a decorator to a member in the outermost activation: it does not succeed
if that is refused. -/
def decorates (w : Workspace) (r : Request) (id : NodeId) : Bool :=
  match (Eval.projectUnder (Run.sparing id) r.node r.handle r.args).result w.setting
      (Run.start w.graph w.metadata (some [])) with
  | .ok _ _ => false
  | .error _ _ => true

/-- **What the instructions of a call tell about its result**, given the members of the source and
the graph that has the result. -/
structure Replayed (w : Workspace) (r : Request) (members : NameTable)
    (instructions : List Instruction) (g : Graph) (result : NodeId) : Prop where
  lineage : r.node ∈ g.lineage result
  /-- The replay does not get stuck, and it ends with the members of the result. -/
  replay : ∃ left final, Instruction.replay instructions members.unreplaced = some left ∧
    (g.shape result).members? = some final ∧ left.map Prod.fst = final.keys ∧
    ∀ name id, (name, some id) ∈ left → final.get? name = some id ∨ w.decorates r id

section

variable {w : Workspace} {r : Request} {members : NameTable} (hclosed : w.graph.Closed)
  (hargs : w.graph.Knows r.args) (hmembers : (w.graph.shape r.node).members? = some members)

/-- Where the body of a recorded run starts. -/
private def outset (w : Workspace) (r : Request) (projection : Projection) (tree : DirectionTree) :
    Run :=
  .outset w.graph w.metadata (some []) r.node projection r.handle.direction tree r.args

/-! ### Both calls -/

include hclosed hargs in
/-- If the call for the node succeeds, so does the recorded run, and the call for the instructions
returns its trace. -/
private theorem recorded_of_tryProject (hnode : w.graph.contains r.node) {result : NodeId}
    (h : (w.tryProject r.node r.handle r.args).1 = .ok result) :
    ∃ after, (Eval.projectNode r.node r.handle r.args).result w.setting
        (Run.start w.graph w.metadata (some [])) = .ok result after ∧
      (w.tryProject r.node r.handle r.args).2.graph = after.graph ∧
      (w.tryInstructions r.node r.handle r.args).1 = .ok (after.trace.getD []) := by
  have hresult : (Run.project w.setting w.graph w.metadata r.node r.handle r.args).result =
    .ok result := h
  cases hrun : (Eval.projectNode r.node r.handle r.args).result w.setting
      (Run.start w.graph w.metadata (some [])) with
  | error failure after =>
    obtain ⟨plain, hplain⟩ := Run.unrecorded_of_error hclosed hnode hargs rfl hrun
    rw [Run.project_of_error hplain] at hresult
    cases hresult
  | ok id after =>
    obtain ⟨plain, hplain, -, hunrecorded⟩ := Run.unrecorded_of_ok hclosed hnode hargs rfl hrun
    rw [Run.project_of_ok hplain] at hresult
    cases hresult
    refine ⟨after, rfl, ?_, ?_⟩
    · unfold tryProject
      rw [Run.project_of_ok hplain]
      exact hunrecorded.graph
    · unfold tryInstructions
      rw [Run.instructions_of_ok hrun]

/-- The outermost activation is what the body leaves. -/
private theorem returns_of_body {projection : Projection} {tree : DirectionTree} {flow : Flow}
    {finished : Run} {a : Activation}
    (hprojection : w.declarations.get? r.handle.projection = some projection)
    (htree : projection.direction? r.handle.direction = some tree)
    (hbody : ((evaluator w.setting.bodyLevels).block tree.body).result w.setting
      (outset w r projection tree) = .ok flow finished)
    (hstack : finished.activations = [a]) : w.returns r = a.returning := by
  have hfinal : w.finalActivation? r = some a := by
    unfold outset at hbody
    unfold finalActivation?
    rw [hprojection]
    simp only [Option.bind_eq_bind, Option.bind_some, htree, hbody, hstack,
      List.getLast?_singleton]
  rw [returns, hfinal]
  rfl

/-! ### The trace of a body -/

include hclosed hmembers in
/-- **A body without a `return`** ends with a node that is what the trace says, if the policy spares
the kept members. -/
private theorem replays_of_body {kept : NodeId → Prop} {allows : Run → NodeId → Bool}
    (hkept : ∀ {run : Run} {node : NodeId}, allows run node → run.depth = 1 →
      ∀ id, kept id → run.decoratedMember? node ≠ some id)
    {projection : Projection} {tree : DirectionTree} {flow : Flow} {finished : Run} {a : Activation}
    (hbody : ((Evaluation.governed allows w.setting.bodyLevels).block tree.body).result w.setting
      (outset w r projection tree) = .ok flow finished)
    (hstack : finished.activations = [a]) (hreturning : a.returning = false) :
    Replays kept r.node members.unreplaced finished.graph finished.trace a.self := by
  have hrecord := (Evaluation.governed_advances allows w.setting _).block tree.body flow finished
    hbody
  have hstart : (outset w r projection tree).Tracks kept r.node members.unreplaced :=
    ⟨_, rfl, rfl, fun _ => .start hmembers⟩
  obtain ⟨b, hb, -, hreplays⟩ := hrecord.tracks hkept (Nat.le_refl _) hclosed.ordered hstart
  cases hstack.symm.trans hb
  exact hreplays hreturning

include hclosed hargs hmembers in
/-- **A member that no decorator goes to**: the body does the same if such decorators are refused,
so the member is kept. -/
private theorem kept_of_spared {id : NodeId} (hspared : w.decorates r id = false)
    {projection : Projection} {tree : DirectionTree} {flow : Flow} {finished : Run} {a : Activation}
    (hprojection : w.declarations.get? r.handle.projection = some projection)
    (htree : projection.direction? r.handle.direction = some tree)
    (hbody : ((evaluator w.setting.bodyLevels).block tree.body).result w.setting
      (outset w r projection tree) = .ok flow finished)
    (hstack : finished.activations = [a]) (hreturning : a.returning = false) :
    Replays (· = id) r.node members.unreplaced finished.graph finished.trace a.self := by
  cases hrun : (Eval.projectUnder (Run.sparing id) r.node r.handle r.args).result w.setting
      (Run.start w.graph w.metadata (some [])) with
  | error failure after =>
    rw [decorates, hrun] at hspared
    cases hspared
  | ok result after =>
    obtain ⟨hnode, projection', tree', flow', finished', a', _, hprojection', htree', hbody',
      hstack', -, -⟩ := Eval.ok_of_projectUnder hrun
    cases hprojection.symm.trans hprojection'
    cases htree.symm.trans htree'
    -- it is the same body, so it ends in the same way
    obtain ⟨plain, hplain, hgraph, hactivations, htrace⟩ :=
      Run.plain_of_governed hclosed hnode hargs hbody'
    cases hbody.symm.trans hplain
    cases hstack.symm.trans (hactivations.trans hstack')
    rw [hgraph, htrace]
    refine replays_of_body hclosed hmembers ?_ hbody' hstack' hreturning
    rintro run node hallowed hdepth other rfl
    exact Run.of_sparing hallowed hdepth

end

/-! ### The result -/

/-- **The trace replays.** If a call for a node succeeds without executing a `return`, the call for
the instructions succeeds, too, and replaying them on the members of the source leads to the members
of the result. -/
theorem trace_replays {w : Workspace} {admits : Event → Prop} (hw : w.Reachable admits)
    (r : Request) (hargs : w.graph.Knows r.args) {members : NameTable}
    (hmembers : (w.graph.shape r.node).members? = some members) {result : NodeId}
    (hproject : (w.tryProject r.node r.handle r.args).1 = .ok result)
    (hreturns : w.returns r = false) :
    ∃ instructions, (w.tryInstructions r.node r.handle r.args).1 = .ok instructions ∧
      w.Replayed r members instructions (w.tryProject r.node r.handle r.args).2.graph result := by
  have hclosed := hw.graph_closed
  have hnode := Graph.contains_of_members? hmembers
  obtain ⟨after, hrun, hgraph, hinstructions⟩ :=
    recorded_of_tryProject hclosed hargs hnode hproject
  rw [← Eval.projectUnder_all] at hrun
  obtain ⟨-, projection, tree, flow, finished, a, memo, hprojection, htree, hbody, hstack, rfl,
    rfl⟩ := Eval.ok_of_projectUnder hrun
  have hplain : ((evaluator w.setting.bodyLevels).block tree.body).result w.setting
      (outset w r projection tree) = .ok flow finished := by
    rw [← Evaluation.governed_all]
    exact hbody
  have hreturning : a.returning = false :=
    (returns_of_body hprojection htree hplain hstack).symm.trans hreturns
  have hreplays : Replays (fun _ => False) r.node members.unreplaced finished.graph finished.trace
      a.self := replays_of_body hclosed hmembers (fun _ _ _ h => h.elim) hbody hstack hreturning
  obtain ⟨is, left, final, htrace, hfinal, hreplay, hagrees⟩ := hreplays.members
  refine ⟨_, hinstructions, ?_⟩
  have hrecorded : finished.trace.getD [] = is := by
    rw [htrace]
    rfl
  rw [hgraph]
  refine ⟨hreplays.lineage, left, final, ?_, hfinal, hagrees.names, fun name id he => ?_⟩
  · show Instruction.replay (finished.trace.getD []) _ = _
    rw [hrecorded]
    exact hreplay
  cases hdecorates : w.decorates r id with
  | true => exact .inr rfl
  | false =>
    have hkept := kept_of_spared hclosed hargs hmembers hdecorates hprojection htree hplain hstack
      hreturning
    -- it is the same replay, with one member more that is known to be kept
    obtain ⟨is', left', final', htrace', hfinal', hreplay', hagrees'⟩ := hkept.members
    cases htrace.symm.trans htrace'
    cases hreplay.symm.trans hreplay'
    cases hfinal.symm.trans hfinal'
    exact .inl (hagrees'.get?_of_mem he rfl)

/-- A schema with four properties and a projection that renames the first one, documents the second
one, sets the type of the third one, and adds another under the free name. -/
def editedSteps : List Event :=
  [.construct (.model "M"), .construct (.property ⟨25⟩ "a" ⟨4⟩ false),
    .construct (.property ⟨25⟩ "b" ⟨4⟩ false), .construct (.property ⟨25⟩ "c" ⟨4⟩ false),
    .construct (.property ⟨25⟩ "d" ⟨4⟩ false), .importModule (Host.Doc.module ⟨0⟩),
    .declare "schema" ("projection model#p \x7b to \x7b self.renameProperty(\"a\", \"x\"); " ++
      "@doc(self.getProperty(\"b\"), \"text\"); self.getProperty(\"c\").setType(boolean); " ++
      "self.addProperty(\"a\", string); \x7d \x7d")]

def editedWorkspace : Workspace := editedSteps.foldl after (ofGraph .initial)

def editProperties : Request := ⟨⟨25⟩, ⟨⟨0⟩, .forward⟩, []⟩

/-- Two of the old properties are not replaced by an instruction. The documented one has got a copy;
the other one is the last old property, and it stays. -/
theorem trace_replays_edited :
    editedWorkspace.Reachable (fun _ => True) ∧
      editedWorkspace.graph.Knows editProperties.args ∧
      ∃ members, (editedWorkspace.graph.shape ⟨25⟩).members? = some members ∧
        (editedWorkspace.tryProject ⟨25⟩ ⟨⟨0⟩, .forward⟩ []).1 = .ok ⟨37⟩ ∧
        editedWorkspace.returns editProperties = false ∧
        (Graph.shape (editedWorkspace.tryProject ⟨25⟩ ⟨⟨0⟩, .forward⟩ []).2.graph ⟨37⟩).members?.map
            NameTable.entries =
          some [("x", ⟨30⟩), ("b", ⟨32⟩), ("c", ⟨34⟩), ("d", ⟨29⟩), ("a", ⟨36⟩)] ∧
        editedWorkspace.decorates editProperties ⟨27⟩ = true ∧
        editedWorkspace.decorates editProperties ⟨29⟩ = false ∧
        ∃ instructions,
          (editedWorkspace.tryInstructions ⟨25⟩ ⟨⟨0⟩, .forward⟩ []).1 = .ok instructions ∧
          editedWorkspace.Replayed editProperties members instructions
            (editedWorkspace.tryProject ⟨25⟩ ⟨⟨0⟩, .forward⟩ []).2.graph ⟨37⟩ := by
  have hreachable : editedWorkspace.Reachable (fun _ => True) :=
    Reachable.start.steps (fun _ _ => trivial) (by decide +kernel)
  have hargs : editedWorkspace.graph.Knows editProperties.args := fun _ hid => nomatch hid
  -- what the runs come to, evaluated once
  have hruns : (editedWorkspace.graph.shape editProperties.node).members? =
        some ⟨[("a", ⟨26⟩), ("b", ⟨27⟩), ("c", ⟨28⟩), ("d", ⟨29⟩)], by decide⟩ ∧
      (editedWorkspace.tryProject ⟨25⟩ ⟨⟨0⟩, .forward⟩ []).1.toOption = some ⟨37⟩ ∧
      editedWorkspace.returns editProperties = false ∧
      (Graph.shape (editedWorkspace.tryProject ⟨25⟩ ⟨⟨0⟩, .forward⟩ []).2.graph ⟨37⟩).members?.map
        NameTable.entries = some [("x", ⟨30⟩), ("b", ⟨32⟩), ("c", ⟨34⟩), ("d", ⟨29⟩), ("a", ⟨36⟩)] ∧
      editedWorkspace.decorates editProperties ⟨27⟩ = true ∧
      editedWorkspace.decorates editProperties ⟨29⟩ = false := by
    decide +kernel
  obtain ⟨hmembers, hproject, hreturns, hentries, hcopied, hspared⟩ := hruns
  have hproject := ok_of_toOption hproject
  exact ⟨hreachable, hargs, _, hmembers, hproject, hreturns, hentries, hcopied, hspared,
    trace_replays hreachable editProperties hargs hmembers hproject hreturns⟩

end SchemaProjection.Workspace
