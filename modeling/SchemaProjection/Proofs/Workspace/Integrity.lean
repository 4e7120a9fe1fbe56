import SchemaProjection.Proofs.Graph.Builders
import SchemaProjection.Proofs.Workspace.Recording

/-!
# The graph stays whole

Builders change containers in place, derivations share the members of what they copy, and a run
releases what it allocated, or part of it, and hands the ids out again. None of this ever leaves a
reference behind that leads out of the graph.

`Workspace.graph_whole` is the result, for every reachable workspace with any host modules: the
graph is **whole** (`Graph.Whole`), and all nodes that the answer to a call names
(`ProjectionCall.returned`) are in the graph that the call leaves. That the graph is closed is
`Workspace.Reachable.graph_closed`; that it is faithful is proved here in the same way.
-/

namespace SchemaProjection

/-! ### Whole graphs -/

/-- **Whole graphs.** A node has its position as its id; origins stand before the nodes derived from
them and are of their kind; whatever a node refers to is in the graph; and a declaration is a node
of the declared name without an origin.

The first clause holds of every graph, since positions are how ids are represented; the others rest
on how a graph was built. -/
structure Graph.Whole (g : Graph) : Prop where
  ids : ∀ (i : Nat) (h : i < g.nodes.size), g.node? ⟨i⟩ = some g.nodes[i]
  origins : ∀ id origin, g.origin? id = some origin →
    origin.index < id.index ∧ g.kind origin = g.kind id
  references : ∀ id, ∀ r ∈ (g.shape id).refs, g.contains r
  declarations : ∀ name id, g.lookup? name = some id →
    g.contains id ∧ (g.shape id).name? = some name ∧ g.origin? id = none

/-- A graph that is closed and faithful is whole. -/
theorem Graph.Closed.whole {g : Graph} (hclosed : g.Closed) (hg : g.Faithful) : g.Whole where
  ids _ h := Array.getElem?_eq_getElem h
  origins id origin h := ⟨hg.ordered id origin h, hg.kinds id origin h⟩
  references id r hr := hclosed.knows_shape id r hr
  declarations name id h := by
    have hentry : (name, id) ∈ g.globals.entries := NameTable.get?_iff.mp h
    exact ⟨hg.contains_declared hentry, hg.declared _ hentry⟩

/-! ### Runs -/

namespace Run

variable {setting : Setting}

/-- **A run keeps a graph faithful**, move by move. -/
theorem Reaches.faithful {r₁ r₂ : Run} (h : Reaches setting r₁ r₂) (hbegun : r₁.Begun)
    (hfaithful : r₁.graph.Faithful) : r₂.graph.Faithful := by
  have hinvariant : r₂.Begun ∧ r₂.graph.Faithful := by
    refine h.preserves (P := fun r => r.Begun ∧ r.graph.Faithful) ?_ ⟨hbegun, hfaithful⟩
    rintro s t hmove ⟨hs, hgraph⟩
    refine ⟨hmove.reaches.begun hs, ?_⟩
    cases hmove with
    | create shape => exact hgraph.create shape
    | derive id shape known same_kind =>
      have hid : s.graph.contains id := known.elim (fun hin => hin) fun hlt =>
        Graph.contains_iff.mpr (Nat.lt_of_lt_of_le hlt hs)
      exact hgraph.push fun origin h => Option.some.inj h ▸ ⟨hid, same_kind⟩
    | host | stack | memo | trace => exact hgraph
  exact hinvariant.2

/-- What is kept of a run is faithful. -/
theorem keeps_faithful (setting : Setting) : Run.Keeps setting Graph.Faithful := by
  intro g m trace node handle args id after h _ hg n _ hclosed
  have hsteps : Eval.Steps setting (Run.start g m trace) false
      (Eval.projectNode node handle args) := Eval.steps_projectNode _ _ _
  have hreached := (hsteps.of_ok (Nat.le_refl _) h).faithful (Nat.le_refl _) hg
  exact hreached.of_le (Graph.truncate_le _ n) hclosed.globals

end Run

/-! ### Reachable workspaces -/

/-- A derivation from outside a run. -/
theorem Derivation.faithful {g : Graph} (d : Derivation) (hknown : ∀ id ∈ d.refs, g.contains id)
    (hg : g.Faithful) : (d.action.graphAfter g).Faithful := by
  have hgrown : Building.Grows g.size g d.action := by
    cases d with
    | copy id =>
      exact Building.grows_derive (Graph.contains_iff.mp (hknown id List.mem_cons_self))
    | members container table => exact Building.grows_deriveMembers container table
    | member container name new => exact Building.grows_deriveMember container name new
    | renamed id name => exact Building.grows_deriveRenamed id name
    | type id new => exact Building.grows_deriveType id new
    | returnType id new => exact Building.grows_deriveReturnType id new
  exact hgrown.grown.faithful (Nat.le_refl _) hg

/-- The scalars that every graph begins with are declared under their names. -/
theorem Graph.faithful_initial : Graph.initial.Faithful where
  ordered := Graph.closed_initial.ordered
  kinds id origin horigin := by
    -- no scalar is a copy
    obtain ⟨node, hnode, hderived⟩ := Option.bind_eq_some_iff.mp horigin
    have hnone : ∀ node ∈ Graph.initial.nodes.toList, node.origin = none := by
      decide +kernel
    have hmem := Array.mem_toList_iff.mpr (Array.mem_of_getElem? hnode)
    exact nomatch (hnone node hmem).symm.trans hderived
  declared := by decide +kernel

/-- The nodes that the answer to a call names: the node of a projection, or those in the arguments
of instructions. -/
def ProjectionCall.returned (w : Workspace) : ProjectionCall → List NodeId
  | .tryProject r => refs (w.tryProject r.node r.handle r.args).1.toOption
  | .tryInstructions r => refs (w.tryInstructions r.node r.handle r.args).1.toOption
  | .project r => refs (w.project r.node r.handle r.args).1
  | .instructions r => refs (w.instructions r.node r.handle r.args).1

namespace Workspace

variable {w : Workspace} {admits : Event → Prop}

/-- **The graph of every reachable workspace is faithful.** -/
theorem Reachable.faithful (hw : w.Reachable admits) : w.graph.Faithful :=
  (hw.graph_invariant Graph.faithful_initial
    (fun _ c _ _ hg => c.keeps Graph.buildable_faithful hg)
    (fun _ d _ hknown _ hg => d.faithful hknown hg) Run.keeps_faithful).2

/-- The node that a projection returns is in the graph that it leaves. -/
theorem contains_of_tryProject (hclosed : w.graph.Closed) {r : Request}
    (hknown : ∀ id ∈ r.refs, w.graph.contains id) {id : NodeId}
    (h : (w.tryProject r.node r.handle r.args).1 = .ok id) :
    (w.tryProject r.node r.handle r.args).2.graph.contains id := by
  have hnode : w.graph.contains r.node := hknown r.node List.mem_cons_self
  have hargs : w.graph.Knows r.args := fun id hid => hknown id (List.mem_cons_of_mem _ hid)
  have h : (Run.project w.setting w.graph w.metadata r.node r.handle r.args).result = .ok id := h
  show (Run.project w.setting w.graph w.metadata r.node r.handle r.args).graph.contains id
  cases hrun : (Eval.projectNode r.node r.handle r.args).result w.setting
      (Run.start w.graph w.metadata none) with
  | ok found after =>
    obtain ⟨-, -, hfound, -⟩ := Run.unrecorded_of_ok hclosed hnode hargs rfl hrun
    rw [Run.project_of_ok hrun] at h ⊢
    cases h
    exact hfound
  | error failure after =>
    rw [Run.project_of_error hrun] at h
    cases h

/-- The nodes that instructions name are in the graph that is kept for them. -/
theorem contains_of_tryInstructions (hclosed : w.graph.Closed) {r : Request}
    (hknown : ∀ id ∈ r.refs, w.graph.contains id) {instructions : List Instruction}
    (h : (w.tryInstructions r.node r.handle r.args).1 = .ok instructions) :
    (w.tryInstructions r.node r.handle r.args).2.graph.Knows instructions := by
  have hnode : w.graph.contains r.node := hknown r.node List.mem_cons_self
  have hargs : w.graph.Knows r.args := fun id hid => hknown id (List.mem_cons_of_mem _ hid)
  have h : (Run.instructions w.setting w.graph w.metadata r.node r.handle r.args).result =
    .ok instructions := h
  show (Run.instructions w.setting w.graph w.metadata r.node r.handle r.args).graph.Knows
    instructions
  cases hrun : (Eval.projectNode r.node r.handle r.args).result w.setting
      (Run.start w.graph w.metadata (some [])) with
  | ok found after =>
    obtain ⟨plain, -, -, hplain⟩ := Run.unrecorded_of_ok hclosed hnode hargs rfl hrun
    rw [Run.instructions_of_ok hrun] at h ⊢
    cases h
    -- a node that is named was there at the end, and is not released
    intro id hid
    rw [Run.graph_release, Graph.contains_iff, Graph.size_truncate, Run.sizeKept_eq]
    exact Nat.lt_min.mpr ⟨index_lt_sizeNaming hid,
      Graph.contains_iff.mp (hplain.knows_instructions id hid)⟩
  | error failure after =>
    rw [Run.instructions_of_error hrun] at h
    cases h

/-- What a result names is known if a success names only what is known. -/
theorem knows_toOption {ε α : Type} [Refers α] {g : Graph} {result : Except ε α}
    (h : ∀ a, result = .ok a → g.Knows a) : g.Knows result.toOption := by
  cases result with
  | ok a => exact Graph.knows_some_iff.mpr (h a rfl)
  | error failure => exact nofun

/-- A call that reports failures answers with what the other returns, if that is no failure. -/
theorem fst_project (w : Workspace) (node : NodeId) (handle : Handle) (args : List Value) :
    (w.project node handle args).1 = (w.tryProject node handle args).1.toOption := by
  unfold Workspace.project projectReporting reporting
  dsimp only
  cases (w.tryProject node handle args).1 <;> rfl

theorem fst_instructions (w : Workspace) (node : NodeId) (handle : Handle) (args : List Value) :
    (w.instructions node handle args).1 = (w.tryInstructions node handle args).1.toOption := by
  unfold Workspace.instructions reporting
  dsimp only
  cases (w.tryInstructions node handle args).1 <;> rfl

/-- **The graph stays whole.** In every reachable workspace the graph is whole, and whatever node a
call for a projection or for its instructions names in its answer is in the graph that the call
leaves. -/
theorem graph_whole (hw : w.Reachable admits) :
    w.graph.Whole ∧
      ∀ call : ProjectionCall, (∀ id ∈ call.request.refs, w.graph.contains id) →
        ∀ id ∈ call.returned w, (call.after w).graph.contains id := by
  have hclosed := hw.graph_closed
  refine ⟨hclosed.whole hw.faithful, fun call hknown id hid => ?_⟩
  have hproject : ∀ r : Request, (∀ id ∈ r.refs, w.graph.contains id) →
      (w.tryProject r.node r.handle r.args).2.graph.Knows
        (w.tryProject r.node r.handle r.args).1.toOption := fun r hr =>
    knows_toOption fun _ h => Graph.knows_id_iff.mpr (contains_of_tryProject hclosed hr h)
  have hinstructions : ∀ r : Request, (∀ id ∈ r.refs, w.graph.contains id) →
      (w.tryInstructions r.node r.handle r.args).2.graph.Knows
        (w.tryInstructions r.node r.handle r.args).1.toOption := fun r hr =>
    knows_toOption fun _ h => contains_of_tryInstructions hclosed hr h
  cases call with
  | tryProject r => exact hproject r hknown id hid
  | tryInstructions r => exact hinstructions r hknown id hid
  | project r =>
    rw [ProjectionCall.returned, fst_project] at hid
    exact hproject r hknown id hid
  | instructions r =>
    rw [ProjectionCall.returned, fst_instructions] at hid
    exact hinstructions r hknown id hid

/-- A model with a copy from outside a run, a projection that adds a property whose type is another
projection of the node, and one that fails after an edit, which was run. -/
def releasedSteps : List Event :=
  [.construct (.model "M"), .derive (.renamed ⟨25⟩ "N"),
    .declare "schema" (
      "projection model#r \x7b to \x7b self.addProperty(\"b\", string); \x7d \x7d " ++
      "projection model#p \x7b to \x7b self.addProperty(\"a\", self#r); \x7d \x7d " ++
      "projection model#q \x7b to \x7b self.addProperty(\"a\", \"x\"); none(); \x7d \x7d"),
    .run (.tryProject ⟨⟨25⟩, ⟨⟨2⟩, .forward⟩, []⟩)]

def releasedWorkspace : Workspace := releasedSteps.foldl after (ofGraph .initial)

def addingInstructions : ProjectionCall := .tryInstructions ⟨⟨26⟩, ⟨⟨1⟩, .forward⟩, []⟩

/-- The failed run leaves nothing. The instructions for the copy name a node of the nested run,
which has an id that the failed run had, and what the run has allocated behind it is released. -/
theorem graph_whole_released :
    releasedWorkspace.Reachable (fun _ => True) ∧ releasedWorkspace.graph.size = 27 ∧
      (∀ id ∈ addingInstructions.request.refs, releasedWorkspace.graph.contains id) ∧
      addingInstructions.returned releasedWorkspace = [⟨28⟩] ∧
      (addingInstructions.after releasedWorkspace).graph.size = 29 ∧
      releasedWorkspace.graph.Whole ∧
      ∀ id ∈ addingInstructions.returned releasedWorkspace,
        (addingInstructions.after releasedWorkspace).graph.contains id := by
  have hrun : (ofGraph .initial).KnowsAll releasedSteps ∧ releasedWorkspace.graph.size = 27 ∧
      (∀ id ∈ addingInstructions.request.refs, releasedWorkspace.graph.contains id) ∧
      addingInstructions.returned releasedWorkspace = [⟨28⟩] ∧
      (addingInstructions.after releasedWorkspace).graph.size = 29 := by
    decide +kernel
  obtain ⟨hknows, hsize, hknown, hnamed, hkept⟩ := hrun
  have hreachable : releasedWorkspace.Reachable fun _ => True :=
    Reachable.start.steps (fun _ _ => trivial) hknows
  obtain ⟨hwhole, hreturned⟩ := graph_whole hreachable
  exact ⟨hreachable, hsize, hknown, hnamed, hkept, hwhole, hreturned addingInstructions hknown⟩

end Workspace

end SchemaProjection
