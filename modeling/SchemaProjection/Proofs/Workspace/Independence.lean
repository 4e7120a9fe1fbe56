import SchemaProjection.Proofs.Workspace.Closure
import SchemaProjection.Proofs.Workspace.NonMutation

/-!
# Runs do not depend on earlier runs

A run leaves nodes behind, so the nodes that a later run allocates get other ids. Nothing else that
it did can be told afterwards: the later run comes to the same result or the same failure, makes the
same nodes with the same origins, records the same instructions and writes the same metadata, if
every node of its own is renamed to where it stands now (`Workspace.runs_independent`).

Failures are the same with all that their texts are made of. In a few texts, those that quote a
value which a host function or a projection has got, a node stands by its id, and there the text of
the later run shows the new id (`Workspace.failure_shows_id`).
-/

namespace SchemaProjection

namespace Workspace

variable {w : Workspace}

/-! ### The same outcome -/

/-- How far an earlier run moves the nodes that come after it. -/
def shiftAfter (w : Workspace) (first : ProjectionCall) : Shift :=
  ⟨w.graph.size, (first.after w).graph.size - w.graph.size⟩

/-- **The same outcome up to the ids of new nodes.** Each of two runs is given by its result and the
workspace that it leaves. -/
structure SameOutcome {α : Type} [Refers α] (σ : Shift)
    (alone later : Except Failure α × Workspace) : Prop where
  result : later.1 = renumber σ.move alone.1
  /-- A failure that names no new node by its id is the same, and so is its text. -/
  failure : ∀ failure, alone.1 = .error failure → (∀ id ∈ refs failure, id.index < σ.mark) →
    later.1 = .error failure
  size : later.2.graph.size = alone.2.graph.size + σ.gap
  /-- Every node has the same origin and the same data. -/
  node?_move : ∀ id, later.2.graph.node? (σ.move id) =
    (alone.2.graph.node? id).map (renumber σ.move)
  globals : later.2.graph.globals = alone.2.graph.globals
  /-- Every node has the same metadata. -/
  own?_move : ∀ key id, later.2.metadata.own? key (σ.move id) =
    (alone.2.metadata.own? key id).map (renumber σ.move)

theorem SameOutcome.of_shifted {α : Type} [Refers α] {σ : Shift}
    {outcome other : Outcome α} (h : outcome.Shifted σ other) (w later : Workspace) :
    SameOutcome σ
      (outcome.result, { w with graph := outcome.graph, metadata := outcome.metadata })
      (other.result, { later with graph := other.graph, metadata := other.metadata }) where
  result := h.result
  failure failure hfailure hold := by
    have hfailure : outcome.result = .error failure := hfailure
    have hsame : renumber σ.move failure = failure :=
      renumber_eq_self fun id hid => σ.move_of_lt (hold id hid)
    show other.result = .error failure
    rw [h.result, hfailure]
    exact congrArg Except.error hsame
  size := h.graph.size
  node?_move := h.graph.node?_move
  globals := h.graph.globals
  own?_move key id := by
    dsimp only
    rw [h.metadata.own?_move]
    cases hv : outcome.metadata.own? key id with
    | none => rfl
    | some v => exact congrArg some (h.metadata.renumber_own? hv).symm

/-! ### After an earlier run -/

/-- The entries of the old nodes are still the same after a run. -/
theorem Recorded.before_after_run (h : w.Recorded) (call : ProjectionCall) (key : Metadata.Key) :
    (call.after w).metadata.before w.graph.size key = w.metadata.entries key := by
  have hproject : ∀ r : Request, (w.tryProject r.node r.handle r.args).2.metadata.before
      w.graph.size key = w.metadata.entries key := by
    intro r
    obtain ⟨reached, kept, hleaves⟩ :=
      Run.leaves_project w.setting w.graph w.metadata r.node r.handle r.args
    exact hleaves.entries_old h.standard h.within key
  have hinstructions : ∀ r : Request, (w.tryInstructions r.node r.handle r.args).2.metadata.before
      w.graph.size key = w.metadata.entries key := by
    intro r
    obtain ⟨reached, kept, hleaves⟩ :=
      Run.leaves_instructions w.setting w.graph w.metadata r.node r.handle r.args
    exact hleaves.entries_old h.standard h.within key
  cases call with
  | tryProject r => exact hproject r
  | project r => exact hproject r
  | tryInstructions r => exact hinstructions r
  | instructions r => exact hinstructions r

/-- A run may start again after another one. -/
theorem Closed.restart_after (h : w.Closed) (hrecorded : w.Recorded) (first : ProjectionCall) :
    Run.Restart w.setting (w.shiftAfter first) w.graph (first.after w).graph w.metadata
      (first.after w).metadata :=
  h.restart hrecorded (first.le_graph_after w) (hrecorded.after_run first).within
    (hrecorded.before_after_run first)

/-- **Runs do not depend on earlier runs.** After any run, successful or not, a request comes to the
same as it does alone, but for the ids of the nodes that it allocates, which are shifted by the
number of nodes that the earlier run left. -/
theorem runs_independent (hw : w.Reachable Event.Standard) (first : ProjectionCall) (r : Request)
    (hr : ∀ id ∈ r.refs, w.graph.contains id) :
    SameOutcome (w.shiftAfter first) (w.tryProject r.node r.handle r.args)
        ((first.after w).tryProject r.node r.handle r.args) ∧
      SameOutcome (w.shiftAfter first) (w.tryInstructions r.node r.handle r.args)
        ((first.after w).tryInstructions r.node r.handle r.args) := by
  -- the later run is a restart of the first one, with the same settings
  have hrestart := hw.closed.restart_after hw.recorded first
  have hnode : w.graph.contains r.node := hr r.node List.mem_cons_self
  have hargs : w.graph.Knows r.args := fun id hid => hr id (List.mem_cons_of_mem _ hid)
  unfold tryProject tryInstructions
  rw [w.setting_after_run first]
  constructor
  · exact .of_shifted (hrestart.shifted_project hnode r.handle hargs) w (first.after w)
  · exact .of_shifted (hrestart.shifted_instructions hnode r.handle hargs) w (first.after w)

/-- A schema with a projection that adds a property, and one that adds another and documents its
node with it, which fails. -/
def propertySteps : List Event :=
  [.construct (.model "M"), .importModule (Host.Doc.module ⟨0⟩),
    .declare "schema"
      ("projection model#p \x7b to \x7b self.addProperty(\"a\", string); \x7d \x7d\n" ++
        "projection model#q \x7b to \x7b @doc(self, self.addProperty(\"b\", string)); \x7d \x7d")]

def propertyWorkspace : Workspace := propertySteps.foldl after (ofGraph .initial)

def addProperty : Request := ⟨⟨25⟩, ⟨⟨0⟩, .forward⟩, []⟩

def documentWithProperty : Request := ⟨⟨25⟩, ⟨⟨1⟩, .forward⟩, []⟩

theorem reachable_propertyWorkspace : propertyWorkspace.Reachable Event.Standard := by
  refine Reachable.start.steps (fun e he => ?_) (by decide +kernel)
  rcases List.mem_cons.mp he with rfl | he
  · trivial
  rcases List.mem_cons.mp he with rfl | he
  · exact .inl ⟨⟨0⟩, rfl⟩
  · exact List.mem_singleton.mp he ▸ trivial

/-- After a property was added, adding it to the same model has the same outcome, two ids later. -/
theorem runs_independent_property :
    (∀ id ∈ addProperty.refs, propertyWorkspace.graph.contains id) ∧
      (propertyWorkspace.shiftAfter (.tryProject addProperty)).gap = 2 ∧
      SameOutcome (propertyWorkspace.shiftAfter (.tryProject addProperty))
        (propertyWorkspace.tryProject addProperty.node addProperty.handle addProperty.args)
        (((ProjectionCall.tryProject addProperty).after propertyWorkspace).tryProject
          addProperty.node addProperty.handle addProperty.args) := by
  have hknown : ∀ id ∈ addProperty.refs, propertyWorkspace.graph.contains id := by decide +kernel
  exact ⟨hknown, by decide +kernel,
    (runs_independent reachable_propertyWorkspace (.tryProject addProperty) addProperty hknown).1⟩

/-! ### Texts that show an id -/

/-- The text of a failure. -/
def failureText? {α : Type} : Except Failure α → Option String
  | .ok _ => none
  | .error failure => some failure.message

/-- **The text of a failure may show the id of a new node**, and then it tells how many nodes
earlier runs left. -/
theorem failure_shows_id :
    propertyWorkspace.Reachable Event.Standard ∧
      (∀ id ∈ addProperty.refs ++ documentWithProperty.refs,
        propertyWorkspace.graph.contains id) ∧
      failureText? (propertyWorkspace.tryProject documentWithProperty.node
          documentWithProperty.handle documentWithProperty.args).1 =
        some "host function `doc` failed: `doc` expects a string, got type #26 (at schema:2:28)" ∧
      failureText? (((ProjectionCall.tryProject addProperty).after propertyWorkspace).tryProject
          documentWithProperty.node documentWithProperty.handle documentWithProperty.args).1 =
        some "host function `doc` failed: `doc` expects a string, got type #28 (at schema:2:28)" :=
  ⟨reachable_propertyWorkspace, by decide +kernel, by decide +kernel, by decide +kernel⟩

end Workspace

end SchemaProjection
