import SchemaProjection.Proofs.Workspace.Integrity
import SchemaProjection.Proofs.Workspace.NonMutation
import SchemaProjection.Proofs.Workspace.Programs

/-!
# Applicable projections are inherited

A projection that applies to a node applies to all that is derived from the node, and nothing else
applies there: `Workspace.projections_inherited` says so for every reachable workspace, with any
host modules.

For the projections of a kind this holds because a copy is of the kind of its origin. For those of a
declared node it is more than following the lineage. A copy has one node more in its lineage, the
copy itself, and a projection declared for that one would apply to the copy alone. So declared nodes
must not be copies, now or later (`Declarations.Rooted`): not when their projection is declared, and
not after runs have failed or released nodes and the ids of these were handed out again.
-/

namespace SchemaProjection

/-! ### Origins under construction -/

namespace Graph

variable {g h : Graph} {id : NodeId}

/-- Construction makes no node a copy of another, and no copy a node of its own. -/
theorem Change.origin? (hchange : Change g h) (hid : g.contains id) :
    h.origin? id = g.origin? id := by
  cases hchange with
  | create node known => exact origin?_of_le (le_push g node) hid
  | declare name id known => rfl
  | attach container name member members shape known found changed =>
    exact origin?_reshape g container shape id

theorem Changed.origin? (hchanged : Changed g h) (hid : g.contains id) :
    h.origin? id = g.origin? id := by
  induction hchanged with
  | refl => rfl
  | tail hbefore hlast ih =>
    exact (hlast.origin? (contains_of_size_le (Changed.size_le hbefore) hid)).trans ih

end Graph

/-! ### Rooted declarations -/

/-- **A projection applies to a copy as to its origin**, unless it is declared for the copy. -/
theorem Projection.appliesTo_of_origin? {g : Graph} (hg : g.Faithful) {p : Projection}
    {node origin : NodeId} (h : g.origin? node = some origin) (hp : p.target ≠ .node node) :
    p.appliesTo g node = p.appliesTo g origin := by
  unfold appliesTo
  cases htarget : p.target with
  | kind kind => rw [hg.kinds node origin h]
  | node target =>
    have hne : target ≠ node := fun heq => hp (heq ▸ htarget)
    dsimp only
    rw [hg.ordered.lineage_of_origin? h, List.contains_cons, beq_eq_false_iff_ne.mpr hne,
      Bool.false_or]

namespace Declarations

variable {d : Declarations} {g h : Graph}

/-- **The declarations are rooted in the graph**: a node that a projection is declared for is one of
the graph, and no copy. -/
def Rooted (d : Declarations) (g : Graph) : Prop :=
  ∀ p ∈ d.projections, ∀ id, p.target = .node id → g.contains id ∧ g.origin? id = none

theorem Rooted.grown (hd : d.Rooted g) (hsize : g.size ≤ h.size)
    (horigins : ∀ id, g.contains id → h.origin? id = g.origin? id) : d.Rooted h := by
  intro p hp id hid
  obtain ⟨hknown, hroot⟩ := hd p hp id hid
  exact ⟨Graph.contains_of_size_le hsize hknown, (horigins id hknown).trans hroot⟩

/-- A selector stands for a node that is no copy, if for a node at all. -/
theorem rooted_of_target? (hg : g.Faithful) {selector : String} {id : NodeId}
    (h : target? g selector = some (.node id)) : g.contains id ∧ g.origin? id = none := by
  unfold target? at h
  split at h
  · cases h
  · obtain ⟨declared, hdeclared, heq⟩ := Option.map_eq_some_iff.mp h
    cases heq
    have hentry : (selector, id) ∈ g.globals.entries := NameTable.get?_iff.mp hdeclared
    exact ⟨hg.contains_declared hentry, (hg.declared _ hentry).2⟩

theorem Rooted.declareAll (hd : d.Rooted g) (hg : g.Faithful) (hostCount : Nat)
    (trees : List ProjectionTree) : (d.declareAll g hostCount trees).2.Rooted g := by
  intro p hp id hid
  rcases mem_or_declaredBy_of_mem_declareAll hp with hold | ⟨tree, -, hdeclared⟩
  · exact hd p hold id hid
  · exact rooted_of_target? hg (hdeclared.target.trans (congrArg some hid))

/-- Rooted declarations have the same projections for a copy and its origin. -/
theorem Rooted.applicable (hd : d.Rooted g) (hg : g.Faithful) {node origin : NodeId}
    (h : g.origin? node = some origin) : d.applicable g node = d.applicable g origin := by
  refine List.filter_congr fun p hp => Projection.appliesTo_of_origin? hg h fun htarget => ?_
  obtain ⟨-, hroot⟩ := hd p hp node htarget
  exact nomatch hroot.symm.trans h

/-- **A name stands for the first applicable projection** of that name. -/
theorem resolve?_eq_find? (d : Declarations) (g : Graph) (id : NodeId) (name : String) :
    d.resolve? g id name = (d.applicable g id).find? fun p => p.name = name := by
  rw [applicable, List.find?_filter, resolve?]
  refine List.find?_congr fun p _ => ?_
  rw [Bool.decide_and, Bool.decide_coe, Bool.decide_coe]

end Declarations

namespace Workspace

variable {w : Workspace} {admits : Event → Prop}

/-! ### Reachable workspaces -/

/-- **In a reachable workspace the declarations are rooted in the graph.** -/
theorem Reachable.rooted (hw : w.Reachable admits) : w.declarations.Rooted w.graph := by
  induction hw with
  | start => exact fun p hp => nomatch hp
  | @step w e hreachable _ hknows ih =>
    have hclosed := hreachable.graph_closed
    cases e with
    | construct c =>
      rw [Workspace.after, build_eq]
      have hchanged := (c.changes hknows (hclosed.intrinsics .null)).changed
      exact ih.grown hchanged.size_le fun _ => hchanged.origin?
    | derive d =>
      rw [Workspace.after, build_eq]
      have hchanged := (d.changes hclosed hknows).changed
      exact ih.grown hchanged.size_le fun _ => hchanged.origin?
    | declare file text =>
      rw [Workspace.after]
      rcases w.declare_eq file text with hsame | ⟨trees, hdeclared⟩
      · rw [hsame]
        exact ih
      · rw [hdeclared]
        exact ih.declareAll hreachable.faithful w.hosts.length trees
    | callDecorator name node args =>
      obtain ⟨metadata, hcall⟩ := w.callDecorator_frame name node args
      rw [Workspace.after, hcall]
      exact ih
    | callFunction name args =>
      obtain ⟨metadata, hcall⟩ := w.callFunction_frame name args
      rw [Workspace.after, hcall]
      exact ih
    | run call =>
      -- the nodes that a run leaves behind stand after the old ones
      have hle := call.le_graph_after w
      have hdeclarations : (call.after w).declarations = w.declarations :=
        congrArg Setting.declarations (w.setting_after_run call)
      rw [Workspace.after, hdeclarations]
      exact ih.grown (Graph.size_le_of_le hle) fun _ => Graph.origin?_of_le hle
    | importModule m => exact ih
    | setOptions options => exact ih
    | writeMetadata key node value => exact ih
    | deleteMetadata key node => exact ih
    | takeDiagnostics => exact ih

/-- **Applicable projections are inherited.** In every reachable workspace the same projections
apply to a node and to its origin, in the same order. So every name stands for the same projection
there, which is the first one of that name among the applicable ones. -/
theorem projections_inherited (hw : w.Reachable admits) {node origin : NodeId}
    (h : w.graph.origin? node = some origin) :
    w.projectionsOf node = w.projectionsOf origin ∧
      ∀ name, w.projection? node name = w.projection? origin name ∧
        w.projection? node name = (w.projectionsOf node).find? fun p => p.name = name := by
  have hsame : w.projectionsOf node = w.projectionsOf origin := hw.rooted.applicable hw.faithful h
  refine ⟨hsame, fun name => ?_⟩
  have hnode : w.projection? node name = (w.projectionsOf node).find? fun p => p.name = name :=
    w.declarations.resolve?_eq_find? w.graph node name
  have horigin : w.projection? origin name =
      (w.projectionsOf origin).find? fun p => p.name = name :=
    w.declarations.resolve?_eq_find? w.graph origin name
  refine ⟨?_, hnode⟩
  rw [hnode, horigin, hsame]

def inheritingText : String :=
  "projection M#p \x7b to \x7b self.addProperty(\"a\", string); \x7d \x7d " ++
  "projection model#q \x7b to \x7b self.addProperty(\"a\", string); none(); \x7d \x7d " ++
  "projection model#p \x7b to \x7b \x7d \x7d projection string#p \x7b to \x7b \x7d \x7d"

/-- A model with projections of a name for itself, for its kind and for another type, a run that
fails after an edit, a copy of the model from outside, and a run on the copy. -/
def inheritingSteps : List Event :=
  [.construct (.model "M"), .declare "schema" inheritingText,
    .run (.tryProject ⟨⟨25⟩, ⟨⟨1⟩, .forward⟩, []⟩), .derive (.renamed ⟨25⟩ "N"),
    .run (.tryProject ⟨⟨26⟩, ⟨⟨0⟩, .forward⟩, []⟩)]

def inheritingWorkspace : Workspace := inheritingSteps.foldl after (ofGraph .initial)

/-- The copy has an id that the failed run had. What is projected from it has the projections of the
model. -/
theorem projections_inherited_copy :
    inheritingWorkspace.Reachable (fun _ => True) ∧
      inheritingWorkspace.graph.lineage ⟨28⟩ = [⟨28⟩, ⟨26⟩, ⟨25⟩] ∧
      inheritingWorkspace.graph.origin? ⟨28⟩ = some ⟨26⟩ ∧
      (inheritingWorkspace.projectionsOf ⟨28⟩).map Projection.id = [⟨0⟩, ⟨1⟩, ⟨2⟩] ∧
      (inheritingWorkspace.projection? ⟨28⟩ "p").map Projection.id = some ⟨0⟩ ∧
      inheritingWorkspace.projectionsOf ⟨28⟩ = inheritingWorkspace.projectionsOf ⟨26⟩ ∧
      ∀ name, inheritingWorkspace.projection? ⟨28⟩ name =
          inheritingWorkspace.projection? ⟨26⟩ name ∧
        inheritingWorkspace.projection? ⟨28⟩ name =
          (inheritingWorkspace.projectionsOf ⟨28⟩).find? fun p => p.name = name := by
  have hreachable : inheritingWorkspace.Reachable fun _ => True :=
    Reachable.start.steps (fun _ _ => trivial) (by decide +kernel)
  have hrun : inheritingWorkspace.graph.lineage ⟨28⟩ = [⟨28⟩, ⟨26⟩, ⟨25⟩] ∧
      inheritingWorkspace.graph.origin? ⟨28⟩ = some ⟨26⟩ ∧
      (inheritingWorkspace.projectionsOf ⟨28⟩).map Projection.id = [⟨0⟩, ⟨1⟩, ⟨2⟩] ∧
      (inheritingWorkspace.projection? ⟨28⟩ "p").map Projection.id = some ⟨0⟩ := by
    decide +kernel
  obtain ⟨hlineage, horigin, hids, hname⟩ := hrun
  exact ⟨hreachable, hlineage, horigin, hids, hname, projections_inherited hreachable horigin⟩

end Workspace

end SchemaProjection
