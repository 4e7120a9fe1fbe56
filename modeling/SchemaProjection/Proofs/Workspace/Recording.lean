import SchemaProjection.Proofs.Workspace.Confinement

/-!
# Recording does not interfere

A projection can be asked for its result or for its edits. The two calls run the same evaluator and
keep different parts of what it allocates: the first keeps all nodes, the second only those up to
the last one that an edit names (`sizeNaming`).

`Workspace.recording_noninterfering` is the result. Both calls fail in the same way, and otherwise
what the second one leaves is the beginning of what the first one leaves (`Workspace.KeepsPrefix`):
of the graph, and of the metadata about the nodes in it. Host functions may do what they like, as
long as they are confined to nodes of the graph that they are handed.
-/

namespace SchemaProjection

/-! ### How much is kept -/

/-- The size of a graph that has a number of first nodes and all named ones. -/
def sizeNaming (size : Nat) (named : List NodeId) : Nat :=
  named.foldr (fun id n => max (id.index + 1) n) size

theorem size_le_sizeNaming (size : Nat) (named : List NodeId) : size ≤ sizeNaming size named := by
  induction named with
  | nil => exact Nat.le_refl size
  | cons id rest ih => exact Nat.le_trans ih (Nat.le_max_right _ _)

theorem index_lt_sizeNaming {size : Nat} {named : List NodeId} {id : NodeId} (h : id ∈ named) :
    id.index < sizeNaming size named := by
  induction named with
  | nil => cases h
  | cons other rest ih =>
    rcases List.mem_cons.mp h with rfl | hrest
    · exact Nat.le_max_left _ _
    · exact Nat.lt_of_lt_of_le (ih hrest) (Nat.le_max_right _ _)

/-- It is the smallest such size. -/
theorem sizeNaming_le {size n : Nat} {named : List NodeId} (hsize : size ≤ n)
    (hnamed : ∀ id ∈ named, id.index < n) : sizeNaming size named ≤ n := by
  induction named with
  | nil => exact hsize
  | cons id rest ih =>
    have hrest : sizeNaming size rest ≤ n :=
      ih fun other h => hnamed other (List.mem_cons_of_mem _ h)
    exact Nat.max_le.mpr ⟨hnamed id List.mem_cons_self, hrest⟩

namespace Run

/-- What a run keeps for its instructions are the old nodes and the ones named there. -/
theorem sizeKept_eq (size : Nat) (instructions : List Instruction) :
    sizeKept size instructions = sizeNaming size (refs instructions) := by
  have hrefs : refs instructions = (instructions.flatMap Instruction.args).flatMap Value.refs :=
    List.flatMap_assoc.symm
  rw [sizeKept, hrefs]
  generalize instructions.flatMap Instruction.args = args
  -- on the arguments: the size so far may be taken in first or last
  induction args generalizing size with
  | nil => rfl
  | cons v rest ih =>
    rw [List.foldl_cons, List.flatMap_cons]
    cases v with
    | absent | bool | number | string => exact ih size
    | type id =>
      have hmax : ∀ named : List NodeId, sizeNaming (max size (id.index + 1)) named =
          max (id.index + 1) (sizeNaming size named) := by
        intro named
        induction named with
        | nil => exact Nat.max_comm _ _
        | cons other named ih =>
          show max (other.index + 1) (sizeNaming (max size (id.index + 1)) named) = _
          rw [ih]
          exact Nat.max_left_comm _ _ _
      exact (ih (max size (id.index + 1))).trans (hmax _)

end Run

/-! ### The two calls -/

namespace Workspace

/-- **What a call for instructions leaves, next to what a call for the node leaves.** -/
structure KeepsPrefix (w : Workspace) (instructions : List Instruction)
    (recorded projected : Workspace) : Prop where
  /-- It keeps the old nodes and those up to the last one that an instruction names. -/
  size : recorded.graph.size = sizeNaming w.graph.size (refs instructions)
  size_le : recorded.graph.size ≤ projected.graph.size
  graph : recorded.graph = projected.graph.truncate recorded.graph.size
  /-- What is kept refers to nothing that was released. -/
  closed : recorded.graph.Closed
  metadata : ∀ key,
    recorded.metadata.entries key = projected.metadata.before recorded.graph.size key
  /-- A named node is there, as it was during the run. -/
  named : ∀ id ∈ refs instructions,
    recorded.graph.contains id ∧ recorded.graph.node? id = projected.graph.node? id
  /-- Without new nodes in the instructions nothing is left of the run. -/
  unchanged : (∀ id ∈ refs instructions, w.graph.contains id) → recorded.graph = w.graph

variable {w : Workspace}

/-- **What is left of a recorded run**, given what it has reached. -/
private theorem keepsPrefix_of_reached (hconfined : w.Confined) {node : NodeId} {handle : Handle}
    {args : List Value} {id : NodeId} {after : Run}
    (hrun : (Eval.projectNode node handle args).result w.setting
      (Run.start w.graph w.metadata (some [])) = .ok id after)
    {instructions : List Instruction} (htrace : after.trace.getD [] = instructions)
    {plain : Run} (hplain : after.Unrecorded w.graph plain)
    {recorded projected : Workspace}
    (hrecorded : recorded.graph = (after.release (Run.sizeKept w.graph.size instructions)).graph)
    (hmetadata : recorded.metadata =
      (after.release (Run.sizeKept w.graph.size instructions)).metadata)
    (hprojected : projected.graph = plain.graph ∧ projected.metadata = plain.metadata) :
    w.KeepsPrefix instructions recorded projected := by
  have hsteps : Eval.Steps w.setting (Run.start w.graph w.metadata (some [])) false
      (Eval.projectNode node handle args) := Eval.steps_projectNode _ _ _
  have hreaches := hsteps.of_ok (Nat.le_refl _) hrun
  have hle : w.graph ≤ after.graph := hreaches.extends.1
  -- what was recorded is in the graph that was reached, so no more than that is kept
  have hknown : after.graph.Knows instructions := by
    rw [← htrace]
    exact hplain.knows_instructions
  have hnamed : sizeNaming w.graph.size (refs instructions) ≤ after.graph.size :=
    sizeNaming_le (Graph.size_le_of_le hle) fun id hid => Graph.contains_iff.mp (hknown id hid)
  rw [Run.sizeKept_eq] at hrecorded hmetadata
  rw [Run.graph_release] at hrecorded
  have hsize : recorded.graph.size = sizeNaming w.graph.size (refs instructions) := by
    rw [hrecorded, Graph.size_truncate]
    exact Nat.min_eq_left hnamed
  have hgraph : projected.graph = after.graph := hprojected.1.trans hplain.graph
  have hbeginning : recorded.graph = projected.graph.truncate recorded.graph.size := by
    rw [hsize, hgraph, hrecorded]
  refine ⟨hsize, ?_, hbeginning, ?_, fun key => ?_, fun id hid => ?_, fun hold => ?_⟩
  · rw [hsize, hgraph]
    exact hnamed
  · rw [hrecorded]
    exact hplain.prefixes _ (size_le_sizeNaming _ _)
  · have hwithin : after.Recorded :=
      hreaches.recorded hconfined.setting hconfined.within
    rw [hmetadata, Run.entries_release hwithin, hsize, hprojected.2, hplain.metadata]
  · have hlt : id.index < recorded.graph.size := by
      rw [hsize]
      exact index_lt_sizeNaming hid
    refine ⟨Graph.contains_iff.mpr hlt, ?_⟩
    rw [hbeginning, Graph.node?_truncate, if_pos hlt]
  · -- if all named nodes are old, what is kept ends where the graph did before
    have hend : sizeNaming w.graph.size (refs instructions) = w.graph.size :=
      Nat.le_antisymm (sizeNaming_le (Nat.le_refl _) fun id hid =>
        Graph.contains_iff.mp (hold id hid)) (size_le_sizeNaming _ _)
    rw [hrecorded, hend]
    exact Graph.truncate_of_le hle

/-- **Recording does not interfere.** With confined host modules, a call for the result and a call
for the edits fail together and in the same way. If they succeed, the second one leaves the first
nodes of the graph that the first one leaves, up to the last one that an edit names, with what the
metadata says about them. -/
theorem recording_noninterfering (hw : w.Reachable Event.Confined) (r : Request)
    (hr : ∀ id ∈ r.refs, w.graph.contains id) :
    (∀ failure, (w.tryProject r.node r.handle r.args).1 = .error failure ↔
      (w.tryInstructions r.node r.handle r.args).1 = .error failure) ∧
    ∀ result instructions, (w.tryProject r.node r.handle r.args).1 = .ok result →
      (w.tryInstructions r.node r.handle r.args).1 = .ok instructions →
      w.KeepsPrefix instructions (w.tryInstructions r.node r.handle r.args).2
        (w.tryProject r.node r.handle r.args).2 := by
  have hnode : w.graph.contains r.node := hr r.node List.mem_cons_self
  have hargs : w.graph.Knows r.args := fun id hid => hr id (List.mem_cons_of_mem _ hid)
  unfold tryProject tryInstructions
  -- the recorded run decides what both calls come to
  cases hrun : (Eval.projectNode r.node r.handle r.args).result w.setting
      (Run.start w.graph w.metadata (some [])) with
  | error failure after =>
    -- without a trace the run fails in the same way
    obtain ⟨plain, hplain⟩ := Run.unrecorded_of_error hw.graph_closed hnode hargs rfl hrun
    have hproject := Run.project_of_error hplain
    have hinstructions := Run.instructions_of_error hrun
    dsimp only
    rw [hproject, hinstructions]
    refine ⟨fun other => ?_, fun result instructions hresult => nomatch hresult⟩
    exact ⟨fun h => (Except.error.inj h) ▸ rfl, fun h => (Except.error.inj h) ▸ rfl⟩
  | ok id after =>
    obtain ⟨plain, hplain, -, hunrecorded⟩ :=
      Run.unrecorded_of_ok hw.graph_closed hnode hargs rfl hrun
    have hproject := Run.project_of_ok hplain
    have hinstructions := Run.instructions_of_ok hrun
    dsimp only
    rw [hproject, hinstructions]
    refine ⟨fun failure => ⟨fun h => (nomatch h), fun h => (nomatch h)⟩, ?_⟩
    intro result instructions hresult htrace
    have htrace : after.trace.getD [] = instructions := Except.ok.inj htrace
    subst htrace
    exact keepsPrefix_of_reached hw.confined hrun rfl hunrecorded rfl rfl ⟨rfl, rfl⟩

/-- A schema with a projection that documents its node and adds two properties, the second one with
the first one as its type. -/
def documentedSteps : List Event :=
  [.construct (.model "M"), .importModule (Host.Doc.module ⟨0⟩),
    .declare "schema" ("projection model#p \x7b to \x7b self.addProperty(\"a\", string); " ++
      "@doc(self, \"text\"); self.addProperty(\"b\", self.getProperty(\"a\")); \x7d \x7d")]

def documentedWorkspace : Workspace := documentedSteps.foldl after (ofGraph .initial)

def documentProperties : Request := ⟨⟨25⟩, ⟨⟨0⟩, .forward⟩, []⟩

theorem reachable_documentedWorkspace : documentedWorkspace.Reachable Event.Confined := by
  have hstandard : documentedWorkspace.Reachable Event.Standard := by
    refine Reachable.start.steps (fun e he => ?_) (by decide +kernel)
    simp only [documentedSteps, List.mem_cons, List.not_mem_nil, or_false] at he
    rcases he with rfl | rfl | rfl
    · trivial
    · exact .inl ⟨⟨0⟩, rfl⟩
    · trivial
  exact hstandard.mono fun _ => Event.Standard.confined

theorem ok_of_toOption {ε α : Type} {x : Except ε α} {a : α} (h : x.toOption = some a) :
    x = .ok a := by
  cases x with
  | ok b => exact congrArg Except.ok (Option.some.inj h)
  | error e => cases h

/-- The result keeps all four new nodes, the edits only the first one, which they name; what the
decorator wrote about the second one is gone with it. -/
theorem recording_noninterfering_documented :
    documentedWorkspace.Reachable Event.Confined ∧
      (∀ id ∈ documentProperties.refs, documentedWorkspace.graph.contains id) ∧
      ∃ result instructions,
        (documentedWorkspace.tryProject ⟨25⟩ ⟨⟨0⟩, .forward⟩ []).1 = .ok result ∧
        (documentedWorkspace.tryInstructions ⟨25⟩ ⟨⟨0⟩, .forward⟩ []).1 = .ok instructions ∧
        refs instructions = [⟨4⟩, ⟨26⟩] ∧
        (documentedWorkspace.tryProject ⟨25⟩ ⟨⟨0⟩, .forward⟩ []).2.graph.size = 30 ∧
        (documentedWorkspace.tryInstructions ⟨25⟩ ⟨⟨0⟩, .forward⟩ []).2.graph.size = 27 ∧
        documentedWorkspace.KeepsPrefix instructions
          (documentedWorkspace.tryInstructions ⟨25⟩ ⟨⟨0⟩, .forward⟩ []).2
          (documentedWorkspace.tryProject ⟨25⟩ ⟨⟨0⟩, .forward⟩ []).2 := by
  have hruns : (∀ id ∈ documentProperties.refs, documentedWorkspace.graph.contains id) ∧
      (documentedWorkspace.tryProject ⟨25⟩ ⟨⟨0⟩, .forward⟩ []).1.toOption = some ⟨29⟩ ∧
      (documentedWorkspace.tryInstructions ⟨25⟩ ⟨⟨0⟩, .forward⟩ []).1.toOption =
        some [⟨.add .properties, "a", [.type ⟨4⟩]⟩, ⟨.add .properties, "b", [.type ⟨26⟩]⟩] ∧
      (documentedWorkspace.tryProject ⟨25⟩ ⟨⟨0⟩, .forward⟩ []).2.graph.size = 30 ∧
      (documentedWorkspace.tryInstructions ⟨25⟩ ⟨⟨0⟩, .forward⟩ []).2.graph.size = 27 := by
    decide +kernel
  obtain ⟨hknown, hproject, hinstructions, hprojected, hrecorded⟩ := hruns
  have hproject := ok_of_toOption hproject
  have hinstructions := ok_of_toOption hinstructions
  have hkeeps := (recording_noninterfering reachable_documentedWorkspace documentProperties
    hknown).2
  exact ⟨reachable_documentedWorkspace, hknown, _, _, hproject, hinstructions, rfl, hprojected,
    hrecorded, hkeeps _ _ hproject hinstructions⟩

end Workspace

end SchemaProjection
