import SchemaProjection.Proofs.Pairing.Later
import SchemaProjection.Proofs.Workspace.Atomicity
import SchemaProjection.Proofs.Workspace.Declaring

/-!
# Reachable workspaces are closed

All that a reachable workspace with standard modules names is in its graph: what its nodes refer to,
the nodes in its metadata, and the nodes that projections are bound to (`Workspace.Closed`). For
steps from outside a run that is a matter of what the client may name. A run is compared with
itself, started again from the same workspace: a pairing of two runs says, among other things, that
the graphs stay closed (`Workspace.Closed.run`).
-/

namespace SchemaProjection

/-! ### Declarations -/

namespace Declarations

variable {d : Declarations} {g : Graph} {n : Nat}

theorem BoundBefore.mono (hd : d.BoundBefore n) {k : Nat} (hle : n ≤ k) : d.BoundBefore k :=
  fun p hp id hid => Nat.lt_of_lt_of_le (hd p hp id hid) hle

/-- A selector stands for a node of the graph, if for a node at all. -/
theorem index_lt_of_target? (hclosed : g.Closed) {selector : String} {id : NodeId}
    (h : target? g selector = some (.node id)) : id.index < g.size := by
  unfold target? at h
  split at h
  · cases h
  · obtain ⟨declared, hdeclared, heq⟩ := Option.map_eq_some_iff.mp h
    cases heq
    exact Graph.contains_iff.mp (hclosed.globals id (NameTable.mem_values_of_get? hdeclared))

theorem BoundBefore.declareAll (hclosed : g.Closed) (hd : d.BoundBefore g.size) (hostCount : Nat)
    (trees : List ProjectionTree) : (d.declareAll g hostCount trees).2.BoundBefore g.size := by
  intro p hp id hid
  rcases mem_or_declaredBy_of_mem_declareAll hp with hold | ⟨tree, -, hdeclared⟩
  · exact hd p hold id hid
  · -- the new projection is bound to what its selector stands for
    exact index_lt_of_target? hclosed (hdeclared.target.trans (congrArg some hid))

end Declarations

/-! ### The initial graph -/

/-- The types that every graph begins with refer to none. -/
theorem Graph.closed_initial : Graph.initial.Closed := by
  have hnode : ∀ id node, Graph.initial.node? id = some node → refs node = [] := by
    intro id node hnode
    have hmem : node ∈ Graph.initial.nodes.toList :=
      Array.mem_toList_iff.mpr (Array.mem_of_getElem? hnode)
    rcases List.mem_append.mp hmem with hintrinsic | hscalar
    · obtain ⟨i, -, rfl⟩ := List.mem_map.mp hintrinsic
      rfl
    · obtain ⟨name, -, rfl⟩ := List.mem_map.mp hscalar
      rfl
  refine ⟨fun i => ?_, fun id node h => Graph.knows_of_refs_eq_nil (hnode id node h),
    fun id node origin h horigin => ?_, ?_⟩
  · cases i <;> decide +kernel
  · have hrefs : refs node.origin ++ refs node.shape = [] := hnode id node h
    rw [horigin] at hrefs
    cases hrefs
  · show ∀ id ∈ Graph.initial.globals.values, Graph.initial.contains id
    decide +kernel

namespace Workspace

variable {w : Workspace}

/-! ### Closed workspaces -/

/-- **The invariant.** The graph has all nodes that anything in the workspace names. -/
structure Closed (w : Workspace) : Prop where
  graph : w.graph.Closed
  metadata : ∀ key id v, w.metadata.own? key id = some v → w.graph.Knows v
  bound : w.declarations.BoundBefore w.graph.size

/-! ### Runs -/

/-- A run may start again in a later workspace that has the same entries for the old nodes. -/
theorem Closed.restart (h : w.Closed) (hrecorded : w.Recorded) {graph : Graph}
    {metadata : Metadata} (hle : w.graph ≤ graph) (hwithin : metadata.Within graph.size)
    (hold : ∀ key, metadata.before w.graph.size key = w.metadata.entries key) :
    Run.Restart w.setting ⟨w.graph.size, graph.size - w.graph.size⟩ w.graph graph w.metadata
      metadata where
  standard := hrecorded.standard
  bound := h.bound
  mark := rfl
  graph := h.graph.shifted hle
  metadata := by
    refine ⟨fun key id => ?_, fun key id v hv r hr => ?_⟩
    -- entries of old nodes are kept, and no node from the end on has an entry yet
    · by_cases hid : id.index < w.graph.size
      · have hlookup := metadata.lookup_before w.graph.size key id
        rw [if_pos hid, hold key] at hlookup
        rw [Shift.move_of_lt _ hid, ← hlookup, Metadata.own?]
      · rw [hrecorded.within.own?_eq_none key (Nat.not_lt.mp hid)]
        refine hwithin.own?_eq_none key ?_
        have hsize := Graph.size_le_of_le hle
        rw [Shift.index_move, if_neg hid]
        dsimp only
        omega
    · exact Graph.contains_iff.mp (h.metadata key id v hv r hr)
  within := hrecorded.within
  within' := hwithin

/-- A run is its own restart. -/
theorem Closed.restart_self (h : w.Closed) (hrecorded : w.Recorded) :
    Run.Restart w.setting ⟨w.graph.size, w.graph.size - w.graph.size⟩ w.graph w.graph w.metadata
      w.metadata :=
  h.restart hrecorded le_rfl hrecorded.within hrecorded.within.before_eq

/-- **What a run leaves is closed**, if it has a counterpart. -/
theorem Closed.run (h : w.Closed) {α : Type} [Refers α] {outcome other : Outcome α} {gap : Nat}
    (hshifted : outcome.Shifted ⟨w.graph.size, gap⟩ other) :
    ({ w with graph := outcome.graph, metadata := outcome.metadata } : Workspace).Closed where
  graph := hshifted.graph.closed
  metadata key id v hv r hr := by
    have hlt := hshifted.metadata.old key id v hv r hr
    exact Graph.contains_iff.mpr (Nat.lt_of_lt_of_le hlt hshifted.graph.mark_le)
  bound := h.bound.mono hshifted.graph.mark_le

theorem Closed.after_run (h : w.Closed) (hrecorded : w.Recorded) (call : ProjectionCall)
    (hknows : ∀ id ∈ call.request.refs, w.graph.contains id) : (call.after w).Closed := by
  have hrestart := h.restart_self hrecorded
  have hproject : ∀ r : Request, (∀ id ∈ r.refs, w.graph.contains id) →
      (w.tryProject r.node r.handle r.args).2.Closed := fun r hr =>
    h.run (hrestart.shifted_project (hr _ List.mem_cons_self) r.handle fun id hid =>
      hr id (List.mem_cons_of_mem _ hid))
  have hinstructions : ∀ r : Request, (∀ id ∈ r.refs, w.graph.contains id) →
      (w.tryInstructions r.node r.handle r.args).2.Closed := fun r hr =>
    h.run (hrestart.shifted_instructions (hr _ List.mem_cons_self) r.handle fun id hid =>
      hr id (List.mem_cons_of_mem _ hid))
  -- a diagnostic names no node that the graph lacks
  cases call with
  | tryProject r => exact hproject r hknows
  | tryInstructions r => exact hinstructions r hknows
  | project r =>
    have hrun := hproject r hknows
    exact ⟨hrun.graph, hrun.metadata, hrun.bound⟩
  | instructions r =>
    have hrun := hinstructions r hknows
    exact ⟨hrun.graph, hrun.metadata, hrun.bound⟩

/-! ### Steps from outside a run -/

theorem Closed.build (h : w.Closed) {α : Type} {action : Building α}
    (hchanged : w.graph.Changed (action.graphAfter w.graph)) : (w.build action).2.Closed := by
  rw [build_eq]
  exact ⟨hchanged.closed h.graph,
    fun key id v hv => (h.metadata key id v hv).of_size_le hchanged.size_le,
    h.bound.mono hchanged.size_le⟩

theorem Closed.declare (h : w.Closed) (file text : String) : (w.declare file text).2.Closed := by
  unfold Workspace.declare
  split
  · exact h
  unfold declareSource
  split
  · exact h
  · next trees _ =>
    have hbound := h.bound.declareAll h.graph w.hosts.length trees
    split
    · next hall =>
      rw [hall] at hbound
      exact ⟨h.graph, h.metadata, hbound⟩
    · next hall =>
      rw [hall] at hbound
      exact ⟨h.graph, h.metadata, hbound⟩

theorem Closed.set (h : w.Closed) (key : Metadata.Key) (node : NodeId) {value : Value}
    (hvalue : w.graph.Knows value) :
    ({ w with metadata := w.metadata.set key node value } : Workspace).Closed where
  graph := h.graph
  metadata k id v hv := by
    rw [Metadata.own?_set] at hv
    split at hv
    · cases hv
      exact hvalue
    · exact h.metadata k id v hv
  bound := h.bound

/-- Standard modules write plain values. -/
theorem Closed.written (h : w.Closed) {id : NodeId} {metadata : Metadata}
    (hwritten : w.metadata.Written id metadata) : ({ w with metadata } : Workspace).Closed := by
  induction hwritten with
  | refl => exact h
  | set key value plain _ ih => exact ih.set key id (Graph.knows_of_refs_eq_nil plain.refs_eq_nil)

theorem Closed.callExport (h : w.Closed) (hrecorded : w.Recorded) (sort : Host.ExportSort)
    (name : String) (args : List Value) : (w.callExport sort name args).2.Closed := by
  obtain ⟨id, metadata, -, hwritten, hafter⟩ := hrecorded.callExport_written sort name args
  rw [hafter]
  exact h.written hwritten

/-- **Every step keeps a workspace closed.** -/
theorem Closed.after (h : w.Closed) (hrecorded : w.Recorded) (e : Event) (hknows : w.Knows e) :
    (w.after e).Closed := by
  cases e with
  | construct c => exact h.build (c.changes hknows (h.graph.intrinsics .null)).changed
  | derive d => exact h.build (d.changes h.graph hknows).changed
  | importModule m => exact ⟨h.graph, h.metadata, h.bound⟩
  | declare file text => exact h.declare file text
  | setOptions options => exact ⟨h.graph, h.metadata, h.bound⟩
  | writeMetadata key node value =>
    exact h.set key node fun id hid => hknows id (List.mem_cons_of_mem _ hid)
  | deleteMetadata key node =>
    exact ⟨h.graph, fun k id v hv => h.metadata k id v (Metadata.own?_of_own?_delete hv), h.bound⟩
  | callDecorator name node args =>
    unfold Workspace.after Workspace.callDecorator
    dsimp only
    split
    · exact h
    · exact h.callExport hrecorded _ _ _
  | callFunction name args => exact h.callExport hrecorded _ _ _
  | run call => exact h.after_run hrecorded call hknows
  | takeDiagnostics => exact ⟨h.graph, h.metadata, h.bound⟩

/-- **Reachable workspaces are closed**, with standard modules. -/
theorem Reachable.closed (h : w.Reachable Event.Standard) : w.Closed := by
  induction h with
  | start =>
    exact ⟨Graph.closed_initial, fun key id v hv => (nomatch hv), fun p hp => (nomatch hp)⟩
  | step e hreachable _ hknows ih => exact ih.after hreachable.recorded e hknows


end Workspace

end SchemaProjection
