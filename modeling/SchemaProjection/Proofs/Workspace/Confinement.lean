import SchemaProjection.Proofs.Workspace.Graphs

/-!
# Confined host functions

A host function is **confined** if it writes metadata only about nodes of the graph that it is
handed (`Host.Function.Confined`). The standard modules are (`Host.Module.Standard.confined`).

With confined functions no metadata is ever about a node that the graph does not have: a run keeps
this move by move (`Run.Reaches.recorded`), and releasing nodes takes their entries along. So it
holds of every reachable workspace (`Workspace.Reachable.within`).
-/

namespace SchemaProjection

namespace Host

/-- Writes nothing about ids that are no nodes of the graph. -/
def Function.Confined (f : Function) : Prop :=
  ∀ (args : List Value) (g : Graph) (m : Metadata) (key : Metadata.Key) (id : NodeId),
    ¬ g.contains id → (f.metadataAfter args g m).own? key id = m.own? key id

/-- A module whose functions and decorators are confined. -/
def Module.Confined (m : Module) : Prop := ∀ sort, ∀ e ∈ m.exports sort, e.2.Confined

end Host

/-- Metadata is about the first nodes if no other id has an entry. -/
theorem Metadata.within_iff {m : Metadata} {n : Nat} :
    m.Within n ↔ ∀ key (id : NodeId), n ≤ id.index → m.own? key id = none := by
  refine ⟨fun h key id hid => h.own?_eq_none key hid, fun h key e he => ?_⟩
  refine Nat.lt_of_not_le fun hout => ?_
  have hnone : (m.entries key).lookup e.1 = none := h key e.1 hout
  have hne := List.lookup_eq_none_iff.mp hnone e he
  rw [bne_self_eq_false] at hne
  cases hne

theorem Host.Function.Confined.within {f : Host.Function} (hf : f.Confined) (args : List Value)
    {g : Graph} {m : Metadata} (hm : m.Within g.size) :
    (f.metadataAfter args g m).Within g.size := by
  refine Metadata.within_iff.mpr fun key id hid => ?_
  have hout : ¬ g.contains id := fun hin => Nat.not_lt.mpr hid (Graph.contains_iff.mp hin)
  rw [hf args g m key id hout]
  exact hm.own?_eq_none key hid

/-- Writing about one node leaves the entries of all others. -/
theorem Metadata.Written.own?_of_ne {id other : NodeId} {m after : Metadata}
    (h : m.Written id after) (hne : other ≠ id) (key : Metadata.Key) :
    after.own? key other = m.own? key other := by
  induction h with
  | refl => rfl
  | set k value plain _ ih => rw [Metadata.own?_set, if_neg fun heq => hne heq.2, ih]

/-- **The standard modules are confined**: a reader writes nothing, and a recorder writes to its
target only, which it has checked to be a node. -/
theorem Host.Module.Standard.confined {m : Host.Module} (hm : m.Standard) : m.Confined := by
  intro sort e he args g metadata key id hid
  cases sort with
  | function => rw [(hm.reader he).metadataAfter]
  | decorator =>
    rcases (hm.recorder he).metadataAfter args g metadata with
      hsame | ⟨target, -, htarget, hwritten⟩
    · rw [hsame]
    · have hne : id ≠ target := fun heq => hid (heq.symm ▸ htarget)
      exact hwritten.own?_of_ne hne key

/-! ### Runs -/

/-- All modules that a run sees are confined. -/
def Setting.Confined (setting : Setting) : Prop := ∀ m ∈ setting.hosts, m.Confined

namespace Run

variable {setting : Setting}

/-- **One move** of a run keeps the metadata in the graph. -/
theorem Move.recorded (hconfined : setting.Confined) {r₁ r₂ : Run} (h : Move setting r₁ r₂)
    (hrecorded : r₁.Recorded) : r₂.Recorded := by
  have hpush : ∀ node, r₁.metadata.Within (r₁.graph.push node).size := fun node =>
    hrecorded.mono (Graph.size_le_of_le (Graph.le_push _ _))
  cases h with
  | create shape => exact hpush _
  | derive id shape known same_kind => exact hpush _
  | stack | memo | trace => exact hrecorded
  | host visible sort name f args found target =>
    -- the function comes from one of the imported modules
    obtain ⟨m, hm, hexport⟩ := Host.mem_of_find? found
    have hf : f.Confined := hconfined m (List.mem_of_mem_take hm) sort _ hexport
    exact hf.within args hrecorded

theorem Reaches.recorded (hconfined : setting.Confined) {r₁ r₂ : Run}
    (h : Reaches setting r₁ r₂) (hrecorded : r₁.Recorded) : r₂.Recorded :=
  h.preserves (fun hmove => hmove.recorded hconfined) hrecorded

/-- What a run leaves is about nodes of the graph that it leaves. -/
theorem Leaves.within_of_confined (hconfined : setting.Confined) {graph : Graph}
    {metadata : Metadata} (hwithin : metadata.Within graph.size) {α : Type} {outcome : Outcome α}
    {trace : Option (List Instruction)} {reached : Run} {kept : Nat}
    (h : Leaves setting graph metadata outcome trace reached kept) :
    outcome.metadata.Within outcome.graph.size := by
  have hreached : reached.Recorded := h.reaches.recorded hconfined hwithin
  rw [h.outcome_graph, h.outcome_metadata]
  exact recorded_release hreached kept

end Run

/-! ### Workspaces -/

/-- Only confined modules are imported. -/
def Event.Confined : Event → Prop
  | .importModule m => m.Confined
  | _ => True

theorem Event.Standard.confined {e : Event} (h : e.Standard) : e.Confined := by
  cases e with
  | importModule m => exact Host.Module.Standard.confined h
  | _ => trivial

namespace Workspace

variable {w : Workspace}

/-- A workspace that is reachable with some steps is reachable if more are admitted. -/
theorem Reachable.mono {admits admits' : Event → Prop} (himp : ∀ e, admits e → admits' e)
    (h : w.Reachable admits) : w.Reachable admits' := by
  induction h with
  | start => exact .start
  | step e _ hadmits hknows ih => exact ih.step e (himp e hadmits) hknows

/-- All modules are confined, and all metadata is about nodes of the graph. -/
structure Confined (w : Workspace) : Prop where
  setting : w.setting.Confined
  within : w.metadata.Within w.graph.size

theorem Confined.after_run (h : w.Confined) (call : ProjectionCall) :
    (call.after w).Confined := by
  have hproject : ∀ r : Request, (w.tryProject r.node r.handle r.args).2.Confined := by
    intro r
    obtain ⟨reached, kept, hleaves⟩ :=
      Run.leaves_project w.setting w.graph w.metadata r.node r.handle r.args
    exact ⟨h.setting, hleaves.within_of_confined h.setting h.within⟩
  have hinstructions : ∀ r : Request, (w.tryInstructions r.node r.handle r.args).2.Confined := by
    intro r
    obtain ⟨reached, kept, hleaves⟩ :=
      Run.leaves_instructions w.setting w.graph w.metadata r.node r.handle r.args
    exact ⟨h.setting, hleaves.within_of_confined h.setting h.within⟩
  cases call with
  | tryProject r => exact hproject r
  | tryInstructions r => exact hinstructions r
  | project r => exact ⟨h.setting, (hproject r).within⟩
  | instructions r => exact ⟨h.setting, (hinstructions r).within⟩

theorem Confined.build (h : w.Confined) {α : Type} {action : Building α}
    (hchanged : w.graph.Changed (action.graphAfter w.graph)) : (w.build action).2.Confined := by
  rw [build_eq]
  exact ⟨h.setting, h.within.mono hchanged.size_le⟩

theorem Confined.callExport (h : w.Confined) (sort : Host.ExportSort) (name : String)
    (args : List Value) : (w.callExport sort name args).2.Confined := by
  rcases w.callExport_frame sort name args with hsame | ⟨f, hfound, hafter⟩
  · rw [hsame]
    exact h
  · obtain ⟨m, hm, hexport⟩ := Host.mem_of_find? hfound
    have hf : f.Confined := h.setting m hm sort _ hexport
    rw [hafter]
    exact ⟨h.setting, hf.within args h.within⟩

/-- **Every step keeps the metadata in the graph.** -/
theorem Confined.after (h : w.Confined) (hclosed : w.graph.Closed) (e : Event)
    (hconfined : e.Confined) (hknows : w.Knows e) : (w.after e).Confined := by
  cases e with
  | construct c => exact h.build (c.changes hknows (hclosed.intrinsics .null)).changed
  | derive d => exact h.build (d.changes hclosed hknows).changed
  | importModule m =>
    refine ⟨fun m' hm' => ?_, h.within⟩
    rcases List.mem_append.mp hm' with hold | hnew
    · exact h.setting m' hold
    · exact List.mem_singleton.mp hnew ▸ hconfined
  | declare file text =>
    obtain ⟨declarations, hdeclare⟩ := w.declare_frame file text
    rw [Workspace.after, hdeclare]
    exact ⟨h.setting, h.within⟩
  | setOptions options => exact ⟨h.setting, h.within⟩
  | writeMetadata key node value =>
    have hnode : w.graph.contains node := hknows node List.mem_cons_self
    exact ⟨h.setting, h.within.set key value (Graph.contains_iff.mp hnode)⟩
  | deleteMetadata key node => exact ⟨h.setting, h.within.delete key node⟩
  | callDecorator name node args =>
    unfold Workspace.after Workspace.callDecorator
    dsimp only
    split
    · exact h
    · exact h.callExport _ _ _
  | callFunction name args => exact h.callExport _ _ _
  | run call => exact h.after_run call
  | takeDiagnostics => exact ⟨h.setting, h.within⟩

/-- **No metadata is about a node that the graph does not have**, in every reachable workspace with
confined modules. -/
theorem Reachable.confined (h : w.Reachable Event.Confined) : w.Confined := by
  induction h with
  | start => exact ⟨fun m hm => (nomatch hm), Metadata.within_empty _⟩
  | step e hreachable hadmits hknows ih =>
    exact ih.after hreachable.graph_closed e hadmits hknows

end Workspace

end SchemaProjection
