import SchemaProjection.Proofs.Host.Versioning
import SchemaProjection.Proofs.Run.Documenting
import SchemaProjection.Proofs.Workspace.Bodies

/-!
# Workspaces with records of versions

In a workspace that is built around one instance of the module `versioning`, only its decorators
write under its keys, in runs or from outside. So what stands there is always of the right kind
(`Workspace.Reachable.keepsRecords`), and the functions of the module answer about a node with its
record, from outside (`Workspace.recalls_of_shown`) and in runs
(`Host.Versioning.Answers.callHost`).
-/

namespace SchemaProjection

open Host.Versioning

/-- **Steps around one instance of the module.** No other module is imported, and nobody but the
module has its keys to write with. -/
def Event.Versioned (keys : Keys) : Event → Prop
  | .importModule m => m = module keys
  | .writeMetadata key _ _ => key ∉ keys.versions ∧ key ≠ keys.renamedFromName
  | _ => True

/-! ### Runs -/

namespace Run

variable {keys : Keys} {setting : Setting} {r₁ r₂ : Run}

/-- What a run writes is of the right kind. -/
theorem Reaches.fits (hkeys : keys.Distinct) (hhosts : ∀ m ∈ setting.hosts, m = module keys)
    (h : Reaches setting r₁ r₂) (hfits : r₁.metadata.Fits keys) : r₂.metadata.Fits keys := by
  refine h.preserves (P := fun r => r.metadata.Fits keys) ?_ hfits
  intro s t hmove hs
  cases hmove with
  | host visible sort name f args found target =>
    -- only this move writes, and what is called is an export of the module
    obtain ⟨m, hm, hexport⟩ := Host.mem_of_find? found
    rw [hhosts m (List.mem_of_mem_take hm)] at hexport
    exact fits_metadataAfter hkeys hexport args s.graph hs
  | create | derive | stack | memo | trace => exact hs

theorem fits_release {run : Run} (h : run.metadata.Fits keys) (size : Nat) :
    (run.release size).metadata.Fits keys := by
  unfold release
  split
  · exact h.discardFrom size
  · exact h

theorem Leaves.fits {graph : Graph} {metadata : Metadata} {α : Type} {outcome : Outcome α}
    {trace : Option (List Instruction)} {reached : Run} {kept : Nat} (hkeys : keys.Distinct)
    (hhosts : ∀ m ∈ setting.hosts, m = module keys)
    (h : Leaves setting graph metadata outcome trace reached kept) (hfits : metadata.Fits keys) :
    outcome.metadata.Fits keys := by
  rw [h.outcome_metadata]
  exact fits_release (h.reaches.fits hkeys hhosts hfits) kept

end Run

/-! ### Workspaces -/

namespace Workspace

variable {keys : Keys} {w : Workspace} {id : NodeId}

/-- **Nothing but records**: the module is the only one, and all that stands under its keys is of
the right kind. -/
structure KeepsRecords (keys : Keys) (w : Workspace) : Prop where
  hosts : ∀ m ∈ w.hosts, m = module keys
  fits : w.metadata.Fits keys

theorem KeepsRecords.after_run (hkeys : keys.Distinct) (h : w.KeepsRecords keys)
    (call : ProjectionCall) : (call.after w).KeepsRecords keys := by
  have hproject : ∀ r : Request, (w.tryProject r.node r.handle r.args).2.metadata.Fits keys := by
    intro r
    obtain ⟨reached, kept, hleaves⟩ :=
      Run.leaves_project w.setting w.graph w.metadata r.node r.handle r.args
    exact hleaves.fits hkeys h.hosts h.fits
  have hinstructions : ∀ r : Request,
      (w.tryInstructions r.node r.handle r.args).2.metadata.Fits keys := by
    intro r
    obtain ⟨reached, kept, hleaves⟩ :=
      Run.leaves_instructions w.setting w.graph w.metadata r.node r.handle r.args
    exact hleaves.fits hkeys h.hosts h.fits
  cases call with
  | tryProject r => exact ⟨h.hosts, hproject r⟩
  | project r => exact ⟨h.hosts, hproject r⟩
  | tryInstructions r => exact ⟨h.hosts, hinstructions r⟩
  | instructions r => exact ⟨h.hosts, hinstructions r⟩

theorem KeepsRecords.after_callExport (hkeys : keys.Distinct) (h : w.KeepsRecords keys)
    (sort : Host.ExportSort) (name : String) (args : List Value) :
    (w.callExport sort name args).2.KeepsRecords keys := by
  rcases w.callExport_frame sort name args with hsame | ⟨f, hfound, hafter⟩
  · rw [hsame]
    exact h
  · obtain ⟨m, hm, hexport⟩ := Host.mem_of_find? hfound
    rw [h.hosts m hm] at hexport
    rw [hafter]
    exact ⟨h.hosts, fits_metadataAfter hkeys hexport args w.graph h.fits⟩

/-- **Every step keeps records.** -/
theorem Reachable.keepsRecords (hkeys : keys.Distinct) (hw : w.Reachable (Event.Versioned keys)) :
    w.KeepsRecords keys := by
  refine hw.invariant (P := KeepsRecords keys) ⟨fun _ h => (nomatch h), Metadata.fits_empty keys⟩ ?_
  intro w e h hadmits _
  cases e with
  | importModule m =>
    refine ⟨fun other hother => ?_, h.fits⟩
    rcases List.mem_append.mp hother with hold | hnew
    · exact h.hosts other hold
    · exact (List.mem_singleton.mp hnew).trans hadmits
  | writeMetadata key node value =>
    -- the key is none of the module
    exact ⟨h.hosts, h.fits.set (Keys.fits_foreign hadmits.1 hadmits.2 value) node⟩
  | deleteMetadata key node => exact ⟨h.hosts, h.fits.delete key node⟩
  | callDecorator name node args =>
    rw [Workspace.after, callDecorator]
    split
    · exact h
    · exact h.after_callExport hkeys _ _ _
  | callFunction name args => exact h.after_callExport hkeys _ _ _
  | run call => exact h.after_run hkeys call
  | construct | derive =>
    rw [Workspace.after, build_eq]
    exact ⟨h.hosts, h.fits⟩
  | declare file text =>
    obtain ⟨declarations, hdeclare⟩ := w.declare_frame file text
    rw [Workspace.after, hdeclare]
    exact ⟨h.hosts, h.fits⟩
  | setOptions | takeDiagnostics => exact ⟨h.hosts, h.fits⟩

/-- After one import the module is the only one. -/
theorem Reachable.hosts_eq (hkeys : keys.Distinct) (hw : w.Reachable (Event.Versioned keys))
    (hlength : w.hosts.length = 1) : w.hosts = [module keys] :=
  List.eq_replicate_iff.mpr ⟨hlength, (hw.keepsRecords hkeys).hosts⟩

/-- **What the functions of the module answer** about a node. -/
structure Recalls (w : Workspace) (id : NodeId) (r : Record) : Prop where
  added : (w.callFunction "getAddedOn" [.type id]).1 = .ok (.number r.added)
  removed : (w.callFunction "getRemovedOn" [.type id]).1 = .ok (.number r.removed)
  renamed : (w.callFunction "getRenamedFromVersion" [.type id]).1 = .ok (.number r.renamed)
  oldName : (w.callFunction "getRenamedFromOldName" [.type id]).1 = .ok (.string r.oldName)

/-- **A function that reads a record** answers with what is read, or with its default. -/
theorem callFunction_readRecord {function : String} {key : Metadata.Key} {default : Value}
    (hfound : Host.find? w.hosts .function function = some (readRecord function key default))
    (hid : w.graph.contains id) :
    (w.callFunction function [.type id]).1 =
      .ok ((w.metadata.read? w.graph key id).getD default) := by
  rw [callFunction, callExport_of_ok hfound (result_readRecord hid function default)]

theorem callFunction_of_answers (hhosts : w.hosts = [module keys]) (hid : w.graph.contains id)
    {function : String} {v : Value} (h : Answers keys w.graph w.metadata function id v) :
    (w.callFunction function [.type id]).1 = .ok v := by
  obtain ⟨key, default, hfound, rfl⟩ := h
  exact callFunction_readRecord (hhosts.symm ▸ hfound) hid

theorem recalls_of_shown (hhosts : w.hosts = [module keys]) (hid : w.graph.contains id) {r : Record}
    (h : r.Shown keys w.graph w.metadata id) : w.Recalls id r where
  added := callFunction_of_answers hhosts hid h.added
  removed := callFunction_of_answers hhosts hid h.removed
  renamed := callFunction_of_answers hhosts hid h.renamed
  oldName := callFunction_of_answers hhosts hid h.oldName

end Workspace

/-! ### Functions in a run -/

/-- **In a run the functions answer the same.** -/
theorem Host.Versioning.Answers.callHost {keys : Keys} {setting : Setting} {run : Run}
    {a : Activation} {rest : List Activation} {id : NodeId} {function : String} {v : Value}
    (h : Answers keys run.graph run.metadata function id v) (hv : v.Plain)
    (hstack : run.activations = a :: rest)
    (hhosts : setting.hosts.take a.hostCount = [module keys]) (hid : run.graph.contains id)
    {w : Word} (hw : w.text = function) :
    (Evaluation.callHost .function w [.type id]).result setting run = .ok v run := by
  obtain ⟨key, default, hfound, hread⟩ := h
  subst hw
  rw [Evaluation.result_callHost hstack (hhosts.symm ▸ hfound), result_readRecord hid, hread]
  cases v with
  | type => exact hv.elim
  | absent | bool | number | string => rfl

end SchemaProjection
