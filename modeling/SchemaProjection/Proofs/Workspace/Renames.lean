import SchemaProjection.Proofs.Run.Renames
import SchemaProjection.Proofs.Workspace.Inheritance
import SchemaProjection.Proofs.Workspace.Versioned

/-!
# Renames stay paired

Two functions of the module `versioning` answer what is on record about the rename of a node, one
with the version and one with the old name. Each reads entries of its own, along the lineage of the
node, and decorations are made in runs and from outside, of nodes that may be released afterwards.

A **history** (`Workspace.History`) is the log of all decorations on the way to a workspace, without
those of nodes that were released. The renames in it are on record
(`Workspace.History.recordsRenames`). So both functions answer with arguments of one decoration
(`Workspace.renames_paired`), the last one of the nearest node in the lineage that has any.
-/

namespace SchemaProjection

open Host.Versioning

/-- **Steps that leave renames to one instance of the module.** Other modules may be imported, but
nobody else has its keys to write with. -/
def Event.Respects (keys : Keys) : Event → Prop
  | .importModule m => Host.Versioning.Respects keys m
  | .writeMetadata key _ _ | .deleteMetadata key _ => key ∉ keys.renames
  | _ => True

/-- **The decorations that a step makes**: a call from outside makes one if it does not fail, and a
run makes those of its moves, whether it succeeds or fails. -/
def Event.Decorates (w : Workspace) (added : List Decoration) : Event → Prop
  | .callDecorator name node args =>
    added = match (w.callDecorator name node args).1 with
      | .ok _ => [⟨name, .type node :: args⟩]
      | .error _ => []
  | .run call => Run.Decorates w.setting (call.outset w) added (call.reached w)
  | _ => added = []

namespace Workspace

variable {keys : Keys} {w : Workspace} {log added : List Decoration} {admits : Event → Prop}

/-! ### Histories -/

/-- **A history of a workspace** lists the decorations that were made on the way to it, in their
order. Those of nodes that are released are dropped, since their ids are handed out again. -/
inductive History (admits : Event → Prop) : Workspace → List Decoration → Prop
  | start : History admits (ofGraph .initial) []
  | step {w : Workspace} {log added : List Decoration} (e : Event) (before : History admits w log)
    (admitted : admits e) (knows : w.Knows e) (decorates : e.Decorates w added) :
    History admits (w.after e) ((log ++ added).filter (Decoration.isIn (w.after e).graph))

theorem History.reachable (h : w.History admits log) : w.Reachable admits := by
  induction h with
  | start => exact .start
  | step e _ admitted knows _ ih => exact ih.step e admitted knows

/-- Every step makes some decorations, or none. -/
theorem exists_decorates (w : Workspace) (e : Event) : ∃ added, e.Decorates w added := by
  cases e with
  | run call => exact (call.reaches w).exists_decorates
  | callDecorator => exact ⟨_, rfl⟩
  | construct | derive | importModule | declare | setOptions | writeMetadata | deleteMetadata
    | callFunction | takeDiagnostics => exact ⟨[], rfl⟩

/-- **Every reachable workspace has a history.** -/
theorem Reachable.exists_history (hw : w.Reachable admits) : ∃ log, w.History admits log := by
  induction hw with
  | start => exact ⟨[], .start⟩
  | @step w e _ hadmits hknows ih =>
    obtain ⟨log, hlog⟩ := ih
    obtain ⟨added, hadded⟩ := w.exists_decorates e
    exact ⟨_, hlog.step e hadmits hknows hadded⟩

/-! ### Renames on record -/

/-- No imported module interferes with renames. -/
theorem Reachable.hosts_respect (hw : w.Reachable (Event.Respects keys)) :
    ∀ m ∈ w.hosts, Host.Versioning.Respects keys m := by
  refine hw.invariant (P := fun w => ∀ m ∈ w.hosts, Host.Versioning.Respects keys m) nofun ?_
  intro w e h hadmits _ m hm
  rw [hosts_after] at hm
  rcases List.mem_append.mp hm with hold | hnew
  · exact h m hold
  · cases e with
    | importModule => exact List.mem_singleton.mp hnew ▸ hadmits
    | _ => cases hnew

/-- **The renames in a log are on record** in a workspace. -/
def RecordsRenames (keys : Keys) (log : List Decoration) (w : Workspace) : Prop :=
  Host.Versioning.RecordsRenames keys log w.graph w.metadata

namespace RecordsRenames

/-- A step that makes no decorations, and neither shrinks the graph nor touches the records. -/
theorem quiet (h : w.RecordsRenames keys log) {w' : Workspace}
    (hsize : w.graph.size ≤ w'.graph.size) (hsame : ∀ key ∈ keys.renames, ∀ id,
      w'.metadata.own? key id = w.metadata.own? key id) :
    w'.RecordsRenames keys ((log ++ []).filter (Decoration.isIn w'.graph)) := by
  rw [List.append_nil]
  exact Host.Versioning.RecordsRenames.grown h hsize hsame

section

variable (hkeys : keys.Distinct) (hhosts : ∀ m ∈ w.hosts, Host.Versioning.Respects keys m)
include hkeys hhosts

/-- **A call from outside**, of an export that is found. -/
theorem callExport (h : w.RecordsRenames keys log) {sort : Host.ExportSort} {name : String}
    {f : Host.Function} (hfound : Host.find? w.hosts sort name = some f) (args : List Value) :
    ({ w with metadata := f.metadataAfter args w.graph w.metadata } : Workspace).RecordsRenames keys
      ((log ++ Decoration.ofCall sort name f args w.graph w.metadata).filter
        (Decoration.isIn w.graph)) :=
  (Host.Versioning.RecordsRenames.call h hkeys hhosts hfound args).grown (Nat.le_refl _)
    fun _ _ _ => rfl

theorem callDecorator (h : w.RecordsRenames keys log) (name : String) (node : NodeId)
    (args : List Value) (hadded : (Event.callDecorator name node args).Decorates w added) :
    (w.callDecorator name node args).2.RecordsRenames keys
      ((log ++ added).filter (Decoration.isIn (w.callDecorator name node args).2.graph)) := by
  rw [Event.Decorates] at hadded
  subst hadded
  unfold Workspace.callDecorator
  split
  · -- a node of another graph is not decorated
    exact h.quiet (Nat.le_refl _) fun _ _ _ => rfl
  · cases hfound : Host.find? w.hosts .decorator name with
    | none =>
      have hnone : w.callExport .decorator name (.type node :: args) =
          (.error (.undeclared .decorator name), w) := by
        rw [Workspace.callExport, hfound]
      rw [hnone]
      exact h.quiet (Nat.le_refl _) fun _ _ _ => rfl
    | some f =>
      -- the log has the call if it has succeeded
      have hcall := h.callExport hkeys hhosts hfound (.type node :: args)
      unfold Decoration.ofCall at hcall
      cases hresult : (f (.type node :: args)).result w.graph w.metadata with
      | ok value after =>
        rw [hresult, Host.metadataAfter_of_ok hresult] at hcall
        rw [callExport_of_ok hfound hresult]
        exact hcall
      | error fault after =>
        rw [hresult, Host.metadataAfter_of_error hresult] at hcall
        rw [callExport_of_error hfound hresult]
        exact hcall

theorem callFunction (h : w.RecordsRenames keys log) (name : String) (args : List Value) :
    (w.callFunction name args).2.RecordsRenames keys
      ((log ++ []).filter (Decoration.isIn (w.callFunction name args).2.graph)) := by
  rw [Workspace.callFunction]
  rcases w.callExport_frame .function name args with hsame | ⟨f, hfound, hafter⟩
  · rw [hsame]
    exact h.quiet (Nat.le_refl _) fun _ _ _ => rfl
  · rw [hafter]
    exact h.callExport hkeys hhosts hfound args

/-- **A run**, with what it releases at its end. -/
theorem after_run (h : w.RecordsRenames keys log) (call : ProjectionCall)
    (hadded : Run.Decorates w.setting (call.outset w) added (call.reached w)) :
    (call.after w).RecordsRenames keys
      ((log ++ added).filter (Decoration.isIn (call.after w).graph)) := by
  have hstart : Host.Versioning.RecordsRenames keys log (call.outset w).graph
      (call.outset w).metadata := by
    cases call <;> exact h
  have hreached := hstart.decorates hkeys hhosts hadded
  obtain ⟨kept, hgraph, hmetadata⟩ := call.after_eq_release w
  rw [RecordsRenames, hgraph, hmetadata]
  exact hreached.release kept

/-- **Every step keeps the renames on record**, with its decorations in the log. -/
theorem after (h : w.RecordsRenames keys log) (hclosed : w.graph.Closed) {e : Event}
    (hadmits : e.Respects keys) (hknows : w.Knows e) (hadded : e.Decorates w added) :
    (w.after e).RecordsRenames keys
      ((log ++ added).filter (Decoration.isIn (w.after e).graph)) := by
  cases e with
  | callDecorator name node args => exact h.callDecorator hkeys hhosts name node args hadded
  | run call => exact h.after_run hkeys hhosts call hadded
  | callFunction name args =>
    cases hadded
    exact h.callFunction hkeys hhosts name args
  | construct c =>
    cases hadded
    rw [Workspace.after, build_eq]
    have hchanged := (c.changes hknows (hclosed.intrinsics .null)).changed
    exact h.quiet hchanged.size_le fun _ _ _ => rfl
  | derive d =>
    cases hadded
    rw [Workspace.after, build_eq]
    exact h.quiet (d.changes hclosed hknows).changed.size_le fun _ _ _ => rfl
  | declare file text =>
    cases hadded
    obtain ⟨declarations, hdeclare⟩ := w.declare_frame file text
    rw [Workspace.after, hdeclare]
    exact h.quiet (Nat.le_refl _) fun _ _ _ => rfl
  | writeMetadata key node value =>
    cases hadded
    refine h.quiet (Nat.le_refl _) fun k hk id => ?_
    exact Metadata.own?_set_of_ne (ne_of_mem_of_not_mem hk hadmits) node value id
  | deleteMetadata key node =>
    cases hadded
    refine h.quiet (Nat.le_refl _) fun k hk id => ?_
    exact Metadata.own?_delete_of_ne (ne_of_mem_of_not_mem hk hadmits) id
  | importModule | setOptions | takeDiagnostics =>
    cases hadded
    exact h.quiet (Nat.le_refl _) fun _ _ _ => rfl

end

end RecordsRenames

/-- **The renames of a history are on record.** -/
theorem History.recordsRenames (hkeys : keys.Distinct) (h : w.History (Event.Respects keys) log) :
    w.RecordsRenames keys log := by
  induction h with
  | start => exact .empty keys _
  | step e before admitted knows decorates ih =>
    have hreachable := before.reachable
    exact ih.after hkeys hreachable.hosts_respect hreachable.graph_closed admitted knows decorates

/-! ### What the functions answer -/

/-- **The two functions show a rename of a log** about a node: they answer with the version and the
old name of the last rename of the nearest node in the lineage that has any, or with their defaults
if there is none. -/
def ShowsRename (w : Workspace) (log : List Decoration) (id : NodeId) : Prop :=
  ∃ version oldName,
    (w.callFunction "getRenamedFromVersion" [.type id]).1 = .ok version ∧
    (w.callFunction "getRenamedFromOldName" [.type id]).1 = .ok oldName ∧
    match Decoration.nearest? log "renamedFrom" w.graph id with
    | some rename => rename.args[1]? = some version ∧ rename.args[2]? = some oldName
    | none => version = noVersion ∧ oldName = .string ""

theorem RecordsRenames.showsRename (h : w.RecordsRenames keys log)
    (hhosts : ∀ m ∈ w.hosts, Host.Versioning.Respects keys m) (hmem : module keys ∈ w.hosts)
    {id : NodeId} (hid : w.graph.contains id) : w.ShowsRename log id := by
  have hversion : Host.find? w.hosts .function "getRenamedFromVersion" =
      some (readRecord "getRenamedFromVersion" keys.renamedFromVersion noVersion) :=
    find?_of_mem hmem rfl fun m hm => (hhosts m hm).imp_right Apart.version
  have hname : Host.find? w.hosts .function "getRenamedFromOldName" =
      some (readRecord "getRenamedFromOldName" keys.renamedFromName (.string "")) :=
    find?_of_mem hmem rfl fun m hm => (hhosts m hm).imp_right Apart.oldName
  obtain ⟨hreadVersion, hreadName⟩ := Host.Versioning.RecordsRenames.read? h id
  refine ⟨_, _, callFunction_readRecord hversion hid, callFunction_readRecord hname hid, ?_⟩
  rw [hreadVersion, hreadName]
  cases hnearest : Decoration.nearest? log "renamedFrom" w.graph id with
  | none => exact ⟨rfl, rfl⟩
  | some rename =>
    -- a rename has both arguments, so that no default is taken
    obtain ⟨hrename, hrenamed⟩ := Decoration.of_nearest?_eq_some hnearest
    obtain ⟨_, version, oldName, _, -, hargs⟩ := h.renames rename hrename hrenamed
    dsimp only [Option.bind_some]
    rw [hargs]
    exact ⟨rfl, rfl⟩

/-- An answer other than the default is an argument of a rename. -/
theorem ShowsRename.exists_rename {id : NodeId} (h : w.ShowsRename log id) {version oldName : Value}
    (hversion : (w.callFunction "getRenamedFromVersion" [.type id]).1 = .ok version)
    (hname : (w.callFunction "getRenamedFromOldName" [.type id]).1 = .ok oldName)
    (hne : version ≠ noVersion) :
    ∃ rename, Decoration.nearest? log "renamedFrom" w.graph id = some rename ∧
      rename.args[1]? = some version ∧ rename.args[2]? = some oldName := by
  obtain ⟨v, s, hv, hs, hrename⟩ := h
  cases Except.ok.inj (hv.symm.trans hversion)
  cases Except.ok.inj (hs.symm.trans hname)
  cases hnearest : Decoration.nearest? log "renamedFrom" w.graph id with
  | none =>
    rw [hnearest] at hrename
    exact absurd hrename.1 hne
  | some rename =>
    rw [hnearest] at hrename
    exact ⟨rename, rfl, hrename⟩

/-- **Renames stay paired.** In every workspace that is reachable with one instance of the module
and others that leave renames to it, a node has an entry for the version exactly if it has one for
the old name. The workspace has a history, and by every history the two functions show, about each
node, one and the same rename. -/
theorem renames_paired (hkeys : keys.Distinct) (hw : w.Reachable (Event.Respects keys)) :
    (∀ id, (w.metadata.own? keys.renamedFromVersion id).isSome =
      (w.metadata.own? keys.renamedFromName id).isSome) ∧
    (∃ log, w.History (Event.Respects keys) log) ∧
    ∀ log, w.History (Event.Respects keys) log → module keys ∈ w.hosts →
      ∀ id, w.graph.contains id → w.ShowsRename log id := by
  obtain ⟨log, hlog⟩ := hw.exists_history
  refine ⟨(hlog.recordsRenames hkeys).isSome_eq, ⟨log, hlog⟩, fun other hother hmem id hid => ?_⟩
  exact (hother.recordsRenames hkeys).showsRename hw.hosts_respect hmem hid

def renamingKeys : Keys := ⟨⟨0⟩, ⟨1⟩, ⟨2⟩, ⟨3⟩⟩

def renamingText : String :=
  "projection model#p \x7b to \x7b @renamedFrom(self, 5, \"c\"); \x7d \x7d " ++
  "projection model#f \x7b to \x7b @renamedFrom(self, 7, \"d\"); none(); \x7d \x7d"

/-- A model that is renamed from outside, once with success and once without, and two runs that
rename a copy of it, of which the first one fails. -/
def renamingSteps : List Event :=
  [.construct (.model "M"), .importModule (module renamingKeys),
    .importModule (Host.Doc.module ⟨4⟩),
    .callDecorator "renamedFrom" ⟨25⟩ [.number (.ofNat 2), .string "a"],
    .callDecorator "renamedFrom" ⟨25⟩ [.number (.ofNat 3)],
    .declare "schema" renamingText, .run (.tryProject ⟨⟨25⟩, ⟨⟨1⟩, .forward⟩, []⟩),
    .run (.tryProject ⟨⟨25⟩, ⟨⟨0⟩, .forward⟩, []⟩)]

def renamingWorkspace : Workspace := renamingSteps.foldl after (ofGraph .initial)

/-- Both runs give the id 26 to their copy of the model. What is shown about the copy that is left
is the rename of the second run, and about the model the one that has succeeded. -/
theorem renames_paired_copies :
    renamingKeys.Distinct ∧ renamingWorkspace.Reachable (Event.Respects renamingKeys) ∧
      module renamingKeys ∈ renamingWorkspace.hosts ∧
      renamingWorkspace.graph.lineage ⟨26⟩ = [⟨26⟩, ⟨25⟩] ∧
      (∀ id, (renamingWorkspace.metadata.own? renamingKeys.renamedFromVersion id).isSome =
        (renamingWorkspace.metadata.own? renamingKeys.renamedFromName id).isSome) ∧
      ∃ log, renamingWorkspace.History (Event.Respects renamingKeys) log ∧
        renamingWorkspace.ShowsRename log ⟨4⟩ ∧
        (∃ rename, Decoration.nearest? log "renamedFrom" renamingWorkspace.graph ⟨26⟩ =
            some rename ∧
          rename.args[1]? = some (.number (.ofNat 5)) ∧ rename.args[2]? = some (.string "c")) ∧
        ∃ rename, Decoration.nearest? log "renamedFrom" renamingWorkspace.graph ⟨25⟩ =
            some rename ∧
          rename.args[1]? = some (.number (.ofNat 2)) ∧ rename.args[2]? = some (.string "a") := by
  have hreachable : renamingWorkspace.Reachable (Event.Respects renamingKeys) := by
    refine Reachable.start.steps (fun e he => ?_) (by decide +kernel)
    simp only [renamingSteps, List.mem_cons, List.not_mem_nil, or_false] at he
    rcases he with rfl | rfl | rfl | rfl | rfl | rfl | rfl | rfl
    · trivial
    · exact .inl rfl
    · exact .inr (apart_doc (by decide))
    all_goals trivial
  have hmem : module renamingKeys ∈ renamingWorkspace.hosts := by
    rw [renamingWorkspace, hosts_foldl_after]
    exact List.mem_cons_self
  have hrun : renamingWorkspace.graph.lineage ⟨26⟩ = [⟨26⟩, ⟨25⟩] ∧
      renamingWorkspace.graph.contains ⟨4⟩ ∧ renamingWorkspace.graph.contains ⟨25⟩ ∧
      renamingWorkspace.graph.contains ⟨26⟩ ∧
      (renamingWorkspace.callFunction "getRenamedFromVersion" [.type ⟨26⟩]).1 =
        .ok (.number (.ofNat 5)) ∧
      (renamingWorkspace.callFunction "getRenamedFromOldName" [.type ⟨26⟩]).1 =
        .ok (.string "c") ∧
      (renamingWorkspace.callFunction "getRenamedFromVersion" [.type ⟨25⟩]).1 =
        .ok (.number (.ofNat 2)) ∧
      (renamingWorkspace.callFunction "getRenamedFromOldName" [.type ⟨25⟩]).1 =
        .ok (.string "a") := by
    decide +kernel
  obtain ⟨hlineage, hscalar, hmodel, hcopy, hversion, hname, hversion', hname'⟩ := hrun
  obtain ⟨hpaired, ⟨log, hlog⟩, hshows⟩ := renames_paired (by decide) hreachable
  have hshown := hshows log hlog hmem
  exact ⟨by decide, hreachable, hmem, hlineage, hpaired, log, hlog, hshown _ hscalar,
    (hshown _ hcopy).exists_rename hversion hname (by decide +kernel),
    (hshown _ hmodel).exists_rename hversion' hname' (by decide +kernel)⟩

end Workspace

end SchemaProjection
