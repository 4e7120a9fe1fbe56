import SchemaProjection.Proofs.Reading
import SchemaProjection.Proofs.Workspace.Integrity

/-!
# New nodes inherit

Ids are handed out again when nodes are released, and metadata is kept by id. So a new node could
come with what was written about another one that had its id before. It does not: no entry is about
an id that is no node (`Workspace.Reachable.confined`), so a node is born without entries, and until
one is written about it, it **inherits** (`Metadata.Inherits`): it shows what its origin shows, or
nothing if it has none.

Only three things write an entry where there was none: a client that does so past all modules, a
call of an export, and a host function that a run calls (`Event.Writes`, `Run.Writes`). All other
steps add none, and a release only drops some. `Workspace.unborn_inherits` puts this together for
what a client does with a reachable workspace and for the states that a run passes through.
-/

namespace SchemaProjection

/-- **A node inherits** under a key: it has no entry of its own, so what is read of it is read of
its origin. -/
structure Metadata.Inherits (m : Metadata) (g : Graph) (key : Metadata.Key) (id : NodeId) :
    Prop where
  own : m.own? key id = none
  read : m.read? g key id = (g.origin? id).bind (m.read? g key)

theorem Metadata.inherits_of_own? {m : Metadata} {g : Graph} {key : Metadata.Key} {id : NodeId}
    (hg : g.Ordered) (hown : m.own? key id = none) : m.Inherits g key id := by
  refine ⟨hown, ?_⟩
  cases horigin : g.origin? id with
  | none => rw [read?_of_origin?_none horigin, hown, Option.bind_none]
  | some origin => rw [read?_of_origin? hg horigin, hown, Option.none_or, Option.bind_some]

/-! ### Runs -/

namespace Run

variable {setting : Setting} {key : Metadata.Key} {id : NodeId}

/-- **A host function writes** an entry where there was none: it is called in one state of a run and
leaves the other. -/
def Writes (setting : Setting) (key : Metadata.Key) (id : NodeId) (s t : Run) : Prop :=
  s.metadata.own? key id = none ∧ t.metadata.own? key id ≠ none ∧
    ∃ visible sort name f args, Host.find? (setting.hosts.take visible) sort name = some f ∧
      t = { s with metadata := f.metadataAfter args s.graph s.metadata }

/-- **A node without an entry gets one from a host function only.** -/
theorem Reaches.own? {s t : Run} (h : Reaches setting s t) (hnone : s.metadata.own? key id = none) :
    t.metadata.own? key id = none ∨
      ∃ a b, Reaches setting s a ∧ Writes setting key id a b ∧ Reaches setting b t := by
  induction h with
  | refl => exact .inl hnone
  | @tail b c hfirst hlast ih =>
    rcases ih with hb | ⟨a, a', ha, hwrites, hafter⟩
    · -- the last move is the first one that may have written the entry
      cases hlast with
      | create | derive | stack | memo | trace => exact .inl hb
      | host visible sort name f args found target =>
        by_cases hc : (f.metadataAfter args b.graph b.metadata).own? key id = none
        · exact .inl hc
        · exact .inr ⟨b, _, hfirst, ⟨hb, hc, visible, sort, name, f, args, found, rfl⟩, .refl _⟩
    · exact .inr ⟨a, a', ha, hwrites, hafter.tail hlast⟩

/-- Releasing nodes adds no entry. -/
theorem own?_release {run : Run} (hnone : run.metadata.own? key id = none) (size : Nat) :
    (run.release size).metadata.own? key id = none := by
  unfold release
  split
  · dsimp only
    rw [Metadata.own?_discardFrom, hnone, ite_self]
  · exact hnone

end Run

namespace ProjectionCall

/-- The state in which the run of a call begins. -/
def outset (w : Workspace) : ProjectionCall → Run
  | .tryProject _ | .project _ => Run.start w.graph w.metadata none
  | .tryInstructions _ | .instructions _ => Run.start w.graph w.metadata (some [])

/-- The state in which the run of a call ends, before anything is released. -/
def reached (w : Workspace) (call : ProjectionCall) : Run :=
  (Eval.projectNode call.request.node call.request.handle call.request.args).stateAfter w.setting
    (call.outset w)

theorem reaches (w : Workspace) (call : ProjectionCall) :
    (call.outset w).Reaches w.setting (call.reached w) := by
  have hbegun : (call.outset w).Begun := by
    cases call <;> exact Nat.le_refl _
  exact (Eval.steps_projectNode _ _ _ : Eval.Steps _ _ false _).reaches hbegun

/-- Of the graph that a run ends with some nodes are kept, and of the metadata their entries. -/
theorem after_eq_release (w : Workspace) (call : ProjectionCall) :
    ∃ kept, (call.after w).graph = ((call.reached w).release kept).graph ∧
      (call.after w).metadata = ((call.reached w).release kept).metadata := by
  have hproject : ∀ r : Request, ∃ kept,
      (w.tryProject r.node r.handle r.args).2.graph =
          ((reached w (.tryProject r)).release kept).graph ∧
        (w.tryProject r.node r.handle r.args).2.metadata =
          ((reached w (.tryProject r)).release kept).metadata := by
    intro r
    unfold Workspace.tryProject Run.project reached Eval.stateAfter
    dsimp only [request, outset]
    rw [Run.execute_eq]
    cases (Eval.projectNode r.node r.handle r.args).result w.setting
        (Run.start w.graph w.metadata none) with
    | ok id after =>
      have hall : after = after.release after.graph.size := (Run.release_size after).symm
      exact ⟨after.graph.size, congrArg Run.graph hall, congrArg Run.metadata hall⟩
    | error failure after => exact ⟨w.graph.size, rfl, rfl⟩
  have hinstructions : ∀ r : Request, ∃ kept,
      (w.tryInstructions r.node r.handle r.args).2.graph =
          ((reached w (.tryInstructions r)).release kept).graph ∧
        (w.tryInstructions r.node r.handle r.args).2.metadata =
          ((reached w (.tryInstructions r)).release kept).metadata := by
    intro r
    unfold Workspace.tryInstructions Run.instructions reached Eval.stateAfter
    dsimp only [request, outset]
    rw [Run.execute_eq]
    cases (Eval.projectNode r.node r.handle r.args).result w.setting
        (Run.start w.graph w.metadata (some [])) with
    | ok id after => exact ⟨_, rfl, rfl⟩
    | error failure after => exact ⟨w.graph.size, rfl, rfl⟩
  cases call with
  | tryProject r => exact hproject r
  | tryInstructions r => exact hinstructions r
  | project r => exact hproject r
  | instructions r => exact hinstructions r

end ProjectionCall

/-! ### Events -/

/-- **A step writes an entry**: past all modules, by a call of an export, or in a run that ends with
the entry, since it has called a host function that wrote it. -/
def Event.Writes (w : Workspace) (key : Metadata.Key) (id : NodeId) : Event → Prop
  | .writeMetadata k node _ => k = key ∧ node = id
  | .callDecorator name node args => ∃ f, Host.find? w.hosts .decorator name = some f ∧
    (f.metadataAfter (.type node :: args) w.graph w.metadata).own? key id ≠ none
  | .callFunction name args => ∃ f, Host.find? w.hosts .function name = some f ∧
    (f.metadataAfter args w.graph w.metadata).own? key id ≠ none
  | .run call => (call.reached w).metadata.own? key id ≠ none ∧
    ∃ s t, (call.outset w).Reaches w.setting s ∧ Run.Writes w.setting key id s t ∧
      t.Reaches w.setting (call.reached w)
  | .construct _ | .derive _ | .importModule _ | .declare _ _ | .setOptions _
  | .deleteMetadata _ _ | .takeDiagnostics => False

namespace Workspace

variable {w : Workspace} {key : Metadata.Key} {id : NodeId}

theorem own?_build (hnone : w.metadata.own? key id = none) {α : Type} (action : Building α) :
    (w.build action).2.metadata.own? key id = none := by
  rw [build_eq]
  exact hnone

theorem own?_callExport (hnone : w.metadata.own? key id = none) (sort : Host.ExportSort)
    (name : String) (args : List Value) :
    (w.callExport sort name args).2.metadata.own? key id = none ∨
      ∃ f, Host.find? w.hosts sort name = some f ∧
        (f.metadataAfter args w.graph w.metadata).own? key id ≠ none := by
  rcases w.callExport_frame sort name args with hsame | ⟨f, hfound, hafter⟩
  · rw [hsame]
    exact .inl hnone
  · rw [hafter]
    by_cases h : (f.metadataAfter args w.graph w.metadata).own? key id = none
    · exact .inl h
    · exact .inr ⟨f, hfound, h⟩

theorem own?_after_run (hnone : w.metadata.own? key id = none) (call : ProjectionCall) :
    (call.after w).metadata.own? key id = none ∨ Event.Writes w key id (.run call) := by
  have hstart : (call.outset w).metadata.own? key id = none := by
    cases call <;> exact hnone
  by_cases hend : (call.reached w).metadata.own? key id = none
  -- the run has ended without an entry, and the release only drops some
  · obtain ⟨kept, -, hkept⟩ := call.after_eq_release w
    rw [hkept]
    exact .inl (Run.own?_release hend kept)
  · exact .inr ⟨hend, ((call.reaches w).own? hstart).resolve_left hend⟩

/-- **One step** leaves a node without an entry as it is, unless it writes one. -/
theorem own?_after (hnone : w.metadata.own? key id = none) (e : Event) :
    (w.after e).metadata.own? key id = none ∨ e.Writes w key id := by
  cases e with
  | construct c => exact .inl (own?_build hnone c.action)
  | derive d => exact .inl (own?_build hnone d.action)
  | declare file text =>
    -- a source changes the declarations only
    obtain ⟨declarations, hdeclare⟩ := w.declare_frame file text
    rw [Workspace.after, hdeclare]
    exact .inl hnone
  | writeMetadata k node value =>
    by_cases hwrites : k = key ∧ node = id
    · exact .inr hwrites
    · refine .inl ?_
      show (w.metadata.set k node value).own? key id = none
      rw [Metadata.own?_set, if_neg fun h => hwrites ⟨h.1.symm, h.2.symm⟩, hnone]
  | deleteMetadata k node =>
    refine .inl (Option.eq_none_iff_forall_ne_some.mpr fun value hvalue => ?_)
    have hold := Metadata.own?_of_own?_delete hvalue
    rw [hnone] at hold
    cases hold
  | callDecorator name node args =>
    unfold Workspace.after Workspace.callDecorator
    dsimp only
    split
    · exact .inl hnone
    · exact own?_callExport hnone _ _ _
  | callFunction name args => exact own?_callExport hnone _ _ _
  | run call => exact own?_after_run hnone call
  | importModule | setOptions | takeDiagnostics => exact .inl hnone

/-- **Any number of steps** do, unless one of them writes an entry. -/
theorem own?_foldl_after (hnone : w.metadata.own? key id = none) (es : List Event) :
    (es.foldl after w).metadata.own? key id = none ∨
      ∃ front e back, es = front ++ e :: back ∧ e.Writes (front.foldl after w) key id := by
  induction es generalizing w with
  | nil => exact .inl hnone
  | cons e rest ih =>
    rcases own?_after hnone e with hafter | hwrites
    · rcases ih hafter with hend | ⟨front, e', back, rfl, hwrites⟩
      · exact .inl hend
      · exact .inr ⟨e :: front, e', back, rfl, hwrites⟩
    · exact .inr ⟨[], e, rest, rfl, hwrites⟩

/-! ### Unborn ids -/

/-- **Nothing is known of ids that are no nodes, and new nodes inherit.** In every reachable
workspace with confined modules all entries are about nodes of the graph. An id that is no node has
no entry, and from then on, whatever node it becomes and however often it is released, it inherits
until a step writes an entry of its own. The same holds in all states that a run passes through. -/
theorem unborn_inherits (hw : w.Reachable Event.Confined) :
    w.metadata.Within w.graph.size ∧
      (∀ key id, ¬ w.graph.contains id → w.metadata.own? key id = none ∧
        ∀ es : List Event, (∀ e ∈ es, e.Confined) → w.KnowsAll es →
          (es.foldl after w).metadata.Inherits (es.foldl after w).graph key id ∨
            ∃ front e back, es = front ++ e :: back ∧ e.Writes (front.foldl after w) key id) ∧
      ∀ trace s, (Run.start w.graph w.metadata trace).Reaches w.setting s →
        ∀ key id, ¬ s.graph.contains id → s.metadata.own? key id = none ∧
          ∀ t, s.Reaches w.setting t →
            t.metadata.Inherits t.graph key id ∨
              t.metadata.own? key id ≠ none ∧
                ∃ a b, s.Reaches w.setting a ∧ Run.Writes w.setting key id a b ∧
                  b.Reaches w.setting t := by
  have hconfined := hw.confined
  refine ⟨hconfined.within, fun key id hid => ?_, fun trace s hs key id hid => ?_⟩
  · have hnone : w.metadata.own? key id = none :=
      hconfined.within.own?_eq_none key (Nat.not_lt.mp (mt Graph.contains_iff.mpr hid))
    refine ⟨hnone, fun es hadmits hknows => ?_⟩
    have hend : (es.foldl after w).Reachable Event.Confined := hw.steps hadmits hknows
    exact (own?_foldl_after hnone es).imp_left
      (Metadata.inherits_of_own? hend.faithful.ordered)
  · have hwithin : s.metadata.Within s.graph.size :=
      hs.recorded hconfined.setting hconfined.within
    have hnone : s.metadata.own? key id = none :=
      hwithin.own?_eq_none key (Nat.not_lt.mp (mt Graph.contains_iff.mpr hid))
    refine ⟨hnone, fun t ht => ?_⟩
    have hordered := ((hs.trans ht).faithful (Nat.le_refl _) hw.faithful).ordered
    by_cases hend : t.metadata.own? key id = none
    · exact .inl (Metadata.inherits_of_own? hordered hend)
    · exact .inr ⟨hend, (ht.own? hnone).resolve_left hend⟩

/-- A documented model, and a projection that documents a copy of it anew and fails. -/
def failingSteps : List Event :=
  [.construct (.model "M"), .importModule (Host.Doc.module ⟨0⟩),
    .callDecorator "doc" ⟨25⟩ [.string "old"],
    .declare "schema" ("projection model#p \x7b to \x7b self.addProperty(\"a\", string); " ++
      "@doc(self, \"new\"); self.addProperty(\"a\", string); \x7d \x7d")]

def failingRun : ProjectionCall := .tryProject ⟨⟨25⟩, ⟨⟨0⟩, .forward⟩, []⟩

def reusedWorkspace : Workspace :=
  (failingSteps ++ [Event.run failingRun]).foldl after (ofGraph .initial)

/-- What a client does next: it allocates two nodes, the second one a copy of the model. -/
def reusingSteps : List Event :=
  [.construct (.stringLiteral "x"), .derive (.renamed ⟨25⟩ "N")]

/-- The failed run has documented its node 27. The copy gets the same id, and reads what the model
reads. -/
theorem unborn_inherits_reused :
    reusedWorkspace.Reachable Event.Confined ∧ ¬ reusedWorkspace.graph.contains ⟨27⟩ ∧
      (failingRun.reached (failingSteps.foldl after (ofGraph .initial))).metadata.own? ⟨0⟩ ⟨27⟩ =
        some (.string "new") ∧
      (∀ e ∈ reusingSteps, e.Confined) ∧ reusedWorkspace.KnowsAll reusingSteps ∧
      (reusingSteps.foldl after reusedWorkspace).metadata.Inherits
        (reusingSteps.foldl after reusedWorkspace).graph ⟨0⟩ ⟨27⟩ ∧
      (reusingSteps.foldl after reusedWorkspace).metadata.read?
        (reusingSteps.foldl after reusedWorkspace).graph ⟨0⟩ ⟨27⟩ = some (.string "old") := by
  have hrun : (ofGraph .initial).KnowsAll (failingSteps ++ [Event.run failingRun]) ∧
      ¬ reusedWorkspace.graph.contains ⟨27⟩ ∧
      (failingRun.reached (failingSteps.foldl after (ofGraph .initial))).metadata.own? ⟨0⟩ ⟨27⟩ =
        some (.string "new") ∧
      reusedWorkspace.KnowsAll reusingSteps ∧
      (reusingSteps.foldl after reusedWorkspace).metadata.read?
        (reusingSteps.foldl after reusedWorkspace).graph ⟨0⟩ ⟨27⟩ = some (.string "old") := by
    decide +kernel
  obtain ⟨hsteps, hunborn, hwritten, hknows, hread⟩ := hrun
  have hreachable : reusedWorkspace.Reachable Event.Confined := by
    refine Reachable.start.steps (fun e he => Event.Standard.confined ?_) hsteps
    simp only [failingSteps, List.mem_append, List.mem_cons, List.not_mem_nil, or_false] at he
    rcases he with (rfl | rfl | rfl | rfl) | rfl
    · trivial
    · exact .inl ⟨⟨0⟩, rfl⟩
    · trivial
    · trivial
    · trivial
  -- neither of the two steps writes metadata
  have hplain : ∀ e ∈ reusingSteps, e.Confined ∧
      ∀ w : Workspace, ¬ Event.Writes w ⟨0⟩ ⟨27⟩ e := by
    intro e he
    simp only [reusingSteps, List.mem_cons, List.not_mem_nil, or_false] at he
    rcases he with rfl | rfl <;> exact ⟨trivial, fun _ h => h⟩
  have hadmits : ∀ e ∈ reusingSteps, e.Confined := fun e he => (hplain e he).1
  have hend := ((unborn_inherits hreachable).2.1 ⟨0⟩ ⟨27⟩ hunborn).2 reusingSteps hadmits hknows
  refine ⟨hreachable, hunborn, hwritten, hadmits, hknows, hend.resolve_right ?_, hread⟩
  rintro ⟨front, e, back, hsplit, hwrites⟩
  have he : e ∈ reusingSteps := hsplit ▸ List.mem_append_right _ List.mem_cons_self
  exact (hplain e he).2 _ hwrites

end Workspace

end SchemaProjection
