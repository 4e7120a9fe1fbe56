import SchemaProjection.Proofs.Pairing.Later
import SchemaProjection.Proofs.Run.Idle
import SchemaProjection.Proofs.Workspace.Programs

/-!
# Programs without edits

A program of which no body contains a `return`, a decorator or an edit other than projecting a
member is the identity (`Workspace.run_without_edits`): a run that succeeds leads to the node that
it started from, and the workspace is the same afterwards. Projecting a member may lead through the
graph in any way, in circles as well.
-/

namespace SchemaProjection

namespace Run

variable {setting : Setting} {g : Graph} {m : Metadata} {node : NodeId} {handle : Handle}
  {args : List Value}

/-- What a run without edits leaves, if it succeeds. -/
theorem project_without_edits (hidle : setting.declarations.Idle setting.hosts) {result : NodeId}
    (h : (project setting g m node handle args).result = .ok result) :
    project setting g m node handle args = ⟨.ok node, g, m⟩ := by
  cases hrun : (Eval.projectNode node handle args).result setting (start g m none) with
  | error failure after => cases (project_of_error hrun).symm.trans h
  | ok id after =>
    obtain ⟨rfl, memo, rfl⟩ := idle_projectNode hidle hrun
    exact project_of_ok hrun

/-- Nothing is recorded, so nothing is kept beyond the given nodes, and there is nothing else. -/
theorem instructions_without_edits (hidle : setting.declarations.Idle setting.hosts)
    {instructions : List Instruction}
    (h : (Run.instructions setting g m node handle args).result = .ok instructions) :
    Run.instructions setting g m node handle args = ⟨.ok [], g, m⟩ := by
  cases hrun : (Eval.projectNode node handle args).result setting (start g m (some [])) with
  | error failure after => cases (instructions_of_error hrun).symm.trans h
  | ok id after =>
    obtain ⟨-, memo, rfl⟩ := idle_projectNode hidle hrun
    have hkept : ({ start g m (some []) with memo } : Run).release g.size =
        { start g m (some []) with memo } := release_size { start g m (some []) with memo }
    rw [instructions_of_ok hrun]
    exact congrArg (fun run : Run => (⟨.ok [], run.graph, run.metadata⟩ : Outcome _)) hkept

end Run

namespace Workspace

variable {w : Workspace}

/-- **A program without edits is the identity.** A run that succeeds leads to the node that it
started from, leaves the workspace as it is and records nothing. -/
theorem run_without_edits (hidle : w.declarations.Idle w.hosts) (node : NodeId) (handle : Handle)
    (args : List Value) :
    (∀ result, (w.tryProject node handle args).1 = .ok result →
        result = node ∧ (w.tryProject node handle args).2 = w) ∧
      ∀ instructions, (w.tryInstructions node handle args).1 = .ok instructions →
        instructions = [] ∧ (w.tryInstructions node handle args).2 = w := by
  have hidle : w.setting.declarations.Idle w.setting.hosts := hidle
  refine ⟨fun result h => ?_, fun instructions h => ?_⟩
  · have houtcome := Run.project_without_edits hidle h
    rw [tryProject, houtcome] at h ⊢
    exact ⟨(Except.ok.inj h).symm, rfl⟩
  · have houtcome := Run.instructions_without_edits hidle h
    rw [tryInstructions, houtcome] at h ⊢
    exact ⟨(Except.ok.inj h).symm, rfl⟩

/-- A model with a property of its own type. -/
def linkedGraph : Graph :=
  (built .initial [.construct (.model "Node"), .construct (.property ⟨25⟩ "next" ⟨25⟩ false)]).graph

/-- A projection that goes through the properties and projects the types of those without
documentation by itself. -/
def wanderingWorkspace : Workspace :=
  ((built linkedGraph [.importModule (Host.Doc.module ⟨0⟩)]).declare "walk"
    ("projection model#walk \x7b to \x7b self.properties.forEach((p) => \x7b " ++
      "if getDoc(p) \x7b p.name; \x7d else \x7b self.projectProperty(p.name, walk); \x7d " ++
      "\x7d); \x7d \x7d")).2

/-- It comes back to the model that it started from while that is active. -/
theorem run_without_edits_cycle :
    wanderingWorkspace.declarations.Idle wanderingWorkspace.hosts ∧
      (wanderingWorkspace.tryProject ⟨25⟩ ⟨⟨0⟩, .forward⟩ []).1 = .ok ⟨25⟩ ∧
      (wanderingWorkspace.tryProject ⟨25⟩ ⟨⟨0⟩, .forward⟩ []).2 = wanderingWorkspace ∧
      (wanderingWorkspace.tryInstructions ⟨25⟩ ⟨⟨0⟩, .forward⟩ []).2 = wanderingWorkspace := by
  have heffects : ∀ p ∈ wanderingWorkspace.declarations.projections, ∀ effect ∈ p.effects,
      effect = .calls "getDoc" ∨ effect = .edits (.project .properties) := by decide +kernel
  have hhosts : wanderingWorkspace.hosts = [Host.Doc.module ⟨0⟩] := by
    unfold wanderingWorkspace
    rcases declare_eq _ _ _ with hsame | ⟨trees, hdeclared⟩
    · rw [hsame]
      rfl
    · rw [hdeclared]
      rfl
  have hidle : wanderingWorkspace.declarations.Idle wanderingWorkspace.hosts := by
    rw [hhosts]
    intro p hp effect heffect
    rcases heffects p hp effect heffect with rfl | rfl
    · intro f hf args g m
      obtain ⟨imported, himported, hexport⟩ := Host.mem_of_find? hf
      obtain rfl := List.mem_singleton.mp (List.mem_of_mem_take himported)
      exact (Host.Module.Standard.reader (.inl ⟨_, rfl⟩) hexport).metadataAfter args g m
    · trivial
  have hproject : (wanderingWorkspace.tryProject ⟨25⟩ ⟨⟨0⟩, .forward⟩ []).1 = .ok ⟨25⟩ := by
    decide +kernel
  have hinstructions : (wanderingWorkspace.tryInstructions ⟨25⟩ ⟨⟨0⟩, .forward⟩ []).1 = .ok [] := by
    decide +kernel
  obtain ⟨hplain, hrecorded⟩ := run_without_edits hidle ⟨25⟩ ⟨⟨0⟩, .forward⟩ []
  exact ⟨hidle, hproject, (hplain _ hproject).2, (hrecorded _ hinstructions).2⟩

end Workspace

end SchemaProjection
