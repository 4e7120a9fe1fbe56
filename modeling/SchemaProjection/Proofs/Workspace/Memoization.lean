import SchemaProjection.Proofs.Workspace.Endings
import SchemaProjection.Proofs.Workspace.Programs

/-!
# Applications happen once

Within one run, an application is identified by its node, its projection and direction, and its
arguments. `Workspace.applications_memoized` says what the applications of a run have to do with one
another, in terms of the log of its call tree (`LogEntry.Policy`). The log has an entry for each
time that a body is evaluated, and for each key this happens at most once. While an application is
active, applying it again yields the node itself, so self-referential types end; once it was left,
applying it again yields what it was left with. All the while the memo and the stack of activations
agree.

It makes no difference where an application comes from. The one that starts a run, `#name` and the
methods that project a member all ask an evaluator for the same thing, so they are all in the tree.
A run that fails has a log, too, which ends where it failed.
-/

namespace SchemaProjection

namespace Workspace

/-- **Applications happen once.** Any run of a declared projection has a call tree of which the log
obeys the policy of applications, in every program. -/
theorem applications_memoized (g : Graph) (past : List Event) (call : ProjectionCall)
    {projection : Projection}
    (hprojection : (built g past).declarations.get? call.request.handle.projection =
      some projection)
    (hnode : (built g past).graph.contains call.request.node) :
    ∃ t, call.HasTree (built g past) t ∧ LogEntry.Policy t.log := by
  obtain ⟨t, htree, -, haccepts, -⟩ := call.exists_tree (built g past) hprojection hnode
  exact ⟨t, htree, haccepts.policy (registered_built g past).indexed⟩

/-- A model with a property of its own type, and a projection that projects the type of this
property by itself. -/
def cyclicSteps : List Event :=
  [.construct (.model "Node"), .construct (.property ⟨25⟩ "next" ⟨25⟩ false),
    .declare "cycle" ("projection model#deep \x7b to \x7b " ++
      "self.projectProperty(\"next\", deep); self.renameProperty(\"next\", \"x\"); \x7d \x7d")]

def cyclicWorkspace : Workspace := built .initial cyclicSteps

def deepen : Request := ⟨⟨25⟩, ⟨⟨0⟩, .forward⟩, []⟩

/-- The projection meets its own node again, which stays as it is, and goes on to rename the
property. -/
theorem applications_memoized_cycle :
    (cyclicWorkspace.tryProject deepen.node deepen.handle deepen.args).1 = .ok ⟨28⟩ ∧
      ∃ t, ProjectionCall.HasTree cyclicWorkspace (.tryProject deepen) t ∧
        LogEntry.Policy t.log := by
  have hdeclared : (cyclicWorkspace.declarations.get? deepen.handle.projection).isSome := by
    decide +kernel
  obtain ⟨projection, hprojection⟩ := Option.isSome_iff_exists.mp hdeclared
  exact ⟨by decide +kernel,
    applications_memoized .initial cyclicSteps (.tryProject deepen) hprojection (by decide +kernel)⟩

end Workspace

end SchemaProjection
