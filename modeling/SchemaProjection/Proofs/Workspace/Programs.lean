import SchemaProjection.Proofs.Run.Applications
import SchemaProjection.Proofs.Workspace.Operations

/-!
# Programs

A program is what a client makes of a type graph: it imports modules and declares projections, and
everything else that it does to the workspace in between (`Workspace.built`). The graph and the
steps may be any.

Whatever the steps are, the declarations are in order (`Workspace.Registered`): every projection
stands at the position that its id says, and it sees no more modules than there are.
-/

namespace SchemaProjection

namespace Workspace

/-- **A program**: the workspace that steps of a client lead to, from one over a graph without
projections and modules. -/
def built (g : Graph) (past : List Event) : Workspace := past.foldl after (ofGraph g)

/-- **The declarations are in order.** -/
structure Registered (w : Workspace) : Prop where
  indexed : w.declarations.Indexed
  visible : ∀ p ∈ w.declarations.projections, p.hostCount ≤ w.hosts.length

/-- What is declared sees the modules that have been imported. -/
theorem visible_declareAll {n : Nat} (g : Graph) (trees : List ProjectionTree) {d : Declarations}
    (hd : ∀ p ∈ d.projections, p.hostCount ≤ n) :
    ∀ p ∈ (d.declareAll g n trees).2.projections, p.hostCount ≤ n := by
  intro p hp
  rcases Declarations.mem_or_declaredBy_of_mem_declareAll hp with hold | ⟨tree, -, hdeclared⟩
  · exact hd p hold
  · exact Nat.le_of_eq hdeclared.hostCount

/-- Declaring adds the projections of some trees, or none. -/
theorem declare_eq (w : Workspace) (file text : String) :
    (w.declare file text).2 = w ∨ ∃ trees, (w.declare file text).2 =
      { w with declarations := (w.declarations.declareAll w.graph w.hosts.length trees).2 } := by
  unfold Workspace.declare
  split
  · exact .inl rfl
  unfold Workspace.declareSource
  split
  · exact .inl rfl
  · next trees _ =>
    refine .inr ⟨trees, ?_⟩
    split
    · next h => rw [h]
    · next h => rw [h]

variable {w : Workspace}

theorem Registered.declare (h : w.Registered) (file text : String) :
    (w.declare file text).2.Registered := by
  rcases w.declare_eq file text with hsame | ⟨trees, hdeclared⟩
  · rw [hsame]
    exact h
  · rw [hdeclared]
    exact ⟨Declarations.indexed_declareAll _ _ trees h.indexed,
      visible_declareAll _ trees h.visible⟩

/-- **Every step keeps the declarations in order.** -/
theorem Registered.after (h : w.Registered) (e : Event) : (w.after e).Registered := by
  cases e with
  | construct | derive =>
    rw [Workspace.after, build_eq]
    exact ⟨h.indexed, h.visible⟩
  | importModule m =>
    refine ⟨h.indexed, fun p hp => Nat.le_trans (h.visible p hp) ?_⟩
    show w.hosts.length ≤ (w.hosts ++ [m]).length
    rw [List.length_append]
    exact Nat.le_add_right _ _
  | declare file text => exact h.declare file text
  | callDecorator name node args =>
    obtain ⟨metadata, hcall⟩ := w.callDecorator_frame name node args
    rw [Workspace.after, hcall]
    exact ⟨h.indexed, h.visible⟩
  | callFunction name args =>
    obtain ⟨metadata, hcall⟩ := w.callFunction_frame name args
    rw [Workspace.after, hcall]
    exact ⟨h.indexed, h.visible⟩
  | run call => cases call <;> exact ⟨h.indexed, h.visible⟩
  | setOptions | writeMetadata | deleteMetadata | takeDiagnostics => exact ⟨h.indexed, h.visible⟩

theorem Registered.steps (h : w.Registered) (es : List Event) :
    (es.foldl Workspace.after w).Registered := by
  induction es generalizing w with
  | nil => exact h
  | cons e rest ih => exact ih (h.after e)

/-- **The declarations of a program are in order.** -/
theorem registered_built (g : Graph) (past : List Event) : (built g past).Registered := by
  refine Registered.steps ⟨fun p hp => ?_, fun p hp => ?_⟩ past
  -- nothing is declared at the beginning
  · exact absurd hp List.not_mem_nil
  · exact absurd hp List.not_mem_nil

end Workspace

end SchemaProjection
