import SchemaProjection.Proofs.Run.SafeEvaluation
import SchemaProjection.Proofs.Workspace.Members

/-!
# Operations of reachable workspaces

The operations of an interface are in order as the members of other containers are, with one
exception: `projectOperation` replaces an operation by whatever the projection leads to, and where a
body returns a node that is anything.

`Workspace.operations_orderly` says that this is the only exception. If no declared projection that
applies to operations contains a `return`, then the members of every interface are operations, kept
under their own names, and no two of them share a lineage. Projections of other nodes may return
what they like, since of what they lead to only the result is used.

The invariant is that the declarations **fit** the graph (`Declarations.Fit`). It survives a run
since evaluation is safe, and a declaration since one more projection promises less.
-/

namespace SchemaProjection

/-! ### Declarations that fit a graph -/

namespace Declarations

variable {d : Declarations} {g h : Graph}

/-- **The declarations fit the graph**: they are over it, and its containers are in order as far as
the declared projections keep them. -/
structure Fit (d : Declarations) (g : Graph) : Prop where
  declared : d.Over g
  tidy : g.Tidy (d.Orders g)

theorem Fit.grown (hd : d.Fit g) (hsize : g.size ≤ h.size)
    (hkinds : ∀ id, g.contains id → h.kind id = g.kind id) (htidy : h.Tidy (d.Orders g)) :
    d.Fit h where
  declared := ⟨hd.declared.indexed, hd.declared.bound.mono hsize⟩
  tidy := htidy.weaken fun _ horders hoperations =>
    (horders hoperations).of_subset hd.declared.bound (fun _ hp => hp) hkinds

theorem mem_declareAll (g : Graph) (hostCount : Nat) (trees : List ProjectionTree) {p : Projection}
    (hp : p ∈ d.projections) : p ∈ (d.declareAll g hostCount trees).2.projections := by
  induction trees generalizing d with
  | nil => exact hp
  | cons tree rest ih =>
    unfold Declarations.declareAll Declarations.declare
    cases target? g tree.selector.text with
    | none => exact hp
    | some target => exact ih (List.mem_append_left _ hp)

/-- A projection gets the next free position as its id. -/
theorem indexed_declareAll (g : Graph) (hostCount : Nat) (trees : List ProjectionTree)
    (hd : ∀ p ∈ d.projections, d.get? p.id = some p) :
    ∀ p ∈ (d.declareAll g hostCount trees).2.projections,
      (d.declareAll g hostCount trees).2.get? p.id = some p := by
  induction trees generalizing d with
  | nil => exact hd
  | cons tree rest ih =>
    unfold Declarations.declareAll Declarations.declare
    cases target? g tree.selector.text with
    | none => exact hd
    | some target =>
      refine ih fun p hp => ?_
      rcases List.mem_append.mp hp with hold | hnew
      · -- the projections from before keep their positions
        have hget : d.projections[p.id.index]? = some p := hd p hold
        obtain ⟨hlt, -⟩ := List.getElem?_eq_some_iff.mp hget
        exact (List.getElem?_append_left hlt).trans hget
      · cases List.mem_singleton.mp hnew
        exact List.getElem?_concat_length

theorem Fit.declareAll (hd : d.Fit g) (hclosed : g.Closed) (hostCount : Nat)
    (trees : List ProjectionTree) : (d.declareAll g hostCount trees).2.Fit g where
  declared := ⟨indexed_declareAll g hostCount trees hd.declared.indexed,
    hd.declared.bound.declareAll hclosed hostCount trees⟩
  tidy := hd.tidy.weaken fun _ horders hoperations =>
    (horders hoperations).of_subset hd.declared.bound
      (fun _ hp => mem_declareAll g hostCount trees hp) fun _ _ => rfl

end Declarations

/-! ### Runs and constructions -/

/-- **Runs keep the declarations fitting.** -/
theorem Run.keeps_fit (setting : Setting) : Run.Keeps setting setting.declarations.Fit := by
  intro g m trace node handle args id after h _ hfit n hn hclosed
  have hfollows : (Run.start g m trace).Follows setting g after :=
    (Eval.safe_projectNode hfit.declared hfit.tidy node handle args).follows id after h
  -- what a run leaves behind is a part of its graph that contains the old one
  have hle : g ≤ after.graph.truncate n := Graph.le_truncate hfollows.graph hn
  exact hfit.grown (Graph.size_le_of_le hle)
    (fun id hid => congrArg Shape.kind (Graph.shape_of_le hle hid))
    (hfollows.sound.tidy.of_le hclosed (Graph.truncate_le _ n))

namespace Graph

variable {g h : Graph}

/-- Construction changes the kind of no node. -/
theorem Change.kind (hchange : Change g h) {id : NodeId} (hid : g.contains id) :
    h.kind id = g.kind id := by
  cases hchange with
  | create node known => exact congrArg Shape.kind (shape_of_le (le_push _ _) hid)
  | declare name id known => rfl
  | attach container name member members shape known found changed => exact kind_reshape changed id

theorem Changed.kind (hchanged : Changed g h) {id : NodeId} (hid : g.contains id) :
    h.kind id = g.kind id := by
  induction hchanged with
  | refl => rfl
  | tail hbefore hlast ih =>
    exact (hlast.kind (contains_of_size_le (Changed.size_le hbefore) hid)).trans ih

end Graph

namespace Workspace

variable {w : Workspace}

/-! ### Reachable workspaces -/

theorem fit_declare (hfit : w.declarations.Fit w.graph) (hclosed : w.graph.Closed)
    (file text : String) :
    (w.declare file text).2.declarations.Fit (w.declare file text).2.graph := by
  unfold Workspace.declare
  split
  · exact hfit
  unfold declareSource
  split
  · exact hfit
  · next trees _ =>
    have hall := hfit.declareAll hclosed w.hosts.length trees
    split
    · next hfault =>
      rw [hfault] at hall
      exact hall
    · next hok =>
      rw [hok] at hall
      exact hall

/-- **In a reachable workspace the declarations fit the graph**, with any host modules. -/
theorem Reachable.fit (h : w.Reachable Event.Regular) : w.declarations.Fit w.graph := by
  induction h with
  | start => exact ⟨⟨fun p hp => (nomatch hp), fun p hp => (nomatch hp)⟩, Graph.tidy_initial _⟩
  | @step w e hreachable hadmits hknows ih =>
    have hclosed := hreachable.graph_closed
    cases e with
    | construct c =>
      rw [Workspace.after, build_eq]
      have hchanged := (c.changes hknows (hclosed.intrinsics .null)).changed
      exact ih.grown hchanged.size_le (fun _ => hchanged.kind) (c.tidies ih.tidy)
    | derive d => exact hadmits.elim
    | declare file text => exact fit_declare ih hclosed file text
    | callDecorator name node args =>
      obtain ⟨metadata, hcall⟩ := w.callDecorator_frame name node args
      rw [Workspace.after, hcall]
      exact ih
    | callFunction name args =>
      obtain ⟨metadata, hcall⟩ := w.callFunction_frame name args
      rw [Workspace.after, hcall]
      exact ih
    | run call =>
      have hrun := (graph_after_run (Run.keeps_fit w.setting) hclosed ih call hknows).2
      rw [← w.setting_after_run call] at hrun
      exact hrun
    | importModule m => exact ih
    | setOptions options => exact ih
    | writeMetadata key node value => exact ih
    | deleteMetadata key node => exact ih
    | takeDiagnostics => exact ih

/-- **Interfaces keep holding operations**, where no projection that applies to operations contains
a `return`: in every reachable workspace each member of an interface is an operation under its own
name, and no two members have the same root. -/
theorem operations_orderly (hw : w.Reachable Event.Regular)
    (hkept : w.declarations.KeepOperations w.graph) {container : NodeId} {members : NameTable}
    (hmembers : (w.graph.shape container).membersIn? .operations = some members) :
    (∀ e ∈ members.entries,
      w.graph.kind e.2 = .operation ∧ (w.graph.shape e.2).name? = some e.1) ∧
    members.entries.Pairwise fun e e' => w.graph.root e.2 ≠ w.graph.root e'.2 := by
  have horderly := hw.fit.tidy.members container .operations members hmembers fun _ => hkept
  exact ⟨fun e he => ⟨horderly.kind e he, horderly.name e he⟩, horderly.pairwise⟩

/-- An interface, a projection that projects its operation and adds another, and one of a model that
returns. -/
def interfaceSteps : List Event :=
  [.construct (.interface "I"), .construct (.interfaceOperation ⟨25⟩ "a" [] ⟨0⟩),
    .construct (.model "M"),
    .declare "schema" ("projection op#k \x7b to \x7b self.setReturnType(string); \x7d \x7d " ++
      "projection model#r \x7b to \x7b return string; \x7d \x7d " ++
      "projection interface#c \x7b to \x7b self.projectOperation(\"a\", k); " ++
      "self.addOperation(\"b\", M#r); \x7d \x7d"),
    .run (.tryProject ⟨⟨25⟩, ⟨⟨2⟩, .forward⟩, []⟩)]

def interfaceWorkspace : Workspace := interfaceSteps.foldl after (ofGraph .initial)

/-- The projection of the model returns, the one of the operation does not. The projected operation
is derived from the first one. -/
theorem operations_orderly_projected :
    interfaceWorkspace.Reachable Event.Regular ∧
      interfaceWorkspace.declarations.KeepOperations interfaceWorkspace.graph ∧
      interfaceWorkspace.declarations.projections.map Projection.returns = [false, true, false] ∧
      ∃ members, (interfaceWorkspace.graph.shape ⟨33⟩).membersIn? .operations = some members ∧
        members.entries = [("a", ⟨29⟩), ("b", ⟨32⟩)] ∧
        interfaceWorkspace.graph.lineage ⟨29⟩ = [⟨29⟩, ⟨27⟩] ∧
        (∀ e ∈ members.entries,
          interfaceWorkspace.graph.kind e.2 = .operation ∧
            (interfaceWorkspace.graph.shape e.2).name? = some e.1) ∧
        members.entries.Pairwise fun e e' =>
          interfaceWorkspace.graph.root e.2 ≠ interfaceWorkspace.graph.root e'.2 := by
  have hreachable : interfaceWorkspace.Reachable Event.Regular := by
    refine Reachable.start.steps (fun e he => ?_) (by decide +kernel)
    simp only [interfaceSteps, List.mem_cons, List.not_mem_nil, or_false] at he
    rcases he with rfl | rfl | rfl | rfl | rfl <;> trivial
  have hrun : interfaceWorkspace.declarations.KeepOperations interfaceWorkspace.graph ∧
      interfaceWorkspace.declarations.projections.map Projection.returns = [false, true, false] ∧
      (interfaceWorkspace.graph.shape ⟨33⟩).membersIn? .operations =
        some ⟨[("a", ⟨29⟩), ("b", ⟨32⟩)], by decide⟩ ∧
      interfaceWorkspace.graph.lineage ⟨29⟩ = [⟨29⟩, ⟨27⟩] := by
    decide +kernel
  obtain ⟨hkept, hreturns, hmembers, hlineage⟩ := hrun
  exact ⟨hreachable, hkept, hreturns, _, hmembers, rfl, hlineage,
    operations_orderly hreachable hkept hmembers⟩

end Workspace

end SchemaProjection
