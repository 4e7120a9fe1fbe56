import SchemaProjection.Proofs.Graph.Orderly
import SchemaProjection.Proofs.Pairing.Later
import SchemaProjection.Proofs.Run.Versions

/-!
# Projections that keep operations

To project an operation of an interface is to replace it by whatever the projection leads to, and a
`return` may lead anywhere. The declared projections **keep operations** if none that applies to
operations contains a `return` (`Declarations.KeepOperations`).

A projection without `return` leads to a version of the node that it is applied to
(`Evaluation.version_of_apply`). It may have been applied before, so the memo has to be **faithful**
in this respect (`Memo.Faithful`).
-/

namespace SchemaProjection

/-! ### Declared projections -/

/-- Whether a direction of a projection contains a `return`. -/
def Projection.returns (p : Projection) : Bool :=
  p.forward?.any (·.body.returns) || p.backward?.any (·.body.returns)

/-- The kind of the nodes that a projection applies to. -/
def Projection.targetKind (p : Projection) (g : Graph) : Kind :=
  match p.target with
  | .kind kind => kind
  | .node id => g.kind id

theorem Projection.returns_of_direction? {p : Projection} {direction : Direction}
    {tree : DirectionTree} (htree : p.direction? direction = some tree)
    (hquiet : p.returns = false) : tree.body.returns = false := by
  rw [returns, Bool.or_eq_false_iff] at hquiet
  cases direction with
  | forward =>
    have htree : p.forward? = some tree := htree
    rw [htree] at hquiet
    exact hquiet.1
  | backward =>
    have htree : p.backward? = some tree := htree
    rw [htree] at hquiet
    exact hquiet.2

namespace Declarations

variable {d : Declarations} {g h : Graph}

/-- **No projection that applies to operations contains a `return`.** -/
def KeepOperations (d : Declarations) (g : Graph) : Prop :=
  ∀ p ∈ d.projections, p.returns → p.targetKind g ≠ .operation

instance (d : Declarations) (g : Graph) : Decidable (d.KeepOperations g) :=
  inferInstanceAs (Decidable (∀ p ∈ d.projections, p.returns → p.targetKind g ≠ .operation))

/-- The collections that the declared projections keep in order. -/
def Orders (d : Declarations) (g : Graph) (collection : Collection) : Prop :=
  collection = .operations → d.KeepOperations g

/-- **Declared over a graph**: each projection is found under its own id, and is bound to a node of
the graph if it is bound to a node. -/
structure Over (d : Declarations) (g : Graph) : Prop where
  indexed : ∀ p ∈ d.projections, d.get? p.id = some p
  bound : d.BoundBefore g.size

/-- What a projection applies to is of the kind of its target. -/
theorem Over.targetKind (hd : d.Over g) (hle : g ≤ h) {wanted : Collection → Prop}
    (hh : h.Tidy wanted) {p : Projection} (hp : p ∈ d.projections) {id : NodeId}
    (happlies : p.appliesTo h id) : p.targetKind g = h.kind id := by
  unfold Projection.appliesTo at happlies
  unfold Projection.targetKind
  cases htarget : p.target with
  | kind kind =>
    rw [htarget] at happlies
    exact (of_decide_eq_true happlies).symm
  | node target =>
    rw [htarget] at happlies
    have hknown := Graph.contains_iff.mpr (hd.bound p hp target htarget)
    rw [← hh.kind_of_mem_lineage (List.contains_iff_mem.mp happlies)]
    exact congrArg Shape.kind (Graph.shape_of_le hle hknown).symm

/-- **What applies to an operation contains no `return`**, if the declarations keep operations. -/
theorem KeepOperations.quiet (hkeep : d.KeepOperations g) (hd : d.Over g) (hle : g ≤ h)
    {wanted : Collection → Prop} (hh : h.Tidy wanted) {id : NodeId}
    (hid : h.kind id = .operation) {name : String} {p : Projection}
    (hresolved : d.resolve? h id name = some p) : p.returns = false := by
  unfold resolve? at hresolved
  have hp := List.mem_of_find?_eq_some hresolved
  have hfound := List.find?_some hresolved
  have happlies := (Bool.and_eq_true_iff.mp hfound).1
  refine Bool.eq_false_iff.mpr fun hreturns => hkeep p hp hreturns ?_
  rw [hd.targetKind hle hh hp happlies, hid]

/-- Whether operations are kept is a matter of the kinds of known nodes, and of fewer projections
where fewer are declared. -/
theorem KeepOperations.of_subset {e : Declarations} (hkeep : e.KeepOperations h)
    (hd : d.BoundBefore g.size) (hsub : ∀ p ∈ d.projections, p ∈ e.projections)
    (hkinds : ∀ id, g.contains id → h.kind id = g.kind id) : d.KeepOperations g := by
  intro p hp hreturns hkind
  refine hkeep p (hsub p hp) hreturns ?_
  rw [← hkind]
  unfold Projection.targetKind
  split
  · rfl
  · next id hid => exact hkinds id (Graph.contains_iff.mpr (hd p hp id hid))

end Declarations

/-! ### The memo -/

namespace Memo

variable {m : Memo} {d : Declarations} {g h : Graph} {key : MemoKey}

/-- **A faithful memo**: an application of a projection without `return` has led to a version of the
node. -/
def Faithful (m : Memo) (d : Declarations) (g : Graph) : Prop :=
  ∀ key result p, m.find? key = some (.done result) → d.get? key.projection = some p →
    p.returns = false → g.Version key.node result

theorem faithful_empty (d : Declarations) (g : Graph) : empty.Faithful d g := by
  intro key result p h
  rw [find?_empty] at h
  cases h

namespace Faithful

theorem mono (hm : m.Faithful d g) (hg : g.Ordered) (hle : g ≤ h) : m.Faithful d h :=
  fun key result p hfound hp hquiet => (hm key result p hfound hp hquiet).mono hg hle

theorem insert (hm : m.Faithful d g) {entry : MemoEntry}
    (hentry : ∀ result p, entry = .done result → d.get? key.projection = some p →
      p.returns = false → g.Version key.node result) : (m.insert key entry).Faithful d g := by
  intro other result p hfound hp hquiet
  rw [find?_insert] at hfound
  split at hfound
  · next hsame =>
    subst hsame
    exact hentry result p (Option.some.inj hfound) hp hquiet
  · exact hm other result p hfound hp hquiet

theorem insert_active (hm : m.Faithful d g) : (m.insert key .active).Faithful d g :=
  hm.insert fun _ _ h => nomatch h

end Faithful

end Memo

/-! ### Applications -/

namespace Evaluation

variable {setting : Setting} {run after : Run} {node id : NodeId} {projection : Projection}
  {direction : Direction} {args : List Value}

/-- **A projection without `return` leads to a version of the node** that it is applied to. -/
theorem version_of_apply {levels : Nat} (hrun : run.graph.Ordered) (hbegun : run.Begun)
    (hmemo : run.memo.Faithful setting.declarations run.graph)
    (hprojection : setting.declarations.get? projection.id = some projection)
    (hquiet : projection.returns = false)
    (h : ((evaluator levels).apply node projection direction args).result setting run =
      .ok id after) : after.graph.Version node id := by
  cases levels with
  | zero => cases h
  | succ levels =>
    obtain ⟨tree, htree, hknown | hentered⟩ := ok_of_apply h
    · -- it is active and leads to the node itself, or it has been applied before
      obtain ⟨rfl, entry, hfound, rfl | ⟨-, rfl⟩⟩ := hknown
      · exact hmemo _ id projection hfound hprojection hquiet
      · exact .refl _ _
    · obtain ⟨flow, finished, a, rest, hblock, hstack, rfl, rfl⟩ := hentered
      obtain ⟨b, hb, hversion⟩ := version_of_block (by exact hrun) (by exact hbegun)
        (projection.returns_of_direction? htree hquiet) hblock
      cases hstack.symm.trans hb
      exact hversion

end Evaluation

end SchemaProjection
