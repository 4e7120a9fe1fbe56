import SchemaProjection.Proofs.Graph.Lineages

/-!
# Versions of a node

A changed copy of a node has the root of the node, and as long as the change does not concern them
the kind and the name, too: it is a later **version** of the node (`Graph.Version`). An edit of a
container makes a version of it (`Graph.Edited.version`), and versions stay versions when the graph
grows (`Graph.Version.mono`).
-/

namespace SchemaProjection

theorem Shape.name?_of_withMembers? {shape changed : Shape} {members : NameTable}
    (h : shape.withMembers? members = some changed) : changed.name? = shape.name? := by
  cases shape <;> simp only [withMembers?, reduceCtorEq, Option.some.injEq] at h <;> subst h <;> rfl

namespace Graph

variable {g h : Graph} {id later last : NodeId} {shape : Shape}

/-- **A later version of a node**: the node itself, or another one with the same root, kind and
name. -/
def Version (g : Graph) (id later : NodeId) : Prop :=
  later = id ∨ g.contains id ∧ g.contains later ∧ g.root later = g.root id ∧
    g.kind later = g.kind id ∧ (g.shape later).name? = (g.shape id).name?

namespace Version

theorem refl (g : Graph) (id : NodeId) : g.Version id id := .inl rfl

theorem root (hv : g.Version id later) : g.root later = g.root id := by
  rcases hv with rfl | ⟨-, -, hroot, -, -⟩
  · rfl
  · exact hroot

theorem kind (hv : g.Version id later) : g.kind later = g.kind id := by
  rcases hv with rfl | ⟨-, -, -, hkind, -⟩
  · rfl
  · exact hkind

theorem name? (hv : g.Version id later) : (g.shape later).name? = (g.shape id).name? := by
  rcases hv with rfl | ⟨-, -, -, -, hname⟩
  · rfl
  · exact hname

theorem trans (h₁ : g.Version id later) (h₂ : g.Version later last) : g.Version id last := by
  rcases h₁ with rfl | ⟨hid, hlater, hroot, hkind, hname⟩
  · exact h₂
  · rcases h₂ with rfl | ⟨-, hlast, hroot', hkind', hname'⟩
    · exact .inr ⟨hid, hlater, hroot, hkind, hname⟩
    · exact .inr ⟨hid, hlast, hroot'.trans hroot, hkind'.trans hkind, hname'.trans hname⟩

/-- **Versions stay versions** when the graph is extended. -/
theorem mono (hv : g.Version id later) (hg : g.Ordered) (hle : g ≤ h) : h.Version id later := by
  rcases hv with rfl | ⟨hid, hlater, hroot, hkind, hname⟩
  · exact .refl _ _
  · refine .inr ⟨contains_of_le hle hid, contains_of_le hle hlater, ?_, ?_, ?_⟩
    · rw [hg.root_of_le hle hid, hg.root_of_le hle hlater, hroot]
    · rw [Graph.kind, Graph.kind, shape_of_le hle hid, shape_of_le hle hlater]
      exact hkind
    · rw [shape_of_le hle hid, shape_of_le hle hlater, hname]

end Version

/-- A copy with the same kind and name is a version. -/
theorem version_of_node? (hg : g.Ordered) (hnode : g.node? later = some ⟨some id, shape⟩)
    (hid : g.contains id) (hkind : shape.kind = g.kind id)
    (hname : shape.name? = (g.shape id).name?) : g.Version id later := by
  refine .inr ⟨hid, contains_of_node? hnode, hg.root_of_origin? (origin?_of_node? hnode), ?_, ?_⟩
  · rw [kind, shape_of_node? hnode, hkind]
  · rw [shape_of_node? hnode, hname]

theorem version_nextId (hg : g.Ordered) (hid : g.contains id) (hkind : shape.kind = g.kind id)
    (hname : shape.name? = (g.shape id).name?) :
    (g.push ⟨some id, shape⟩).Version id g.nextId := by
  have hle := le_push g ⟨some id, shape⟩
  refine version_of_node? (hg.push fun origin h => Option.some.inj h ▸ hid)
    (g.node?_push_nextId _) (contains_of_le hle hid) ?_ ?_
  · rw [kind, shape_of_le hle hid, hkind, kind]
  · rw [shape_of_le hle hid, hname]

theorem Derives.version {change : Shape → Option Shape} (hd : g.Derives id change later)
    (hg : g.Ordered) (halters : Shape.Alters change)
    (hname : ∀ {shape changed}, change shape = some changed → changed.name? = shape.name?) :
    g.Version id later := by
  obtain ⟨shape, hshape, hnode⟩ := hd
  exact version_of_node? hg hnode (contains_of_read halters.unknown hshape) (halters.kind hshape)
    (hname hshape)

/-- **An edit makes a version** of the container. -/
theorem Edited.version {container updated : NodeId} {i : Instruction}
    (he : g.Edited container i h updated) (hg : g.Ordered) : h.Version container updated := by
  have hcontainer := he.contains
  cases he with
  | mk supplied found collection makes changed =>
    have hle := supplied.extends
    rw [← shape_of_le hle hcontainer] at changed
    exact version_nextId (supplied.ordered hg) (contains_of_le hle hcontainer)
      (Shape.kind_of_withMembers? changed) (Shape.name?_of_withMembers? changed)

end Graph

end SchemaProjection
