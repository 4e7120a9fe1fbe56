import SchemaProjection.Proofs.Graph.Construction

/-!
# Derivation of nodes

A derivation allocates a copy of a node with one thing changed. What the copy refers to is known
where the node, and what was put in, are known (`Graph.Knows.withMembers?` and the lemmas after it).
So a derivation keeps a graph closed, too (`Derivation.changes`).
-/

namespace SchemaProjection

namespace Graph

variable {g : Graph} {t : NameTable} {name : String} {id : NodeId}

/-! ### Changed tables -/

theorem Knows.insert (ht : g.Knows t) (hid : g.contains id) : g.Knows (t.insert name id) := by
  intro r hr
  rcases NameTable.mem_values_insert hr with rfl | hold
  · exact hid
  · exact ht r hold

theorem Knows.replace (ht : g.Knows t) (hid : g.contains id) : g.Knows (t.replace name id) := by
  intro r hr
  obtain ⟨e, he, rfl⟩ := List.mem_map.mp hr
  obtain ⟨e', he', heq⟩ := List.mem_map.mp he
  split at heq
  · subst heq
    exact hid
  · subst heq
    exact ht e'.2 (List.mem_map.mpr ⟨e', he', rfl⟩)

theorem Knows.erase (ht : g.Knows t) : g.Knows (t.erase name) := by
  intro r hr
  obtain ⟨e, he, rfl⟩ := List.mem_map.mp hr
  exact ht e.2 (List.mem_map.mpr ⟨e, (List.mem_filter.mp he).1, rfl⟩)

theorem Knows.ofList {entries : List (String × NodeId)}
    (hentries : ∀ e ∈ entries, g.contains e.2) : g.Knows (NameTable.ofList entries) := by
  have hfold : ∀ t : NameTable, g.Knows t →
      g.Knows (entries.foldl (fun t e => t.insert e.1 e.2) t) := by
    induction entries with
    | nil => exact fun t ht => ht
    | cons e rest ih =>
      exact fun t ht => ih (fun e' he' => hentries e' (List.mem_cons_of_mem _ he')) _
        (ht.insert (hentries e List.mem_cons_self))
  exact hfold .empty fun r hr => nomatch hr

theorem Knows.rename (ht : g.Knows t) (hid : g.contains id) (old new : String) :
    g.Knows (t.rename old new id) := by
  refine Knows.ofList fun e he => ?_
  obtain ⟨e', he', rfl⟩ := List.mem_map.mp he
  split
  · exact hid
  · exact ht e'.2 (List.mem_map.mpr ⟨e', he', rfl⟩)

/-! ### Changed shapes -/

variable {shape changed : Shape}

theorem Knows.withMembers? (ht : g.Knows t) (h : shape.withMembers? t = some changed) :
    g.Knows changed := by
  intro r hr
  have hr : r ∈ changed.refs := hr
  rw [Shape.refs_of_withMembers? h] at hr
  exact ht r hr

theorem Knows.withName? (hshape : g.Knows shape) (h : shape.withName? name = some changed) :
    g.Knows changed := by
  have hrefs : changed.refs = shape.refs := by
    cases shape <;> simp only [Shape.withName?, reduceCtorEq, Option.some.injEq] at h <;>
      subst h <;> rfl
  intro r hr
  have hr : r ∈ changed.refs := hr
  rw [hrefs] at hr
  exact hshape r hr

theorem knows_withType? (hid : g.contains id) (h : shape.withType? id = some changed) :
    g.Knows changed := by
  intro r hr
  have hr : r ∈ changed.refs := hr
  cases shape <;> simp only [Shape.withType?, reduceCtorEq, Option.some.injEq] at h <;> subst h <;>
    exact List.mem_singleton.mp hr ▸ hid

theorem Knows.withReturnType? (hshape : g.Knows shape) (hid : g.contains id)
    (h : shape.withReturnType? id = some changed) : g.Knows changed := by
  intro r hr
  have hr : r ∈ changed.refs := hr
  cases shape <;> simp only [Shape.withReturnType?, reduceCtorEq, Option.some.injEq] at h
  subst h
  rcases List.mem_cons.mp hr with rfl | hr
  · exact hshape _ List.mem_cons_self
  · exact List.mem_singleton.mp hr ▸ hid

/-- A closed graph knows the members of its containers. -/
theorem Closed.knows_members (hclosed : g.Closed) (h : (g.shape id).members? = some t) :
    g.Knows t := by
  intro r hr
  refine hclosed.knows_shape id r ?_
  show r ∈ (g.shape id).refs
  rw [Shape.refs_of_members? h]
  exact hr

/-- A copy of a node is known with what it refers to. -/
theorem knows_copy (hid : g.contains id) (hshape : g.Knows shape) :
    g.Knows (Node.mk (some id) shape) := by
  intro r hr
  rcases List.mem_append.mp hr with horigin | hmember
  · have heq : r = id := by simpa [refs] using horigin
    exact heq ▸ hid
  · exact hshape r hmember

end Graph

/-! ### Deriving from outside a run -/

/-- A changed copy of a node, made from outside a run. -/
inductive Derivation
  | copy (id : NodeId)
  | members (container : NodeId) (table : NameTable)
  | member (container : NodeId) (name : String) (new : NodeId)
  | renamed (id : NodeId) (name : String)
  | type (id new : NodeId)
  | returnType (id new : NodeId)

namespace Derivation

def action : Derivation → Building NodeId
  | .copy id => Building.derive id
  | .members container table => Building.deriveMembers container table
  | .member container name new => Building.deriveMember container name new
  | .renamed id name => Building.deriveRenamed id name
  | .type id new => Building.deriveType id new
  | .returnType id new => Building.deriveReturnType id new

/-- The nodes that a derivation names. -/
def refs : Derivation → List NodeId
  | .copy id => [id]
  | .members container table => container :: table.values
  | .member container _ new => [container, new]
  | .renamed id _ => [id]
  | .type id new => [id, new]
  | .returnType id new => [id, new]

end Derivation

namespace Building

variable {g : Graph} {id : NodeId}

theorem changes_deriveShape (hid : g.contains id) {shape? : Option Shape}
    (hshape : ∀ shape, shape? = some shape → g.Knows shape) (fault : String → GraphFault) :
    Changes g (deriveShape id shape? fault) := by
  cases shape? with
  | some shape => exact changes_alloc (Graph.knows_copy hid (hshape shape rfl))
  | none => exact Changes.throw (α := NodeId) (fault (g.describe id))

theorem changes_deriveMembers (hid : g.contains id) {members : NameTable}
    (hmembers : g.Knows members) : Changes g (deriveMembers id members) :=
  changes_deriveShape hid (fun _ => hmembers.withMembers?) _

theorem changes_deriveMember (hclosed : g.Closed) {container new : NodeId}
    (hcontainer : g.contains container) (hnew : g.contains new) (name : String) :
    Changes g (deriveMember container name new) := by
  unfold deriveMember
  refine Changes.get_bind ?_
  cases hmembers : (g.shape container).members? with
  | none => exact .throw _
  | some members =>
    dsimp only
    split
    · exact changes_deriveMembers hcontainer ((hclosed.knows_members hmembers).replace hnew)
    · exact .throw _

end Building

/-- **A derivation keeps a closed graph closed**, given nodes of the graph. -/
theorem Derivation.changes {g : Graph} (hclosed : g.Closed) (d : Derivation)
    (h : ∀ id ∈ d.refs, g.contains id) : Building.Changes g d.action := by
  cases d with
  | copy id =>
    have hid : g.contains id := h id List.mem_cons_self
    exact Building.changes_alloc (Graph.knows_copy hid (hclosed.knows_shape id))
  | members container table =>
    exact Building.changes_deriveMembers (h container List.mem_cons_self) fun r hr =>
      h r (List.mem_cons_of_mem _ hr)
  | member container name new =>
    have hcontainer : g.contains container := h container List.mem_cons_self
    have hnew : g.contains new := h new (List.mem_cons_of_mem _ List.mem_cons_self)
    exact Building.changes_deriveMember hclosed hcontainer hnew name
  | renamed id name =>
    exact Building.changes_deriveShape (h id List.mem_cons_self)
      (fun _ => (hclosed.knows_shape id).withName?) _
  | type id new =>
    have hnew : g.contains new := h new (List.mem_cons_of_mem _ List.mem_cons_self)
    exact Building.changes_deriveShape (h id List.mem_cons_self)
      (fun _ => Graph.knows_withType? hnew) _
  | returnType id new =>
    have hnew : g.contains new := h new (List.mem_cons_of_mem _ List.mem_cons_self)
    exact Building.changes_deriveShape (h id List.mem_cons_self)
      (fun _ => (hclosed.knows_shape id).withReturnType? hnew) _

end SchemaProjection
