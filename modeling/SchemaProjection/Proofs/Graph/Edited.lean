import SchemaProjection.Instruction
import SchemaProjection.Proofs.Graph.Growth
import SchemaProjection.Proofs.Graph.Tables

/-!
# What an edit makes of a graph

An edit of a container comes in two parts. First it allocates what it needs: literal types, a new
member, a changed copy of a member. None of these is a container with members that no node had
before (`Graph.Supplied`). Then it allocates a copy of the container with other members.

`Graph.Makes` says which members these are, with one case for each edit and the conditions under
which it is made, and `Graph.Edited` puts the two parts together. Both speak of an edit as it is
recorded: an `Instruction` says what was edited and how.
-/

namespace SchemaProjection

/-- The collection that an edit deals with, if it deals with members of one. -/
def Edit.collection? : Edit → Option Collection
  | .add c | .delete c | .rename c | .project c => some c
  | .setType | .setReturnType => none

namespace Shape

variable {shape changed : Shape} {members table : NameTable} {name : String} {id : NodeId}

theorem membersIn?_iff {collection : Collection} :
    shape.membersIn? collection = some members ↔
      shape.collection? = some collection ∧ shape.members? = some members := by
  unfold membersIn?
  by_cases h : shape.collection? = some collection
  · simp [h]
  · simp [h]

/-! ### Changed shapes -/

theorem members?_of_withMembers? (h : shape.withMembers? table = some changed) :
    changed.members? = some table := by
  cases shape <;> simp only [withMembers?, reduceCtorEq, Option.some.injEq] at h <;> subst h <;> rfl

theorem withMembers?_self (h : shape.members? = some members) :
    shape.withMembers? members = some shape := by
  cases shape <;> cases h <;> rfl

/-- Of the members that a container is given one after the other, the last ones count. -/
theorem withMembers?_of_withMembers? (h : shape.withMembers? table = some changed) :
    changed.withMembers? members = shape.withMembers? members := by
  cases shape <;> cases h <;> rfl

theorem collection?_of_kind (h : changed.kind = shape.kind) :
    changed.collection? = shape.collection? := by
  cases shape <;> cases changed <;> first | rfl | cases h

theorem members?_of_withName? (h : shape.withName? name = some changed) :
    changed.members? = shape.members? := by
  cases shape <;> simp only [withName?, reduceCtorEq, Option.some.injEq] at h <;> subst h <;> rfl

theorem name?_of_withName? (h : shape.withName? name = some changed) :
    changed.name? = some name := by
  cases shape <;> simp only [withName?, reduceCtorEq, Option.some.injEq] at h <;> subst h <;> rfl

theorem members?_of_withType? (h : shape.withType? id = some changed) :
    changed.members? = shape.members? := by
  cases shape <;> simp only [withType?, reduceCtorEq, Option.some.injEq] at h <;> subst h <;> rfl

theorem name?_of_withType? (h : shape.withType? id = some changed) :
    changed.name? = shape.name? := by
  cases shape <;> simp only [withType?, reduceCtorEq, Option.some.injEq] at h <;> subst h <;> rfl

theorem members?_of_withReturnType? (h : shape.withReturnType? id = some changed) :
    changed.members? = shape.members? := by
  cases shape <;> simp only [withReturnType?, reduceCtorEq, Option.some.injEq] at h
  subst h
  rfl

theorem name?_of_withReturnType? (h : shape.withReturnType? id = some changed) :
    changed.name? = shape.name? := by
  cases shape <;> simp only [withReturnType?, reduceCtorEq, Option.some.injEq] at h
  subst h
  rfl

/-- **A change of what a node says about itself**, of its name or its type. It keeps the kind and
the members, and a node that is not there cannot be changed. -/
structure Alters (change : Shape → Option Shape) : Prop where
  unknown : change (.intrinsic .unknown) = none
  kind : ∀ {shape changed}, change shape = some changed → changed.kind = shape.kind
  members : ∀ {shape changed}, change shape = some changed → changed.members? = shape.members?

theorem alters_withName? (name : String) : Alters (withName? name) :=
  ⟨rfl, kind_of_withName?, members?_of_withName?⟩

theorem alters_withType? (id : NodeId) : Alters (withType? id) :=
  ⟨rfl, kind_of_withType?, members?_of_withType?⟩

theorem alters_withReturnType? (id : NodeId) : Alters (withReturnType? id) :=
  ⟨rfl, kind_of_withReturnType?, members?_of_withReturnType?⟩

end Shape

namespace Graph

variable {g h k : Graph} {id copy : NodeId} {v : Value}

/-- What a shape says of a node, it says of a node of the graph. -/
theorem contains_of_shape_ne (h : g.shape id ≠ .intrinsic .unknown) : g.contains id := by
  refine contains_iff.mpr (Nat.lt_of_not_le fun hout => h ?_)
  exact shape_of_size_le hout

/-- A node of which something can be read is one of the graph. -/
theorem contains_of_read {α : Type} {read : Shape → Option α} {a : α}
    (hunknown : read (.intrinsic .unknown) = none) (h : read (g.shape id) = some a) :
    g.contains id := by
  refine contains_of_shape_ne fun heq => ?_
  rw [heq, hunknown] at h
  cases h

theorem contains_of_node? {node : Node} (h : g.node? id = some node) : g.contains id := by
  refine contains_iff.mpr (Nat.lt_of_not_le fun hout => ?_)
  rw [node?_eq_none_iff.mpr hout] at h
  cases h

theorem exists_node?_of_contains (h : g.contains id) : ∃ node, g.node? id = some node :=
  ⟨_, Array.getElem?_eq_getElem (contains_iff.mp h)⟩

theorem shape_of_node? {node : Node} (h : g.node? id = some node) : g.shape id = node.shape := by
  rw [shape, h]
  rfl

theorem contains_of_members? {members : NameTable} (h : (g.shape id).members? = some members) :
    g.contains id := contains_of_read rfl h

theorem node?_push_nextId (g : Graph) (node : Node) : (g.push node).node? g.nextId = some node := by
  rw [node?_push]
  exact if_pos rfl

theorem not_contains_nextId (g : Graph) : ¬ g.contains g.nextId := fun h =>
  Nat.lt_irrefl _ (contains_iff.mp h)

/-! ### Parts -/

/-- **Parts for an edit**: new nodes without members, and changed copies with the same members. -/
inductive Supplied (g : Graph) : Graph → Prop
  | refl : Supplied g g
  | create {h : Graph} (shape : Shape)
    (childless : ∀ members, shape.members? = some members → members = .empty) :
    Supplied g h → Supplied g (h.push ⟨none, shape⟩)
  | derive {h : Graph} (id : NodeId) (shape : Shape) (known : h.contains id)
    (same_kind : shape.kind = h.kind id) (same_members : shape.members? = (h.shape id).members?) :
    Supplied g h → Supplied g (h.push ⟨some id, shape⟩)

theorem Supplied.trans (h₁ : g.Supplied h) (h₂ : h.Supplied k) : g.Supplied k := by
  induction h₂ with
  | refl => exact h₁
  | create shape childless _ ih => exact ih.create shape childless
  | derive id shape known same_kind same_members _ ih =>
    exact ih.derive id shape known same_kind same_members

theorem Supplied.extends (hs : g.Supplied h) : g ≤ h := by
  induction hs with
  | refl => exact le_rfl
  | create shape _ _ ih => exact le_trans ih (le_push _ _)
  | derive id shape _ _ _ _ ih => exact le_trans ih (le_push _ _)

/-- A copy with something altered is a part. -/
theorem supplied_alter {change : Shape → Option Shape} (halters : Shape.Alters change)
    {shape : Shape} (h : change (g.shape id) = some shape) :
    g.Supplied (g.push ⟨some id, shape⟩) :=
  .derive id shape (contains_of_read halters.unknown h) (halters.kind h) (halters.members h) .refl

/-- A node is the type that a value denotes. -/
def Denotes (g : Graph) (v : Value) (type : NodeId) : Prop :=
  match v with
  | .type id => type = id
  | .absent => type = intrinsic .null
  | .string s => g.node? type = some ⟨none, .stringLiteral s⟩
  | .number x => g.node? type = some ⟨none, .numericLiteral x⟩
  | .bool b => g.node? type = some ⟨none, .booleanLiteral b⟩

theorem Denotes.mono {type : NodeId} (hd : g.Denotes v type) (hle : g ≤ h) : h.Denotes v type := by
  have hnode : ∀ {shape : Shape}, g.node? type = some ⟨none, shape⟩ →
      h.node? type = some ⟨none, shape⟩ := by
    intro shape hshape
    rw [node?_of_le hle (contains_of_node? hshape)]
    exact hshape
  cases v with
  | type id => exact hd
  | absent => exact hd
  | string s => exact hnode hd
  | number x => exact hnode hd
  | bool b => exact hnode hd

/-- A node is a copy of another with something changed. -/
def Derives (g : Graph) (id : NodeId) (change : Shape → Option Shape) (copy : NodeId) : Prop :=
  ∃ shape, change (g.shape id) = some shape ∧ g.node? copy = some ⟨some id, shape⟩

theorem Derives.mono {change : Shape → Option Shape} (hd : g.Derives id change copy) (hle : g ≤ h)
    (halters : Shape.Alters change) : h.Derives id change copy := by
  obtain ⟨shape, hshape, hnode⟩ := hd
  have hid : g.contains id := contains_of_read halters.unknown hshape
  refine ⟨shape, ?_, ?_⟩
  · rw [shape_of_le hle hid]
    exact hshape
  · rw [node?_of_le hle (contains_of_node? hnode)]
    exact hnode

/-- What a new member of a collection is, made from a value. The first graph is the one in which
the value was read, the second one has the types that were allocated for the member. -/
inductive MemberShape (g h : Graph) (name : String) : Collection → Value → Shape → Prop
  | property {v : Value} {type : NodeId} (denotes : h.Denotes v type) :
    MemberShape g h name .properties v (.modelProperty name type false)
  | variant {v : Value} {type : NodeId} (denotes : h.Denotes v type) :
    MemberShape g h name .variants v (.unionVariant name type)
  /-- An operation with the signature of another. -/
  | signature {v : Value} {parameters returnType : NodeId}
    (found : Building.signature? g v = some (parameters, returnType)) :
    MemberShape g h name .operations v (.operation name parameters returnType)
  /-- An operation without parameters. -/
  | operation {v : Value} {parameters returnType : NodeId}
    (none_found : Building.signature? g v = none)
    (empty : h.node? parameters = some ⟨none, .model none .empty⟩)
    (denotes : h.Denotes v returnType) :
    MemberShape g h name .operations v (.operation name parameters returnType)
  | absent : MemberShape g h name .members .absent (.enumMember name none)
  | type {id : NodeId} : MemberShape g h name .members (.type id) (.enumMember name none)
  | literal {v : Value} (not_absent : v ≠ .absent) (not_type : ∀ id, v ≠ .type id) :
    MemberShape g h name .members v (.enumMember name (some v))

namespace MemberShape

variable {name : String} {collection : Collection} {shape : Shape}

theorem kind (hm : MemberShape g h name collection v shape) :
    shape.kind = collection.memberKind := by
  cases hm <;> rfl

theorem name? (hm : MemberShape g h name collection v shape) : shape.name? = some name := by
  cases hm <;> rfl

end MemberShape

/-! ### Edits -/

/-- **What an edit makes of the members of a container.** The first graph is the one in which it is
made, the second one has the parts as well. -/
inductive Makes (g h : Graph) (members : NameTable) : Instruction → NameTable → Prop
  | add {collection : Collection} {name : String} {v : Value} {member : NodeId} {shape : Shape}
    (free : members.contains name = false) (new : MemberShape g h name collection v shape)
    (node : h.node? member = some ⟨none, shape⟩) (fresh : ¬ g.contains member) :
    Makes g h members ⟨.add collection, name, [v]⟩ (members.insert name member)
  | delete {collection : Collection} {name : String} (present : members.contains name) :
    Makes g h members ⟨.delete collection, name, []⟩ (members.erase name)
  | rename {collection : Collection} {old new : String} {member copy : NodeId}
    (found : members.get? old = some member) (differs : old ≠ new)
    (free : members.contains new = false) (copied : h.Derives member (Shape.withName? new) copy) :
    Makes g h members ⟨.rename collection, old, [.string new]⟩ (members.rename old new copy)
  /-- What a projection makes of an operation may be any node; other members get another type. Which
  node or type that is depends on the run that applies the projection. -/
  | project {collection : Collection} {name projection : String} {args : List Value}
    {member made : NodeId} (found : members.get? name = some member) (differs : made ≠ member)
    (retyped : collection ≠ .operations →
      ∃ type, h.Derives member (Shape.withType? type) made) :
    Makes g h members ⟨.project collection, name, .string projection :: args⟩
      (members.replace name made)
  | setType {name : String} {type member copy : NodeId} (found : members.get? name = some member)
    (retyped : h.Derives member (Shape.withType? type) copy) :
    Makes g h members ⟨.setType, name, [.type type]⟩ (members.replace name copy)
  | setReturnType {name : String} {type member copy : NodeId}
    (found : members.get? name = some member)
    (retyped : h.Derives member (Shape.withReturnType? type) copy) :
    Makes g h members ⟨.setReturnType, name, [.type type]⟩ (members.replace name copy)

/-- **What an edit makes of a graph**: parts, and at the end a copy of the container. -/
inductive Edited (g : Graph) (container : NodeId) (i : Instruction) : Graph → NodeId → Prop
  | mk {h : Graph} {members table : NameTable} {shape : Shape} (supplied : g.Supplied h)
    (found : (g.shape container).members? = some members)
    (collection : ∀ c, i.edit.collection? = some c → (g.shape container).collection? = some c)
    (makes : Makes g h members i table)
    (changed : (g.shape container).withMembers? table = some shape) :
    Edited g container i (h.push ⟨some container, shape⟩) h.nextId

section

variable {container updated : NodeId} {i : Instruction}

theorem Edited.contains (he : g.Edited container i h updated) : g.contains container := by
  cases he with
  | mk supplied found collection makes changed => exact contains_of_members? found

/-- The container keeps its members where the edit looks for them. -/
theorem Edited.collection? (he : g.Edited container i h updated) {collection : Collection}
    (hedit : i.edit.collection? = some collection) :
    (g.shape container).collection? = some collection := by
  cases he with
  | mk supplied found collection makes changed => exact collection _ hedit

/-- What an edit makes of the members is what the copy has. -/
theorem Edited.exists_makes (he : g.Edited container i h updated) :
    ∃ k members table, k ≤ h ∧ (g.shape container).members? = some members ∧
      g.Makes k members i table ∧
      (g.shape container).withMembers? table = some (h.shape updated) := by
  cases he with
  | @mk k members table shape supplied found collection makes changed =>
    refine ⟨k, members, table, le_push k _, found, makes, ?_⟩
    rw [shape_of_node? (k.node?_push_nextId _)]
    exact changed

theorem Edited.extends (he : g.Edited container i h updated) : g ≤ h := by
  cases he with
  | mk supplied found collection makes changed => exact le_trans supplied.extends (le_push _ _)

/-- Only a member that there is can be deleted. -/
theorem Edited.present {collection : Collection} {name : String}
    (he : g.Edited container ⟨.delete collection, name, []⟩ h updated) :
    ∃ members, (g.shape container).members? = some members ∧ members.contains name := by
  cases he with
  | mk supplied found collection makes changed =>
    cases makes with
    | delete present => exact ⟨_, found, present⟩

/-- A member is not renamed to the name that it has. -/
theorem Edited.differs {collection : Collection} {old new : String}
    (he : g.Edited container ⟨.rename collection, old, [.string new]⟩ h updated) : old ≠ new := by
  cases he with
  | mk supplied found collection makes changed =>
    cases makes with
    | rename found differs free copied => exact differs

end

end Graph

end SchemaProjection
