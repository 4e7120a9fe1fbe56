import SchemaProjection.Proofs.Graph.Extension

/-!
# References to nodes

Data that names nodes (`Refers`) can be asked two things: which nodes it names, and what it becomes
when nodes get other ids. A graph **knows** such data if it has all nodes named there
(`Graph.Knows`), and a graph is **closed** if it knows all of its own nodes and declarations, begins
with the intrinsic types, and its origins stand before the nodes derived from them
(`Graph.Closed`).
-/

namespace SchemaProjection

/-- **Data that names nodes.** A renumbering that keeps all nodes named there changes nothing. -/
class Refers (α : Type) where
  refs : α → List NodeId
  renumber : (NodeId → NodeId) → α → α
  renumber_eq_self : ∀ {ρ : NodeId → NodeId} {a : α}, (∀ id ∈ refs a, ρ id = id) → renumber ρ a = a

export Refers (refs renumber renumber_eq_self)

/-! ### Plain data and containers -/

namespace Refers

variable {α β : Type}

/-- Data that names no node. -/
abbrev plain (α : Type) : Refers α := ⟨fun _ => [], fun _ a => a, fun _ => rfl⟩

instance : Refers Unit := plain Unit

instance : Refers Bool := plain Bool

instance : Refers String := plain String

instance : Refers NodeId where
  refs id := [id]
  renumber ρ id := ρ id
  renumber_eq_self h := h _ List.mem_cons_self

@[simp] theorem renumber_string (ρ : NodeId → NodeId) (s : String) : renumber ρ s = s := rfl

@[simp] theorem renumber_id (ρ : NodeId → NodeId) (id : NodeId) : renumber ρ id = ρ id := rfl

instance [Refers α] : Refers (Option α) where
  refs a? := a?.toList.flatMap refs
  renumber ρ a? := a?.map (renumber ρ)
  renumber_eq_self {ρ a?} h := by
    cases a? with
    | none => rfl
    | some a => exact congrArg some (renumber_eq_self fun id hid => h id (by simpa using hid))

instance [Refers α] : Refers (List α) where
  refs as := as.flatMap refs
  renumber ρ as := as.map (renumber ρ)
  renumber_eq_self {ρ as} h := by
    have heach : ∀ a ∈ as, renumber ρ a = a := fun a ha =>
      renumber_eq_self fun id hid => h id (List.mem_flatMap.mpr ⟨a, ha, hid⟩)
    rw [List.map_congr_left heach, List.map_id']

instance [Refers α] [Refers β] : Refers (α × β) where
  refs p := refs p.1 ++ refs p.2
  renumber ρ p := (renumber ρ p.1, renumber ρ p.2)
  renumber_eq_self h := Prod.ext
    (renumber_eq_self fun id hid => h id (List.mem_append_left _ hid))
    (renumber_eq_self fun id hid => h id (List.mem_append_right _ hid))

instance [Refers α] [Refers β] : Refers (Except α β) where
  refs
    | .error a => refs a
    | .ok b => refs b
  renumber ρ
    | .error a => .error (renumber ρ a)
    | .ok b => .ok (renumber ρ b)
  renumber_eq_self {ρ result} h := by
    cases result with
    | error a => exact congrArg Except.error (renumber_eq_self h)
    | ok b => exact congrArg Except.ok (renumber_eq_self h)

end Refers

/-! ### Values -/

namespace Value

/-- The node that a value refers to. -/
def refs : Value → List NodeId
  | .type id => [id]
  | .absent | .bool _ | .number _ | .string _ => []

def renumber (ρ : NodeId → NodeId) : Value → Value
  | .type id => .type (ρ id)
  | .absent => .absent
  | .bool b => .bool b
  | .number x => .number x
  | .string s => .string s

instance : Refers Value where
  refs := refs
  renumber := renumber
  renumber_eq_self {ρ v} h := by
    cases v with
    | type id => exact congrArg Value.type (h id List.mem_cons_self)
    | absent | bool | number | string => rfl

end Value

/-! ### Nodes -/

namespace NameTable

/-- The table with other nodes under the same names. -/
def renumber (ρ : NodeId → NodeId) (t : NameTable) : NameTable :=
  ⟨t.entries.map fun e => (e.1, ρ e.2), by
    rw [List.map_map]
    exact t.nodup_keys⟩

instance : Refers NameTable where
  refs := values
  renumber := renumber
  renumber_eq_self {ρ t} h := by
    have heach : ∀ e ∈ t.entries, (e.1, ρ e.2) = e := fun e he =>
      Prod.ext rfl (h e.2 (List.mem_map.mpr ⟨e, he, rfl⟩))
    refine ext ?_
    show t.entries.map (fun e => (e.1, ρ e.2)) = t.entries
    rw [List.map_congr_left heach, List.map_id']

end NameTable

namespace Shape

/-- The nodes that a node refers to. -/
def refs : Shape → List NodeId
  | .model _ t | .union _ t | .interface _ t | .enum _ t => t.values
  | .modelProperty _ type _ | .unionVariant _ type => [type]
  | .operation _ parameters returnType => [parameters, returnType]
  | .enumMember _ value => Refers.refs value
  | .scalar _ base => Refers.refs base
  | .tuple elements => elements
  | .intrinsic _ | .stringLiteral _ | .numericLiteral _ | .booleanLiteral _ => []

def renumber (ρ : NodeId → NodeId) : Shape → Shape
  | .model name t => .model name (t.renumber ρ)
  | .union name t => .union name (t.renumber ρ)
  | .interface name t => .interface name (t.renumber ρ)
  | .enum name t => .enum name (t.renumber ρ)
  | .modelProperty name type optional => .modelProperty name (ρ type) optional
  | .unionVariant name type => .unionVariant name (ρ type)
  | .operation name parameters returnType => .operation name (ρ parameters) (ρ returnType)
  | .enumMember name value => .enumMember name (Refers.renumber ρ value)
  | .scalar name base => .scalar name (Refers.renumber ρ base)
  | .tuple elements => .tuple (elements.map ρ)
  | .intrinsic i => .intrinsic i
  | .stringLiteral s => .stringLiteral s
  | .numericLiteral x => .numericLiteral x
  | .booleanLiteral b => .booleanLiteral b

instance : Refers Shape where
  refs := refs
  renumber := renumber
  renumber_eq_self {ρ shape} h := by
    cases shape with
    | model name t => exact congrArg (Shape.model name) (renumber_eq_self h)
    | union name t => exact congrArg (Shape.union name) (renumber_eq_self h)
    | interface name t => exact congrArg (Shape.interface name) (renumber_eq_self h)
    | enum name t => exact congrArg (Shape.enum name) (renumber_eq_self h)
    | modelProperty name type optional =>
      exact congrArg (Shape.modelProperty name · optional) (h type List.mem_cons_self)
    | unionVariant name type => exact congrArg (Shape.unionVariant name) (h type List.mem_cons_self)
    | operation name parameters returnType =>
      have hparameters : ρ parameters = parameters := h parameters List.mem_cons_self
      have hreturn : ρ returnType = returnType :=
        h returnType (List.mem_cons_of_mem _ List.mem_cons_self)
      rw [renumber, hparameters, hreturn]
    | enumMember name value => exact congrArg (Shape.enumMember name) (renumber_eq_self h)
    | scalar name base => exact congrArg (Shape.scalar name) (renumber_eq_self h)
    | tuple elements =>
      have heach : ∀ id ∈ elements, ρ id = id := h
      rw [renumber, List.map_congr_left heach, List.map_id']
    | intrinsic | stringLiteral | numericLiteral | booleanLiteral => rfl

end Shape

instance : Refers Node where
  refs node := refs node.origin ++ refs node.shape
  renumber ρ node := ⟨renumber ρ node.origin, renumber ρ node.shape⟩
  renumber_eq_self {ρ node} h := by
    have horigin : renumber ρ node.origin = node.origin :=
      renumber_eq_self fun id hid => h id (List.mem_append_left _ hid)
    have hshape : renumber ρ node.shape = node.shape :=
      renumber_eq_self fun id hid => h id (List.mem_append_right _ hid)
    rw [horigin, hshape]

/-! ### Knowing what is named -/

namespace Graph

variable {α : Type} [Refers α] {g h : Graph}

/-- A graph knows data if it has all nodes named there. -/
def Knows (g : Graph) (a : α) : Prop := ∀ id ∈ refs a, g.contains id

theorem Knows.mono {a : α} (ha : g.Knows a) (hle : g ≤ h) : h.Knows a :=
  fun id hid => contains_of_le hle (ha id hid)

theorem knows_of_refs_eq_nil {a : α} (h : refs a = []) : g.Knows a := fun id hid => by
  rw [h] at hid
  cases hid

/-- What is known of a list is known of each of its items. -/
theorem knows_list_iff {as : List α} : g.Knows as ↔ ∀ a ∈ as, g.Knows a :=
  ⟨fun h a ha id hid => h id (List.mem_flatMap.mpr ⟨a, ha, hid⟩), fun h id hid => by
    obtain ⟨a, ha, hid⟩ := List.mem_flatMap.mp hid
    exact h a ha id hid⟩

theorem knows_cons_iff {a : α} {as : List α} : g.Knows (a :: as) ↔ g.Knows a ∧ g.Knows as := by
  rw [knows_list_iff, knows_list_iff, List.forall_mem_cons]

theorem knows_append_iff {as bs : List α} : g.Knows (as ++ bs) ↔ g.Knows as ∧ g.Knows bs := by
  rw [knows_list_iff, knows_list_iff, knows_list_iff, List.forall_mem_append]

theorem knows_some_iff {a : α} : g.Knows (some a) ↔ g.Knows a := by
  have hrefs : refs (some a) = refs a := List.append_nil _
  rw [Knows, hrefs, Knows]

theorem knows_id_iff {id : NodeId} : g.Knows id ↔ g.contains id :=
  ⟨fun h => h id List.mem_cons_self, fun h _ hr => List.mem_singleton.mp hr ▸ h⟩

/-- **Closed graphs.** -/
structure Closed (g : Graph) : Prop where
  intrinsics : ∀ i, g.contains (intrinsic i)
  nodes : ∀ id node, g.node? id = some node → g.Knows node
  origin_lt : ∀ id node origin, g.node? id = some node → node.origin = some origin →
    origin.index < id.index
  globals : g.Knows g.globals

end Graph

end SchemaProjection
