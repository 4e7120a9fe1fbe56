import SchemaProjection.Proofs.Graph.Bisimilarity
import SchemaProjection.Proofs.Graph.Edited
import SchemaProjection.Proofs.Graph.Renumbering

/-!
# Twins

An edit that is made twice, on the same node, makes other nodes the second time: new literal types,
new copies, a new member. The nodes of the one time are **twins** of those of the other
(`Graph.Twins`): no path of references tells them apart. Twins may be nodes of two graphs, so the
two times may also be two ways on from one state. Within one graph, twins are the nodes that are
structurally equal (`Graph.twins_self_iff`).

Two graphs that extend a closed one share its nodes, and these are twins of themselves
(`Graph.Closed.twins_self`). Twins are made from nodes like that: copies with the same thing changed
(`Graph.Closed.twins_of_derives`), types that one value denotes (`Graph.Closed.twins_of_denotes`)
and members that are made from one value (`Graph.MemberShape.alike`).
-/

namespace SchemaProjection

namespace Shape

variable {R : NodeId → NodeId → Prop} {shape changed x y : Shape}

/-- A shape is alike to itself if the nodes that it refers to are related to themselves. -/
theorem alike_self (h : ∀ id ∈ shape.refs, R id id) : shape.Alike R shape := by
  have htable : ∀ t : NameTable, (∀ id ∈ t.values, R id id) → t.Alike R t := fun t ht =>
    ⟨rfl, List.forall₂_same.mpr ht⟩
  cases shape with
  | model name t => exact .model (htable t h)
  | union name t => exact .union (htable t h)
  | interface name t => exact .interface (htable t h)
  | enum name t => exact .enum (htable t h)
  | modelProperty name type optional => exact .modelProperty (h type List.mem_cons_self)
  | unionVariant name type => exact .unionVariant (h type List.mem_cons_self)
  | operation name parameters returnType =>
    exact .operation (h parameters List.mem_cons_self)
      (h returnType (List.mem_cons_of_mem _ List.mem_cons_self))
  | enumMember name value => exact .enumMember
  | scalar name base =>
    cases base with
    | none => exact .scalar .none
    | some base => exact .scalar (.some (h base List.mem_cons_self))
  | intrinsic i => exact .intrinsic
  | stringLiteral s => exact .stringLiteral
  | numericLiteral x => exact .numericLiteral
  | booleanLiteral b => exact .booleanLiteral
  | tuple elements => exact .tuple (List.forall₂_same.mpr h)

/-- One container with members that are alike. -/
theorem alike_of_withMembers? {s t : NameTable} (htables : s.Alike R t)
    (hx : shape.withMembers? s = some x) (hy : shape.withMembers? t = some y) : x.Alike R y := by
  cases shape <;> cases hx <;> cases hy <;> constructor <;> exact htables

end Shape

namespace Graph

variable {base g h k : Graph} {a b id : NodeId} {v : Value}

/-- **Twins**: nodes, each of its own graph, that lead to the same things, in that some relation has
the pair, and the nodes of each of its pairs agree up to references to its pairs. -/
def Twins (g h : Graph) (a b : NodeId) : Prop :=
  ∃ R : NodeId → NodeId → Prop, (∀ c d, R c d → (g.shape c).Alike R (h.shape d)) ∧ R a b

/-- **One level at a time**: nodes that refer to twins in the same places are twins. -/
theorem twins_of_alike (hab : (g.shape a).Alike (g.Twins h) (h.shape b)) : g.Twins h a b := by
  refine ⟨fun c d => g.Twins h c d ∨ (g.shape c).Alike (g.Twins h) (h.shape d), fun c d hcd => ?_,
    .inr hab⟩
  rcases hcd with ⟨R, hR, hcd⟩ | hcd
  · exact (hR c d hcd).mono fun _ _ hlater => .inl ⟨R, hR, hlater⟩
  · exact hcd.mono fun _ _ => .inl

/-- **Within one graph**, twins are structurally equal nodes. -/
theorem twins_self_iff : g.Twins g a b ↔ g.structurallyEqual a b = true := by
  refine Iff.trans ?_ (structurallyEqual_iff a b).symm
  constructor
  · rintro ⟨R, hR, hab⟩
    exact ⟨R, fun c d hcd => .inr (hR c d hcd), hab⟩
  · intro hab
    refine ⟨g.Bisimilar, fun c d hcd => ?_, hab⟩
    rcases g.bisimulation_bisimilar c d hcd with rfl | halike
    · exact Shape.alike_self fun id _ => .refl g id
    · exact halike

/-! ### Nodes in common -/

namespace Closed

variable (hbase : base.Closed) (hg : base ≤ g) (hh : base ≤ h)
include hbase hg hh

/-- What two graphs have in common is the same in both. -/
theorem twins_self (hid : base.contains id) : g.Twins h id id := by
  refine ⟨fun c d => c = d ∧ base.contains c, ?_, rfl, hid⟩
  rintro c _ ⟨rfl, hc⟩
  rw [shape_of_le hg hc, shape_of_le hh hc]
  exact Shape.alike_self fun r hr => ⟨rfl, hbase.knows_shape c r hr⟩

/-- Two nodes with one shape, which refers to nodes in common. -/
theorem twins_of_shape {shape : Shape} (hshape : base.Knows shape) (ha : g.shape a = shape)
    (hb : h.shape b = shape) : g.Twins h a b := by
  refine twins_of_alike ?_
  rw [ha, hb]
  exact Shape.alike_self fun r hr => hbase.twins_self hg hh (hshape r hr)

theorem twins_of_node? {node : Node} (hnode : base.Knows node.shape) (ha : g.node? a = some node)
    (hb : h.node? b = some node) : g.Twins h a b :=
  hbase.twins_of_shape hg hh hnode (shape_of_node? ha) (shape_of_node? hb)

/-- Two copies of a node with the same thing changed. -/
theorem twins_of_derives {change : Shape → Option Shape} (hid : base.contains id)
    (hchange : ∀ shape, change (base.shape id) = some shape → base.Knows shape)
    (ha : g.Derives id change a) (hb : h.Derives id change b) : g.Twins h a b := by
  obtain ⟨shape, hshape, hnode⟩ := ha
  obtain ⟨shape', hshape', hnode'⟩ := hb
  rw [shape_of_le hg hid] at hshape
  rw [shape_of_le hh hid] at hshape'
  cases hshape.symm.trans hshape'
  exact hbase.twins_of_node? hg hh (hchange shape hshape) hnode hnode'

/-- Two types that one value denotes. -/
theorem twins_of_denotes (hv : base.Knows v) (ha : g.Denotes v a) (hb : h.Denotes v b) :
    g.Twins h a b := by
  cases v with
  | absent =>
    cases ha
    cases hb
    exact hbase.twins_self hg hh (hbase.intrinsics .null)
  | type id =>
    cases ha
    cases hb
    exact hbase.twins_self hg hh (hv _ List.mem_cons_self)
  | bool | number | string => exact hbase.twins_of_node? hg hh (knows_of_refs_eq_nil rfl) ha hb

end Closed

/-! ### New members -/

namespace MemberShape

variable {name : String} {collection : Collection} {shape shape' : Shape}

/-- A value that is known was the same before, and what was allocated for it stays. -/
theorem rebase (hm : MemberShape g h name collection v shape) (hbase : base ≤ g)
    (hv : base.Knows v) (hle : h ≤ k) : MemberShape base k name collection v shape := by
  have hsignature : Building.signature? g v = Building.signature? base v := by
    cases v with
    | type id =>
      rw [Building.signature?, Building.signature?, shape_of_le hbase (hv id List.mem_cons_self)]
    | absent | bool | number | string => rfl
  cases hm with
  | property denotes => exact .property (denotes.mono hle)
  | variant denotes => exact .variant (denotes.mono hle)
  | signature found => exact .signature (hsignature.symm.trans found)
  | operation none_found empty denotes =>
    refine .operation (hsignature.symm.trans none_found) ?_ (denotes.mono hle)
    rw [node?_of_le hle (contains_of_node? empty)]
    exact empty
  | absent => exact .absent
  | type => exact .type
  | literal not_absent not_type => exact .literal not_absent not_type

/-- Two members that are made from one value. -/
theorem alike (hm : MemberShape base g name collection v shape)
    (hm' : MemberShape base h name collection v shape') (hbase : base.Closed) (hg : base ≤ g)
    (hh : base ≤ h) (hv : base.Knows v) : shape.Alike (g.Twins h) shape' := by
  have hself : ∀ shape : Shape, base.Knows shape → shape.Alike (g.Twins h) shape :=
    fun shape hshape => Shape.alike_self fun r hr => hbase.twins_self hg hh (hshape r hr)
  cases hm with
  | property denotes =>
    cases hm' with
    | property denotes' => exact .modelProperty (hbase.twins_of_denotes hg hh hv denotes denotes')
  | variant denotes =>
    cases hm' with
    | variant denotes' => exact .unionVariant (hbase.twins_of_denotes hg hh hv denotes denotes')
  | signature found =>
    cases hm' with
    | signature found' =>
      cases found.symm.trans found'
      exact hself _ (Building.knows_signature hbase found name)
    | operation none_found => exact nomatch found.symm.trans none_found
  | operation none_found empty denotes =>
    cases hm' with
    | signature found => exact nomatch found.symm.trans none_found
    | operation _ empty' denotes' =>
      exact .operation (hbase.twins_of_node? hg hh (knows_of_refs_eq_nil rfl) empty empty')
        (hbase.twins_of_denotes hg hh hv denotes denotes')
  | absent =>
    cases hm' with
    | absent => exact .enumMember
    | literal not_absent => exact absurd rfl not_absent
  | type =>
    cases hm' with
    | type => exact .enumMember
    | literal _ not_type => exact absurd rfl (not_type _)
  | literal not_absent not_type =>
    cases hm' with
    | absent => exact absurd rfl not_absent
    | type => exact absurd rfl (not_type _)
    | literal => exact .enumMember

end MemberShape

end Graph

end SchemaProjection
