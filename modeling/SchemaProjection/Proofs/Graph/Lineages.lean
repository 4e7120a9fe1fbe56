import SchemaProjection.Proofs.Graph.Edited
import SchemaProjection.Proofs.Graph.Renumbering

/-!
# Lineages in a growing graph

As long as origins stand before the nodes derived from them (`Graph.Ordered`), the lineage of a node
is read off the nodes up to it. So lineages and roots do not change when nodes are added behind
(`Graph.Ordered.lineage_of_le`, `Graph.Ordered.root_of_le`), and a copy has the lineage of what it
was copied from, with itself in front (`Graph.Ordered.lineage_of_origin?`).
-/

namespace SchemaProjection.Graph

variable {g h : Graph} {id origin copy : NodeId}

/-- Origins stand before the nodes derived from them. -/
def Ordered (g : Graph) : Prop := ∀ id origin, g.origin? id = some origin → origin.index < id.index

theorem Closed.ordered (hclosed : g.Closed) : g.Ordered := by
  intro id origin horigin
  obtain ⟨node, hnode, hnodeorigin⟩ := Option.bind_eq_some_iff.mp horigin
  exact hclosed.origin_lt id node origin hnode hnodeorigin

theorem contains_of_origin? (h : g.origin? id = some origin) : g.contains id := by
  obtain ⟨node, hnode, -⟩ := Option.bind_eq_some_iff.mp h
  exact contains_of_node? hnode

theorem origin?_of_node? {node : Node} (h : g.node? id = some node) :
    g.origin? id = node.origin := by
  rw [origin?, h]
  rfl

theorem origin?_of_le (hle : g ≤ h) (hid : g.contains id) : h.origin? id = g.origin? id := by
  rw [origin?, origin?, node?_of_le hle hid]

theorem contains_of_index_le {other : NodeId} (hid : g.contains id) (hle : other.index ≤ id.index) :
    g.contains other :=
  contains_iff.mpr (Nat.lt_of_le_of_lt hle (contains_iff.mp hid))

namespace Ordered

theorem push (hg : g.Ordered) {node : Node}
    (hnode : ∀ origin, node.origin = some origin → g.contains origin) : (g.push node).Ordered := by
  intro id origin horigin
  rw [origin?, node?_push] at horigin
  by_cases hid : id.index = g.size
  · rw [if_pos hid] at horigin
    rw [hid]
    exact contains_iff.mp (hnode origin horigin)
  · rw [if_neg hid] at horigin
    exact hg id origin horigin

/-- What comes before in an ordered graph is ordered. -/
theorem of_le (hh : h.Ordered) (hle : g ≤ h) : g.Ordered := by
  intro id origin horigin
  rw [← origin?_of_le hle (contains_of_origin? horigin)] at horigin
  exact hh id origin horigin

/-! ### Following origins -/

/-- With enough steps, following origins leads through the same nodes in two graphs that have the
same origins up to the first one. -/
theorem lineageFrom_congr (hg : g.Ordered) {n k : Nat}
    (hsame : ∀ other : NodeId, other.index ≤ id.index → h.origin? other = g.origin? other)
    (hn : id.index ≤ n) (hk : id.index ≤ k) : h.lineageFrom k id = g.lineageFrom n id := by
  have hfirst : h.origin? id = g.origin? id := hsame id (Nat.le_refl _)
  induction n generalizing id k with
  | zero =>
    -- node 0 has no origin
    have hnone : g.origin? id = none := by
      refine Option.eq_none_iff_forall_ne_some.mpr fun origin horigin => ?_
      have hlt := hg id origin horigin
      omega
    cases k with
    | zero => rfl
    | succ k =>
      rw [lineageFrom, lineageFrom, hfirst, hnone]
  | succ n ih =>
    cases horigin : g.origin? id with
    | none =>
      cases k with
      | zero => rw [lineageFrom, lineageFrom, horigin]
      | succ k => rw [lineageFrom, lineageFrom, hfirst, horigin]
    | some origin =>
      have hlt := hg id origin horigin
      cases k with
      | zero => omega
      | succ k =>
        have hbefore : ∀ other : NodeId, other.index ≤ origin.index →
            h.origin? other = g.origin? other := fun other hother =>
          hsame other (Nat.le_trans hother (Nat.le_of_lt hlt))
        have hrest : h.lineageFrom k origin = g.lineageFrom n origin :=
          ih hbefore (by omega) (by omega) (hbefore origin (Nat.le_refl _))
        rw [lineageFrom, lineageFrom, hfirst, horigin]
        dsimp only
        rw [hrest]

theorem lineage_congr (hg : g.Ordered)
    (hsame : ∀ other : NodeId, other.index ≤ id.index → h.origin? other = g.origin? other) :
    h.lineage id = g.lineage id :=
  hg.lineageFrom_congr hsame (Nat.le_refl _) (Nat.le_refl _)

/-- **A lineage does not change** when the graph is extended. -/
theorem lineage_of_le (hg : g.Ordered) (hle : g ≤ h) (hid : g.contains id) :
    h.lineage id = g.lineage id :=
  hg.lineage_congr fun _ hother => origin?_of_le hle (contains_of_index_le hid hother)

theorem lineage_of_origin? (hg : g.Ordered) (horigin : g.origin? id = some origin) :
    g.lineage id = id :: g.lineage origin := by
  have hlt := hg id origin horigin
  obtain ⟨n, hn⟩ : ∃ n, id.index = n + 1 := ⟨id.index - 1, by omega⟩
  rw [lineage, hn, lineageFrom, horigin]
  dsimp only
  rw [hg.lineageFrom_congr (h := g) (fun _ _ => rfl) (Nat.le_refl origin.index) (by omega), lineage]

end Ordered

theorem lineage_of_origin?_none (h : g.origin? id = none) : g.lineage id = [id] := by
  rw [lineage]
  cases id.index with
  | zero => rfl
  | succ n => rw [lineageFrom, h]

theorem mem_lineage_self (g : Graph) (id : NodeId) : id ∈ g.lineage id := by
  rw [lineage]
  cases id.index with
  | zero => exact List.mem_cons_self
  | succ n =>
    rw [lineageFrom]
    cases g.origin? id with
    | none => exact List.mem_cons_self
    | some origin => exact List.mem_cons_self

/-! ### Roots -/

/-- The root is the last node of the lineage. -/
theorem getLast?_lineage (g : Graph) (id : NodeId) : (g.lineage id).getLast? = some (g.root id) :=
  Shifted.getLast?_lineageFrom g id.index id

theorem root_eq_of_lineage_eq {other : NodeId}
    (hlast : (h.lineage id).getLast? = (g.lineage other).getLast?) :
    h.root id = g.root other := by
  rw [getLast?_lineage, getLast?_lineage] at hlast
  exact Option.some.inj hlast

theorem root_of_origin?_none (h : g.origin? id = none) : g.root id = id := by
  have hlast := getLast?_lineage g id
  rw [lineage_of_origin?_none h] at hlast
  exact (Option.some.inj hlast).symm

namespace Ordered

theorem root_congr (hg : g.Ordered)
    (hsame : ∀ other : NodeId, other.index ≤ id.index → h.origin? other = g.origin? other) :
    h.root id = g.root id :=
  root_eq_of_lineage_eq (by rw [hg.lineage_congr hsame])

theorem root_of_le (hg : g.Ordered) (hle : g ≤ h) (hid : g.contains id) : h.root id = g.root id :=
  root_eq_of_lineage_eq (by rw [hg.lineage_of_le hle hid])

/-- **A copy has the root** of what it was copied from. -/
theorem root_of_origin? (hg : g.Ordered) (horigin : g.origin? id = some origin) :
    g.root id = g.root origin := by
  refine root_eq_of_lineage_eq ?_
  rw [hg.lineage_of_origin? horigin, List.getLast?_cons, getLast?_lineage]
  rfl

/-- A root does not stand behind its node. -/
theorem index_root_le (hg : g.Ordered) (id : NodeId) : (g.root id).index ≤ id.index := by
  obtain ⟨i⟩ := id
  -- on the position of the node: an origin stands before it
  induction i using Nat.strongRecOn with
  | ind i ih =>
    cases horigin : g.origin? ⟨i⟩ with
    | none => exact Nat.le_of_eq (congrArg NodeId.index (root_of_origin?_none horigin))
    | some origin =>
      have hlt : origin.index < i := hg ⟨i⟩ origin horigin
      rw [hg.root_of_origin? horigin]
      exact Nat.le_trans (ih origin.index hlt) (Nat.le_of_lt hlt)

theorem contains_root (hg : g.Ordered) (hid : g.contains id) : g.contains (g.root id) :=
  contains_of_index_le hid (hg.index_root_le id)

end Ordered

/-! ### Parts and edits -/

theorem Supplied.ordered (hs : g.Supplied h) (hg : g.Ordered) : h.Ordered := by
  induction hs with
  | refl => exact hg
  | create shape _ _ ih => exact ih.push fun _ h => nomatch h
  | derive id shape known _ _ _ ih =>
    exact ih.push fun origin h => Option.some.inj h ▸ known

theorem Edited.ordered {container updated : NodeId} {i : Instruction}
    (he : g.Edited container i h updated) (hg : g.Ordered) : h.Ordered := by
  have hcontainer := he.contains
  cases he with
  | mk supplied found collection makes changed =>
    exact (supplied.ordered hg).push fun origin h =>
      Option.some.inj h ▸ contains_of_le supplied.extends hcontainer

end SchemaProjection.Graph
