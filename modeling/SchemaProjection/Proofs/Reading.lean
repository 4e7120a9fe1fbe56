import SchemaProjection.Proofs.Graph.Lineages
import SchemaProjection.Proofs.Metadata

/-!
# Metadata read along origins

What is read of a node is its own entry, or else what is read of its origin
(`Metadata.read?_of_origin?`). So it depends only on the entries of the nodes that come before it
(`Metadata.read?_of_le`), and an entry that is written to one of these shows if no node in between
has one of its own (`Metadata.read?_set`).
-/

namespace SchemaProjection

/-- A lineage begins with its node. -/
theorem Graph.exists_lineage (g : Graph) (id : NodeId) : ∃ older, g.lineage id = id :: older := by
  rw [lineage]
  cases id.index with
  | zero => exact ⟨[], rfl⟩
  | succ n =>
    rw [lineageFrom]
    cases g.origin? id with
    | none => exact ⟨[], rfl⟩
    | some origin => exact ⟨_, rfl⟩

/-- What follows in a lineage is a node only if the node that it begins with is one. -/
theorem Graph.contains_of_mem_lineage {g : Graph} {id node : NodeId} (h : node ∈ g.lineage id)
    (hnode : g.contains node) : g.contains id := by
  cases horigin : g.origin? id with
  | none =>
    rw [lineage_of_origin?_none horigin] at h
    exact List.mem_singleton.mp h ▸ hnode
  | some origin => exact contains_of_origin? horigin

namespace Metadata

variable {g h : Graph} {m after : Metadata} {key : Key} {id node origin : NodeId} {value : Value}

/-- **What is read of a copy** is its own entry, or else what is read of its origin. -/
theorem read?_of_origin? (hg : g.Ordered) (horigin : g.origin? id = some origin) :
    m.read? g key id = (m.own? key id).or (m.read? g key origin) := by
  rw [read?, hg.lineage_of_origin? horigin, List.findSome?_cons, read?]
  cases m.own? key id <;> rfl

theorem read?_of_origin?_none (horigin : g.origin? id = none) :
    m.read? g key id = m.own? key id := by
  rw [read?, Graph.lineage_of_origin?_none horigin, List.findSome?_singleton]

/-- **What is read of an old node** depends on the entries of old nodes only. -/
theorem read?_of_le (hg : g.Ordered) (hle : g ≤ h)
    (hown : ∀ id, g.contains id → after.own? key id = m.own? key id) (hid : g.contains id) :
    after.read? h key id = m.read? g key id := by
  rw [read?, hg.lineage_of_le hle hid, ← read?]
  obtain ⟨i⟩ := id
  -- on the position of the node: an origin stands before it
  induction i using Nat.strongRecOn with
  | ind i ih =>
    cases horigin : g.origin? ⟨i⟩ with
    | none => rw [read?_of_origin?_none horigin, read?_of_origin?_none horigin, hown _ hid]
    | some origin =>
      have hlt : origin.index < i := hg ⟨i⟩ origin horigin
      have hknown : g.contains origin := Graph.contains_of_index_le hid (Nat.le_of_lt hlt)
      rw [read?_of_origin? hg horigin, read?_of_origin? hg horigin, hown _ hid,
        ih origin.index hlt hknown]

/-! ### Written entries -/

/-- A node is among others, and none of those before it has an entry. -/
def Uncovered (m : Metadata) (key : Key) (node : NodeId) (ids : List NodeId) : Prop :=
  ∃ newer older, ids = newer ++ node :: older ∧ ∀ v ∈ newer, m.own? key v = none

theorem uncovered_self (m : Metadata) (g : Graph) (key : Key) (id : NodeId) :
    m.Uncovered key id (g.lineage id) := by
  obtain ⟨older, holder⟩ := g.exists_lineage id
  exact ⟨[], older, holder, fun _ hv => nomatch hv⟩

private theorem findSome?_set (m : Metadata) (key : Key) (node : NodeId) (value : Value)
    (ids : List NodeId) :
    (m.Uncovered key node ids → ids.findSome? ((m.set key node value).own? key) = some value) ∧
      (¬ m.Uncovered key node ids →
        ids.findSome? ((m.set key node value).own? key) = ids.findSome? (m.own? key)) := by
  induction ids with
  | nil =>
    refine ⟨fun ⟨newer, older, hids, _⟩ => ?_, fun _ => rfl⟩
    cases newer <;> cases hids
  | cons head rest ih =>
    rw [List.findSome?_cons, List.findSome?_cons]
    by_cases hhead : head = node
    · -- the written entry comes first
      subst hhead
      rw [own?_set, if_pos ⟨rfl, rfl⟩]
      exact ⟨fun _ => rfl, fun h => absurd ⟨[], rest, rfl, fun _ hv => nomatch hv⟩ h⟩
    · rw [own?_set, if_neg fun h => hhead h.2]
      cases hentry : m.own? key head with
      | none =>
        -- the first node has no entry, so all depends on the others
        refine ⟨fun ⟨newer, older, hids, hnone⟩ => ih.1 ?_, fun h => ih.2 fun hrest => h ?_⟩
        · cases newer with
          | nil => exact absurd (List.cons.inj hids).1 hhead
          | cons v newer =>
            exact ⟨newer, older, (List.cons.inj hids).2,
              fun v hv => hnone v (List.mem_cons_of_mem _ hv)⟩
        · obtain ⟨newer, older, rfl, hnone⟩ := hrest
          exact ⟨head :: newer, older, rfl, List.forall_mem_cons.mpr ⟨hentry, hnone⟩⟩
      | some w =>
        refine ⟨fun ⟨newer, older, hids, hnone⟩ => ?_, fun _ => rfl⟩
        cases newer with
        | nil => exact absurd (List.cons.inj hids).1 hhead
        | cons v newer =>
          have hfirst := hnone v List.mem_cons_self
          rw [← (List.cons.inj hids).1, hentry] at hfirst
          cases hfirst

/-- **An entry shows** at the nodes in whose lineages it is uncovered. -/
theorem read?_set (h : m.Uncovered key node (g.lineage id)) (value : Value) :
    (m.set key node value).read? g key id = some value :=
  (findSome?_set m key node value _).1 h

/-- **It shows nowhere else.** -/
theorem read?_set_of_not (h : ¬ m.Uncovered key node (g.lineage id)) (value : Value) :
    (m.set key node value).read? g key id = m.read? g key id :=
  (findSome?_set m key node value _).2 h

end Metadata

end SchemaProjection
