import Mathlib.Order.Defs.PartialOrder
import SchemaProjection.Graph.Building
import SchemaProjection.Graph.Lineage

/-!
# Extension of graphs

A graph `h` **extends** a graph `g`, written `g ≤ h`, if the nodes of `g` are the first nodes of
`h`, at the same positions and with the same origins and shapes, and both have the same
declarations. Whatever can be read off a node of `g` reads the same in `h`
(`Graph.node?_of_le` and the lemmas after it).

Two operations matter for runs:

* allocating a node extends the graph (`Graph.le_push`);
* releasing nodes undoes an extension: what is left of `h` after truncation to the size of `g` is
  `g` itself (`Graph.truncate_of_le`), and a truncation to a larger size still extends `g`
  (`Graph.le_truncate`).
-/

namespace SchemaProjection

namespace Graph

/-- **Extension.** The nodes of the first graph come first in the second, and the declarations
agree. -/
structure Extends (g h : Graph) : Prop where
  nodes : g.nodes.toList <+: h.nodes.toList
  globals : h.globals = g.globals

@[ext] theorem ext {g h : Graph} (hnodes : g.nodes = h.nodes) (hglobals : g.globals = h.globals) :
    g = h := by
  cases g; cases h; cases hnodes; cases hglobals; rfl

instance : PartialOrder Graph where
  le := Extends
  le_refl g := ⟨List.prefix_rfl, rfl⟩
  le_trans _ _ _ h₁ h₂ := ⟨h₁.nodes.trans h₂.nodes, h₂.globals.trans h₁.globals⟩
  le_antisymm g h h₁ h₂ := by
    refine ext (Array.toList_inj.mp ?_) h₂.globals
    exact h₁.nodes.eq_of_length_le h₂.nodes.length_le

variable {g h : Graph} {id : NodeId}

/-! ### Reading -/

theorem contains_iff : g.contains id ↔ id.index < g.size := by
  simp [contains]

theorem node?_eq_none_iff : g.node? id = none ↔ g.size ≤ id.index := by
  simp [node?, size]

/-- A node outside the graph reads as `unknown`, which has none of the parts that an edit
changes. -/
theorem shape_of_size_le (hid : g.size ≤ id.index) : g.shape id = .intrinsic .unknown := by
  rw [shape, node?_eq_none_iff.mpr hid]
  rfl

theorem size_le_of_le (hle : g ≤ h) : g.size ≤ h.size := by
  have hlen := hle.nodes.length_le
  simpa [size] using hlen

theorem contains_of_le (hle : g ≤ h) (hid : g.contains id) : h.contains id := by
  rw [contains_iff] at hid ⊢
  exact Nat.lt_of_lt_of_le hid (size_le_of_le hle)

/-- **What a node is does not change** when the graph is extended. -/
theorem node?_of_le (hle : g ≤ h) (hid : g.contains id) : h.node? id = g.node? id := by
  rw [contains_iff] at hid
  obtain ⟨rest, hrest⟩ := hle.nodes
  rw [node?, node?, ← Array.getElem?_toList, ← Array.getElem?_toList, ← hrest]
  exact List.getElem?_append_left (by simpa [size] using hid)

theorem shape_of_le (hle : g ≤ h) (hid : g.contains id) : h.shape id = g.shape id := by
  rw [shape, shape, node?_of_le hle hid]

/-! ### Allocation and release -/

@[simp] theorem size_push (g : Graph) (node : Node) : (g.push node).size = g.size + 1 := by
  simp [size, push]

theorem node?_push (g : Graph) (node : Node) (id : NodeId) :
    (g.push node).node? id = if id.index = g.size then some node else g.node? id := by
  rw [node?, push, Array.getElem?_push]
  rfl

theorem le_push (g : Graph) (node : Node) : g ≤ g.push node :=
  ⟨⟨[node], by simp [push]⟩, rfl⟩

@[simp] theorem size_truncate (g : Graph) (n : Nat) : (g.truncate n).size = min n g.size := by
  simp [size, truncate]

theorem toList_truncate (g : Graph) (n : Nat) :
    (g.truncate n).nodes.toList = g.nodes.toList.take n := by
  simp [truncate]

theorem node?_truncate (g : Graph) (n : Nat) (id : NodeId) :
    (g.truncate n).node? id = if id.index < n then g.node? id else none := by
  rw [node?, ← Array.getElem?_toList, toList_truncate, List.getElem?_take, Array.getElem?_toList]
  rfl

theorem truncate_le (g : Graph) (n : Nat) : g.truncate n ≤ g := by
  refine ⟨?_, rfl⟩
  rw [toList_truncate]
  exact List.take_prefix n _

theorem le_truncate (hle : g ≤ h) {n : Nat} (hn : g.size ≤ n) : g ≤ h.truncate n := by
  refine ⟨?_, hle.globals⟩
  rw [toList_truncate]
  exact List.prefix_take_iff.mpr ⟨hle.nodes, by simpa [size] using hn⟩

/-- Nothing is released if nothing stands behind the position. -/
theorem truncate_of_size_le {n : Nat} (h : g.size ≤ n) : g.truncate n = g := by
  refine ext (Array.toList_inj.mp ?_) rfl
  rw [toList_truncate, List.take_of_length_le]
  simpa [size] using h

/-- A node at the end does not show before the end. -/
theorem truncate_push {n : Nat} (h : n ≤ g.size) (node : Node) :
    (g.push node).truncate n = g.truncate n := by
  refine ext (Array.toList_inj.mp ?_) rfl
  rw [toList_truncate, toList_truncate]
  simp only [push, Array.toList_push]
  exact List.take_append_of_le_length (by simpa [size] using h)

/-- **Releasing undoes an extension.** -/
theorem truncate_of_le (hle : g ≤ h) : h.truncate g.size = g := by
  have hsize : (h.truncate g.size).size = g.size := by
    rw [size_truncate]
    exact Nat.min_eq_left (size_le_of_le hle)
  have hprefix : g ≤ h.truncate g.size := le_truncate hle (Nat.le_refl _)
  have hnodes := hprefix.nodes.eq_of_length_le (by simpa [size] using Nat.le_of_eq hsize)
  exact ext (Array.toList_inj.mp hnodes.symm) hle.globals

end Graph

/-- The graph that an action leaves, whether it succeeds or fails. -/
def Building.graphAfter {α : Type} (action : Building α) (g : Graph) : Graph :=
  match action.run g with
  | .ok _ h => h
  | .error _ h => h

end SchemaProjection
