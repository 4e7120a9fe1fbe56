import SchemaProjection.Projection.Declarations
import Std.Data.TreeMap.Lemmas

/-!
# The memo of a run

A `Memo` holds what is known about the applications of projections in a run. An application is
identified by its `MemoKey`: the projection with its direction, the node and the arguments.

The keys are kept in their lexicographic order (`MemoKey.compare`), so that a lookup compares few
of them. The order is total and tells different keys apart, hence a memo is a finite map: a lookup
finds the entry that was inserted last for exactly that key (`Memo.find?_insert`).
-/

namespace SchemaProjection

/-- What identifies an application of a projection within a run. -/
structure MemoKey where
  node : NodeId
  projection : ProjectionId
  direction : Direction
  args : List Value
deriving DecidableEq

namespace MemoKey

/-- The lexicographic order of the components. -/
protected def compare (a b : MemoKey) : Ordering :=
  (Ord.compare a.node b.node).then <|
    (Ord.compare a.projection b.projection).then <|
      (Ord.compare a.direction b.direction).then <| Ord.compare a.args b.args

instance : Std.TransCmp MemoKey.compare :=
  inferInstanceAs (Std.TransCmp (compareLex (compareOn node) (compareLex (compareOn projection)
    (compareLex (compareOn direction) (compareOn args)))))

instance : Std.LawfulEqCmp MemoKey.compare where
  eq_of_compare {a b} h := by
    simp only [MemoKey.compare, Ordering.then_eq_eq, Std.LawfulEqOrd.compare_eq_iff_eq] at h
    obtain ⟨hnode, hprojection, hdirection, hargs⟩ := h
    cases a
    cases b
    simp_all

end MemoKey

/-- What is known about an application. -/
inductive MemoEntry
  | active
  | done (result : NodeId)
deriving DecidableEq

/-- What is known about the applications of a run. -/
structure Memo where
  entries : Std.TreeMap MemoKey MemoEntry MemoKey.compare

namespace Memo

/-- Nothing is known at the beginning. -/
def empty : Memo := ⟨∅⟩

/-- What is known about an application. -/
def find? (m : Memo) (key : MemoKey) : Option MemoEntry := m.entries[key]?

/-- Notes an entry, in place of an earlier one for the same key. -/
def insert (m : Memo) (key : MemoKey) (entry : MemoEntry) : Memo := ⟨m.entries.insert key entry⟩

@[simp] theorem find?_empty (key : MemoKey) : empty.find? key = none := by
  simp [empty, find?]

/-- An inserted entry is found under its own key, and no other lookup changes. -/
theorem find?_insert (m : Memo) (key : MemoKey) (entry : MemoEntry) (other : MemoKey) :
    (m.insert key entry).find? other = if key = other then some entry else m.find? other := by
  simp [find?, insert, Std.TreeMap.getElem?_insert, Std.LawfulEqCmp.compare_eq_iff_eq]

end Memo

end SchemaProjection
