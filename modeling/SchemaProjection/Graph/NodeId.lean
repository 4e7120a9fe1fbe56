/-!
# Identities of nodes

A node of a type graph is named by its position: ids are handed out in the order of
allocation, and an id that was released is handed out again.
-/

namespace SchemaProjection

/-- The position of a node in its graph. -/
structure NodeId where
  index : Nat
deriving DecidableEq, Inhabited

namespace NodeId

/-- The text of an id. -/
def text (id : NodeId) : String := s!"#{id.index}"

instance : ToString NodeId := ⟨text⟩

instance : Ord NodeId := ⟨fun a b => compare a.index b.index⟩

instance : Std.TransOrd NodeId := inferInstanceAs (Std.TransCmp (compareOn NodeId.index))

instance : Std.LawfulEqOrd NodeId where
  eq_of_compare {a b} h := by
    cases a
    cases b
    exact congrArg NodeId.mk (Std.LawfulEqOrd.eq_of_compare (α := Nat) h)

instance : LT NodeId := ⟨fun a b => a.index < b.index⟩

instance : DecidableLT NodeId := fun a b => inferInstanceAs (Decidable (a.index < b.index))

theorem lt_def {a b : NodeId} : a < b ↔ a.index < b.index := Iff.rfl

end NodeId

end SchemaProjection
