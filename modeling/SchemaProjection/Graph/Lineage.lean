import SchemaProjection.Graph.Basic

/-!
# Lineage

Following origins from a node leads through the nodes it was derived from to the first of
them, its **root**. An origin stands before the nodes derived from it, so a lineage has at most as
many nodes as the position of its first one allows.
-/

namespace SchemaProjection.Graph

/-- A node followed by at most `steps` of its origins. -/
def lineageFrom (g : Graph) : (steps : Nat) → NodeId → List NodeId
  | 0, id => [id]
  | steps + 1, id =>
    match g.origin? id with
    | none => [id]
    | some origin => id :: g.lineageFrom steps origin

/-- A node followed by the nodes it was derived from. -/
def lineage (g : Graph) (id : NodeId) : List NodeId := g.lineageFrom id.index id

/-- The first node of a lineage, reached after at most `steps` origins. -/
def rootFrom (g : Graph) : (steps : Nat) → NodeId → NodeId
  | 0, id => id
  | steps + 1, id =>
    match g.origin? id with
    | none => id
    | some origin => g.rootFrom steps origin

/-- The first node of the lineage of a node. -/
def root (g : Graph) (id : NodeId) : NodeId := g.rootFrom id.index id

/-- Whether two nodes were derived from one. -/
def sameLineage (g : Graph) (a b : NodeId) : Bool := g.root a = g.root b

end SchemaProjection.Graph
