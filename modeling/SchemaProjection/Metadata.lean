import SchemaProjection.Graph.Lineage

/-!
# Metadata

Host functions keep what they know about nodes in tables beside the graph. Each table belongs
to a key, and keys are handed out once (`Metadata.KeySupply`), so that modules which know nothing
of each other never share a table.

An entry is written for exactly one node. It is read along the lineage (`Metadata.read?`): a
derived node shows the entry of the node it comes from until it gets one of its own.
-/

namespace SchemaProjection

/-- The key of a table. -/
structure Metadata.Key where
  token : Nat
deriving DecidableEq, Inhabited

/-- The keys that were not handed out yet. -/
structure Metadata.KeySupply where
  next : Nat
deriving Inhabited

/-- Takes a key that no one else has. -/
def Metadata.freshKey : StateM Metadata.KeySupply Metadata.Key :=
  modifyGet fun supply => (⟨supply.next⟩, ⟨supply.next + 1⟩)

/-- The entries of a table, in the order of their nodes. -/
abbrev Metadata.Table := List (NodeId × Value)

/-- A table with the entry of one node set. -/
def Metadata.Table.insert (id : NodeId) (value : Value) : Metadata.Table → Metadata.Table
  | [] => [(id, value)]
  | (i, v) :: rest =>
    if id < i then (id, value) :: (i, v) :: rest
    else if id = i then (id, value) :: rest
    else (i, v) :: insert id value rest

/-- The tables of all keys. -/
structure Metadata where
  tables : List (Metadata.Key × Metadata.Table)
deriving DecidableEq, Inhabited

namespace Metadata

def empty : Metadata := ⟨[]⟩

/-- The entries under a key. -/
def entries (m : Metadata) (key : Key) : Table := (m.tables.lookup key).getD []

/-- The metadata with one table replaced. -/
def setTable (m : Metadata) (key : Key) (table : Table) : Metadata :=
  if (m.tables.lookup key).isSome then
    ⟨m.tables.map fun t => if t.1 = key then (key, table) else t⟩
  else ⟨m.tables ++ [(key, table)]⟩

/-- Writes the entry of a node. -/
def set (m : Metadata) (key : Key) (id : NodeId) (value : Value) : Metadata :=
  m.setTable key ((m.entries key).insert id value)

/-- The entry of exactly this node. -/
def own? (m : Metadata) (key : Key) (id : NodeId) : Option Value := (m.entries key).lookup id

/-- Removes the entry of a node. -/
def delete (m : Metadata) (key : Key) (id : NodeId) : Metadata :=
  m.setTable key ((m.entries key).filter (·.1 ≠ id))

/-- The entry of the first node with one in the lineage of a node. -/
def read? (m : Metadata) (g : Graph) (key : Key) (id : NodeId) : Option Value :=
  (g.lineage id).findSome? (m.own? key)

/-- Drops the entries of all nodes from a position on. -/
def discardFrom (m : Metadata) (size : Nat) : Metadata :=
  ⟨m.tables.map fun (key, table) => (key, table.filter (·.1.index < size))⟩

end Metadata

end SchemaProjection
