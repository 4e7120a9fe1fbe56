import SchemaProjection.Graph.NodeId

/-!
# Tables of names

A `NameTable` assigns nodes to names, keeps its entries in the order in which the names were
first inserted and holds each name once. Members of containers and the declarations of a graph
are such tables.
-/

namespace SchemaProjection

/-- An ordered table from distinct names to nodes. -/
structure NameTable where
  entries : List (String × NodeId)
  nodup_keys : (entries.map Prod.fst).Nodup
deriving DecidableEq

namespace NameTable

@[ext] theorem ext {a b : NameTable} (h : a.entries = b.entries) : a = b := by
  cases a; cases b; cases h; rfl

def empty : NameTable := ⟨[], List.nodup_nil⟩

instance : Inhabited NameTable := ⟨empty⟩

/-- The names in order. -/
def keys (t : NameTable) : List String := t.entries.map Prod.fst

/-- The nodes in the order of their names. -/
def values (t : NameTable) : List NodeId := t.entries.map Prod.snd

def size (t : NameTable) : Nat := t.entries.length

/-- The node of a name. -/
def get? (t : NameTable) (name : String) : Option NodeId := t.entries.lookup name

def contains (t : NameTable) (name : String) : Bool := t.keys.contains name

/-- The entries with the node of one name replaced. -/
def replaceIn (name : String) (id : NodeId) (entries : List (String × NodeId)) :
    List (String × NodeId) :=
  entries.map fun e => if e.1 = name then (name, id) else e

theorem keys_replaceIn (name : String) (id : NodeId) (entries : List (String × NodeId)) :
    (replaceIn name id entries).map Prod.fst = entries.map Prod.fst := by
  induction entries with
  | nil => rfl
  | cons e rest ih =>
    simp only [replaceIn, List.map_cons, List.map_map] at ih ⊢
    by_cases h : e.1 = name <;> simp_all

/-- The table with the node of a present name replaced; an absent name changes nothing. -/
def replace (t : NameTable) (name : String) (id : NodeId) : NameTable :=
  ⟨replaceIn name id t.entries, by rw [keys_replaceIn]; exact t.nodup_keys⟩

/-- The table with a name assigned to a node. A new name goes to the end, a present one keeps its
place. -/
def insert (t : NameTable) (name : String) (id : NodeId) : NameTable :=
  if h : name ∈ t.keys then t.replace name id
  else
    ⟨t.entries ++ [(name, id)], by
      have hd : ∀ a ∈ t.entries.map Prod.fst, ∀ b ∈ [name], a ≠ b := by
        intro a ha b hb hab
        have : b = name := by simpa using hb
        exact h (by rw [keys, ← this, ← hab]; exact ha)
      simpa [List.map_append, List.nodup_append] using ⟨t.nodup_keys, by simpa using hd⟩⟩

/-- The table without a name. The others keep their order. -/
def erase (t : NameTable) (name : String) : NameTable :=
  ⟨t.entries.filter fun e => e.1 ≠ name,
    t.nodup_keys.sublist (List.Sublist.map _ List.filter_sublist)⟩

/-- The table of a list of entries; of two with one name the later node stands in the earlier
place. -/
def ofList (entries : List (String × NodeId)) : NameTable :=
  entries.foldl (fun t e => t.insert e.1 e.2) empty

/-- The table with a name changed in place, together with its node. -/
def rename (t : NameTable) (old new : String) (id : NodeId) : NameTable :=
  ofList (t.entries.map fun e => if e.1 = old then (new, id) else e)

end NameTable

end SchemaProjection
