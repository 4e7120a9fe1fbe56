import SchemaProjection.Proofs.Graph.Derivation

/-!
# Renumbered graphs

A graph that has got more nodes in the middle reads the same as before, up to the ids of the nodes
behind them. `Shift` is the renumbering that makes room, and `Graph.Shifted σ g h` says that `h` is
such a graph for `g`: every node of `g` is found in `h` under its new id, with all that it refers to
renumbered, and the nodes before the gap, among them all declarations, keep their ids.

Reading commutes with the renumbering (`Graph.Shifted.shape_move` and the lemmas after it), and
lineages do too, though a node behind the gap stands further from the beginning
(`Graph.Shifted.lineage_move`). The first graph is closed, so that all that is read there has a
place in the second.
-/

namespace SchemaProjection

/-- **The renumbering that makes room.** Ids from a position on move up. -/
structure Shift where
  /-- The first position that moves. -/
  mark : Nat
  /-- How far it moves. -/
  gap : Nat

namespace Shift

variable (σ : Shift) {a b id : NodeId}

/-- The new id of a node. -/
def move (id : NodeId) : NodeId := if id.index < σ.mark then id else ⟨id.index + σ.gap⟩

theorem index_move (id : NodeId) :
    (σ.move id).index = if id.index < σ.mark then id.index else id.index + σ.gap := by
  unfold move
  split <;> rfl

theorem move_of_lt (h : id.index < σ.mark) : σ.move id = id := if_pos h

theorem move_injective : Function.Injective σ.move := by
  intro a b h
  have hindex : (σ.move a).index = (σ.move b).index := by rw [h]
  rw [index_move, index_move] at hindex
  obtain ⟨i⟩ := a
  obtain ⟨j⟩ := b
  refine NodeId.mk.injEq i j ▸ ?_
  dsimp only at hindex
  -- an id that moves lands behind all that stay
  split at hindex <;> split at hindex <;> omega

/-- The order of ids stays. -/
theorem index_move_lt (h : a.index < b.index) : (σ.move a).index < (σ.move b).index := by
  rw [index_move, index_move]
  split <;> split <;> omega

/-- Positions behind the gap move along. -/
theorem index_move_lt_add (id : NodeId) {n : Nat} (h : σ.mark ≤ n) :
    (σ.move id).index < n + σ.gap ↔ id.index < n := by
  rw [index_move]
  split <;> omega

theorem mark_le_index_move : σ.mark + σ.gap ≤ (σ.move id).index ↔ σ.mark ≤ id.index := by
  rw [index_move]
  split <;> omega

end Shift

/-! ### Renumbered tables and shapes -/

namespace NameTable

variable (ρ : NodeId → NodeId) (t : NameTable) (name : String) (id : NodeId)

theorem entries_renumber :
    (Refers.renumber ρ t).entries = t.entries.map fun e => (e.1, ρ e.2) := rfl

theorem keys_renumber : (Refers.renumber ρ t).keys = t.keys := by
  simp [keys, entries_renumber]

theorem contains_renumber : (Refers.renumber ρ t).contains name = t.contains name := by
  rw [contains, contains, keys_renumber]

theorem values_renumber : (Refers.renumber ρ t).values = t.values.map ρ := by
  simp [values, entries_renumber]

theorem get?_renumber : (Refers.renumber ρ t).get? name = (t.get? name).map ρ := by
  rw [get?, get?, entries_renumber]
  induction t.entries with
  | nil => rfl
  | cons e rest ih =>
    rw [List.map_cons, List.lookup_cons, List.lookup_cons, ih]
    cases name == e.1 <;> rfl

theorem replace_renumber :
    (Refers.renumber ρ t).replace name (ρ id) = Refers.renumber ρ (t.replace name id) := by
  refine ext ?_
  simp only [replace, replaceIn, entries_renumber, List.map_map]
  refine List.map_congr_left fun e _ => ?_
  simp only [Function.comp]
  split <;> rfl

theorem insert_renumber :
    (Refers.renumber ρ t).insert name (ρ id) = Refers.renumber ρ (t.insert name id) := by
  by_cases h : name ∈ t.keys
  · have hnew : name ∈ (Refers.renumber ρ t).keys := (keys_renumber ρ t).symm ▸ h
    rw [insert, insert, dif_pos h, dif_pos hnew, replace_renumber]
  · have hnew : name ∉ (Refers.renumber ρ t).keys := (keys_renumber ρ t).symm ▸ h
    rw [insert, insert, dif_neg h, dif_neg hnew]
    refine ext ?_
    simp [entries_renumber]

theorem erase_renumber : (Refers.renumber ρ t).erase name = Refers.renumber ρ (t.erase name) := by
  refine ext ?_
  simp only [erase, entries_renumber, List.filter_map]
  rfl

theorem ofList_renumber (entries : List (String × NodeId)) :
    ofList (entries.map fun e => (e.1, ρ e.2)) = Refers.renumber ρ (ofList entries) := by
  have hfold : ∀ t : NameTable,
      (entries.map fun e => (e.1, ρ e.2)).foldl (fun t e => t.insert e.1 e.2)
          (Refers.renumber ρ t) =
        Refers.renumber ρ (entries.foldl (fun t e => t.insert e.1 e.2) t) := by
    induction entries with
    | nil => exact fun t => rfl
    | cons e rest ih =>
      intro t
      rw [List.map_cons, List.foldl_cons, List.foldl_cons, insert_renumber, ih]
  exact hfold empty

theorem rename_renumber (old new : String) :
    (Refers.renumber ρ t).rename old new (ρ id) = Refers.renumber ρ (t.rename old new id) := by
  rw [rename, rename, ← ofList_renumber, entries_renumber, List.map_map, List.map_map]
  refine congrArg ofList (List.map_congr_left fun e _ => ?_)
  simp only [Function.comp]
  split <;> rfl

end NameTable

namespace Shape

variable (ρ : NodeId → NodeId) (shape : Shape)

theorem kind_renumber : (Refers.renumber ρ shape).kind = shape.kind := by cases shape <;> rfl

theorem name?_renumber : (Refers.renumber ρ shape).name? = shape.name? := by cases shape <;> rfl

theorem collection?_renumber : (Refers.renumber ρ shape).collection? = shape.collection? := by
  cases shape <;> rfl

theorem members?_renumber :
    (Refers.renumber ρ shape).members? = shape.members?.map (Refers.renumber ρ) := by
  cases shape <;> rfl

theorem membersIn?_renumber (collection : Collection) :
    (Refers.renumber ρ shape).membersIn? collection =
      (shape.membersIn? collection).map (Refers.renumber ρ) := by
  rw [membersIn?, membersIn?, collection?_renumber, members?_renumber]
  split <;> rfl

theorem type?_renumber : (Refers.renumber ρ shape).type? = shape.type?.map ρ := by
  cases shape <;> rfl

theorem returnType?_renumber : (Refers.renumber ρ shape).returnType? = shape.returnType?.map ρ := by
  cases shape <;> rfl

theorem parameters?_renumber : (Refers.renumber ρ shape).parameters? = shape.parameters?.map ρ := by
  cases shape <;> rfl

theorem withMembers?_renumber (t : NameTable) :
    (Refers.renumber ρ shape).withMembers? (Refers.renumber ρ t) =
      (shape.withMembers? t).map (Refers.renumber ρ) := by
  cases shape <;> rfl

theorem withName?_renumber (name : String) :
    (Refers.renumber ρ shape).withName? name = (shape.withName? name).map (Refers.renumber ρ) := by
  cases shape <;> rfl

theorem withType?_renumber (type : NodeId) :
    (Refers.renumber ρ shape).withType? (ρ type) =
      (shape.withType? type).map (Refers.renumber ρ) := by
  cases shape <;> rfl

theorem withReturnType?_renumber (type : NodeId) :
    (Refers.renumber ρ shape).withReturnType? (ρ type) =
      (shape.withReturnType? type).map (Refers.renumber ρ) := by
  cases shape <;> rfl

theorem eq_intrinsic_of_renumber {i : Intrinsic} :
    Refers.renumber ρ shape = .intrinsic i ↔ shape = .intrinsic i := by
  cases shape <;> simp [Refers.renumber, Shape.renumber]

end Shape

/-! ### Shifted graphs -/

namespace Graph

/-- **The same graph with more nodes in the middle.** In the first graph, nodes behind the gap refer
only to nodes before them, so that it is closed wherever it may be cut off behind the gap. -/
structure Shifted (σ : Shift) (g h : Graph) : Prop where
  prefixes : ∀ n, σ.mark ≤ n → (g.truncate n).Closed
  size : h.size = g.size + σ.gap
  mark_le : σ.mark ≤ g.size
  node?_move : ∀ id, h.node? (σ.move id) = (g.node? id).map (renumber σ.move)
  globals : h.globals = g.globals
  old_globals : ∀ id ∈ g.globals.values, id.index < σ.mark
  old_intrinsics : ∀ i, (intrinsic i).index < σ.mark

namespace Shifted

variable {σ : Shift} {g h : Graph} {id other : NodeId}

theorem closed (hs : g.Shifted σ h) : g.Closed := by
  have hprefix := hs.prefixes g.size hs.mark_le
  rw [truncate_of_size_le (Nat.le_refl _)] at hprefix
  exact hprefix

theorem nextId_move (hs : g.Shifted σ h) : σ.move g.nextId = h.nextId := by
  rw [Shift.move, nextId, nextId, if_neg (Nat.not_lt.mpr hs.mark_le), hs.size]

theorem contains_move (hs : g.Shifted σ h) : h.contains (σ.move id) = g.contains id := by
  rw [Bool.eq_iff_iff, contains_iff, contains_iff, ← Nat.not_le, ← Nat.not_le,
    ← node?_eq_none_iff, ← node?_eq_none_iff, hs.node?_move, Option.map_eq_none_iff]

theorem shape_move (hs : g.Shifted σ h) : h.shape (σ.move id) = renumber σ.move (g.shape id) := by
  rw [shape, shape, hs.node?_move]
  cases g.node? id <;> rfl

theorem origin?_move (hs : g.Shifted σ h) : h.origin? (σ.move id) = (g.origin? id).map σ.move := by
  rw [origin?, origin?, hs.node?_move]
  cases g.node? id <;> rfl

theorem kind_move (hs : g.Shifted σ h) : h.kind (σ.move id) = g.kind id := by
  rw [kind, kind, hs.shape_move, Shape.kind_renumber]

theorem intrinsic_move (hs : g.Shifted σ h) (i : Intrinsic) :
    σ.move (intrinsic i) = intrinsic i :=
  σ.move_of_lt (hs.old_intrinsics i)

theorem isIntrinsic_move (hs : g.Shifted σ h) (i : Intrinsic) :
    h.isIntrinsic (σ.move id) i = g.isIntrinsic id i := by
  rw [isIntrinsic, isIntrinsic, hs.shape_move, decide_eq_decide]
  exact Shape.eq_intrinsic_of_renumber _ _

/-- Declarations keep their ids. -/
theorem lookup?_move (hs : g.Shifted σ h) (name : String) :
    h.lookup? name = (g.lookup? name).map σ.move := by
  have hglobals : renumber σ.move g.globals = g.globals :=
    renumber_eq_self fun id hid => σ.move_of_lt (hs.old_globals id hid)
  rw [lookup?, lookup?, hs.globals, ← NameTable.get?_renumber, hglobals]

/-- A description does not tell the id of a node that there is. -/
theorem describe_move (hs : g.Shifted σ h) (hid : g.contains id) :
    h.describe (σ.move id) = g.describe id := by
  rw [describe, describe, hs.node?_move]
  cases hnode : g.node? id with
  | none => exact absurd (node?_eq_none_iff.mp hnode) (Nat.not_le.mpr (contains_iff.mp hid))
  | some node =>
    obtain ⟨origin, shape⟩ := node
    cases shape <;> rfl

/-! ### Lineages -/

/-- With enough steps on both sides, following origins leads through the same nodes. -/
theorem lineageFrom_move (hs : g.Shifted σ h) {n k : Nat} (hn : id.index ≤ n)
    (hk : (σ.move id).index ≤ k) :
    h.lineageFrom k (σ.move id) = (g.lineageFrom n id).map σ.move := by
  -- on the steps of the first walk; the second one, from further behind, has no fewer left
  induction n generalizing id k with
  | zero =>
    -- node 0 has no origin, since an origin stands before its node
    have horigin : g.origin? id = none := by
      refine Option.eq_none_iff_forall_ne_some.mpr fun origin horigin => ?_
      obtain ⟨node, hnode, horigin⟩ := Option.bind_eq_some_iff.mp horigin
      have hlt := hs.closed.origin_lt id node origin hnode horigin
      omega
    cases k with
    | zero => rfl
    | succ k =>
      rw [lineageFrom, lineageFrom, hs.origin?_move, horigin]
      rfl
  | succ n ih =>
    cases horigin : g.origin? id with
    | none =>
      cases k with
      | zero => rw [lineageFrom, lineageFrom, horigin]; rfl
      | succ k =>
        rw [lineageFrom, lineageFrom, hs.origin?_move, horigin]
        rfl
    | some origin =>
      obtain ⟨node, hnode, hnodeorigin⟩ := Option.bind_eq_some_iff.mp horigin
      have hlt := hs.closed.origin_lt id node origin hnode hnodeorigin
      have hmove := σ.index_move_lt hlt
      cases k with
      | zero => omega
      | succ k =>
        have hrest := @ih origin k (by omega) (by omega)
        rw [lineageFrom, lineageFrom, hs.origin?_move, horigin]
        show σ.move id :: h.lineageFrom k (σ.move origin) = _
        rw [hrest]
        rfl

theorem lineage_move (hs : g.Shifted σ h) : h.lineage (σ.move id) = (g.lineage id).map σ.move :=
  hs.lineageFrom_move (Nat.le_refl _) (Nat.le_refl _)

/-- The root is where the lineage ends. -/
theorem getLast?_lineageFrom (g : Graph) (n : Nat) (id : NodeId) :
    (g.lineageFrom n id).getLast? = some (g.rootFrom n id) := by
  induction n generalizing id with
  | zero => rfl
  | succ n ih =>
    rw [lineageFrom, rootFrom]
    cases g.origin? id with
    | none => rfl
    | some origin =>
      dsimp only
      rw [List.getLast?_cons, ih origin]
      rfl

theorem root_move (hs : g.Shifted σ h) : h.root (σ.move id) = σ.move (g.root id) := by
  -- the root ends the lineage, and lineages are shifted as a whole
  have hlast : some (h.root (σ.move id)) = some (σ.move (g.root id)) := by
    rw [root, root, ← getLast?_lineageFrom, ← lineage, hs.lineage_move, List.getLast?_map, lineage,
      getLast?_lineageFrom]
    rfl
  exact Option.some.inj hlast

theorem sameLineage_move (hs : g.Shifted σ h) :
    h.sameLineage (σ.move id) (σ.move other) = g.sameLineage id other := by
  rw [sameLineage, sameLineage, hs.root_move, hs.root_move, decide_eq_decide]
  exact σ.move_injective.eq_iff

/-! ### Allocation -/

theorem push (hs : g.Shifted σ h) {node : Node} (hnode : g.Knows node) :
    (g.push node).Shifted σ (h.push (renumber σ.move node)) where
  prefixes n hn := by
    -- a cut at the old end or before does not see the new node
    by_cases hsize : n ≤ g.size
    · rw [truncate_push hsize]
      exact hs.prefixes n hn
    · rw [truncate_of_size_le (by rw [size_push]; omega)]
      exact hs.closed.push hnode
  size := by rw [size_push, size_push, hs.size, Nat.add_right_comm]
  mark_le := Nat.le_trans hs.mark_le (by rw [size_push]; exact Nat.le_succ _)
  node?_move id := by
    have hnext : (σ.move id).index = h.size ↔ id.index = g.size := by
      have hmark := hs.mark_le
      rw [Shift.index_move, hs.size]
      split <;> omega
    rw [node?_push, node?_push, hs.node?_move]
    by_cases hid : id.index = g.size
    · rw [if_pos hid, if_pos (hnext.mpr hid), Option.map_some]
    · rw [if_neg hid, if_neg fun hmoved => hid (hnext.mp hmoved)]
  globals := hs.globals
  old_globals := hs.old_globals
  old_intrinsics := hs.old_intrinsics

/-- Cut off at corresponding positions, two graphs still correspond. -/
theorem truncate (hs : g.Shifted σ h) {n : Nat} (hn : σ.mark ≤ n) :
    (g.truncate n).Shifted σ (h.truncate (n + σ.gap)) where
  prefixes k hk := by
    -- a cut of a cut is the shorter one of the two
    have hcut : (g.truncate n).truncate k = g.truncate (min k n) := by
      refine ext (Array.toList_inj.mp ?_) rfl
      simp only [toList_truncate, List.take_take]
    rw [hcut]
    exact hs.prefixes _ (Nat.le_min.mpr ⟨hk, hn⟩)
  size := by rw [size_truncate, size_truncate, hs.size, Nat.add_min_add_right]
  mark_le := by
    rw [size_truncate]
    exact Nat.le_min.mpr ⟨hn, hs.mark_le⟩
  node?_move id := by
    have hlt := σ.index_move_lt_add id hn
    rw [node?_truncate, node?_truncate, hs.node?_move]
    by_cases hid : id.index < n
    · rw [if_pos hid, if_pos (hlt.mpr hid)]
    · rw [if_neg hid, if_neg fun h => hid (hlt.mp h), Option.map_none]
  globals := hs.globals
  old_globals := hs.old_globals
  old_intrinsics := hs.old_intrinsics

end Shifted

end Graph

/-! ### Actions on shifted graphs -/

namespace Building

variable {σ : Shift} {g h : Graph} {α β : Type} [Refers α] [Refers β]

/-- **Two actions do the same** on a graph and on a shifted one: if the first succeeds the second
does, with the renumbered result and again on shifted graphs, and both fail with the same fault. -/
def Follows (σ : Shift) (g h : Graph) (x y : Building α) : Prop :=
  match x.run g, y.run h with
  | .ok a after, .ok b after' =>
    b = renumber σ.move a ∧ after.Knows a ∧ g ≤ after ∧ after.Shifted σ after'
  | .error fault _, .error fault' _ => fault' = fault
  | _, _ => False

theorem Follows.pure (hs : g.Shifted σ h) {a : α} (ha : g.Knows a) :
    Follows σ g h (pure a) (pure (renumber σ.move a)) :=
  ⟨rfl, ha, le_rfl, hs⟩

theorem Follows.throw (fault : GraphFault) :
    Follows σ g h (throw fault : Building α) (throw fault) := rfl

theorem Follows.bind {x y : Building α} {f f' : α → Building β} (hx : Follows σ g h x y)
    (hf : ∀ a after after', g ≤ after → after.Shifted σ after' → after.Knows a →
      Follows σ after after' (f a) (f' (renumber σ.move a))) :
    Follows σ g h (x >>= f) (y >>= f') := by
  unfold Follows at hx ⊢
  rw [EStateM.run_bind, EStateM.run_bind]
  cases hxg : x.run g with
  | error fault after =>
    cases hyh : y.run h with
    | error fault' after' =>
      rw [hxg, hyh] at hx
      exact hx
    | ok b after' =>
      rw [hxg, hyh] at hx
      exact hx.elim
  | ok a after =>
    cases hyh : y.run h with
    | error fault' after' =>
      rw [hxg, hyh] at hx
      exact hx.elim
    | ok b after' =>
      rw [hxg, hyh] at hx
      obtain ⟨rfl, ha, hle, hs⟩ := hx
      have hrest := hf a after after' hle hs ha
      unfold Follows at hrest
      dsimp only
      split at hrest
      · next c last d last' hfa hfb =>
        rw [hfa, hfb]
        obtain ⟨hc, hknown, hlast, hshifted⟩ := hrest
        exact ⟨hc, hknown, le_trans hle hlast, hshifted⟩
      · next hfa hfb =>
        rw [hfa, hfb]
        exact hrest
      · exact hrest.elim

/-- Each of two actions reads its own graph. -/
theorem Follows.get_bind {f f' : Graph → Building β} (hf : Follows σ g h (f g) (f' h)) :
    Follows σ g h (get >>= f) (get >>= f') := hf

theorem follows_alloc (hs : g.Shifted σ h) (shape : Shape) (origin : Option NodeId)
    (hnode : g.Knows (Node.mk origin shape)) :
    Follows σ g h (alloc shape origin)
      (alloc (renumber σ.move shape) (renumber σ.move origin)) := by
  refine ⟨hs.nextId_move.symm, fun id hid => ?_, Graph.le_push _ _, hs.push hnode⟩
  rw [List.mem_singleton.mp hid, Graph.contains_iff, Graph.size_push]
  exact Nat.lt_succ_self _

/-- A new node without an origin. -/
theorem follows_create (hs : g.Shifted σ h) (shape : Shape) (hshape : g.Knows shape) :
    Follows σ g h (alloc shape none) (alloc (renumber σ.move shape) none) :=
  follows_alloc hs shape none hshape

theorem follows_typeOf (hs : g.Shifted σ h) {v : Value} (hv : g.Knows v) :
    Follows σ g h (typeOf v) (typeOf (renumber σ.move v)) := by
  have hplain : ∀ shape : Shape, shape.refs = [] → g.Knows shape := fun shape hshape id hid => by
    have hid : id ∈ shape.refs := hid
    rw [hshape] at hid
    cases hid
  cases v with
  | type id => exact .pure hs hv
  | absent =>
    have hnull : Follows σ g h (pure (Graph.intrinsic .null))
        (pure (σ.move (Graph.intrinsic .null))) :=
      .pure hs fun id hid => List.mem_singleton.mp hid ▸ hs.closed.intrinsics _
    rw [hs.intrinsic_move] at hnull
    exact hnull
  | bool b => exact follows_create hs _ (hplain _ rfl)
  | number x => exact follows_create hs _ (hplain _ rfl)
  | string s => exact follows_create hs _ (hplain _ rfl)

theorem signature?_move (hs : g.Shifted σ h) (v : Value) :
    signature? h (renumber σ.move v) = (signature? g v).map (renumber σ.move) := by
  cases v with
  | type id =>
    have hmoved : renumber σ.move (Value.type id) = .type (σ.move id) := rfl
    rw [hmoved, signature?, signature?, hs.shape_move]
    cases g.shape id <;> rfl
  | absent | bool | number | string => rfl

theorem knows_signature (hclosed : g.Closed) {v : Value} {signature : NodeId × NodeId}
    (h : signature? g v = some signature) (name : String) :
    g.Knows (Shape.operation name signature.1 signature.2) := by
  cases v with
  | type id =>
    have hshape := hclosed.knows_shape id
    rw [signature?] at h
    split at h
    · next heq =>
      cases h
      rw [heq] at hshape
      exact hshape
    · cases h
  | absent | bool | number | string => cases h

theorem follows_newMember (hs : g.Shifted σ h) (collection : Collection) (name : String)
    {value : Value} (hvalue : g.Knows value) :
    Follows σ g h (newMember collection name value)
      (newMember collection name (renumber σ.move value)) := by
  cases collection with
  | properties =>
    exact (follows_typeOf hs hvalue).bind fun type after after' _ hs htype =>
      follows_create hs (.modelProperty name type false) htype
  | variants =>
    exact (follows_typeOf hs hvalue).bind fun type after after' _ hs htype =>
      follows_create hs (.unionVariant name type) htype
  | operations =>
    refine Follows.get_bind ?_
    rw [signature?_move hs]
    cases hsignature : signature? g value with
    | some signature => exact follows_create hs _ (knows_signature hs.closed hsignature name)
    | none =>
      have hempty : g.Knows (Shape.model none .empty) := fun id hid => nomatch hid
      refine (follows_create hs _ hempty).bind fun parameters after after' hle hs hparameters => ?_
      refine (follows_typeOf hs (hvalue.mono hle)).bind fun type last last' hle hs htype => ?_
      refine follows_create hs (.operation name parameters type) fun id hid => ?_
      rcases List.mem_cons.mp hid with rfl | hid
      · exact hparameters.mono hle _ List.mem_cons_self
      · exact htype id hid
  | members =>
    cases value with
    | absent => exact follows_create hs _ fun id hid => nomatch hid
    | type id => exact follows_create hs _ fun id hid => nomatch hid
    | bool b => exact follows_create hs _ fun id hid => nomatch hid
    | number x => exact follows_create hs _ fun id hid => nomatch hid
    | string s => exact follows_create hs _ fun id hid => nomatch hid

/-! ### Derivations -/

theorem follows_derived (hs : g.Shifted σ h) {id : NodeId} (hid : g.contains id) {shape : Shape}
    (hshape : g.Knows shape) :
    Follows σ g h (alloc shape (some id)) (alloc (renumber σ.move shape) (some (σ.move id))) :=
  follows_alloc hs shape (some id) (Graph.knows_copy hid hshape)

theorem follows_derive (hs : g.Shifted σ h) {id : NodeId} (hid : g.contains id) :
    Follows σ g h (derive id) (derive (σ.move id)) := by
  refine Follows.get_bind ?_
  rw [hs.shape_move]
  exact follows_derived hs hid (hs.closed.knows_shape id)

theorem follows_deriveShape (hs : g.Shifted σ h) {id : NodeId} (hid : g.contains id)
    {shape? : Option Shape} (hshape : ∀ shape, shape? = some shape → g.Knows shape)
    (fault : String → GraphFault) :
    Follows σ g h (deriveShape id shape? fault)
      (deriveShape (σ.move id) (shape?.map (renumber σ.move)) fault) := by
  cases shape? with
  | some shape => exact follows_derived hs hid (hshape shape rfl)
  | none =>
    refine Follows.get_bind ?_
    rw [hs.describe_move hid]
    exact .throw _

theorem follows_deriveMembers (hs : g.Shifted σ h) {container : NodeId}
    (hcontainer : g.contains container) {members : NameTable} (hmembers : g.Knows members) :
    Follows σ g h (deriveMembers container members)
      (deriveMembers (σ.move container) (renumber σ.move members)) := by
  refine Follows.get_bind ?_
  rw [hs.shape_move, Shape.withMembers?_renumber]
  exact follows_deriveShape hs hcontainer (fun _ => hmembers.withMembers?) _

theorem follows_deriveRenamed (hs : g.Shifted σ h) {id : NodeId} (hid : g.contains id)
    (name : String) :
    Follows σ g h (deriveRenamed id name) (deriveRenamed (σ.move id) name) := by
  refine Follows.get_bind ?_
  rw [hs.shape_move, Shape.withName?_renumber]
  exact follows_deriveShape hs hid (fun _ => (hs.closed.knows_shape id).withName?) _

theorem follows_deriveType (hs : g.Shifted σ h) {id type : NodeId} (hid : g.contains id)
    (htype : g.contains type) :
    Follows σ g h (deriveType id type) (deriveType (σ.move id) (σ.move type)) := by
  refine Follows.get_bind ?_
  rw [hs.shape_move, Shape.withType?_renumber]
  exact follows_deriveShape hs hid (fun _ => Graph.knows_withType? htype) _

theorem follows_deriveReturnType (hs : g.Shifted σ h) {id type : NodeId} (hid : g.contains id)
    (htype : g.contains type) :
    Follows σ g h (deriveReturnType id type) (deriveReturnType (σ.move id) (σ.move type)) := by
  refine Follows.get_bind ?_
  rw [hs.shape_move, Shape.withReturnType?_renumber]
  exact follows_deriveShape hs hid
    (fun _ => (hs.closed.knows_shape id).withReturnType? htype) _

theorem follows_deriveMember (hs : g.Shifted σ h) {container : NodeId}
    (hcontainer : g.contains container) (name : String) {member : NodeId}
    (hmember : g.contains member) :
    Follows σ g h (deriveMember container name member)
      (deriveMember (σ.move container) name (σ.move member)) := by
  refine Follows.get_bind ?_
  rw [hs.shape_move, Shape.members?_renumber, hs.describe_move hcontainer]
  cases hmembers : (g.shape container).members? with
  | none => exact .throw _
  | some members =>
    dsimp only [Option.map_some]
    rw [NameTable.contains_renumber]
    by_cases hname : members.contains name
    · rw [if_pos hname, if_pos hname, NameTable.replace_renumber]
      exact follows_deriveMembers hs hcontainer ((hs.closed.knows_members hmembers).replace hmember)
    · rw [if_neg hname, if_neg hname]
      exact .throw _

end Building

end SchemaProjection
