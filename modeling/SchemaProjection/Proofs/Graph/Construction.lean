import Mathlib.Logic.Relation
import SchemaProjection.Proofs.Graph.References

/-!
# Construction of graphs

While a schema is under construction its graph changes in three ways (`Graph.Change`): a node is
allocated, a node becomes a declaration, and a node becomes a member of a container. The last one
changes the container in its place, so the graph is not extended in the sense of `Graph.Extends`;
but no node is ever released, and a closed graph stays closed (`Graph.Change.closed`).

Every builder only makes such changes, also when it fails, provided that it is given nodes of the
graph (`Building.Changes`).
-/

namespace SchemaProjection

namespace Graph

/-- The graph with another shape for one node. -/
def reshape (g : Graph) (id : NodeId) (shape : Shape) : Graph :=
  { g with nodes := g.nodes.modify id.index ({ · with shape }) }

theorem size_reshape (g : Graph) (id : NodeId) (shape : Shape) :
    (g.reshape id shape).size = g.size := by
  simp [size, reshape]

theorem node?_reshape (g : Graph) (id : NodeId) (shape : Shape) (other : NodeId) :
    (g.reshape id shape).node? other =
      if other = id then (g.node? other).map ({ · with shape }) else g.node? other := by
  have hindex : id.index = other.index ↔ other = id := by
    cases id
    cases other
    simp [eq_comm]
  rw [node?, node?, reshape, Array.getElem?_modify]
  simp only [hindex]

/-- **The changes of a graph under construction.** -/
inductive Change : Graph → Graph → Prop
  | create (g : Graph) (node : Node) (known : g.Knows node) : Change g (g.push node)
  | declare (g : Graph) (name : String) (id : NodeId) (known : g.contains id) :
    Change g { g with globals := g.globals.insert name id }
  | attach (g : Graph) (container : NodeId) (name : String) (member : NodeId) (members : NameTable)
    (shape : Shape) (known : g.contains member)
    (found : (g.shape container).members? = some members)
    (changed : (g.shape container).withMembers? (members.insert name member) = some shape) :
    Change g (g.reshape container shape)

/-- Any number of changes, one after the other. -/
def Changed : Graph → Graph → Prop := Relation.ReflTransGen Change

variable {g h : Graph}

theorem Change.size_le (hchange : Change g h) : g.size ≤ h.size := by
  cases hchange with
  | create node known => exact size_le_of_le (le_push _ _)
  | declare name id known => exact Nat.le_refl _
  | attach container name member members shape known found changed =>
    exact Nat.le_of_eq (size_reshape g container shape).symm

theorem Changed.size_le (hchanged : Changed g h) : g.size ≤ h.size := by
  induction hchanged with
  | refl => exact Nat.le_refl _
  | tail _ hlast ih => exact Nat.le_trans ih hlast.size_le

theorem contains_of_size_le {id : NodeId} (hsize : g.size ≤ h.size) (hid : g.contains id) :
    h.contains id := by
  rw [contains_iff] at hid ⊢
  exact Nat.lt_of_lt_of_le hid hsize

theorem Knows.of_size_le {α : Type} [Refers α] {a : α} (ha : g.Knows a) (hsize : g.size ≤ h.size) :
    h.Knows a :=
  fun id hid => contains_of_size_le hsize (ha id hid)

end Graph

/-! ### Members of a changed container -/

theorem NameTable.mem_values_of_get? {t : NameTable} {name : String} {id : NodeId}
    (h : t.get? name = some id) : id ∈ t.values := by
  obtain ⟨front, back, hentries, -⟩ := List.lookup_eq_some_iff.mp h
  refine List.mem_map.mpr ⟨(name, id), ?_, rfl⟩
  rw [hentries]
  exact List.mem_append_right _ List.mem_cons_self

theorem NameTable.mem_values_insert {t : NameTable} {name : String} {id r : NodeId}
    (h : r ∈ (t.insert name id).values) : r = id ∨ r ∈ t.values := by
  unfold insert at h
  split at h
  · obtain ⟨e, he, rfl⟩ := List.mem_map.mp h
    obtain ⟨e', he', heq⟩ := List.mem_map.mp he
    split at heq
    · subst heq
      exact .inl rfl
    · subst heq
      exact .inr (List.mem_map.mpr ⟨e', he', rfl⟩)
  · obtain ⟨e, he, rfl⟩ := List.mem_map.mp h
    rcases List.mem_append.mp he with hold | hnew
    · exact .inr (List.mem_map.mpr ⟨e, hold, rfl⟩)
    · rw [List.mem_singleton] at hnew
      subst hnew
      exact .inl rfl

namespace Shape

variable {shape changed : Shape} {members table : NameTable}

/-- The members of a container are all that it refers to. -/
theorem refs_of_members? (h : shape.members? = some members) : shape.refs = members.values := by
  cases shape <;> simp only [members?, reduceCtorEq, Option.some.injEq] at h <;> subst h <;> rfl

theorem refs_of_withMembers? (h : shape.withMembers? table = some changed) :
    changed.refs = table.values := by
  cases shape <;> simp only [withMembers?, reduceCtorEq, Option.some.injEq] at h <;> subst h <;> rfl

end Shape

namespace Graph

variable {g h : Graph}

/-- A closed graph knows what its nodes refer to. -/
theorem Closed.knows_shape (hclosed : g.Closed) (id : NodeId) : g.Knows (g.shape id) := by
  cases hnode : g.node? id with
  | none =>
    rw [shape_of_size_le (node?_eq_none_iff.mp hnode)]
    intro r hr
    cases hr
  | some node =>
    have hshape : g.shape id = node.shape := by
      rw [shape, hnode]
      rfl
    rw [hshape]
    exact fun r hr => hclosed.nodes id node hnode r (List.mem_append_right _ hr)

/-- **A known node keeps a graph closed.** -/
theorem Closed.push (hclosed : g.Closed) {node : Node} (hnode : g.Knows node) :
    (g.push node).Closed where
  intrinsics i := contains_of_le (le_push _ _) (hclosed.intrinsics i)
  nodes id other hother := by
    rw [node?_push] at hother
    split at hother
    · cases hother
      exact hnode.mono (le_push _ _)
    · exact (hclosed.nodes id other hother).mono (le_push _ _)
  origin_lt id other origin hother horigin := by
    rw [node?_push] at hother
    split at hother
    · next hid =>
      cases hother
      have hknown := hnode origin (List.mem_append_left _ (by simp [horigin, refs]))
      rw [hid]
      exact contains_iff.mp hknown
    · exact hclosed.origin_lt id other origin hother horigin
  globals := hclosed.globals.mono (le_push _ _)

/-- **Construction keeps a graph closed.** -/
theorem Change.closed (hchange : Change g h) (hclosed : g.Closed) : h.Closed := by
  have hsize := hchange.size_le
  cases hchange with
  | create node known => exact hclosed.push known
  | declare name id known =>
    refine ⟨hclosed.intrinsics, hclosed.nodes, hclosed.origin_lt, fun r hr => ?_⟩
    rcases NameTable.mem_values_insert hr with rfl | hold
    · exact known
    · exact hclosed.globals r hold
  -- only the container changes: it gets one more member, and its origin stays
  | attach container name member members shape known found changed =>
    refine ⟨fun i => contains_of_size_le hsize (hclosed.intrinsics i), fun id node hnode => ?_,
      fun id node origin hnode horigin => ?_, hclosed.globals.of_size_le hsize⟩
    · rw [node?_reshape] at hnode
      split at hnode
      · next hid =>
        subst hid
        obtain ⟨old, hold, rfl⟩ := Option.map_eq_some_iff.mp hnode
        refine Knows.of_size_le (fun r hr => ?_) hsize
        rcases List.mem_append.mp hr with horigin | hmember
        · exact hclosed.nodes id old hold r (List.mem_append_left _ horigin)
        have hmember : r ∈ shape.refs := hmember
        rw [Shape.refs_of_withMembers? changed] at hmember
        rcases NameTable.mem_values_insert hmember with rfl | hmember
        · exact known
        · rw [← Shape.refs_of_members? found] at hmember
          exact hclosed.knows_shape id r hmember
      · exact (hclosed.nodes id node hnode).of_size_le hsize
    · rw [node?_reshape] at hnode
      split at hnode
      · obtain ⟨old, hold, rfl⟩ := Option.map_eq_some_iff.mp hnode
        exact hclosed.origin_lt id old origin hold horigin
      · exact hclosed.origin_lt id node origin hnode horigin

theorem Changed.closed (hchanged : Changed g h) (hclosed : g.Closed) : h.Closed := by
  induction hchanged with
  | refl => exact hclosed
  | tail _ hlast ih => exact hlast.closed ih

end Graph

/-! ### Builders -/

namespace Building

variable {α β : Type} [Refers α] [Refers β] {g : Graph}

/-- An action that only makes such changes, and leads to nodes of the graph if it succeeds. -/
def Changes (g : Graph) (action : Building α) : Prop :=
  match action.run g with
  | .ok a h => g.Changed h ∧ h.Knows a
  | .error _ h => g.Changed h

theorem Changes.changed {action : Building α} (h : Changes g action) :
    g.Changed (action.graphAfter g) := by
  unfold Changes at h
  unfold graphAfter
  cases haction : action.run g with
  | ok a after =>
    rw [haction] at h
    exact h.1
  | error fault after =>
    rw [haction] at h
    exact h

theorem Changes.pure {a : α} (ha : g.Knows a) : Changes g (pure a) :=
  ⟨Relation.ReflTransGen.refl, ha⟩

theorem Changes.throw (fault : GraphFault) : Changes g (throw fault : Building α) :=
  Relation.ReflTransGen.refl

theorem Changes.bind {x : Building α} {f : α → Building β} (hx : Changes g x)
    (hf : ∀ a h, g.Changed h → h.Knows a → Changes h (f a)) : Changes g (x >>= f) := by
  unfold Changes at hx ⊢
  rw [EStateM.run_bind]
  cases hx' : x.run g with
  | error e h =>
    rw [hx'] at hx
    exact hx
  | ok a h =>
    rw [hx'] at hx
    have hrest := hf a h hx.1 hx.2
    unfold Changes at hrest
    dsimp only
    cases hf' : (f a).run h with
    | ok b k =>
      rw [hf'] at hrest
      exact ⟨hx.1.trans hrest.1, hrest.2⟩
    | error e k =>
      rw [hf'] at hrest
      exact hx.1.trans hrest

/-- Reading the graph changes nothing. -/
theorem Changes.get_bind {f : Graph → Building β} (h : Changes g (f g)) :
    Changes g (get >>= f) := h

omit [Refers α] in
/-- Nothing follows a fault. -/
theorem Changes.throw_bind (fault : GraphFault) (f : α → Building β) :
    Changes g (MonadExcept.throw fault >>= f) := Relation.ReflTransGen.refl

theorem knows_unit (g : Graph) : g.Knows () := fun _ h => nomatch h

/-- Whether the result of an action is used makes no difference. -/
theorem changes_discard {x : Building α} (hx : Changes g x) : Changes g (discard x) := by
  have hmap : discard x = (fun _ => ()) <$> x := rfl
  rw [hmap, map_eq_pure_bind]
  exact hx.bind fun _ h _ _ => .pure (knows_unit h)

theorem changes_alloc {shape : Shape} {origin : Option NodeId}
    (hnode : g.Knows (Node.mk origin shape)) : Changes g (alloc shape origin) := by
  refine ⟨Relation.ReflTransGen.single (.create g _ hnode), fun id hid => ?_⟩
  rw [List.mem_singleton.mp hid, Graph.contains_iff, Graph.size_push]
  exact Nat.lt_succ_self _

theorem changes_create {shape : Shape} (hshape : g.Knows shape) :
    Changes g (alloc shape none) := changes_alloc hshape

theorem changes_declare {name : String} {shape : Shape} (hshape : g.Knows shape) :
    Changes g (declare name shape) := by
  refine Changes.get_bind ?_
  have hdeclare : Changes g (do
      let id ← alloc shape none
      modify fun g => { g with globals := g.globals.insert name id }
      return id) := by
    refine (changes_create hshape).bind fun id h _ hid => ?_
    have hchange : h.Change { h with globals := h.globals.insert name id } :=
      .declare h name id (hid id List.mem_cons_self)
    exact ⟨Relation.ReflTransGen.single hchange, hid⟩
  split
  · exact .throw_bind _ _
  · exact hdeclare

/-- Attaching a member always succeeds; what is no container stays as it is. -/
theorem run_attach (g : Graph) (container : NodeId) (name : String) (member : NodeId) :
    (attach container name member).run g = .ok ()
      (match (g.shape container).members? with
      | none => g
      | some members =>
        match (g.shape container).withMembers? (members.insert name member) with
        | none => g
        | some shape => g.reshape container shape) := rfl

theorem changes_attach (container : NodeId) (name : String) {member : NodeId}
    (hmember : g.contains member) : Changes g (attach container name member) := by
  rw [Changes, run_attach]
  refine ⟨?_, knows_unit _⟩
  split
  · exact .refl
  · next members hmembers =>
    split
    · exact .refl
    · next shape hshape =>
      exact .single (.attach g container name member members shape hmember hmembers hshape)

theorem changes_addMember (container : NodeId) (name : String) {shape : Shape}
    (hshape : g.Knows shape) : Changes g (addMember container name shape) := by
  refine Changes.get_bind ?_
  have hadd : Changes g (do
      let member ← alloc shape none
      attach container name member
      return member) := by
    refine (changes_create hshape).bind fun member h _ hmember => ?_
    refine (changes_attach container name (hmember member List.mem_cons_self)).bind
      fun _ k hchanged _ => .pure ?_
    exact hmember.of_size_le hchanged.size_le
  split
  · exact .throw _
  · next collection _ =>
    dsimp only
    by_cases hkind : collection.memberKind ≠ shape.kind
    · rw [if_pos hkind]
      exact .throw_bind _ _
    · rw [if_neg hkind]
      split
      · exact .throw_bind _ _
      · exact hadd

theorem changes_operationShape (name : String) {params : List (String × NodeId)}
    {returnType : NodeId} (hparams : ∀ param ∈ params, g.contains param.2)
    (hreturn : g.contains returnType) : Changes g (operationShape name params returnType) := by
  have hempty : g.Knows (Shape.model none .empty) := fun _ h => nomatch h
  refine (changes_create hempty).bind fun parameters h hchanged hparameters => ?_
  -- the parameters become properties of a model of their own
  have hproperties : ∀ (rest : List (String × NodeId)) (h : Graph),
      (∀ param ∈ rest, h.contains param.2) →
      Changes h (rest.forM fun param =>
        discard (property parameters param.1 param.2 false)) := by
    intro rest
    induction rest with
    | nil => exact fun h _ => .pure (knows_unit h)
    | cons param rest ih =>
      intro h hrest
      rw [List.forM]
      refine Changes.bind ?_ fun _ k hchanged _ => ih k fun p hp => ?_
      · have htype : h.Knows (Shape.modelProperty param.1 param.2 false) := by
          intro id hid
          rw [List.mem_singleton.mp hid]
          exact hrest param List.mem_cons_self
        exact changes_discard (changes_addMember parameters param.1 htype)
      · exact Graph.contains_of_size_le hchanged.size_le (hrest p (List.mem_cons_of_mem _ hp))
  have hknown : ∀ param ∈ params, h.contains param.2 := fun param hparam =>
    Graph.contains_of_size_le hchanged.size_le (hparams param hparam)
  refine (hproperties params h hknown).bind fun _ k hchanged' _ => .pure ?_
  intro id hid
  rcases List.mem_cons.mp hid with rfl | hid
  · exact Graph.contains_of_size_le hchanged'.size_le (hparameters id List.mem_cons_self)
  · rw [List.mem_singleton.mp hid]
    exact Graph.contains_of_size_le (Nat.le_trans hchanged.size_le hchanged'.size_le) hreturn

end Building

/-! ### Building a graph -/

/-- A declaration or a new member, as a schema makes them. -/
inductive Construction
  | model (name : String)
  | anonymousModel
  | union (name : String)
  | interface (name : String)
  | enum (name : String)
  | scalar (name : String) (base : Option NodeId)
  | property (container : NodeId) (name : String) (type : NodeId) (optional : Bool)
  | variant (container : NodeId) (name : String) (type : NodeId)
  | enumMember (container : NodeId) (name : String) (value : Option Value)
  | operation (name : String) (params : List (String × NodeId)) (returnType : NodeId)
  | interfaceOperation (container : NodeId) (name : String) (params : List (String × NodeId))
    (returnType : NodeId)
  | stringLiteral (s : String)
  | numericLiteral (x : Double)
  | booleanLiteral (b : Bool)
  | tuple (elements : List NodeId)
  | typeOf (value : Value)

namespace Construction

def action : Construction → Building NodeId
  | .model name => Building.model name
  | .anonymousModel => Building.anonymousModel
  | .union name => Building.union name
  | .interface name => Building.interface name
  | .enum name => Building.enum name
  | .scalar name base => Building.scalar name base
  | .property container name type optional => Building.property container name type optional
  | .variant container name type => Building.variant container name type
  | .enumMember container name value => Building.enumMember container name value
  | .operation name params returnType => Building.operation name params returnType
  | .interfaceOperation container name params returnType =>
    Building.interfaceOperation container name params returnType
  | .stringLiteral s => Building.stringLiteral s
  | .numericLiteral x => Building.numericLiteral x
  | .booleanLiteral b => Building.booleanLiteral b
  | .tuple elements => Building.tuple elements
  | .typeOf value => Building.typeOf value

/-- The nodes that a construction names. -/
def refs : Construction → List NodeId
  | .model _ | .anonymousModel | .union _ | .interface _ | .enum _ => []
  | .scalar _ base => Refers.refs base
  | .property container _ type _ => [container, type]
  | .variant container _ type => [container, type]
  | .enumMember container _ value => container :: Refers.refs value
  | .operation _ params returnType => returnType :: params.map Prod.snd
  | .interfaceOperation container _ params returnType =>
    container :: returnType :: params.map Prod.snd
  | .stringLiteral _ | .numericLiteral _ | .booleanLiteral _ => []
  | .tuple elements => elements
  | .typeOf value => value.refs

end Construction

/-- **Every construction only makes such changes**, given nodes of the graph. -/
theorem Construction.changes {g : Graph} (c : Construction) (h : ∀ id ∈ c.refs, g.contains id)
    (hnull : g.contains (Graph.intrinsic .null)) : Building.Changes g c.action := by
  have hempty : ∀ shape : Shape, shape.refs = [] → g.Knows shape := by
    intro shape hshape id hid
    have hid : id ∈ shape.refs := hid
    rw [hshape] at hid
    cases hid
  cases c with
  | model name => exact Building.changes_declare (hempty _ rfl)
  | anonymousModel => exact Building.changes_create (hempty _ rfl)
  | union name => exact Building.changes_declare (hempty _ rfl)
  | interface name => exact Building.changes_declare (hempty _ rfl)
  | enum name => exact Building.changes_declare (hempty _ rfl)
  | scalar name base => exact Building.changes_declare h
  | property container name type optional =>
    exact Building.changes_addMember container name fun id hid =>
      h id (List.mem_cons_of_mem _ hid)
  | variant container name type =>
    exact Building.changes_addMember container name fun id hid =>
      h id (List.mem_cons_of_mem _ hid)
  | enumMember container name value =>
    exact Building.changes_addMember container name fun id hid =>
      h id (List.mem_cons_of_mem _ hid)
  | operation name params returnType =>
    have hparams : ∀ param ∈ params, g.contains param.2 := fun param hparam =>
      h _ (List.mem_cons_of_mem _ (List.mem_map.mpr ⟨param, hparam, rfl⟩))
    exact (Building.changes_operationShape name hparams (h _ List.mem_cons_self)).bind
      fun shape k _ hshape => Building.changes_declare hshape
  | interfaceOperation container name params returnType =>
    have hparams : ∀ param ∈ params, g.contains param.2 := fun param hparam =>
      h _ (List.mem_cons_of_mem _ (List.mem_cons_of_mem _ (List.mem_map.mpr ⟨param, hparam, rfl⟩)))
    have hreturn : g.contains returnType := h _ (List.mem_cons_of_mem _ List.mem_cons_self)
    exact (Building.changes_operationShape name hparams hreturn).bind
      fun shape k _ hshape => Building.changes_addMember container name hshape
  | stringLiteral s => exact Building.changes_create (hempty _ rfl)
  | numericLiteral x => exact Building.changes_create (hempty _ rfl)
  | booleanLiteral b => exact Building.changes_create (hempty _ rfl)
  | tuple elements => exact Building.changes_create h
  | typeOf value =>
    cases value with
    | absent => exact .pure fun id hid => List.mem_singleton.mp hid ▸ hnull
    | type id => exact .pure h
    | bool b => exact Building.changes_create (hempty _ rfl)
    | number x => exact Building.changes_create (hempty _ rfl)
    | string s => exact Building.changes_create (hempty _ rfl)

end SchemaProjection
