import SchemaProjection.Proofs.Graph.Orderly
import SchemaProjection.Proofs.Run.Effects

/-!
# What builders keep

`Graph.Change` says how a graph changes under construction, but not who changes it. The builders are
more careful: what they allocate has no origin, what they declare is new and allocated under the
name that it has, and a container only gets other members. A property of graphs that survives these
three (`Graph.Buildable`) survives every construction, successful or not (`Construction.keeps`).

The property that this is used for here is that a graph is **faithful** (`Graph.Faithful`): origins
stand before the nodes derived from them and are of the same kind, and a declared name is the name
of its node, which is derived from none. Derivations keep a graph faithful, too
(`Graph.Grown.faithful`).
-/

namespace SchemaProjection

namespace Graph

/-- **What the builders keep**: a property that survives each of the changes that they make. -/
structure Buildable (P : Graph → Prop) : Prop where
  create : ∀ {g : Graph} (shape : Shape), P g → P (g.push ⟨none, shape⟩)
  declare : ∀ {g : Graph} {name : String} {shape : Shape}, g.globals.contains name = false →
    shape.name? = some name → P g →
    P { g.push ⟨none, shape⟩ with globals := g.globals.insert name g.nextId }
  reshape : ∀ {g : Graph} {container : NodeId} {table : NameTable} {changed : Shape},
    (g.shape container).withMembers? table = some changed → P g → P (g.reshape container changed)

end Graph

/-! ### Builders -/

namespace Building

variable {P : Graph → Prop} {g : Graph} {α β : Type}

/-- An action leaves a graph with the property, whether it succeeds or fails. -/
def Keeps (P : Graph → Prop) (g : Graph) (action : Building α) : Prop := P (action.graphAfter g)

theorem Keeps.of_ok {action : Building α} (h : Keeps P g action) {a : α} {after : Graph}
    (hok : action.run g = .ok a after) : P after := by
  rw [Keeps, graphAfter, hok] at h
  exact h

theorem Keeps.pure (hg : P g) (a : α) : Keeps P g (pure a) := hg

theorem Keeps.bind {x : Building α} {f : α → Building β} (hx : Keeps P g x)
    (hf : ∀ a h, x.run g = .ok a h → P h → Keeps P h (f a)) : Keeps P g (x >>= f) := by
  rw [Keeps, graphAfter, EStateM.run_bind]
  cases hrun : x.run g with
  | ok a h => exact hf a h hrun (hx.of_ok hrun)
  | error fault h =>
    rw [Keeps, graphAfter, hrun] at hx
    exact hx

theorem keeps_discard {x : Building α} (hx : Keeps P g x) : Keeps P g (discard x) := by
  have hmap : discard x = (fun _ => ()) <$> x := rfl
  rw [hmap, map_eq_pure_bind]
  exact hx.bind fun _ _ _ hh => .pure hh _

variable (hP : Graph.Buildable P)
include hP

theorem keeps_create (hg : P g) (shape : Shape) : Keeps P g (alloc shape none) :=
  hP.create shape hg

theorem keeps_declare (hg : P g) {name : String} {shape : Shape} (hname : shape.name? = some name) :
    Keeps P g (declare name shape) := by
  refine Keeps.bind (x := get) hg fun _ h hget _ => ?_
  cases hget
  split
  · exact hg
  next hfree => exact hP.declare (Bool.not_eq_true _ ▸ hfree) hname hg

theorem keeps_addMember (hg : P g) (container : NodeId) (name : String) (shape : Shape) :
    Keeps P g (addMember container name shape) := by
  refine Keeps.bind (x := get) hg fun _ h hget _ => ?_
  cases hget
  split
  · exact hg
  next collection _ =>
  dsimp only
  by_cases hkind : collection.memberKind ≠ shape.kind
  · rw [if_pos hkind]
    exact hg
  rw [if_neg hkind]
  split
  · exact hg
  refine (keeps_create hP hg shape).bind fun member h _ hh => ?_
  refine Keeps.bind ?_ fun _ _ _ hk => .pure hk _
  rw [Keeps, graphAfter, run_attach]
  dsimp only
  split
  · exact hh
  · split
    · exact hh
    next hchanged => exact hP.reshape hchanged hh

theorem keeps_operationShape (hg : P g) (name : String) (params : List (String × NodeId))
    (returnType : NodeId) : Keeps P g (operationShape name params returnType) := by
  refine (keeps_create hP hg _).bind fun parameters h _ hh => ?_
  -- each parameter is a new member of their model
  have hproperties : ∀ {h : Graph}, P h → Keeps P h (params.forM fun param =>
      discard (property parameters param.1 param.2 false)) := by
    induction params with
    | nil => exact fun hh => .pure hh ()
    | cons param rest ih =>
      intro h hh
      rw [List.forM]
      exact (keeps_discard (keeps_addMember hP hh parameters _ _)).bind fun _ _ _ hk => ih hk
  exact (hproperties hh).bind fun _ _ _ hk => .pure hk _

end Building

/-- **Every construction keeps what the builders keep.** -/
theorem Construction.keeps {P : Graph → Prop} (hP : Graph.Buildable P) {g : Graph} (hg : P g)
    (c : Construction) : Building.Keeps P g c.action := by
  cases c with
  | model name => exact Building.keeps_declare hP hg rfl
  | union name => exact Building.keeps_declare hP hg rfl
  | interface name => exact Building.keeps_declare hP hg rfl
  | enum name => exact Building.keeps_declare hP hg rfl
  | scalar name base => exact Building.keeps_declare hP hg rfl
  | property container name type optional => exact Building.keeps_addMember hP hg container name _
  | variant container name type => exact Building.keeps_addMember hP hg container name _
  | enumMember container name value => exact Building.keeps_addMember hP hg container name _
  | operation name params returnType =>
    refine (Building.keeps_operationShape hP hg name params returnType).bind
      fun shape h hok hh => ?_
    -- the shape carries the name under which it is declared
    obtain ⟨parameters, _, -, hok⟩ := Building.ok_of_bind hok
    obtain ⟨_, _, -, hok⟩ := Building.ok_of_bind hok
    cases hok
    exact Building.keeps_declare hP hh rfl
  | interfaceOperation container name params returnType =>
    exact (Building.keeps_operationShape hP hg name params returnType).bind
      fun shape h _ hh => Building.keeps_addMember hP hh container name shape
  | anonymousModel => exact Building.keeps_create hP hg _
  | stringLiteral s => exact Building.keeps_create hP hg _
  | numericLiteral x => exact Building.keeps_create hP hg _
  | booleanLiteral b => exact Building.keeps_create hP hg _
  | tuple elements => exact Building.keeps_create hP hg _
  | typeOf value =>
    cases value with
    | absent | type => exact hg
    | bool | number | string => exact Building.keeps_create hP hg _

/-! ### Faithful graphs -/

namespace Graph

variable {g h : Graph}

/-- **Faithful graphs**: a copy stands behind what it was copied from and is of the same kind, and a
declaration is a node of the declared name that is no copy. -/
structure Faithful (g : Graph) : Prop where
  ordered : g.Ordered
  kinds : ∀ id origin, g.origin? id = some origin → g.kind origin = g.kind id
  declared : ∀ e ∈ g.globals.entries, (g.shape e.2).name? = some e.1 ∧ g.origin? e.2 = none

/-- A declaration names a node of the graph. -/
theorem Faithful.contains_declared (hg : g.Faithful) {e : String × NodeId}
    (he : e ∈ g.globals.entries) : g.contains e.2 :=
  contains_of_read rfl (hg.declared e he).1

theorem shape_push (g : Graph) (node : Node) (id : NodeId) :
    (g.push node).shape id = if id.index = g.size then node.shape else g.shape id := by
  rw [shape, shape, node?_push]
  split <;> rfl

/-- **A new node**, if it is a copy at all, is a copy of a node of its kind. -/
theorem Faithful.push (hg : g.Faithful) {node : Node}
    (horigin : ∀ origin, node.origin = some origin →
      g.contains origin ∧ node.shape.kind = g.kind origin) : (g.push node).Faithful where
  ordered := hg.ordered.push fun origin h => (horigin origin h).1
  kinds id origin h := by
    have hkind : ∀ {other}, g.contains other → (g.push node).kind other = g.kind other := by
      intro other hother
      rw [kind, kind, shape_of_le (le_push g node) hother]
    rw [origin?, node?_push] at h
    by_cases hnew : id.index = g.size
    · rw [if_pos hnew] at h
      obtain ⟨hknown, hsame⟩ := horigin origin h
      have hcopy : (g.push node).kind id = node.shape.kind := by
        rw [kind, shape_push, if_pos hnew]
      rw [hkind hknown, hcopy, hsame]
    · rw [if_neg hnew] at h
      have hid : g.contains id := contains_of_origin? h
      have hknown : g.contains origin :=
        contains_of_index_le hid (Nat.le_of_lt (hg.ordered id origin h))
      rw [hkind hid, hkind hknown]
      exact hg.kinds id origin h
  declared e he := by
    have hknown := hg.contains_declared he
    rw [shape_of_le (le_push g node) hknown, origin?_of_le (le_push g node) hknown]
    exact hg.declared e he

theorem Faithful.create (hg : g.Faithful) (shape : Shape) : (g.push ⟨none, shape⟩).Faithful :=
  hg.push fun _ h => nomatch h

/-- What comes before in a faithful graph is faithful, if it has all declared nodes. -/
theorem Faithful.of_le (hh : h.Faithful) (hle : g ≤ h) (hglobals : g.Knows g.globals) :
    g.Faithful where
  ordered := hh.ordered.of_le hle
  kinds id origin horigin := by
    have hid : g.contains id := contains_of_origin? horigin
    have hknown : g.contains origin :=
      contains_of_index_le hid (Nat.le_of_lt (hh.ordered.of_le hle id origin horigin))
    rw [← origin?_of_le hle hid] at horigin
    have hsame := hh.kinds id origin horigin
    rw [kind, kind, shape_of_le hle hid, shape_of_le hle hknown] at hsame
    exact hsame
  declared e he := by
    have hknown : g.contains e.2 := hglobals e.2 (List.mem_map.mpr ⟨e, he, rfl⟩)
    rw [← hle.globals] at he
    rw [← shape_of_le hle hknown, ← origin?_of_le hle hknown]
    exact hh.declared e he

/-- **Builders keep a graph faithful.** -/
theorem buildable_faithful : Buildable Faithful where
  create shape hg := hg.create shape
  declare {g name shape} hfree hname hg := by
    have hpush := hg.create shape
    refine ⟨hpush.ordered, hpush.kinds, fun e he => ?_⟩
    -- the new declaration is the node that was just allocated
    rw [NameTable.entries_insert hfree] at he
    rcases (List.mem_append.mp he).symm.imp_left List.mem_singleton.mp with rfl | hold
    · refine ⟨?_, ?_⟩
      · rw [← hname]
        exact congrArg Shape.name? (shape_of_node? (g.node?_push_nextId ⟨none, shape⟩))
      · exact origin?_of_node? (g.node?_push_nextId ⟨none, shape⟩)
    · exact hpush.declared e hold
  reshape {g container table changed} hchanged hg := by
    have hcontainer : g.contains container := contains_of_read rfl hchanged
    refine ⟨fun id origin h => ?_, fun id origin h => ?_, fun e he => ?_⟩
    · rw [origin?_reshape] at h
      exact hg.ordered id origin h
    · rw [origin?_reshape] at h
      rw [kind_reshape hchanged, kind_reshape hchanged]
      exact hg.kinds id origin h
    · obtain ⟨hname, horigin⟩ := hg.declared e he
      rw [origin?_reshape, shape_reshape hcontainer]
      refine ⟨?_, horigin⟩
      split
      · next hid =>
        rw [← hname, hid]
        exact Shape.name?_of_withMembers? hchanged
      · exact hname

/-- **Growth keeps a graph faithful**, if copies are taken of nodes that are there. -/
theorem Grown.faithful {mark : Nat} (hgrown : g.Grown mark h) (hmark : mark ≤ g.size)
    (hg : g.Faithful) : h.Faithful := by
  induction hgrown with
  | refl => exact hg
  | create shape _ ih => exact ih.create shape
  | @derive h id shape known same_kind hgrown ih =>
    refine ih.push fun origin h => Option.some.inj h ▸ ⟨known.elim (fun hin => hin) fun hlt => ?_,
      same_kind⟩
    have hsize := size_le_of_le hgrown.extends
    exact contains_iff.mpr (by omega)

end Graph

end SchemaProjection
