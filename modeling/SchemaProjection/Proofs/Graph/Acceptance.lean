import SchemaProjection.Proofs.Graph.Edited

/-!
# What a graph does not refuse

Making a new node always succeeds. Deriving a changed copy succeeds where the node has what is to be
changed: the members of a container, the type of a property or a variant, the name of a node that
has one (`Building.Succeeds`).
-/

namespace SchemaProjection

namespace Shape

variable {shape : Shape}

theorem exists_withMembers? {members : NameTable} (h : shape.members? = some members)
    (table : NameTable) : ∃ changed, shape.withMembers? table = some changed := by
  cases shape <;> simp only [members?, reduceCtorEq] at h <;> exact ⟨_, rfl⟩

theorem exists_withType? {type : NodeId} (h : shape.type? = some type) (other : NodeId) :
    ∃ changed, shape.withType? other = some changed := by
  cases shape <;> simp only [type?, reduceCtorEq] at h <;> exact ⟨_, rfl⟩

/-- A node with a name can be given another one. -/
theorem exists_withName? {name : String} (h : shape.name? = some name) (other : String) :
    ∃ changed, shape.withName? other = some changed := by
  cases shape <;> simp only [name?, reduceCtorEq] at h <;> exact ⟨_, rfl⟩

end Shape

/-- A container has the same members in a larger graph. -/
theorem Graph.members?_of_le {g h : Graph} (hle : g ≤ h) {id : NodeId} {members : NameTable}
    (hmembers : (g.shape id).members? = some members) : (h.shape id).members? = some members := by
  rw [shape_of_le hle (contains_of_members? hmembers)]
  exact hmembers

namespace Building

variable {g h : Graph} {id : NodeId} {α β : Type}

/-- Whether the graph carries an action out. -/
def Succeeds (g : Graph) (action : Building α) : Prop := ∃ a h, action.run g = .ok a h

theorem Succeeds.bind {x : Building α} {f : α → Building β} (hx : Succeeds g x)
    (hf : ∀ a h, x.run g = .ok a h → Succeeds h (f a)) : Succeeds g (x >>= f) := by
  obtain ⟨a, h, hok⟩ := hx
  obtain ⟨b, k, hrest⟩ := hf a h hok
  refine ⟨b, k, ?_⟩
  rw [EStateM.run_bind, hok]
  exact hrest

theorem succeeds_alloc (shape : Shape) (origin : Option NodeId) :
    Succeeds g (alloc shape origin) := ⟨_, _, rfl⟩

theorem succeeds_typeOf (v : Value) : Succeeds g (typeOf v) := by
  cases v <;> exact ⟨_, _, rfl⟩

theorem succeeds_newMember (collection : Collection) (name : String) (v : Value) :
    Succeeds g (newMember collection name v) := by
  cases collection with
  | properties => exact (succeeds_typeOf v).bind fun _ _ _ => succeeds_alloc _ _
  | variants => exact (succeeds_typeOf v).bind fun _ _ _ => succeeds_alloc _ _
  | operations =>
    refine Succeeds.bind ⟨g, g, rfl⟩ fun _ _ _ => ?_
    split
    · exact succeeds_alloc _ _
    · refine (succeeds_alloc _ _).bind fun _ _ _ => ?_
      exact (succeeds_typeOf v).bind fun _ _ _ => succeeds_alloc _ _
  | members => exact succeeds_alloc _ _

theorem succeeds_derive (id : NodeId) : Succeeds g (derive id) := ⟨_, _, rfl⟩

theorem succeeds_deriveShape {shape? : Option Shape} (h : ∃ shape, shape? = some shape)
    (fault : String → GraphFault) : Succeeds g (deriveShape id shape? fault) := by
  obtain ⟨shape, rfl⟩ := h
  exact succeeds_alloc _ _

theorem succeeds_deriveMembers {members : NameTable}
    (hmembers : (g.shape id).members? = some members) (table : NameTable) :
    Succeeds g (deriveMembers id table) :=
  Succeeds.bind ⟨g, g, rfl⟩ fun k _ hget => by
    cases hget
    exact succeeds_deriveShape (Shape.exists_withMembers? hmembers table) _

theorem succeeds_deriveMember {members : NameTable} {name : String}
    (hmembers : (g.shape id).members? = some members) (hname : members.contains name)
    (member : NodeId) : Succeeds g (deriveMember id name member) := by
  refine Succeeds.bind ⟨g, g, rfl⟩ fun k _ hget => ?_
  cases hget
  rw [hmembers]
  dsimp only
  rw [if_pos hname]
  exact succeeds_deriveMembers hmembers _

theorem succeeds_deriveType {type : NodeId} (htype : (g.shape id).type? = some type)
    (result : NodeId) : Succeeds g (deriveType id result) :=
  Succeeds.bind ⟨g, g, rfl⟩ fun k _ hget => by
    cases hget
    exact succeeds_deriveShape (Shape.exists_withType? htype result) _

theorem succeeds_deriveRenamed {name : String}
    (h : ∃ shape, (g.shape id).withName? name = some shape) : Succeeds g (deriveRenamed id name) :=
  Succeeds.bind ⟨g, g, rfl⟩ fun k _ hget => by
    cases hget
    exact succeeds_deriveShape h _

/-- A node without a name is refused as such. -/
theorem fault_of_deriveRenamed {name : String} {fault : GraphFault}
    (herror : (deriveRenamed id name).run g = .error fault h) :
    ∃ node, fault = .noName node := by
  have herror : (deriveShape id ((g.shape id).withName? name) .noName).run g = .error fault h :=
    herror
  unfold deriveShape at herror
  split at herror
  · cases herror
  · cases herror
    exact ⟨_, rfl⟩

end Building

end SchemaProjection
