import SchemaProjection.Proofs.Graph.Extension

/-!
# Growth of graphs

Runs build nodes of two sorts: new ones and changed copies. A graph that has **grown**
(`Graph.Grown`) differs from what it was by such nodes, one after the other, and every action that
runs use makes the graph grow and does nothing else to it (`Building.Grows`), also when it fails.

A copy is of the kind of the node it comes from. It is always taken of a node that is in the graph:
outside there is no shape to change, and plain copies are taken of nodes that were there before the
run, which is what the mark stands for.
-/

namespace SchemaProjection

/-- **Growth.** A graph grows by nodes without an origin and by changed copies of nodes. A copy is
of the same kind as the node it comes from, which is in the graph or stands before the mark. -/
inductive Graph.Grown (mark : Nat) (g : Graph) : Graph → Prop
  | refl : Grown mark g g
  | create {h : Graph} (shape : Shape) : Grown mark g h → Grown mark g (h.push ⟨none, shape⟩)
  | derive {h : Graph} (id : NodeId) (shape : Shape)
    (known : h.contains id ∨ id.index < mark) (same_kind : shape.kind = h.kind id) :
    Grown mark g h → Grown mark g (h.push ⟨some id, shape⟩)

theorem Graph.Grown.trans {mark : Nat} {g h k : Graph} (h₁ : Grown mark g h)
    (h₂ : Grown mark h k) : Grown mark g k := by
  induction h₂ with
  | refl => exact h₁
  | create shape _ ih => exact ih.create shape
  | derive id shape known same_kind _ ih => exact ih.derive id shape known same_kind

theorem Graph.Grown.extends {mark : Nat} {g h : Graph} (hgrown : Grown mark g h) : g ≤ h := by
  induction hgrown with
  | refl => exact le_rfl
  | create shape _ ih => exact le_trans ih (le_push _ _)
  | derive id shape known same_kind _ ih => exact le_trans ih (le_push _ _)

/-! ### Changed shapes -/

namespace Shape

variable {shape changed : Shape}

theorem kind_of_withMembers? {members : NameTable} (h : shape.withMembers? members = some changed) :
    changed.kind = shape.kind := by
  cases shape <;> simp only [withMembers?, reduceCtorEq, Option.some.injEq] at h <;> subst h <;> rfl

theorem kind_of_withName? {name : String} (h : shape.withName? name = some changed) :
    changed.kind = shape.kind := by
  cases shape <;> simp only [withName?, reduceCtorEq, Option.some.injEq] at h <;> subst h <;> rfl

theorem kind_of_withType? {type : NodeId} (h : shape.withType? type = some changed) :
    changed.kind = shape.kind := by
  cases shape <;> simp only [withType?, reduceCtorEq, Option.some.injEq] at h <;> subst h <;> rfl

theorem kind_of_withReturnType? {type : NodeId} (h : shape.withReturnType? type = some changed) :
    changed.kind = shape.kind := by
  cases shape <;> simp only [withReturnType?, reduceCtorEq, Option.some.injEq] at h
  subst h
  rfl

end Shape

/-! ### Actions -/

namespace Building

variable {mark : Nat} {g : Graph} {α β : Type}

/-- An action only makes a graph grow, whether it succeeds or fails. -/
def Grows (mark : Nat) (g : Graph) (action : Building α) : Prop :=
  match action.run g with
  | .ok _ h => g.Grown mark h
  | .error _ h => g.Grown mark h

theorem Grows.grown {action : Building α} (h : Grows mark g action) :
    g.Grown mark (action.graphAfter g) := by
  unfold Grows at h
  unfold graphAfter
  cases haction : action.run g with
  | ok a after =>
    rw [haction] at h
    exact h
  | error fault after =>
    rw [haction] at h
    exact h

theorem Grows.pure (a : α) : Grows mark g (pure a) := .refl

theorem Grows.bind {x : Building α} {f : α → Building β} (hx : Grows mark g x)
    (hf : ∀ a h, x.run g = .ok a h → Grows mark h (f a)) : Grows mark g (x >>= f) := by
  unfold Grows at hx ⊢
  rw [EStateM.run_bind]
  cases hx' : x.run g with
  | error e h =>
    rw [hx'] at hx
    exact hx
  | ok a h =>
    rw [hx'] at hx
    have hrest := hf a h hx'
    unfold Grows at hrest
    dsimp only
    cases hf' : (f a).run h with
    | ok b k =>
      rw [hf'] at hrest
      exact hx.trans hrest
    | error e k =>
      rw [hf'] at hrest
      exact hx.trans hrest

theorem grows_create (shape : Shape) : Grows mark g (alloc shape none) := .create shape .refl

theorem grows_typeOf (v : Value) : Grows mark g (typeOf v) := by
  cases v with
  | absent => exact .pure _
  | type id => exact .pure _
  | bool b => exact grows_create _
  | number x => exact grows_create _
  | string s => exact grows_create _

theorem grows_newMember (collection : Collection) (name : String) (value : Value) :
    Grows mark g (newMember collection name value) := by
  cases collection with
  | properties => exact (grows_typeOf value).bind fun _ _ _ => grows_create _
  | variants => exact (grows_typeOf value).bind fun _ _ _ => grows_create _
  | operations =>
    refine Grows.bind (x := get) .refl fun h _ _ => ?_
    cases signature? h value with
    | some signature => exact grows_create _
    | none =>
      exact (grows_create _).bind fun _ _ _ =>
        (grows_typeOf value).bind fun _ _ _ => grows_create _
  | members => exact grows_create _

/-- A derivation copies a node of the graph, since outside there is no shape to change. -/
theorem grows_deriveShape {id : NodeId} (change : Shape → Option Shape)
    (fault : String → GraphFault) (hkind : ∀ {s t}, change s = some t → t.kind = s.kind)
    (hunknown : change (.intrinsic .unknown) = none) :
    Grows mark g (deriveShape id (change (g.shape id)) fault) := by
  unfold deriveShape
  cases hshape : change (g.shape id) with
  | none => exact .refl
  | some shape =>
    have hid : g.contains id := by
      rw [Graph.contains_iff]
      refine Nat.lt_of_not_le fun hout => ?_
      rw [Graph.shape_of_size_le hout, hunknown] at hshape
      cases hshape
    exact .derive id shape (.inl hid) (hkind hshape) .refl

theorem grows_deriveMembers (container : NodeId) (members : NameTable) :
    Grows mark g (deriveMembers container members) :=
  grows_deriveShape (Shape.withMembers? members) _ Shape.kind_of_withMembers? rfl

theorem grows_deriveRenamed (id : NodeId) (name : String) :
    Grows mark g (deriveRenamed id name) :=
  grows_deriveShape (Shape.withName? name) _ Shape.kind_of_withName? rfl

theorem grows_deriveType (id type : NodeId) : Grows mark g (deriveType id type) :=
  grows_deriveShape (Shape.withType? type) _ Shape.kind_of_withType? rfl

theorem grows_deriveReturnType (id type : NodeId) : Grows mark g (deriveReturnType id type) :=
  grows_deriveShape (Shape.withReturnType? type) _ Shape.kind_of_withReturnType? rfl

theorem grows_deriveMember (container : NodeId) (name : String) (member : NodeId) :
    Grows mark g (deriveMember container name member) := by
  refine Grows.bind (x := get) .refl fun h k hget => ?_
  cases hget
  cases (g.shape container).members? with
  | none => exact .refl
  | some members =>
    dsimp only
    split
    · exact grows_deriveMembers _ _
    · exact .refl

/-- A plain copy is taken of nodes before the mark only. -/
theorem grows_derive {id : NodeId} (hid : id.index < mark) : Grows mark g (derive id) :=
  .derive id (g.shape id) (.inr hid) rfl .refl

end Building

end SchemaProjection
