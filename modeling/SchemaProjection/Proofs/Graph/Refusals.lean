import SchemaProjection.Proofs.Graph.Orderly

/-!
# What a refused action leaves behind

A derivation, and a builder that makes a single node, looks first and allocates then, so a refusal
leaves the graph as it was. An operation is different. Its parameters become the properties of a
model of their own, which is allocated before anything is known about the operation itself; a
parameter that occurs twice, a declared name and a container that does not take the operation are
found out later. What is left is the model with the properties so far (`Graph.withParameters`),
which nothing refers to.

`Building.refusals` says this of all actions that extend a graph. Its crux is the loop over the
parameters: each round either adds one property to what is there, or is refused
(`Building.run_property`), which ends the loop (`Building.graphAfter_properties`).
-/

namespace SchemaProjection

namespace Graph

variable {g : Graph} {params : List (String × NodeId)} {name : String} {type : NodeId}

/-- The entries for parameters that stand one after the other behind their model. -/
def parameterEntries (g : Graph) (params : List (String × NodeId)) : List (String × NodeId) :=
  (params.map Prod.fst).zip ((List.range' (g.size + 1) params.length).map NodeId.mk)

/-- The model for parameters and its properties, in the order in which they are allocated. -/
def parameterNodes (g : Graph) (params : List (String × NodeId)) : List Node :=
  ⟨none, .model none (.ofList (g.parameterEntries params))⟩ ::
    params.map fun param => ⟨none, .modelProperty param.1 param.2 false⟩

/-- **The graph with a model for parameters** and its properties. -/
def withParameters (g : Graph) (params : List (String × NodeId)) : Graph :=
  { g with nodes := (g.nodes.toList ++ g.parameterNodes params).toArray }

theorem keys_parameterEntries (g : Graph) (params : List (String × NodeId)) :
    (g.parameterEntries params).map Prod.fst = params.map Prod.fst := by
  refine List.map_fst_zip (Nat.le_of_eq ?_)
  rw [List.length_map, List.length_map, List.length_range']

theorem size_withParameters (g : Graph) (params : List (String × NodeId)) :
    (g.withParameters params).size = g.size + 1 + params.length := by
  simp only [size, withParameters, parameterNodes, List.size_toArray, List.length_append,
    List.length_cons, List.length_map, Array.length_toList]
  omega

theorem parameterEntries_concat (g : Graph) (params : List (String × NodeId))
    (param : String × NodeId) :
    g.parameterEntries (params ++ [param]) =
      g.parameterEntries params ++ [(param.1, (g.withParameters params).nextId)] := by
  rw [nextId, size_withParameters, parameterEntries, parameterEntries, List.length_append,
    List.length_singleton, List.range'_concat, List.map_append, List.map_append, List.zip_append,
    Nat.one_mul]
  · rfl
  · rw [List.length_map, List.length_map, List.length_range']

/-- The model stands where the next node was due. -/
theorem shape_withParameters (g : Graph) (params : List (String × NodeId)) :
    (g.withParameters params).shape g.nextId =
      .model none (.ofList (g.parameterEntries params)) := by
  have hnode : (g.withParameters params).node? g.nextId = (g.parameterNodes params)[0]? := by
    have hlength : g.nodes.toList.length ≤ g.size := Nat.le_of_eq rfl
    rw [node?, withParameters, List.getElem?_toArray, nextId, List.getElem?_append_right hlength]
    exact congrArg _ (Nat.sub_self _)
  rw [shape, hnode]
  rfl

/-- **One more parameter** is a property behind the others. -/
theorem withParameters_concat :
    ((g.withParameters params).push ⟨none, .modelProperty name type false⟩).reshape g.nextId
        (.model none ((NameTable.ofList (g.parameterEntries params)).insert name
          (g.withParameters params).nextId)) =
      g.withParameters (params ++ [(name, type)]) := by
  have htable : (NameTable.ofList (g.parameterEntries params)).insert name
      (g.withParameters params).nextId =
        .ofList (g.parameterEntries (params ++ [(name, type)])) := by
    rw [NameTable.ofList, NameTable.ofList, parameterEntries_concat, List.foldl_append]
    rfl
  have hmodify : ∀ (front back : List Node) (node : Node) (f : Node → Node),
      (front ++ node :: back).modify front.length f = front ++ f node :: back := by
    intro front back node f
    induction front with
    | nil => rfl
    | cons first front ih =>
      rw [List.cons_append, List.length_cons, List.modify_succ_cons, ih, List.cons_append]
  refine ext (Array.toList_inj.mp ?_) rfl
  rw [htable]
  simp only [reshape, push, withParameters, parameterNodes, Array.toList_modify, Array.toList_push,
    List.map_append, List.map_singleton, List.append_assoc, List.cons_append]
  exact hmodify ..

end Graph

namespace Building

variable {g h : Graph} {α : Type} {fault : GraphFault}

/-! ### Actions that look first -/

/-- An action leaves the graph as it was if it is refused. -/
def Clean (g : Graph) (action : Building α) : Prop :=
  ∀ fault h, action.run g = .error fault h → h = g

theorem Clean.throw (fault : GraphFault) : Clean g (throw fault : Building α) := by
  intro fault h herror
  cases herror
  rfl

theorem clean_of_succeeds {action : Building α} (hsucceeds : ∃ a h, action.run g = .ok a h) :
    Clean g action := by
  obtain ⟨a, h, hok⟩ := hsucceeds
  intro fault k herror
  rw [hok] at herror
  cases herror

/-- Looking at the graph is not refused. -/
theorem Clean.get_bind {f : Graph → Building α} (hclean : Clean g (f g)) : Clean g (get >>= f) :=
  hclean

theorem clean_declare (name : String) (shape : Shape) : Clean g (declare name shape) := by
  refine Clean.get_bind ?_
  split
  · exact Clean.throw _
  · exact clean_of_succeeds ⟨_, _, rfl⟩

theorem clean_addMember (container : NodeId) (name : String) (shape : Shape) :
    Clean g (addMember container name shape) := by
  refine Clean.get_bind ?_
  split
  · exact Clean.throw _
  · next collection _ =>
    dsimp only
    by_cases hkind : collection.memberKind ≠ shape.kind
    · rw [if_pos hkind]
      exact Clean.throw _
    · rw [if_neg hkind]
      split
      · exact Clean.throw _
      · exact clean_of_succeeds ⟨_, _, rfl⟩

theorem clean_deriveShape (id : NodeId) (shape? : Option Shape) (fault : String → GraphFault) :
    Clean g (deriveShape id shape? fault) := by
  cases shape? with
  | none => exact Clean.throw _
  | some shape => exact clean_of_succeeds ⟨_, _, rfl⟩

/-- **A derivation leaves the graph as it was** if it is refused. -/
theorem clean_derivation (d : Derivation) : Clean g d.action := by
  cases d with
  | copy id => exact clean_of_succeeds ⟨_, _, rfl⟩
  | members container table => exact Clean.get_bind (clean_deriveShape _ _ _)
  | member container name new =>
    refine Clean.get_bind ?_
    split
    · exact Clean.throw _
    · split
      · exact Clean.get_bind (clean_deriveShape _ _ _)
      · exact Clean.throw _
  | renamed id name => exact Clean.get_bind (clean_deriveShape _ _ _)
  | type id new => exact Clean.get_bind (clean_deriveShape _ _ _)
  | returnType id new => exact Clean.get_bind (clean_deriveShape _ _ _)

/-! ### Parameters -/

variable {params rest : List (String × NodeId)} {param : String × NodeId}

/-- The properties of the model, given distinct names. -/
theorem isSome_member?_parameters (hparams : (params.map Prod.fst).Nodup) (name : String) :
    ((g.withParameters params).member? g.nextId name).isSome ↔ name ∈ params.map Prod.fst := by
  have hentries := NameTable.entries_ofList (g.keys_parameterEntries params ▸ hparams)
  rw [Graph.member?, g.shape_withParameters]
  show (NameTable.get? (.ofList (g.parameterEntries params)) name).isSome ↔ _
  rw [← g.keys_parameterEntries params, Option.isSome_iff_exists]
  constructor
  · rintro ⟨id, hid⟩
    rw [NameTable.get?_iff, hentries] at hid
    exact List.mem_map.mpr ⟨_, hid, rfl⟩
  · intro hname
    obtain ⟨e, he, rfl⟩ := List.mem_map.mp hname
    refine ⟨e.2, NameTable.get?_iff.mpr ?_⟩
    rw [hentries]
    exact he

/-- Adding a parameter asks only whether it occurred before. -/
theorem run_property (param : String × NodeId) :
    (property g.nextId param.1 param.2 false).run (g.withParameters params) =
      if ((g.withParameters params).member? g.nextId param.1).isSome then
        .error (.duplicateMember param.1 ((g.withParameters params).describe g.nextId))
          (g.withParameters params)
      else .ok (g.withParameters params).nextId (g.withParameters (params ++ [param])) := by
  have hshape := g.shape_withParameters params
  have hcontains : (g.withParameters params).contains g.nextId := by
    rw [Graph.contains_iff, Graph.size_withParameters]
    exact Nat.lt_add_right _ (Nat.lt_succ_self _)
  have hpushed := (Graph.shape_of_le (Graph.le_push _ ⟨none, .modelProperty param.1 param.2 false⟩)
    hcontains).trans hshape
  -- what is left once the name is known to be free: a node is made and entered in the table
  have hadd : (do
      let member ← alloc (.modelProperty param.1 param.2 false) none
      attach g.nextId param.1 member
      return member : Building NodeId).run (g.withParameters params) =
        .ok (g.withParameters params).nextId (g.withParameters (params ++ [param])) := by
    show EStateM.run (do
      attach g.nextId param.1 (g.withParameters params).nextId
      return (g.withParameters params).nextId) ((g.withParameters params).push _) = _
    rw [EStateM.run_bind, run_attach, hpushed]
    exact congrArg _ Graph.withParameters_concat
  have hcollection : ((g.withParameters params).shape g.nextId).collection? = some .properties := by
    rw [hshape]
    rfl
  have hkind : ¬ Collection.properties.memberKind ≠
      (Shape.modelProperty param.1 param.2 false).kind := not_not_intro rfl
  rw [property, addMember, EStateM.run_bind, EStateM.run_get]
  dsimp only
  rw [hcollection]
  dsimp only
  rw [if_neg hkind]
  split
  · rfl
  · exact hadd

/-- The parameters up to the first name that occurs again. -/
def Front (params front : List (String × NodeId)) : Prop :=
  ∃ back, params = front ++ back ∧ (front.map Prod.fst).Nodup ∧
    ∀ param ∈ back.head?, param.1 ∈ front.map Prod.fst

/-- **The loop over the parameters** goes on up to the first name that occurs again. -/
theorem graphAfter_properties (g : Graph) (hparams : (params.map Prod.fst).Nodup)
    (rest : List (String × NodeId)) :
    ∃ front, Front (params ++ rest) front ∧
      (rest.forM fun param => discard (property g.nextId param.1 param.2 false)).graphAfter
        (g.withParameters params) = g.withParameters front := by
  -- `params` are the parameters that are done, and get one more in each round
  induction rest generalizing params with
  | nil => exact ⟨params, ⟨[], rfl, hparams, fun _ h => nomatch h⟩, rfl⟩
  | cons param rest ih =>
    have hdiscard : discard (property g.nextId param.1 param.2 false) =
      (fun _ => ()) <$> property g.nextId param.1 param.2 false := rfl
    rw [List.forM, graphAfter, EStateM.run_bind, hdiscard, map_eq_pure_bind, EStateM.run_bind,
      run_property]
    by_cases hname : param.1 ∈ params.map Prod.fst
    · -- refused, with what is there so far
      rw [if_pos ((isSome_member?_parameters hparams _).mpr hname)]
      exact ⟨params, ⟨param :: rest, rfl, hparams, fun _ h => Option.some.inj h ▸ hname⟩, rfl⟩
    · rw [if_neg (mt (isSome_member?_parameters hparams _).mp hname)]
      have hnodup : ((params ++ [param]).map Prod.fst).Nodup := by
        rw [List.map_append, List.map_singleton, ← List.concat_eq_append]
        exact hparams.concat hname
      obtain ⟨front, hfront, hgraph⟩ := ih hnodup
      rw [List.append_cons]
      exact ⟨front, hfront, hgraph⟩

/-- What is there when the shape of an operation has been made, or refused. -/
theorem graphAfter_operationShape (g : Graph) (name : String) (params : List (String × NodeId))
    (returnType : NodeId) : ∃ front, Front params front ∧
      (operationShape name params returnType).graphAfter g = g.withParameters front := by
  have hstart : (([] : List (String × NodeId)).map Prod.fst).Nodup := List.nodup_nil
  obtain ⟨front, hfront, hgraph⟩ := graphAfter_properties g hstart params
  refine ⟨front, hfront, Eq.trans ?_ hgraph⟩
  have hempty : g.withParameters [] = g.push ⟨none, .model none .empty⟩ :=
    Graph.ext (Array.toList_inj.mp (Array.toList_push ..).symm) rfl
  have hloop : (operationShape name params returnType).graphAfter g =
      ((params.forM fun param => discard (property g.nextId param.1 param.2 false)) >>= fun _ =>
        pure (Shape.operation name g.nextId returnType)).graphAfter
          (g.push ⟨none, .model none .empty⟩) := rfl
  rw [hempty, hloop, graphAfter, graphAfter, EStateM.run_bind]
  cases EStateM.run (params.forM _) _ <;> rfl

/-- An action that ends with one that looks first leaves what was there before that. -/
theorem eq_graphAfter_of_bind {β : Type} {x : Building α} {f : α → Building β}
    (hf : ∀ a k, Clean k (f a)) (herror : (x >>= f).run g = .error fault h) :
    h = x.graphAfter g := by
  rw [EStateM.run_bind] at herror
  rw [graphAfter]
  cases hx : x.run g with
  | ok a k =>
    rw [hx] at herror
    exact hf a k fault h herror
  | error e k =>
    rw [hx] at herror
    cases herror
    rfl

end Building

/-! ### All actions -/

/-- The parameters of the operation that a construction makes. -/
def Construction.params? : Construction → Option (List (String × NodeId))
  | .operation _ params _ | .interfaceOperation _ _ params _ => some params
  | _ => none

/-- **What a refused action leaves behind.** A derivation and a construction of anything but an
operation leave the graph as it was. An operation leaves a model that has its parameters up to the
first one that occurs again, and nothing else. -/
theorem Building.refusals (g : Graph) :
    (∀ (d : Derivation) fault h, d.action.run g = .error fault h → h = g) ∧
    ∀ (c : Construction) fault h, c.action.run g = .error fault h →
      match c.params? with
      | none => h = g
      | some params => ∃ front, Front params front ∧ h = g.withParameters front := by
  refine ⟨clean_derivation, fun c fault h herror => ?_⟩
  cases c with
  | operation name params returnType =>
    obtain ⟨front, hfront, hgraph⟩ := graphAfter_operationShape g name params returnType
    exact ⟨front, hfront,
      (eq_graphAfter_of_bind (fun _ _ => clean_declare _ _) herror).trans hgraph⟩
  | interfaceOperation container name params returnType =>
    obtain ⟨front, hfront, hgraph⟩ := graphAfter_operationShape g name params returnType
    exact ⟨front, hfront,
      (eq_graphAfter_of_bind (fun _ _ => clean_addMember _ _ _) herror).trans hgraph⟩
  | model | union | interface | enum | scalar => exact clean_declare _ _ fault h herror
  | property | variant | enumMember => exact clean_addMember _ _ _ fault h herror
  | anonymousModel | stringLiteral | numericLiteral | booleanLiteral | tuple => cases herror
  | typeOf value => cases value <;> cases herror

namespace Building

/-- A graph that declares a model. -/
def modelGraph : Graph := (model "M").graphAfter .initial

/-- An operation under the name of the model, with one parameter. -/
def takenOperation : Construction := .operation "M" [("x", ⟨4⟩)] ⟨0⟩

/-- It leaves the model of its parameter, with the property. -/
theorem refusals_taken : ∃ fault h, takenOperation.action.run modelGraph = .error fault h ∧
    h = modelGraph.withParameters [("x", ⟨4⟩)] ∧ h.size = modelGraph.size + 2 := by
  cases hrun : takenOperation.action.run modelGraph with
  | ok id h =>
    have hfails : (match takenOperation.action.run modelGraph with
      | .ok _ _ => true
      | .error _ _ => false) = false := by decide +kernel
    rw [hrun] at hfails
    cases hfails
  | error fault h =>
    obtain ⟨front, ⟨back, hparams, -, hback⟩, rfl⟩ :=
      (refusals modelGraph).2 takenOperation fault h hrun
    cases front with
    | nil =>
      -- the first parameter cannot have occurred before
      cases hparams
      exact nomatch hback _ rfl
    | cons param front =>
      obtain ⟨rfl, hrest⟩ := List.cons.inj hparams
      obtain ⟨rfl, rfl⟩ := List.append_eq_nil_iff.mp hrest.symm
      exact ⟨fault, _, rfl, rfl, Graph.size_withParameters ..⟩

end Building

end SchemaProjection
