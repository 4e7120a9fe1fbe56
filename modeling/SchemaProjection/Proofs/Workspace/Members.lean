import SchemaProjection.Proofs.Graph.Orderly
import SchemaProjection.Proofs.Run.Policies
import SchemaProjection.Proofs.Workspace.Graphs

/-!
# Members of reachable workspaces

A container keeps its members by name, and so do the members their own names; the methods that edit
members write the one, the other, or both. Forgetting one of them would go unnoticed until some
later edit reaches the wrong member.

`Workspace.members_orderly` says that this does not happen: in a workspace that is reached by
constructions and runs of any projections, with any host modules, the members of a model, a union or
an enum are of the right kind, are kept under their own names, and no two of them share a lineage.

The graph of such a workspace is tidy (`Graph.Tidy`). For a run this is an induction on its record
(`Run.Advances.preserves`), for constructions a look at each of them (`Construction.tidies`).
-/

namespace SchemaProjection

/-! ### Runs -/

/-- Operations aside, whatever an edit puts in the place of a member is a version of it. -/
theorem Graph.preserved_tidy : Graph.Preserved (Graph.Tidy · (· ≠ .operations)) where
  supplied hg hs := hg.supplied hs
  edited hg he := hg.edited he fun h => absurd rfl h
  copied hg hmembers hmember hin hchanged := hg.copied hmembers hmember hin hchanged

namespace Run

/-- **Runs keep a graph tidy**, whatever they do. -/
theorem keeps_tidy (setting : Setting) :
    Run.Keeps setting (Graph.Tidy · (· ≠ .operations)) := by
  intro g m trace node handle args id after h _ hg n _ hclosed
  rw [← Eval.projectUnder_all] at h
  obtain ⟨_, projection, tree, flow, finished, a, memo, -, -, hblock, -, -, rfl⟩ :=
    Eval.ok_of_projectUnder h
  have hrecord := (Evaluation.governed_advances _ setting _).block tree.body flow finished hblock
  have hfinished : finished.graph.Tidy (· ≠ .operations) :=
    hrecord.preserves Graph.preserved_tidy (Nat.le_refl _) hg
  exact hfinished.of_le hclosed (Graph.truncate_le _ n)

end Run

/-! ### Constructions -/

namespace Building

variable {α β : Type} {wanted : Collection → Prop} {g : Graph}

/-- An action leaves a tidy graph, whether it succeeds or fails. -/
def Tidies (wanted : Collection → Prop) (g : Graph) (action : Building α) : Prop :=
  (action.graphAfter g).Tidy wanted

theorem Tidies.of_ok {action : Building α} (h : Tidies wanted g action) {a : α} {after : Graph}
    (hok : action.run g = .ok a after) : after.Tidy wanted := by
  rw [Tidies, graphAfter, hok] at h
  exact h

theorem Tidies.pure (hg : g.Tidy wanted) (a : α) : Tidies wanted g (pure a) := hg

theorem Tidies.bind {x : Building α} {f : α → Building β} (hx : Tidies wanted g x)
    (hf : ∀ a h, x.run g = .ok a h → h.Tidy wanted → Tidies wanted h (f a)) :
    Tidies wanted g (x >>= f) := by
  rw [Tidies, graphAfter, EStateM.run_bind]
  cases hrun : x.run g with
  | ok a h => exact hf a h hrun (hx.of_ok hrun)
  | error fault h =>
    rw [Tidies, graphAfter, hrun] at hx
    exact hx

theorem tidies_discard {x : Building α} (hx : Tidies wanted g x) : Tidies wanted g (discard x) := by
  have hmap : discard x = (fun _ => ()) <$> x := rfl
  rw [hmap, map_eq_pure_bind]
  exact hx.bind fun _ _ _ hh => .pure hh _

/-- A new node without members. -/
theorem tidies_create (hg : g.Tidy wanted) {shape : Shape}
    (hchildless : ∀ members, shape.members? = some members → members = .empty) :
    Tidies wanted g (alloc shape none) := hg.supplied (.create shape hchildless .refl)

theorem tidies_declare (hg : g.Tidy wanted) {name : String} {shape : Shape}
    (hchildless : ∀ members, shape.members? = some members → members = .empty) :
    Tidies wanted g (declare name shape) := by
  refine Tidies.bind (x := get) hg fun _ h hget _ => ?_
  cases hget
  have hdeclare : Tidies wanted g (do
      let id ← alloc shape none
      modify fun g => { g with globals := g.globals.insert name id }
      return id) := by
    exact (tidies_create hg hchildless).bind fun _ _ _ hh => hh.of_nodes rfl
  split
  · exact hg
  · exact hdeclare

/-- **A new member of a container.** The container is free of its name, and of its lineage, since
the member is new. -/
theorem tidies_addMember (hg : g.Tidy wanted) (container : NodeId) {name : String}
    {shape : Shape} (hchildless : shape.members? = none) (hname : shape.name? = some name) :
    Tidies wanted g (addMember container name shape) := by
  refine Tidies.bind (x := get) hg fun _ h hget _ => ?_
  cases hget
  split
  · exact hg
  next collection hcollection =>
  dsimp only
  by_cases hkind : collection.memberKind ≠ shape.kind
  · rw [if_pos hkind]
    exact hg
  rw [if_neg hkind]
  rw [Decidable.not_not] at hkind
  split
  · exact hg
  next hnone =>
  have hcreated := tidies_create hg fun members h => by
    rw [hchildless] at h
    cases h
  refine hcreated.bind fun member h hnew hh => ?_
  obtain ⟨rfl, rfl⟩ := ok_of_alloc hnew
  refine Tidies.bind ?_ fun _ _ _ hh => .pure hh _
  rw [Tidies, graphAfter, run_attach]
  dsimp only
  split
  · exact hh
  next members hmembers =>
  split
  · exact hh
  next changed hchanged =>
  refine hh.reshape hchanged fun c hc hne => ?_
  -- the container is old, so the new node does not change what it is
  have hle := Graph.le_push g ⟨none, shape⟩
  rw [Graph.shape_of_le hle (Graph.contains_of_read rfl hcollection)] at hmembers hc
  obtain rfl : c = collection := Option.some.inj (hc.symm.trans hcollection)
  have hfree : members.contains name = false := by
    have hmember : g.member? container name = none := Option.not_isSome_iff_eq_none.mp hnone
    rw [Graph.member?, hmembers] at hmember
    exact NameTable.contains_of_get?_none hmember
  exact (hg.members_of hmembers hc hne).insert_new hg.ordered hle hfree
    (g.node?_push_nextId ⟨none, shape⟩) g.not_contains_nextId hkind.symm hname

theorem tidies_operationShape (hg : g.Tidy wanted) (name : String)
    (params : List (String × NodeId)) (returnType : NodeId) :
    Tidies wanted g (operationShape name params returnType) := by
  have hempty : ∀ members, (Shape.model none .empty).members? = some members → members = .empty :=
    fun members h => (Option.some.inj h).symm
  refine (tidies_create hg hempty).bind fun parameters h _ hh => ?_
  -- each parameter is a new member of their model
  have hproperties : ∀ {h : Graph}, h.Tidy wanted → Tidies wanted h (params.forM fun param =>
      discard (property parameters param.1 param.2 false)) := by
    induction params with
    | nil => exact fun hh => .pure hh ()
    | cons param rest ih =>
      intro h hh
      rw [List.forM]
      exact (tidies_discard (tidies_addMember hh parameters rfl rfl)).bind fun _ _ _ hk => ih hk
  exact (hproperties hh).bind fun _ _ _ hk => .pure hk _

/-- The shape of an operation is one, under its name. -/
theorem ok_of_operationShape {name : String} {params : List (String × NodeId)}
    {returnType : NodeId} {shape : Shape} {h : Graph}
    (hok : (operationShape name params returnType).run g = .ok shape h) :
    ∃ parameters, shape = .operation name parameters returnType := by
  obtain ⟨parameters, _, -, hok⟩ := ok_of_bind hok
  obtain ⟨_, _, -, hok⟩ := ok_of_bind hok
  cases hok
  exact ⟨parameters, rfl⟩

end Building

/-- **Constructions keep a graph tidy.** -/
theorem Construction.tidies {wanted : Collection → Prop} {g : Graph} (hg : g.Tidy wanted)
    (c : Construction) : Building.Tidies wanted g c.action := by
  have hnone : ∀ {shape : Shape}, shape.members? = none →
      ∀ members, shape.members? = some members → members = .empty := by
    intro shape hshape members h
    rw [hshape] at h
    cases h
  have hempty : ∀ {shape : Shape}, shape.members? = some .empty →
      ∀ members, shape.members? = some members → members = .empty := fun hshape members h =>
    (Option.some.inj (hshape.symm.trans h)).symm
  cases c with
  | model name => exact Building.tidies_declare hg (hempty rfl)
  | anonymousModel => exact Building.tidies_create hg (hempty rfl)
  | union name => exact Building.tidies_declare hg (hempty rfl)
  | interface name => exact Building.tidies_declare hg (hempty rfl)
  | enum name => exact Building.tidies_declare hg (hempty rfl)
  | scalar name base => exact Building.tidies_declare hg (hnone rfl)
  | property container name type optional =>
    exact Building.tidies_addMember hg container rfl rfl
  | variant container name type => exact Building.tidies_addMember hg container rfl rfl
  | enumMember container name value => exact Building.tidies_addMember hg container rfl rfl
  | operation name params returnType =>
    refine (Building.tidies_operationShape hg name params returnType).bind fun shape h hok hh => ?_
    obtain ⟨parameters, rfl⟩ := Building.ok_of_operationShape hok
    exact Building.tidies_declare hh (hnone rfl)
  | interfaceOperation container name params returnType =>
    refine (Building.tidies_operationShape hg name params returnType).bind fun shape h hok hh => ?_
    obtain ⟨parameters, rfl⟩ := Building.ok_of_operationShape hok
    exact Building.tidies_addMember hh container rfl rfl
  | stringLiteral s => exact Building.tidies_create hg (hnone rfl)
  | numericLiteral x => exact Building.tidies_create hg (hnone rfl)
  | booleanLiteral b => exact Building.tidies_create hg (hnone rfl)
  | tuple elements => exact Building.tidies_create hg (hnone rfl)
  | typeOf value =>
    cases value with
    | absent | type => exact hg
    | bool | number | string => exact Building.tidies_create hg (hnone rfl)

/-- No type that a graph begins with has members. -/
theorem Graph.tidy_initial (wanted : Collection → Prop) : Graph.initial.Tidy wanted where
  ordered := Graph.closed_initial.ordered
  kinds id origin horigin := by
    obtain ⟨node, hnode, hderived⟩ := Option.bind_eq_some_iff.mp horigin
    have hnone : ∀ node ∈ Graph.initial.nodes.toList, node.origin = none := by
      decide +kernel
    have hmem := Array.mem_toList_iff.mpr (Array.mem_of_getElem? hnode)
    exact nomatch (hnone node hmem).symm.trans hderived
  members container collection members hmembers _ := by
    obtain ⟨-, hfound⟩ := Shape.membersIn?_iff.mp hmembers
    have hcontainer := contains_of_members? hfound
    have hnone : ∀ node ∈ Graph.initial.nodes.toList, node.shape.members? = none := by
      decide +kernel
    obtain ⟨node, hnode⟩ := exists_node?_of_contains hcontainer
    rw [shape_of_node? hnode,
      hnone node (Array.mem_toList_iff.mpr (Array.mem_of_getElem? hnode))] at hfound
    cases hfound

/-! ### Workspaces -/

/-- Nodes are derived in runs only. -/
def Event.Regular : Event → Prop
  | .derive _ => False
  | _ => True

namespace Workspace

variable {w : Workspace}

theorem Reachable.tidy (hw : w.Reachable Event.Regular) : w.graph.Tidy (· ≠ .operations) :=
  (hw.graph_invariant (P := (Graph.Tidy · (· ≠ .operations))) (Graph.tidy_initial _)
    (fun _ c _ _ hg => c.tidies hg) (fun _ _ hadmits => hadmits.elim) Run.keeps_tidy).2

/-- **Members are orderly.** In every reachable workspace each member of a model, a union or an enum
is of the kind that the container keeps, under its own name, and no two members of it have the same
root. -/
theorem members_orderly (hw : w.Reachable Event.Regular) {container : NodeId}
    {collection : Collection} {members : NameTable}
    (hmembers : (w.graph.shape container).membersIn? collection = some members)
    (hcollection : collection ≠ .operations) :
    (∀ e ∈ members.entries,
      w.graph.kind e.2 = collection.memberKind ∧ (w.graph.shape e.2).name? = some e.1) ∧
    members.entries.Pairwise fun e e' => w.graph.root e.2 ≠ w.graph.root e'.2 := by
  have horderly := hw.tidy.members container collection members hmembers hcollection
  refine ⟨fun e he => ⟨horderly.kind e he, horderly.name e he⟩, ?_⟩
  -- the names are distinct, so a member with the same root is the same entry
  have hdistinct : members.entries.Pairwise fun e e' => e ≠ e' := members.nodup_keys.of_map _
  exact hdistinct.imp_of_mem fun he he' hne hsame => hne (horderly.lineage _ he _ he' hsame)

/-- A schema with a projection that renames a property and adds another, and a run of it. -/
def renamedSteps : List Event :=
  [.construct (.model "M"), .construct (.property ⟨25⟩ "a" ⟨4⟩ false),
    .declare "schema" ("projection model#p \x7b to \x7b self.renameProperty(\"a\", \"b\"); " ++
      "self.addProperty(\"a\", string); \x7d \x7d"),
    .run (.tryProject ⟨⟨25⟩, ⟨⟨0⟩, .forward⟩, []⟩)]

def renamedWorkspace : Workspace := renamedSteps.foldl after (ofGraph .initial)

/-- The new property has taken the name of the old one, and is of another lineage. -/
theorem members_orderly_renamed :
    renamedWorkspace.Reachable Event.Regular ∧
      ∃ members, (renamedWorkspace.graph.shape ⟨30⟩).membersIn? .properties = some members ∧
        members.entries = [("b", ⟨27⟩), ("a", ⟨29⟩)] ∧
        renamedWorkspace.graph.lineage ⟨27⟩ = [⟨27⟩, ⟨26⟩] ∧
        (∀ e ∈ members.entries,
          renamedWorkspace.graph.kind e.2 = Kind.modelProperty ∧
            (renamedWorkspace.graph.shape e.2).name? = some e.1) ∧
        members.entries.Pairwise fun e e' =>
          renamedWorkspace.graph.root e.2 ≠ renamedWorkspace.graph.root e'.2 := by
  have hreachable : renamedWorkspace.Reachable Event.Regular := by
    refine Reachable.start.steps (fun e he => ?_) (by decide +kernel)
    simp only [renamedSteps, List.mem_cons, List.not_mem_nil, or_false] at he
    rcases he with rfl | rfl | rfl | rfl <;> trivial
  have hrun : (renamedWorkspace.graph.shape ⟨30⟩).membersIn? .properties =
        some ⟨[("b", ⟨27⟩), ("a", ⟨29⟩)], by decide⟩ ∧
      renamedWorkspace.graph.lineage ⟨27⟩ = [⟨27⟩, ⟨26⟩] := by
    decide +kernel
  exact ⟨hreachable, _, hrun.1, rfl, hrun.2, members_orderly hreachable hrun.1 (by decide)⟩

end Workspace

end SchemaProjection
