import SchemaProjection.Proofs.Graph.Construction
import SchemaProjection.Proofs.Graph.Growth
import SchemaProjection.Proofs.Graph.Versions

/-!
# Orderly members

What a container keeps under a name is stored in several places: the name is the key in its table
and the name of the member itself, the kind of the member goes with the collection, and the lineage
tells which member of an older container it is. The members of a container are **orderly**
(`Graph.OrderlyMembers`) if all of these agree and no two members share a lineage, and a graph is
**tidy** if this holds of its containers (`Graph.Tidy`).

An operation may be replaced by any node that a projection makes of it, so it is a parameter for
which collections this holds. If a replacement is a version of the operation, edits keep a graph
tidy (`Graph.Tidy.edited`), and so do the parts that they allocate (`Graph.Tidy.supplied`) and a
change of a container under construction (`Graph.Tidy.reshape`).
-/

namespace SchemaProjection

namespace Shape

variable {shape changed : Shape} {members : NameTable}

theorem collection?_of_withMembers? (h : shape.withMembers? members = some changed) :
    changed.collection? = shape.collection? :=
  collection?_of_kind (kind_of_withMembers? h)

end Shape

theorem Collection.memberKind_ne_intrinsic (collection : Collection) :
    collection.memberKind ≠ .intrinsic := by
  cases collection <;> decide

namespace Graph

variable {g h k : Graph} {wanted : Collection → Prop} {collection : Collection}
  {members table : NameTable} {container : NodeId}

/-- **Orderly members**: of the kind of the collection, under their own names, and no two of one
lineage. -/
structure OrderlyMembers (g : Graph) (collection : Collection) (members : NameTable) : Prop where
  kind : ∀ e ∈ members.entries, g.kind e.2 = collection.memberKind
  name : ∀ e ∈ members.entries, (g.shape e.2).name? = some e.1
  lineage : ∀ e ∈ members.entries, ∀ e' ∈ members.entries, g.root e.2 = g.root e'.2 → e = e'

/-- **Tidy graphs**: copies are of the kind of what they were copied from, and the members of every
container that keeps them in a wanted collection are orderly. -/
structure Tidy (g : Graph) (wanted : Collection → Prop) : Prop where
  ordered : g.Ordered
  kinds : ∀ id origin, g.origin? id = some origin → g.kind id = g.kind origin
  members : ∀ container collection members,
    (g.shape container).membersIn? collection = some members → wanted collection →
      g.OrderlyMembers collection members

/-! ### Containers under construction -/

theorem origin?_reshape (g : Graph) (container : NodeId) (shape : Shape) (id : NodeId) :
    (g.reshape container shape).origin? id = g.origin? id := by
  rw [origin?, origin?, node?_reshape]
  split
  · cases g.node? id <;> rfl
  · rfl

theorem shape_reshape (hcontainer : g.contains container) {changed : Shape} (id : NodeId) :
    (g.reshape container changed).shape id = if id = container then changed else g.shape id := by
  rw [shape, node?_reshape]
  by_cases hid : id = container
  · obtain ⟨node, hnode⟩ := exists_node?_of_contains hcontainer
    rw [if_pos hid, if_pos hid, hid, hnode]
    rfl
  · rw [if_neg hid, if_neg hid, shape]

/-- A container keeps its kind when it gets other members. -/
theorem kind_reshape {table : NameTable} {changed : Shape}
    (hchanged : (g.shape container).withMembers? table = some changed) (id : NodeId) :
    (g.reshape container changed).kind id = g.kind id := by
  rw [kind, shape_reshape (contains_of_read rfl hchanged), kind]
  split
  · next hid =>
    rw [hid]
    exact Shape.kind_of_withMembers? hchanged
  · rfl

/-! ### Members in other graphs -/

namespace OrderlyMembers

theorem contains (hm : g.OrderlyMembers collection members) {e : String × NodeId}
    (he : e ∈ members.entries) : g.contains e.2 :=
  contains_of_shape_ne fun hunknown => by
    have hkind := hm.kind e he
    rw [Graph.kind, hunknown] at hkind
    exact collection.memberKind_ne_intrinsic hkind.symm

/-- Members read the same in a graph in which nothing about them has changed. -/
theorem congr (hm : g.OrderlyMembers collection members)
    (hkind : ∀ e ∈ members.entries, h.kind e.2 = g.kind e.2)
    (hname : ∀ e ∈ members.entries, (h.shape e.2).name? = (g.shape e.2).name?)
    (hroot : ∀ e ∈ members.entries, h.root e.2 = g.root e.2) :
    h.OrderlyMembers collection members where
  kind e he := (hkind e he).trans (hm.kind e he)
  name e he := (hname e he).trans (hm.name e he)
  lineage e he e' he' hsame := by
    rw [hroot e he, hroot e' he'] at hsame
    exact hm.lineage e he e' he' hsame

theorem mono (hm : g.OrderlyMembers collection members) (hg : g.Ordered) (hle : g ≤ h) :
    h.OrderlyMembers collection members := by
  have hshape : ∀ e ∈ members.entries, h.shape e.2 = g.shape e.2 := fun e he =>
    shape_of_le hle (hm.contains he)
  refine hm.congr (fun e he => ?_) (fun e he => ?_) fun e he => ?_
  · rw [Graph.kind, Graph.kind, hshape e he]
  · rw [hshape e he]
  · exact hg.root_of_le hle (hm.contains he)

/-- Members in the beginning of a graph are orderly there. -/
theorem of_le (hm : h.OrderlyMembers collection members) (hg : g.Ordered) (hle : g ≤ h)
    (hknown : g.Knows members) : g.OrderlyMembers collection members := by
  have hin : ∀ e ∈ members.entries, g.contains e.2 := fun e he =>
    hknown e.2 (List.mem_map.mpr ⟨e, he, rfl⟩)
  refine hm.congr (fun e he => ?_) (fun e he => ?_) fun e he => ?_
  · rw [Graph.kind, Graph.kind, shape_of_le hle (hin e he)]
  · rw [shape_of_le hle (hin e he)]
  · exact (hg.root_of_le hle (hin e he)).symm

/-- Members read the same where a container has got other members: it keeps its kind and its name,
and all nodes keep their origins. -/
theorem reshape (hm : g.OrderlyMembers collection members) (hg : g.Ordered) {shape : Shape}
    (hchanged : (g.shape container).withMembers? table = some shape) :
    (g.reshape container shape).OrderlyMembers collection members := by
  have hcontainer : g.contains container := contains_of_read rfl hchanged
  refine hm.congr (fun e _ => kind_reshape hchanged e.2) (fun e _ => ?_) fun e _ => ?_
  · rw [shape_reshape hcontainer]
    split
    · next hid =>
      rw [hid]
      exact Shape.name?_of_withMembers? hchanged
    · rfl
  · exact hg.root_congr fun other _ => origin?_reshape g container shape other

/-! ### Edited members -/

/-- No two entries have the same root. -/
theorem pairwise (hm : g.OrderlyMembers collection members) :
    members.entries.Pairwise fun e e' => g.root e.2 ≠ g.root e'.2 := by
  -- the names are distinct, so a member with the same root is the same entry
  have hdistinct : members.entries.Pairwise fun e e' => e ≠ e' := members.nodup_keys.of_map _
  exact hdistinct.imp_of_mem fun he he' hne hsame => hne (hm.lineage _ he _ he' hsame)

theorem empty (g : Graph) (collection : Collection) : g.OrderlyMembers collection .empty :=
  ⟨fun _ he => (nomatch he), fun _ he => (nomatch he), fun _ he => nomatch he⟩

theorem subset (hm : g.OrderlyMembers collection members)
    (hsub : ∀ e ∈ table.entries, e ∈ members.entries) : g.OrderlyMembers collection table :=
  ⟨fun e he => hm.kind e (hsub e he), fun e he => hm.name e (hsub e he),
    fun e he e' he' => hm.lineage e (hsub e he) e' (hsub e' he')⟩

/-- **A new member** of its own lineage. -/
theorem insert (hm : g.OrderlyMembers collection members) {name : String} {member : NodeId}
    (hfree : members.contains name = false) (hkind : g.kind member = collection.memberKind)
    (hname : (g.shape member).name? = some name)
    (hroot : ∀ e ∈ members.entries, g.root e.2 ≠ g.root member) :
    g.OrderlyMembers collection (members.insert name member) := by
  have hentries : ∀ e ∈ (members.insert name member).entries,
      e ∈ members.entries ∨ e = (name, member) := by
    intro e he
    rw [NameTable.entries_insert hfree] at he
    exact (List.mem_append.mp he).imp_right List.mem_singleton.mp
  refine ⟨fun e he => ?_, fun e he => ?_, fun e he e' he' hsame => ?_⟩
  · rcases hentries e he with hold | rfl
    · exact hm.kind e hold
    · exact hkind
  · rcases hentries e he with hold | rfl
    · exact hm.name e hold
    · exact hname
  · -- the new member shares its lineage with none of the old ones
    rcases hentries e he with hold | rfl <;> rcases hentries e' he' with hold' | rfl
    · exact hm.lineage e hold e' hold' hsame
    · exact absurd hsame (hroot e hold)
    · exact absurd hsame.symm (hroot e' hold')
    · rfl

/-- **A new node as a member.** It is its own root, and the roots of the old members are old. -/
theorem insert_new (hm : g.OrderlyMembers collection members) (hg : g.Ordered) (hle : g ≤ h)
    {name : String} {member : NodeId} {shape : Shape} (hfree : members.contains name = false)
    (hnode : h.node? member = some ⟨none, shape⟩) (hfresh : ¬ g.contains member)
    (hkind : shape.kind = collection.memberKind) (hname : shape.name? = some name) :
    h.OrderlyMembers collection (members.insert name member) := by
  refine (hm.mono hg hle).insert hfree ?_ ?_ fun e he hsame => hfresh ?_
  · rw [Graph.kind, shape_of_node? hnode]
    exact hkind
  · rw [shape_of_node? hnode]
    exact hname
  · rw [root_of_origin?_none (origin?_of_node? hnode), hg.root_of_le hle (hm.contains he)] at hsame
    rw [← hsame]
    exact hg.contains_root (hm.contains he)

/-- **A copy in place of a member**, under the name that the copy has. -/
theorem substitute (hm : g.OrderlyMembers collection members) {name new : String}
    {member copy : NodeId} (hfound : members.get? name = some member)
    (hentries : ∀ e ∈ table.entries, e = (new, copy) ∨ (e ∈ members.entries ∧ e.1 ≠ name))
    (hkind : g.kind copy = g.kind member) (hname : (g.shape copy).name? = some new)
    (hroot : g.root copy = g.root member) : g.OrderlyMembers collection table := by
  have hmember : (name, member) ∈ members.entries := NameTable.get?_iff.mp hfound
  -- no other entry shares its lineage with the replaced one
  have hother : ∀ e ∈ members.entries, e.1 ≠ name → g.root e.2 ≠ g.root copy := by
    intro e he hne hsame
    have heq := hm.lineage e he (name, member) hmember (hsame.trans hroot)
    exact hne (heq ▸ rfl)
  refine ⟨fun e he => ?_, fun e he => ?_, fun e he e' he' hsame => ?_⟩
  · rcases hentries e he with rfl | ⟨hold, -⟩
    · exact hkind.trans (hm.kind (name, member) hmember)
    · exact hm.kind e hold
  · rcases hentries e he with rfl | ⟨hold, -⟩
    · exact hname
    · exact hm.name e hold
  · rcases hentries e he with rfl | ⟨hold, hne⟩ <;> rcases hentries e' he' with rfl | ⟨hold', hne'⟩
    · rfl
    · exact absurd hsame.symm (hother e' hold' hne')
    · exact absurd hsame (hother e hold hne)
    · exact hm.lineage e hold e' hold' hsame

/-- **A version in place of a member** keeps the members orderly. -/
theorem replace (hm : g.OrderlyMembers collection members) {name : String} {member made : NodeId}
    (hfound : members.get? name = some member) (hmade : g.Version member made) :
    g.OrderlyMembers collection (members.replace name made) := by
  have hentries : ∀ e ∈ (members.replace name made).entries,
      e = (name, made) ∨ (e ∈ members.entries ∧ e.1 ≠ name) := fun e he =>
    (NameTable.mem_replace he).imp_left And.left
  refine hm.substitute hfound hentries hmade.kind ?_ hmade.root
  rw [hmade.name?]
  exact hm.name (name, member) (NameTable.get?_iff.mp hfound)

end OrderlyMembers

/-! ### Tidy graphs -/

/-- What the edit of an interface puts in the place of an operation is a version of it. -/
def KeepsOperation (g h : Graph) (container updated : NodeId) (i : Instruction) : Prop :=
  i.edit = .project .operations → ∀ member made, g.member? container i.target = some member →
    h.member? updated i.target = some made → g.Version member made

/-- A copy has the kind of what it was copied from, if the change keeps it, and its root. -/
theorem Derives.kind_root {id copy : NodeId} {change : Shape → Option Shape}
    (hd : g.Derives id change copy) (hg : g.Ordered)
    (hchange : ∀ {shape changed}, change shape = some changed → changed.kind = shape.kind) :
    g.kind copy = g.kind id ∧ g.root copy = g.root id := by
  obtain ⟨shape, hshape, hnode⟩ := hd
  refine ⟨?_, hg.root_of_origin? (origin?_of_node? hnode)⟩
  rw [kind, kind, shape_of_node? hnode]
  exact hchange hshape

namespace Tidy

/-- **Nodes of one lineage are of one kind.** -/
theorem kind_of_mem_lineage (hg : g.Tidy wanted) {id other : NodeId} (h : other ∈ g.lineage id) :
    g.kind other = g.kind id := by
  obtain ⟨i⟩ := id
  -- on the position of the node: an origin stands before it
  induction i using Nat.strongRecOn with
  | ind i ih =>
    cases horigin : g.origin? ⟨i⟩ with
    | none =>
      rw [lineage_of_origin?_none horigin] at h
      rw [List.mem_singleton.mp h]
    | some origin =>
      rw [hg.ordered.lineage_of_origin? horigin] at h
      rcases List.mem_cons.mp h with rfl | hrest
      · rfl
      · exact (ih origin.index (hg.ordered _ _ horigin) hrest).trans (hg.kinds _ _ horigin).symm

theorem kind_root (hg : g.Tidy wanted) (id : NodeId) : g.kind (g.root id) = g.kind id :=
  hg.kind_of_mem_lineage (List.mem_of_getLast? (getLast?_lineage g id))

/-- Nodes with one root are of one kind. -/
theorem kind_of_sameLineage (hg : g.Tidy wanted) {id other : NodeId}
    (h : g.sameLineage id other) : g.kind id = g.kind other := by
  rw [← hg.kind_root id, ← hg.kind_root other, of_decide_eq_true h]

/-- A tidy graph is tidy for fewer collections. -/
theorem weaken (hg : g.Tidy wanted) {fewer : Collection → Prop}
    (hfewer : ∀ collection, fewer collection → wanted collection) : g.Tidy fewer :=
  ⟨hg.ordered, hg.kinds, fun container collection members hmembers hcollection =>
    hg.members container collection members hmembers (hfewer collection hcollection)⟩

/-- A node whose members, if it is a container, are orderly. -/
theorem push (hg : g.Tidy wanted) {node : Node}
    (horigin : ∀ origin, node.origin = some origin →
      g.contains origin ∧ node.shape.kind = g.kind origin)
    (hnode : ∀ collection members, node.shape.membersIn? collection = some members →
      wanted collection → g.OrderlyMembers collection members) : (g.push node).Tidy wanted := by
  have hshape : ∀ id : NodeId, (g.push node).shape id =
      if id.index = g.size then node.shape else g.shape id := by
    intro id
    rw [shape, shape, node?_push]
    split <;> rfl
  refine ⟨hg.ordered.push fun origin h => (horigin origin h).1, fun id origin h => ?_,
    fun container collection members hmembers hcollection => ?_⟩
  · rw [origin?, node?_push] at h
    by_cases hnew : id.index = g.size
    · rw [if_pos hnew] at h
      obtain ⟨hknown, hkind⟩ := horigin origin h
      rw [kind, hshape, if_pos hnew, kind, shape_of_le (le_push g node) hknown]
      exact hkind
    · rw [if_neg hnew] at h
      have hknown : g.contains origin :=
        contains_of_index_le (contains_of_origin? h) (Nat.le_of_lt (hg.ordered id origin h))
      rw [kind, hshape, if_neg hnew, kind, shape_of_le (le_push g node) hknown]
      exact hg.kinds id origin h
  · refine OrderlyMembers.mono ?_ hg.ordered (le_push g node)
    rw [hshape] at hmembers
    by_cases hnew : container.index = g.size
    · rw [if_pos hnew] at hmembers
      exact hnode collection members hmembers hcollection
    · rw [if_neg hnew] at hmembers
      exact hg.members container collection members hmembers hcollection

/-- **Parts keep a graph tidy.** -/
theorem supplied (hg : g.Tidy wanted) (hs : g.Supplied h) : h.Tidy wanted := by
  induction hs with
  | refl => exact hg
  | create shape childless _ ih =>
    refine ih.push (fun _ h => nomatch h) fun collection members hmembers _ => ?_
    rw [childless members (Shape.membersIn?_iff.mp hmembers).2]
    exact .empty _ _
  | @derive h id shape known same_kind same_members _ ih =>
    refine ih.push (fun origin h => Option.some.inj h ▸ ⟨known, same_kind⟩)
      fun collection members hmembers hcollection => ?_
    -- the copy has the members of the original
    obtain ⟨hc, hm⟩ := Shape.membersIn?_iff.mp hmembers
    refine ih.members id collection members (Shape.membersIn?_iff.mpr ⟨?_, ?_⟩) hcollection
    · exact (Shape.collection?_of_kind same_kind).symm.trans hc
    · exact same_members.symm.trans hm

/-- **A container with other members** keeps a graph tidy if these are orderly. -/
theorem push_container (hg : g.Tidy wanted) (hcontainer : g.contains container) {shape : Shape}
    (hchanged : (g.shape container).withMembers? table = some shape)
    (htable : ∀ collection, (g.shape container).collection? = some collection →
      wanted collection → g.OrderlyMembers collection table) :
    (g.push ⟨some container, shape⟩).Tidy wanted := by
  refine hg.push (fun origin h => Option.some.inj h ▸
      ⟨hcontainer, Shape.kind_of_withMembers? hchanged⟩)
    fun collection members hmembers hcollection => ?_
  obtain ⟨hc, hm⟩ := Shape.membersIn?_iff.mp hmembers
  rw [Shape.members?_of_withMembers? hchanged] at hm
  cases hm
  rw [Shape.collection?_of_withMembers? hchanged] at hc
  exact htable collection hc hcollection

/-- The members of a container of a tidy graph. -/
theorem members_of (hg : g.Tidy wanted) (hmembers : (g.shape container).members? = some members)
    (hcollection : (g.shape container).collection? = some collection)
    (hwanted : wanted collection) : g.OrderlyMembers collection members :=
  hg.members container collection members (Shape.membersIn?_iff.mpr ⟨hcollection, hmembers⟩)
    hwanted

/-- The members that an edit makes are orderly. -/
private theorem orderly_of_makes (hg : g.Tidy wanted) (hk : k.Tidy wanted) (hle : g ≤ k)
    {i : Instruction} (hfound : (g.shape container).members? = some members)
    (hcollection : (g.shape container).collection? = some collection)
    (hedit : ∀ c, i.edit.collection? = some c → (g.shape container).collection? = some c)
    (hwanted : wanted collection) (hmakes : Makes g k members i table)
    (hproject : collection = .operations → i.edit = .project .operations → ∀ member made,
      members.get? i.target = some member → table.get? i.target = some made →
        g.Version member made) :
    k.OrderlyMembers collection table := by
  have hold : g.OrderlyMembers collection members := hg.members_of hfound hcollection hwanted
  have hm : k.OrderlyMembers collection members := hold.mono hg.ordered hle
  have hsame : ∀ c, i.edit.collection? = some c → c = collection := fun c hc =>
    Option.some.inj ((hedit c hc).symm.trans hcollection)
  cases hmakes with
  | @add c name v member shape free new node fresh =>
    obtain rfl : c = collection := hsame c rfl
    exact hold.insert_new hg.ordered hle free node fresh new.kind new.name?
  | delete present =>
    refine hm.subset fun e he => ?_
    rw [NameTable.entries_erase] at he
    exact List.mem_of_mem_filter he
  | @rename c old new member copy found differs free copied =>
    obtain ⟨hcopy, hroot⟩ := copied.kind_root hk.ordered Shape.kind_of_withName?
    obtain ⟨shape, hshape, hnode⟩ := copied
    have hentries : ∀ e ∈ (members.rename old new copy).entries,
        e = (new, copy) ∨ (e ∈ members.entries ∧ e.1 ≠ old) := fun e he =>
      (NameTable.mem_rename free he).imp_left And.left
    refine hm.substitute found hentries hcopy ?_ hroot
    rw [shape_of_node? hnode]
    exact Shape.name?_of_withName? hshape
  | @project c name projection args member made found differs retyped =>
    obtain rfl : c = collection := hsame c rfl
    by_cases hoperations : c = .operations
    · have hmade : (members.replace name made).get? name = some made :=
        NameTable.get?_replace (NameTable.contains_of_get? found)
      have hversion := hproject hoperations (hoperations ▸ rfl) member made found hmade
      exact hm.replace found (hversion.mono hg.ordered hle)
    -- other members are not replaced, only their types are
    · obtain ⟨type, hcopy⟩ := retyped hoperations
      exact hm.replace found
        (hcopy.version hk.ordered (Shape.alters_withType? type) Shape.name?_of_withType?)
  | @setType name type member copy found retyped =>
    exact hm.replace found
      (retyped.version hk.ordered (Shape.alters_withType? type) Shape.name?_of_withType?)
  | @setReturnType name type member copy found retyped =>
    have hversion := retyped.version hk.ordered (Shape.alters_withReturnType? type)
      Shape.name?_of_withReturnType?
    exact hm.replace found hversion

/-- **Edits keep a graph tidy.** -/
theorem edited (hg : g.Tidy wanted) {i : Instruction} {updated : NodeId}
    (he : g.Edited container i h updated)
    (hproject : wanted .operations → KeepsOperation g h container updated i) : h.Tidy wanted := by
  cases he with
  | @mk k members table shape supplied found hcollection makes changed =>
    have hk := hg.supplied supplied
    have hin := contains_of_members? found
    have hshape := shape_of_le supplied.extends hin
    refine hk.push_container (contains_of_le supplied.extends hin) (hshape.symm ▸ changed)
      fun c hc hwanted => ?_
    rw [hshape] at hc
    refine orderly_of_makes hg hk supplied.extends found hc hcollection hwanted makes
      fun hoperations hedit member made hmember hmade => ?_
    refine hproject (hoperations ▸ hwanted) hedit member made ?_ ?_
    · rw [member?, found]
      exact hmember
    · rw [member?, shape_of_node? (k.node?_push_nextId _), Shape.members?_of_withMembers? changed]
      exact hmade

/-- A copy of a member, put in its place, keeps a graph tidy. -/
theorem copied (hg : g.Tidy wanted) {name : String} {member : NodeId} {shape : Shape}
    (hfound : (g.shape container).members? = some members)
    (hmember : members.get? name = some member) (hin : g.contains member)
    (hchanged : (g.shape container).withMembers? (members.replace name g.nextId) = some shape) :
    ((g.push ⟨some member, g.shape member⟩).push ⟨some container, shape⟩).Tidy wanted := by
  have hcontainer := contains_of_members? hfound
  have hle := le_push g ⟨some member, g.shape member⟩
  have hk : (g.push ⟨some member, g.shape member⟩).Tidy wanted :=
    hg.supplied (.derive member _ hin rfl rfl .refl)
  have hshape := shape_of_le hle hcontainer
  refine hk.push_container (contains_of_le hle hcontainer) (hshape.symm ▸ hchanged)
    fun c hc hwanted => ?_
  rw [hshape] at hc
  have hm := (hg.members_of hfound hc hwanted).mono hg.ordered hle
  exact hm.replace hmember (version_nextId hg.ordered hin rfl rfl)

/-- The names of declarations play no part. -/
theorem of_nodes (hg : g.Tidy wanted) (hnodes : h.nodes = g.nodes) : h.Tidy wanted := by
  have horigin : ∀ id, h.origin? id = g.origin? id := by
    intro id
    rw [origin?, origin?, node?, node?, hnodes]
  have hshape : ∀ id, h.shape id = g.shape id := by
    intro id
    rw [Graph.shape, Graph.shape, node?, node?, hnodes]
  refine ⟨fun id origin h => hg.ordered id origin ((horigin id).symm.trans h),
    fun id origin h => ?_, ?_⟩
  · rw [kind, kind, hshape, hshape]
    exact hg.kinds id origin ((horigin id).symm.trans h)
  intro container collection members hmembers hne
  rw [hshape] at hmembers
  refine (hg.members container collection members hmembers hne).congr (fun e _ => ?_)
    (fun e _ => ?_) fun e _ => hg.ordered.root_congr fun other _ => horigin other
  · rw [kind, kind, hshape]
  · rw [hshape]

/-- **A container under construction** that gets orderly members keeps a graph tidy. It changes in
its place, so all other nodes stay. -/
theorem reshape (hg : g.Tidy wanted) {shape : Shape}
    (hchanged : (g.shape container).withMembers? table = some shape)
    (htable : ∀ collection, (g.shape container).collection? = some collection →
      wanted collection → g.OrderlyMembers collection table) :
    (g.reshape container shape).Tidy wanted := by
  have hcontainer : g.contains container := contains_of_read rfl hchanged
  refine ⟨fun id origin h => ?_, fun id origin h => ?_,
    fun id collection members hmembers hne => ?_⟩
  · rw [origin?_reshape] at h
    exact hg.ordered id origin h
  · rw [origin?_reshape] at h
    rw [kind_reshape hchanged, kind_reshape hchanged]
    exact hg.kinds id origin h
  · rw [shape_reshape hcontainer] at hmembers
    split at hmembers
    · obtain ⟨hc, hm⟩ := Shape.membersIn?_iff.mp hmembers
      rw [Shape.members?_of_withMembers? hchanged] at hm
      cases hm
      rw [Shape.collection?_of_withMembers? hchanged] at hc
      exact (htable collection hc hne).reshape hg.ordered hchanged
    · exact (hg.members id collection members hmembers hne).reshape hg.ordered hchanged

/-- **What comes first in a tidy graph** is tidy if it is closed. -/
theorem of_le (hh : h.Tidy wanted) (hg : g.Closed) (hle : g ≤ h) : g.Tidy wanted where
  ordered := hg.ordered
  kinds id origin horigin := by
    have hid := contains_of_origin? horigin
    have hknown := contains_of_index_le hid (Nat.le_of_lt (hg.ordered id origin horigin))
    rw [kind, kind, ← shape_of_le hle hid, ← shape_of_le hle hknown]
    exact hh.kinds id origin ((origin?_of_le hle hid).trans horigin)
  members container collection members hmembers hne := by
    have hfound := (Shape.membersIn?_iff.mp hmembers).2
    have hcontainer := contains_of_members? hfound
    rw [← shape_of_le hle hcontainer] at hmembers
    exact (hh.members container collection members hmembers hne).of_le hg.ordered hle
      (hg.knows_members hfound)

end Tidy

end Graph

end SchemaProjection
