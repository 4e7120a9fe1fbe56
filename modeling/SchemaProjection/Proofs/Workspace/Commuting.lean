import SchemaProjection.Proofs.Run.MemberEdits
import SchemaProjection.Proofs.Workspace.Closure

/-!
# Edits of different members commute

Two edits of `self` that deal with different names come to the same in either order, unless both of
them add a member (`MemberEdit.edits_commute`).

The first edit does not touch what the second one is about, so the second one succeeds after it
exactly if it would have succeeded before (`Run.Holds.succeeds_inTurn_iff`), and it leaves the same
there, but for the identity of new nodes (`MemberEdit.Leaves.twins`). As for the entries, each edit
puts what it leaves in the place of one entry, or at the end. In either order every entry gets the
same in its place (`MemberEdit.forall₂_placed`).
-/

namespace SchemaProjection

/-- Entries of two graphs with one name and twins under it. -/
def Graph.Paired (g h : Graph) (x y : String × NodeId) : Prop := x.1 = y.1 ∧ g.Twins h x.2 y.2

theorem NameTable.alike_of_paired {g h : Graph} {s t : NameTable}
    (hentries : List.Forall₂ (g.Paired h) s.entries t.entries) : s.Alike (g.Twins h) t := by
  constructor
  · refine List.forall₂_eq_eq_eq ▸ List.forall₂_map_left_iff.mpr (List.forall₂_map_right_iff.mpr ?_)
    exact hentries.imp fun _ _ h => h.1
  · refine List.forall₂_map_left_iff.mpr (List.forall₂_map_right_iff.mpr ?_)
    exact hentries.imp fun _ _ h => h.2

namespace Edits.TypeRole

variable {role : TypeRole} {type : NodeId} {shape changed : Shape}

/-- To set the type that a node has changes nothing. -/
theorem change?_of_current (h : role.current? shape = some type) :
    role.change? type shape = some shape := by
  cases role <;> cases shape <;> cases h <;> rfl

theorem knows_change {g : Graph} (hshape : g.Knows shape) (htype : g.contains type)
    (h : role.change? type shape = some changed) : g.Knows changed := by
  cases role with
  | declared => exact Graph.knows_withType? htype h
  | returned => exact hshape.withReturnType? htype h

end Edits.TypeRole

namespace MemberEdit

variable {e first second : MemberEdit} {base g h k : Graph} {members : NameTable}
  {left left' right right' : Option (String × NodeId)}

/-! ### What an edit leaves the second time -/

/-- What is left of a retyped member has the shape with the type, whether that is new or not. -/
theorem Leaves.retyped_shape {c : Collection} {name : String} {role : Edits.TypeRole}
    {type : NodeId} (hl : (retype c name role type).Leaves base g members left) (hg : base ≤ g)
    (hmembers : base.Knows members) : ∃ member id shape, left = some (name, id) ∧
      members.get? name = some member ∧ role.change? type (base.shape member) = some shape ∧
      g.shape id = shape := by
  have hshape : ∀ {member}, members.get? name = some member → g.shape member = base.shape member :=
    fun hmember => Graph.shape_of_le hg (hmembers _ (NameTable.mem_values_of_get? hmember))
  cases hl with
  | typed found has_type =>
    exact ⟨_, _, _, rfl, found, Edits.TypeRole.change?_of_current has_type, hshape found⟩
  | retyped found copied =>
    obtain ⟨shape, hchange, hnode⟩ := copied
    rw [hshape found] at hchange
    exact ⟨_, _, shape, rfl, found, hchange, Graph.shape_of_node? hnode⟩

/-- **An edit that is made twice leaves twins.** -/
theorem Leaves.twins (hl : e.Leaves base g members left) (hl' : e.Leaves base h members right)
    (hbase : base.Closed) (hg : base ≤ g) (hh : base ≤ h) (hmembers : base.Knows members)
    (hgiven : base.Knows e.given) : Option.Rel (g.Paired h) left right := by
  have hknown : ∀ {name id}, members.get? name = some id → base.contains id := fun hid =>
    hmembers _ (NameTable.mem_values_of_get? hid)
  cases e with
  | delete c name =>
    cases hl
    cases hl'
    exact .none
  | rename c old new =>
    cases hl with
    | kept found =>
      cases hl' with
      | kept found' =>
        cases found.symm.trans found'
        exact .some ⟨rfl, hbase.twins_self hg hh (hknown found)⟩
      | renamed _ differs => exact absurd rfl differs
    | renamed found differs copied =>
      cases hl' with
      | kept => exact absurd rfl differs
      | renamed found' _ copied' =>
        cases found.symm.trans found'
        exact .some ⟨rfl, hbase.twins_of_derives hg hh (hknown found)
          (fun shape hshape => (hbase.knows_shape _).withName? hshape) copied copied'⟩
  | retype c name role type =>
    obtain ⟨member, id, shape, rfl, found, hchange, hshape⟩ := hl.retyped_shape hg hmembers
    obtain ⟨_, id', shape', rfl, found', hchange', hshape'⟩ := hl'.retyped_shape hh hmembers
    cases found.symm.trans found'
    cases hchange.symm.trans hchange'
    have htype : base.contains type := hgiven type List.mem_cons_self
    have hknows := Edits.TypeRole.knows_change (hbase.knows_shape member) htype hchange
    exact .some ⟨rfl, hbase.twins_of_shape hg hh hknows hshape hshape'⟩
  | add c name value =>
    cases hl with
    | added _ new node =>
      cases hl' with
      | added _ new' node' =>
        have hvalue : base.Knows value := Graph.knows_list_iff.mp hgiven value List.mem_cons_self
        refine .some ⟨rfl, Graph.twins_of_alike ?_⟩
        rw [Graph.shape_of_node? node, Graph.shape_of_node? node']
        exact new.alike new' hbase hg hh hvalue

/-! ### The entries after two edits -/

/-- What an edit leaves bears a name of it. -/
def Named (e : MemberEdit) (left : Option (String × NodeId)) : Prop :=
  ∀ y, left = some y → y.1 ∈ e.names

theorem Leaves.named (hl : e.Leaves g h members left) : e.Named left := by
  rintro y rfl
  exact hl.mem_names

section

variable (hnames : first.names.Disjoint second.names)
include hnames

/-- The second edit does not touch what the first one leaves. -/
theorem placed_placed (hleft : first.Named left) (entries : List (String × NodeId)) :
    second.placed left' (first.placed left entries) =
      entries.filterMap (fun x => if x.1 = first.target then left else second.place left' x) ++
        (first.tail left ++ second.tail left') := by
  have hplace : ∀ y, left = some y → second.place left' y = some y := fun y hy =>
    place_of_ne fun heq => hnames (hleft y hy) (heq ▸ second.target_mem_names)
  have htail : (first.tail left).filterMap (second.place left') = first.tail left := by
    rw [List.filterMap_congr fun y hy => hplace y (mem_tail hy), List.filterMap_some]
  rw [placed, placed, List.filterMap_append, List.filterMap_filterMap, htail, List.append_assoc]
  congr 1
  refine List.filterMap_congr fun x _ => ?_
  by_cases hx : x.1 = first.target
  · rw [place_target hx, if_pos hx]
    cases left with
    | none => rfl
    | some y => exact hplace y rfl
  · rw [place_of_ne hx, if_neg hx]
    rfl

/-- **In either order every entry gets the same in its place**, and the end is the same if one of
the edits puts nothing there. -/
theorem forall₂_placed {T : String × NodeId → String × NodeId → Prop}
    (hadds : first.isAdd = false ∨ second.isAdd = false) (hleft : first.Named left)
    (hright' : second.Named right') {entries : List (String × NodeId)}
    (hself : ∀ x ∈ entries, T x x) (hfirst : Option.Rel T left right)
    (hsecond : Option.Rel T left' right') :
    List.Forall₂ T (second.placed left' (first.placed left entries))
      (first.placed right (second.placed right' entries)) := by
  rw [placed_placed hnames hleft, placed_placed hnames.symm hright']
  refine List.rel_append ?_ ?_
  · refine List.rel_filterMap (R := fun x y => x = y ∧ x ∈ entries) ?_
      (List.forall₂_same.mpr fun x hx => ⟨rfl, hx⟩)
    rintro x _ ⟨rfl, hx⟩
    dsimp only
    by_cases hone : x.1 = first.target
    · have hother : x.1 ≠ second.target := fun heq =>
        hnames first.target_mem_names (hone ▸ heq ▸ second.target_mem_names)
      rw [if_pos hone, if_neg hother, place_target hone]
      exact hfirst
    · rw [if_neg hone, place_of_ne hone]
      by_cases hother : x.1 = second.target
      · rw [if_pos hother, place_target hother]
        exact hsecond
      · rw [if_neg hother, place_of_ne hother]
        exact .some (hself x hx)
  · have htail : ∀ {e : MemberEdit} {o o'}, Option.Rel T o o' →
        List.Forall₂ T (e.tail o) (e.tail o') := by
      intro e o o' hrel
      unfold tail
      split
      · cases hrel with
        | some h => exact .cons h .nil
        | none => exact .nil
      · exact .nil
    rcases hadds with hadds | hadds
    · have hnil : ∀ o, first.tail o = [] := fun o => by rw [tail, hadds]; rfl
      rw [hnil, hnil, List.nil_append, List.append_nil]
      exact htail hsecond
    · have hnil : ∀ o, second.tail o = [] := fun o => by rw [tail, hadds]; rfl
      rw [hnil, hnil, List.nil_append, List.append_nil]
      exact htail hfirst

end

/-! ### Two edits in turn -/

/-- A call that makes an edit. -/
structure Call where
  span : Span
  method : Word
  edit : MemberEdit

/-- **Makes two edits of `self`**, one after the other. -/
def inTurn (apply : Edits.Apply) (first second : Call) : Eval Value := do
  let _ ← first.edit.perform apply first.span first.method
  second.edit.perform apply second.span second.method

/-- A node is what two edits in turn make of another. The first graph is the one before them. -/
def Results (base g : Graph) (node : NodeId) (members : NameTable) (first second : MemberEdit)
    (id : NodeId) : Prop :=
  ∃ table left left', (base.shape node).withMembers? table = some (g.shape id) ∧
    first.Leaves base g members left ∧ second.Leaves base g members left' ∧
    table.entries = second.placed left' (first.placed left members.entries)

variable {node id id' : NodeId}

/-- Where the edits were made does not matter. -/
theorem Results.rebase (hr : Results k g node members first second id) (hbase : base ≤ k)
    (hle : g ≤ h) (hnode : base.contains node) (hmembers : base.Knows members)
    (hfirst : base.Knows first.given) (hsecond : base.Knows second.given) :
    Results base h node members first second id := by
  obtain ⟨table, left, left', hshape, hl, hl', htable⟩ := hr
  have hin := Graph.contains_of_members? (Shape.members?_of_withMembers? hshape)
  refine ⟨table, left, left', ?_, hl.rebase hbase hle (fun _ _ => rfl) hmembers hfirst,
    hl'.rebase hbase hle (fun _ _ => rfl) hmembers hsecond, htable⟩
  rw [Graph.shape_of_le hle hin, ← Graph.shape_of_le hbase hnode]
  exact hshape

/-- **Twins are what the edits make in either order.** -/
theorem Results.twins (hr : Results base g node members first second id)
    (hr' : Results base h node members second first id') (hbase : base.Closed) (hg : base ≤ g)
    (hh : base ≤ h) (hmembers : base.Knows members) (hfirst : base.Knows first.given)
    (hsecond : base.Knows second.given) (hnames : first.names.Disjoint second.names)
    (hadds : first.isAdd = false ∨ second.isAdd = false) : g.Twins h id id' := by
  obtain ⟨table, left, left', hshape, hl, hl', htable⟩ := hr
  obtain ⟨table', right', right, hshape', hr', hr, htable'⟩ := hr'
  have hself : ∀ x ∈ members.entries, g.Paired h x x := fun x hx =>
    ⟨rfl, hbase.twins_self hg hh (hmembers _ (List.mem_map.mpr ⟨x, hx, rfl⟩))⟩
  have hentries := forall₂_placed hnames hadds hl.named hr'.named hself
    (hl.twins hr hbase hg hh hmembers hfirst) (hl'.twins hr' hbase hg hh hmembers hsecond)
  rw [← htable, ← htable'] at hentries
  exact Graph.twins_of_alike
    (Shape.alike_of_withMembers? (NameTable.alike_of_paired hentries) hshape hshape')

end MemberEdit

namespace Run.Holds

open Eval MemberEdit

variable {setting : Setting} {run after : Run} {a : Activation} {rest : List Activation}
  {members : NameTable} (hrun : run.Holds a rest members)
include hrun

/-- The node still has the members when the graph has been extended. -/
theorem later {other : Run} (hle : run.graph ≤ other.graph) (hordered : other.graph.Ordered)
    (hstack : other.activations = a :: rest) : other.Holds a rest members where
  stack := hstack
  ordered := hordered
  found := by
    rw [Graph.shape_of_le hle (Graph.contains_of_members? hrun.found)]
    exact hrun.found
  known := hrun.known.mono hle
  distinct := by
    have hroot : ∀ x ∈ members.entries, other.graph.root x.2 = run.graph.root x.2 := fun x hx =>
      hrun.ordered.root_of_le hle (hrun.known _ (List.mem_map.mpr ⟨x, hx, rfl⟩))
    refine hrun.distinct.imp_of_mem fun hx hy hne => ?_
    rw [hroot _ hx, hroot _ hy]
    exact hne

variable {apply : Edits.Apply} {first second : MemberEdit.Call}
  (hfirst : run.graph.Knows first.edit.given)
  (hnames : first.edit.names.Disjoint second.edit.names)
include hfirst hnames

/-- **Two edits succeed in turn** exactly if the members are in order for each of them. -/
theorem succeeds_inTurn_iff :
    Succeeds setting run (inTurn apply first second) ↔
      first.edit.Admits setting.options run.graph a.self members ∧
        second.edit.Admits setting.options run.graph a.self members := by
  -- after the first edit, the second one finds its names as they were
  have hlater : ∀ {v middle},
      (first.edit.perform apply first.span first.method).result setting run = .ok v middle →
      (Succeeds setting middle (second.edit.perform apply second.span second.method) ↔
        second.edit.Admits setting.options run.graph a.self members) := by
    intro v middle h
    obtain ⟨b, table, left, hmiddle, hle, hshape, hl, htable⟩ := hrun.performed hfirst h
    rw [hmiddle.succeeds_iff]
    exact admits_congr hle (Shape.collection?_of_withMembers? hshape) hrun.known
      fun name hname => get?_of_placed hl htable fun hmem => hnames hmem hname
  constructor
  · rintro ⟨v, after, h⟩
    obtain ⟨_, middle, h, hrest⟩ := ok_of_bind h
    exact ⟨hrun.succeeds_iff.mp ⟨_, _, h⟩, (hlater h).mp ⟨_, _, hrest⟩⟩
  · rintro ⟨hone, hother⟩
    obtain ⟨_, middle, h⟩ := hrun.succeeds_iff.mpr hone
    exact .after h ((hlater h).mpr hother)

variable (hsecond : run.graph.Knows second.edit.given)
include hsecond

/-- **What two edits in turn lead to.** -/
theorem performed_inTurn {v : Value}
    (h : (inTurn apply first second).result setting run = .ok v after) :
    ∃ b table, after.Holds b rest table ∧ run.graph ≤ after.graph ∧
      Results run.graph after.graph a.self members first.edit second.edit b.self := by
  obtain ⟨_, middle, h, hrest⟩ := ok_of_bind h
  obtain ⟨c, between, left, hmiddle, hle, hshape, hl, hbetween⟩ := hrun.performed hfirst h
  obtain ⟨b, table, left', hafter, hle', hshape', hl', htable⟩ :=
    hmiddle.performed (hsecond.mono hle) hrest
  have hsame : ∀ name ∈ second.edit.names, between.get? name = members.get? name :=
    fun name hname => get?_of_placed hl hbetween fun hmem => hnames hmem hname
  refine ⟨b, table, hafter, le_trans hle hle', table, left, left', ?_,
    hl.rebase le_rfl hle' (fun _ _ => rfl) hrun.known hfirst,
    hl'.rebase hle le_rfl hsame hrun.known hsecond, ?_⟩
  · rw [← Shape.withMembers?_of_withMembers? hshape]
    exact hshape'
  · rw [htable, hbetween]

omit hfirst hsecond hnames in
/-- Later, with the same node, the members are in order for the same edits. -/
theorem admits_later {other : Run} (hle : run.graph ≤ other.graph) (options : Options)
    (e : MemberEdit) : e.Admits options other.graph a.self members ↔
      e.Admits options run.graph a.self members := by
  refine admits_congr hle ?_ hrun.known fun _ _ => rfl
  rw [Graph.shape_of_le hle (Graph.contains_of_members? hrun.found)]

/-- **Two edits in turn, now or later.** Where the members are in order for both of them, they lead
to a node that is told by the graph as it is now. -/
theorem exists_results {other : Run} (hle : run.graph ≤ other.graph)
    (hordered : other.graph.Ordered) (hstack : other.activations = a :: rest)
    (hadmits : first.edit.Admits setting.options run.graph a.self members ∧
      second.edit.Admits setting.options run.graph a.self members) :
    ∃ v after b, (inTurn apply first second).result setting other = .ok v after ∧
      after.activations = b :: rest ∧ other.graph ≤ after.graph ∧
      Results run.graph after.graph a.self members first.edit second.edit b.self := by
  have hother : other.Holds a rest members := hrun.later hle hordered hstack
  have hsucceeds : Succeeds setting other (inTurn apply first second) :=
    (hother.succeeds_inTurn_iff (hfirst.mono hle) hnames).mpr
      (hadmits.imp (hrun.admits_later hle _ _).mpr (hrun.admits_later hle _ _).mpr)
  obtain ⟨v, after, h⟩ := hsucceeds
  obtain ⟨b, table, hafter, hle', hresults⟩ :=
    hother.performed_inTurn (hfirst.mono hle) hnames (hsecond.mono hle) h
  exact ⟨v, after, b, h, hafter.stack, hle', hresults.rebase hle le_rfl
    (Graph.contains_of_members? hrun.found) hrun.known hfirst hsecond⟩

end Run.Holds

namespace MemberEdit

open Eval

variable {setting : Setting} {run : Run} {a : Activation} {rest : List Activation}
  {members : NameTable}

/-- **Edits of different members commute**, in any state of a run whose node of the activation has
members of different roots. Two edits that deal with different names, of which at most one adds a
member, succeed in one order exactly if they do so in the other. Then the two nodes that they lead
to, each in the graph of its order, are twins: containers with the same names in the same order and
twins under each name. If the node is put back after the one order and the other one follows in the
same graph, they are structurally equal. -/
theorem edits_commute (hclosed : run.graph.Closed) (hstack : run.activations = a :: rest)
    (hmembers : (run.graph.shape a.self).members? = some members)
    (hroots : members.entries.Pairwise fun x y => run.graph.root x.2 ≠ run.graph.root y.2)
    {first second : Call} (hfirst : run.graph.Knows first.edit.given)
    (hsecond : run.graph.Knows second.edit.given)
    (hnames : first.edit.names.Disjoint second.edit.names)
    (hadds : first.edit.isAdd = false ∨ second.edit.isAdd = false) (apply : Edits.Apply) :
    (Succeeds setting run (inTurn apply first second) ↔
      Succeeds setting run (inTurn apply second first)) ∧
    ∀ v after, (inTurn apply first second).result setting run = .ok v after →
      ∃ b, after.activations = b :: rest ∧
        (∃ v' after' b', (inTurn apply second first).result setting run = .ok v' after' ∧
          after'.activations = b' :: rest ∧ after.graph.Twins after'.graph b.self b'.self) ∧
        ∃ v' after' b',
          (inTurn apply second first).result setting
            { after with activations := run.activations } = .ok v' after' ∧
          after'.activations = b' :: rest ∧
          after'.graph.structurallyEqual b.self b'.self = true := by
  have hrun : run.Holds a rest members :=
    ⟨hstack, hclosed.ordered, hmembers, hclosed.knows_members hmembers, hroots⟩
  have hforth : Succeeds setting run (inTurn apply first second) ↔ _ :=
    hrun.succeeds_inTurn_iff hfirst hnames
  have hback : Succeeds setting run (inTurn apply second first) ↔ _ :=
    hrun.succeeds_inTurn_iff hsecond hnames.symm
  refine ⟨hforth.trans (and_comm.trans hback.symm), fun v after h => ?_⟩
  have hadmits := hforth.mp ⟨v, after, h⟩
  obtain ⟨b, table, hafter, hle, hresults⟩ := hrun.performed_inTurn hfirst hnames hsecond h
  refine ⟨b, hafter.stack, ?_, ?_⟩
  · obtain ⟨v', after', b', h', hstack', hle', hresults'⟩ :=
      hrun.exists_results hsecond hnames.symm hfirst le_rfl hclosed.ordered hstack hadmits.symm
    exact ⟨v', after', b', h', hstack', hresults.twins hresults' hclosed hle hle' hrun.known hfirst
      hsecond hnames hadds⟩
  · -- the other order, in the graph that the first one has left
    have hagain : run.graph ≤ ({ after with activations := run.activations } : Run).graph := hle
    obtain ⟨v', after', b', h', hstack', hle', hresults'⟩ :=
      hrun.exists_results hsecond hnames.symm hfirst hagain hafter.ordered hstack hadmits.symm
    have hwhole := le_trans hle hle'
    have hnode := Graph.contains_of_members? hmembers
    have hlater := hresults.rebase le_rfl hle' hnode hrun.known hfirst hsecond
    exact ⟨v', after', b', h', hstack', Graph.twins_self_iff.mp (hlater.twins hresults' hclosed
      hwhole hwhole hrun.known hfirst hsecond hnames hadds)⟩

/-- A model with two properties, `a` and `b`, in the outermost activation. -/
def twoProperties : Run :=
  let g := (Graph.initial.push ⟨none, .modelProperty "a" ⟨4⟩ false⟩).push
    ⟨none, .modelProperty "b" ⟨4⟩ false⟩
  let members := NameTable.ofList [("a", ⟨25⟩), ("b", ⟨26⟩)]
  { Run.start (g.push ⟨none, .model (some "M") members⟩) .empty none with
    activations := [.start 1 ⟨27⟩ .forward 0 []] }

def renameProperty : Call :=
  ⟨default, ⟨"renameProperty", default⟩, .rename .properties "a" "c"⟩

def addProperty : Call :=
  ⟨default, ⟨"addProperty", default⟩, .add .properties "d" (.string "x")⟩

/-- The property `c` stands where `a` was, and `d`, whose type is a new literal each time, at the
end. -/
theorem edits_commute_rename_add :
    twoProperties.graph.Closed ∧ renameProperty.edit.names.Disjoint addProperty.edit.names ∧
    ∃ v after b, (inTurn (fun _ node _ _ => pure node) renameProperty addProperty).result
        ⟨.empty, [], .default⟩ twoProperties = .ok v after ∧ after.activations = [b] ∧
      (after.graph.shape b.self).members?.map NameTable.keys = some ["c", "b", "d"] ∧
      (∃ v' after' b', (inTurn (fun _ node _ _ => pure node) addProperty renameProperty).result
        ⟨.empty, [], .default⟩ twoProperties = .ok v' after' ∧ after'.activations = [b'] ∧
        after.graph.Twins after'.graph b.self b'.self) ∧
      ∃ v' after' b', (inTurn (fun _ node _ _ => pure node) addProperty renameProperty).result
          ⟨.empty, [], .default⟩ { after with activations := twoProperties.activations } =
          .ok v' after' ∧
        after'.activations = [b'] ∧ after'.graph.structurallyEqual b.self b'.self = true := by
  have hok : okAnd (fun _ after => decide (after.activations.map (fun b =>
        (after.graph.shape b.self).members?.map NameTable.keys) = [some ["c", "b", "d"]]))
      ((inTurn (fun _ node _ _ => pure node) renameProperty addProperty).result
        ⟨.empty, [], .default⟩ twoProperties) := by
    decide +kernel
  obtain ⟨v, after, hafter, hkeys⟩ := of_okAnd hok
  have hclosed : twoProperties.graph.Closed := by
    refine ((Graph.closed_initial.push ?_).push ?_).push ?_ <;>
      · unfold Graph.Knows
        decide +kernel
  have hstate : (twoProperties.graph.shape ⟨27⟩).members? =
        some (.ofList [("a", ⟨25⟩), ("b", ⟨26⟩)]) ∧
      ((NameTable.ofList [("a", ⟨25⟩), ("b", ⟨26⟩)]).entries.Pairwise fun x y =>
        twoProperties.graph.root x.2 ≠ twoProperties.graph.root y.2) ∧
      renameProperty.edit.names.Disjoint addProperty.edit.names := by
    unfold List.Disjoint
    decide +kernel
  obtain ⟨hmembers, hroots, hnames⟩ := hstate
  obtain ⟨b, hstack, hsame, hagain⟩ := (edits_commute hclosed rfl hmembers hroots
    (Graph.knows_of_refs_eq_nil rfl) (Graph.knows_of_refs_eq_nil rfl) hnames (.inl rfl)
    (fun _ node _ _ => pure node)).2 v after hafter
  rw [hstack] at hkeys
  have hkeys := of_decide_eq_true hkeys
  exact ⟨hclosed, hnames, v, after, b, hafter, hstack, (List.cons.inj hkeys).1, hsame, hagain⟩

end MemberEdit

end SchemaProjection
