import SchemaProjection.Proofs.Graph.Twins
import SchemaProjection.Proofs.Run.Succeeding

/-!
# Edits of one member

A `MemberEdit` deletes, renames, retypes or adds one member of `self`. What it needs and what it
leaves is told here by the name of the member alone.

* It succeeds if the members are in order for it (`MemberEdit.Admits`,
  `Run.Holds.succeeds_iff`). Only the names of the edit have a part in this
  (`MemberEdit.admits_congr`).
* It leaves an entry in the place of the one of that name, or none, or a new one at the end
  (`MemberEdit.Leaves`, `MemberEdit.placed`). All others stay (`Run.Holds.performed`).

All of this holds of an activation whose node has members of different roots (`Run.Holds`). One edit
leads from there to such a state again, so the edits can be made one after the other.
-/

namespace SchemaProjection

/-- **An edit of one member** of the node of an activation. -/
inductive MemberEdit
  | delete (collection : Collection) (name : String)
  | rename (collection : Collection) (old new : String)
  /-- Reads a member and sets its type or return type. -/
  | retype (collection : Collection) (name : String) (role : Edits.TypeRole) (type : NodeId)
  | add (collection : Collection) (name : String) (value : Value)

namespace MemberEdit

/-- The collection that the member is looked for in. -/
def collection : MemberEdit → Collection
  | delete c _ | rename c _ _ | retype c _ _ _ | add c _ _ => c

/-- The name that the member is called by. -/
def target : MemberEdit → String
  | delete _ name | rename _ name _ | retype _ name _ _ | add _ name _ => name

/-- All names that the edit deals with. -/
def names : MemberEdit → List String
  | delete _ name | retype _ name _ _ | add _ name _ => [name]
  | rename _ old new => [old, new]

/-- The value that the edit is given, if it is given one. -/
def given : MemberEdit → List Value
  | delete _ _ | rename _ _ _ => []
  | retype _ _ _ type => [.type type]
  | add _ _ value => [value]

def isAdd : MemberEdit → Bool
  | delete _ _ | rename _ _ _ | retype _ _ _ _ => false
  | add _ _ _ => true

/-- The instruction as which the edit takes effect. -/
def instruction : MemberEdit → Instruction
  | delete c name => ⟨.delete c, name, []⟩
  | rename c old new => ⟨.rename c, old, [.string new]⟩
  | retype _ name role type => ⟨role.edit, name, [.type type]⟩
  | add c name value => ⟨.add c, name, [value]⟩

/-- Makes the edit on a node. -/
def on (apply : Edits.Apply) (span : Span) (method : Word) (node : NodeId) :
    MemberEdit → Eval Value
  | delete c name =>
    Edits.run apply ⟨span, method, node, [.value (.string name)]⟩ (.edit (.delete c))
  | rename c old new =>
    Edits.run apply ⟨span, method, node, [.value (.string old), .value (.string new)]⟩
      (.edit (.rename c))
  | retype c name role type => do
    match ← Edits.run apply ⟨span, method, node, [.value (.string name)]⟩ (.get c) with
    | .type member =>
      Edits.run apply ⟨span, method, member, [.value (.type type)]⟩ (.edit role.edit)
    | v => return v
  | add c name value =>
    Edits.run apply ⟨span, method, node, [.value (.string name), .value value]⟩ (.edit (.add c))

/-- **Makes the edit on `self`.** -/
def perform (apply : Edits.Apply) (span : Span) (method : Word) (e : MemberEdit) : Eval Value := do
  e.on apply span method (← Eval.self)

/-- **The members are in order for the edit**: it looks in the collection of the node, a member that
it needs is there and can be changed like that, and a name that it gives is free. -/
def Admits (options : Options) (g : Graph) (node : NodeId) (members : NameTable)
    (e : MemberEdit) : Prop :=
  (g.shape node).collection? = some e.collection ∧
    match e with
    | delete _ name => members.contains name ∨ options.absentMember = .ignore
    | rename _ old new => ∃ member, members.get? old = some member ∧ (old = new ∨
        members.contains new = false ∧ ∃ shape, (g.shape member).withName? new = some shape)
    | retype _ name role _ => ∃ member, members.get? name = some member ∧
        role.applies (g.kind member)
    | add _ name _ => members.contains name = false

/-- The edit would change nothing. -/
def Idle (g : Graph) (members : NameTable) : MemberEdit → Prop
  | delete _ name => members.contains name = false
  | rename _ old new => old = new ∧ ∃ member, members.get? old = some member
  | retype _ name role type => ∃ member, members.get? name = some member ∧
      role.current? (g.shape member) = some type
  | add _ _ _ => False

/-- **What the edit leaves** of the member, as an entry. The first graph is the one in which it is
made, the second one has the nodes that are made for it. -/
inductive Leaves (g h : Graph) (members : NameTable) :
    MemberEdit → Option (String × NodeId) → Prop
  | deleted {c : Collection} {name : String} : Leaves g h members (.delete c name) none
  | kept {c : Collection} {name : String} {member : NodeId}
    (found : members.get? name = some member) :
    Leaves g h members (.rename c name name) (some (name, member))
  | renamed {c : Collection} {old new : String} {member copy : NodeId}
    (found : members.get? old = some member) (differs : old ≠ new)
    (copied : h.Derives member (Shape.withName? new) copy) :
    Leaves g h members (.rename c old new) (some (new, copy))
  | typed {c : Collection} {name : String} {role : Edits.TypeRole} {type member : NodeId}
    (found : members.get? name = some member)
    (has_type : role.current? (g.shape member) = some type) :
    Leaves g h members (.retype c name role type) (some (name, member))
  | retyped {c : Collection} {name : String} {role : Edits.TypeRole} {type member copy : NodeId}
    (found : members.get? name = some member) (copied : h.Derives member (role.change? type) copy) :
    Leaves g h members (.retype c name role type) (some (name, copy))
  | added {c : Collection} {name : String} {v : Value} {member : NodeId} {shape : Shape}
    (free : members.contains name = false) (new : Graph.MemberShape g h name c v shape)
    (node : h.node? member = some ⟨none, shape⟩) (fresh : ¬ g.contains member) :
    Leaves g h members (.add c name v) (some (name, member))

/-- What stands in the place of an entry. -/
def place (e : MemberEdit) (left : Option (String × NodeId)) (x : String × NodeId) :
    Option (String × NodeId) :=
  if x.1 = e.target then left else some x

/-- What comes at the end. -/
def tail (e : MemberEdit) (left : Option (String × NodeId)) : List (String × NodeId) :=
  if e.isAdd then left.toList else []

/-- **The entries after the edit.** -/
def placed (e : MemberEdit) (left : Option (String × NodeId)) (entries : List (String × NodeId)) :
    List (String × NodeId) :=
  entries.filterMap (e.place left) ++ e.tail left

theorem target_mem_names (e : MemberEdit) : e.target ∈ e.names := by
  cases e <;> exact List.mem_cons_self

variable {e : MemberEdit} {g h k base : Graph} {members table : NameTable}
  {left : Option (String × NodeId)} {x y : String × NodeId}

theorem place_target (h : x.1 = e.target) : e.place left x = left := if_pos h

theorem place_of_ne (h : x.1 ≠ e.target) : e.place left x = some x := if_neg h

/-- Nothing is in the place of a member that is not there. -/
theorem place_of_absent (h : members.contains e.target = false) (hx : x ∈ members.entries) :
    e.place left x = some x :=
  place_of_ne fun hname => NameTable.not_mem_keys h (hname ▸ NameTable.mem_keys_of_mem hx)

theorem mem_tail (h : y ∈ e.tail left) : left = some y := by
  unfold tail at h
  split at h
  · exact Option.mem_toList.mp h
  · cases h

theorem mem_placed {entries : List (String × NodeId)} (h : y ∈ e.placed left entries) :
    y ∈ entries ∨ left = some y := by
  rcases List.mem_append.mp h with hplaced | htail
  · obtain ⟨x, hx, hplace⟩ := List.mem_filterMap.mp hplaced
    by_cases htarget : x.1 = e.target
    · exact .inr ((place_target htarget).symm.trans hplace)
    · cases (place_of_ne htarget).symm.trans hplace
      exact .inl hx
  · exact .inr (mem_tail htail)

/-! ### Entries -/

section

variable (hadd : e.isAdd = false)
include hadd

theorem placed_of_not_add (left : Option (String × NodeId)) (entries : List (String × NodeId)) :
    e.placed left entries = entries.filterMap (e.place left) := by
  rw [placed, tail, hadd]
  exact List.append_nil _

theorem placed_of_absent (h : members.contains e.target = false) :
    e.placed left members.entries = members.entries := by
  rw [placed_of_not_add hadd, List.filterMap_congr fun x => place_of_absent h, List.filterMap_some]

/-- An entry that is put in its own place stays. -/
theorem placed_self (hy : y ∈ members.entries) (hname : y.1 = e.target) :
    e.placed (some y) members.entries = members.entries := by
  have hplace : ∀ x ∈ members.entries, e.place (some y) x = some x := by
    intro x hx
    by_cases hx' : x.1 = e.target
    · rw [place_target hx', NameTable.eq_of_mem_entries hx hy (hx'.trans hname.symm)]
    · exact place_of_ne hx'
  rw [placed_of_not_add hadd, List.filterMap_congr hplace, List.filterMap_some]

theorem placed_some (entries : List (String × NodeId)) :
    e.placed (some y) entries = entries.map fun x => if x.1 = e.target then y else x := by
  rw [placed_of_not_add hadd, ← List.filterMap_eq_map]
  refine List.filterMap_congr fun x _ => ?_
  rw [place, Function.comp_apply, apply_ite some]

theorem placed_none (entries : List (String × NodeId)) :
    e.placed none entries = entries.filter fun x => x.1 ≠ e.target := by
  rw [placed_of_not_add hadd, ← List.filterMap_eq_filter]
  refine List.filterMap_congr fun x _ => ?_
  by_cases hx : x.1 = e.target <;> simp [place, Option.guard, hx]

end

/-- An edit that would change nothing leaves the entries as they are. -/
theorem leaves_of_idle (hidle : e.Idle g members) :
    ∃ left, e.Leaves g g members left ∧ members.entries = e.placed left members.entries := by
  cases e with
  | delete c name =>
    have habsent : members.contains name = false := hidle
    exact ⟨none, .deleted, (placed_of_absent rfl habsent).symm⟩
  | rename c old new =>
    obtain ⟨rfl, member, hmember⟩ := hidle
    exact ⟨_, .kept hmember, (placed_self rfl (NameTable.get?_iff.mp hmember) rfl).symm⟩
  | retype c name role type =>
    obtain ⟨member, hmember, htype⟩ := hidle
    exact ⟨_, .typed hmember htype, (placed_self rfl (NameTable.get?_iff.mp hmember) rfl).symm⟩
  | add c name value => exact hidle.elim

/-- An edit that takes effect makes the entries that it should. -/
theorem leaves_of_makes (hmakes : g.Makes h members e.instruction table) :
    ∃ left, e.Leaves g h members left ∧ table.entries = e.placed left members.entries := by
  cases e with
  | delete c name =>
    cases hmakes with
    | delete present => exact ⟨none, .deleted, (placed_none (e := delete c name) rfl _).symm⟩
  | rename c old new =>
    cases hmakes with
    | rename found differs free copied =>
      refine ⟨_, .renamed found differs copied, (NameTable.entries_rename free).trans ?_⟩
      exact (placed_some (e := rename c old new) rfl _).symm
  | retype c name role type =>
    cases role with
    | declared =>
      cases hmakes with
      | setType found retyped =>
        refine ⟨_, .retyped found retyped, ?_⟩
        exact (placed_some (e := retype c name .declared type) rfl _).symm
    | returned =>
      cases hmakes with
      | setReturnType found retyped =>
        refine ⟨_, .retyped found retyped, ?_⟩
        exact (placed_some (e := retype c name .returned type) rfl _).symm
  | add c name value =>
    cases hmakes with
    | @add _ _ _ member _ free new node fresh =>
      refine ⟨some (name, member), .added free new node fresh, ?_⟩
      have hplace : ∀ x ∈ members.entries,
          (add c name value).place (some (name, member)) x = some x := fun x hx =>
        place_of_absent (e := add c name value) free hx
      rw [NameTable.entries_insert free, placed, List.filterMap_congr hplace, List.filterMap_some]
      rfl

namespace Leaves

/-- What is left bears a name of the edit. -/
theorem mem_names (hl : e.Leaves g h members (some y)) : y.1 ∈ e.names := by
  cases hl with
  | kept | typed | retyped | added => exact List.mem_cons_self
  | renamed => exact List.mem_cons_of_mem _ List.mem_cons_self

/-- **Where an edit was made does not matter**: what it leaves can be told by any graph before, with
other members, if it knows the members of the names and the value. -/
theorem rebase (hl : e.Leaves g h table left) (hbase : base ≤ g) (hle : h ≤ k)
    (hnames : ∀ name ∈ e.names, table.get? name = members.get? name) (hmembers : base.Knows members)
    (hgiven : base.Knows e.given) : e.Leaves base k members left := by
  have hknown : ∀ {name id}, members.get? name = some id → base.contains id := fun hid =>
    hmembers _ (NameTable.mem_values_of_get? hid)
  cases hl with
  | deleted => exact .deleted
  | kept found => exact .kept ((hnames _ List.mem_cons_self).symm.trans found)
  | renamed found differs copied =>
    exact .renamed ((hnames _ List.mem_cons_self).symm.trans found) differs
      (copied.mono hle (Shape.alters_withName? _))
  | @typed c name role type member found has_type =>
    have found := (hnames _ List.mem_cons_self).symm.trans found
    rw [Graph.shape_of_le hbase (hknown found)] at has_type
    exact .typed found has_type
  | @retyped c name role type member copy found copied =>
    exact .retyped ((hnames _ List.mem_cons_self).symm.trans found)
      (copied.mono hle (role.alters type))
  | @added c name v member shape free new node fresh =>
    have hv : base.Knows v := (Graph.knows_list_iff.mp hgiven) v List.mem_cons_self
    refine .added ?_ (new.rebase hbase hv hle) ?_ fun hin => fresh (Graph.contains_of_le hbase hin)
    · rw [NameTable.contains_eq_isSome, ← hnames name List.mem_cons_self,
        ← NameTable.contains_eq_isSome, free]
    · rw [Graph.node?_of_le hle (Graph.contains_of_node? node), node]

/-- What is left is a node of the graph. -/
theorem contains (hl : e.Leaves g h members (some y)) (hle : g ≤ h) (hmembers : g.Knows members) :
    h.contains y.2 := by
  have hknown : ∀ {name id}, members.get? name = some id → h.contains id := fun hid =>
    Graph.contains_of_le hle (hmembers _ (NameTable.mem_values_of_get? hid))
  cases hl with
  | kept found | typed found => exact hknown found
  | renamed _ _ copied | retyped _ copied =>
    obtain ⟨_, -, hnode⟩ := copied
    exact Graph.contains_of_node? hnode
  | added _ _ node => exact Graph.contains_of_node? node

/-- What is in the place of an entry has its root. -/
theorem root_place (hl : e.Leaves g h members left) (hh : h.Ordered) (hx : x ∈ members.entries)
    (hy : e.place left x = some y) : h.root y.2 = h.root x.2 := by
  by_cases hname : x.1 = e.target
  · rw [place_target hname] at hy
    have hfound : members.get? e.target = some x.2 := hname ▸ NameTable.get?_iff.mpr hx
    have hcopy : ∀ {change copy}, h.Derives x.2 change copy → h.root copy = h.root x.2 := by
      rintro change copy ⟨_, -, hnode⟩
      exact hh.root_of_origin? (Graph.origin?_of_node? hnode)
    cases hl with
    | deleted => cases hy
    | kept found | typed found =>
      cases hfound.symm.trans found
      cases hy
      rfl
    | renamed found _ copied | retyped found copied =>
      cases hfound.symm.trans found
      cases hy
      exact hcopy copied
    | added free =>
      exact absurd (free.symm.trans (NameTable.contains_of_get? hfound)) Bool.false_ne_true
  · cases (place_of_ne hname).symm.trans hy
    rfl

/-- A new member is its own root. -/
theorem root_tail (hl : e.Leaves g h members left) (hy : y ∈ e.tail left) :
    ¬ g.contains (h.root y.2) := by
  cases hl with
  | deleted | kept | renamed | typed | retyped => cases hy
  | added _ _ node fresh =>
    cases List.mem_singleton.mp hy
    rw [Graph.root_of_origin?_none (Graph.origin?_of_node? node)]
    exact fresh

end Leaves

/-- Names that the edit does not deal with stand for what they did before. -/
theorem get?_of_placed (hl : e.Leaves g h members left)
    (htable : table.entries = e.placed left members.entries) {name : String}
    (hname : name ∉ e.names) : table.get? name = members.get? name := by
  have hleft : ∀ {id}, left ≠ some (name, id) := by
    rintro id rfl
    exact hname hl.mem_names
  refine NameTable.get?_congr fun id => ?_
  rw [htable]
  refine ⟨fun hentry => (mem_placed hentry).resolve_right hleft, fun hentry => ?_⟩
  have htarget : name ≠ e.target := fun heq => hname (heq ▸ e.target_mem_names)
  exact List.mem_append_left _ (List.mem_filterMap.mpr ⟨_, hentry, place_of_ne htarget⟩)

/-- **Whether an edit succeeds is decided by its names**: by what they stand for, and what that
is. -/
theorem admits_congr {options : Options} {node other : NodeId} (hle : g ≤ h)
    (hcollection : (h.shape other).collection? = (g.shape node).collection?)
    (hmembers : g.Knows members) (hnames : ∀ name ∈ e.names, table.get? name = members.get? name) :
    e.Admits options h other table ↔ e.Admits options g node members := by
  have hcontains : ∀ name ∈ e.names, table.contains name = members.contains name := by
    intro name hname
    rw [NameTable.contains_eq_isSome, hnames name hname, NameTable.contains_eq_isSome]
  have hshape : ∀ {name member}, members.get? name = some member →
      h.shape member = g.shape member := fun hmember =>
    Graph.shape_of_le hle (hmembers _ (NameTable.mem_values_of_get? hmember))
  unfold Admits
  rw [hcollection]
  refine and_congr_right fun _ => ?_
  cases e with
  | delete c name =>
    dsimp only
    rw [hcontains name List.mem_cons_self]
  | rename c old new =>
    dsimp only
    rw [hnames old List.mem_cons_self, hcontains new (List.mem_cons_of_mem _ List.mem_cons_self)]
    refine exists_congr fun member => and_congr_right fun hmember => ?_
    rw [hshape hmember]
  | retype c name role type =>
    dsimp only
    rw [hnames name List.mem_cons_self]
    refine exists_congr fun member => and_congr_right fun hmember => ?_
    rw [Graph.kind, hshape hmember, Graph.kind]
  | add c name value =>
    dsimp only
    rw [hcontains name List.mem_cons_self]

end MemberEdit

/-! ### Activations whose node has members -/

/-- **The node of an activation has members**, and no two of them have one root. -/
structure Run.Holds (run : Run) (a : Activation) (rest : List Activation) (members : NameTable) :
    Prop where
  stack : run.activations = a :: rest
  ordered : run.graph.Ordered
  found : (run.graph.shape a.self).members? = some members
  known : run.graph.Knows members
  distinct : members.entries.Pairwise fun x y => run.graph.root x.2 ≠ run.graph.root y.2

namespace Run.Holds

open Eval

variable {setting : Setting} {run after : Run} {a : Activation} {rest : List Activation}
  {members : NameTable} {e : MemberEdit} {apply : Edits.Apply} {span : Span} {method : Word}
  {v : Value} (hrun : run.Holds a rest members)
include hrun

/-- A member is its own live member. -/
theorem live? {name : String} {member : NodeId} (hmember : members.get? name = some member) :
    run.graph.live? a.self member = some (name, member) :=
  Graph.live?_of_root hrun.found hrun.distinct (NameTable.get?_iff.mp hmember) rfl

theorem result_perform :
    (e.perform apply span method).result setting run =
      (e.on apply span method a.self).result setting run :=
  result_bind_of_ok (result_self hrun.stack)

/-- What has a type is not the node that has the members. -/
theorem ne_self {role : Edits.TypeRole} {member : NodeId}
    (happlies : role.applies (run.graph.kind member)) : member ≠ a.self := by
  rintro rfl
  obtain ⟨_, hchange⟩ := Shape.exists_change? happlies a.self
  exact nomatch hrun.found.symm.trans (Edits.TypeRole.members?_of_change hchange)

/-- What it takes to retype a member, and what it does. -/
private theorem ok_of_retype {c : Collection} {name : String} {role : Edits.TypeRole}
    {type : NodeId}
    (h : ((MemberEdit.retype c name role type).on apply span method a.self).result setting run =
      .ok v after) :
    (run.graph.shape a.self).collection? = some c ∧ ∃ member, members.get? name = some member ∧
      role.applies (run.graph.kind member) ∧ Edits.SetsType role member type run after := by
  obtain ⟨_, _, hget, h⟩ := ok_of_bind h
  obtain ⟨_, _, member, hname, hfound, hmember, rfl, rfl⟩ := Edits.ok_of_get hget
  cases hname
  obtain ⟨hcollection, hfound⟩ := Shape.membersIn?_iff.mp hfound
  cases hrun.found.symm.trans hfound
  dsimp only at h
  rw [Edits.run_role] at h
  exact ⟨hcollection, member, hmember, Edits.setsType_of_typed (Edits.result_typeArg rfl) h⟩

/-- **An edit succeeds exactly if the members are in order for it.** -/
theorem succeeds_iff :
    Succeeds setting run (e.perform apply span method) ↔
      e.Admits setting.options run.graph a.self members := by
  rw [Succeeds, hrun.result_perform]
  cases e with
  | delete c name => exact Edits.succeeds_delete_iff rfl hrun.stack hrun.found
  | rename c old new => exact Edits.succeeds_rename_iff rfl hrun.stack hrun.found rfl
  | add c name value => exact Edits.succeeds_add_iff rfl hrun.stack hrun.found rfl
  | retype c name role type =>
    constructor
    · rintro ⟨v, after, h⟩
      obtain ⟨hcollection, member, hmember, happlies, -⟩ := hrun.ok_of_retype h
      exact ⟨hcollection, member, hmember, happlies⟩
    · rintro ⟨hcollection, member, hmember, happlies⟩
      have hmembers := Shape.membersIn?_iff.mpr ⟨hcollection, hrun.found⟩
      have hlive : ∀ name live, run.graph.live? a.self member = some (name, live) →
          role.applies (run.graph.kind live) := by
        intro name live hlive
        cases (hrun.live? hmember).symm.trans hlive
        exact happlies
      refine Succeeds.after (Edits.result_get rfl hmembers hmember) ?_
      dsimp only
      rw [Edits.run_role]
      exact Edits.succeeds_setType hrun.stack rfl happlies hlive

/-- An edit that succeeds would change nothing, or takes effect. -/
theorem ok_of_perform (h : (e.perform apply span method).result setting run = .ok v after) :
    (e.Idle run.graph members ∧ after = run) ∨
      ∃ updated, run.Applies a.self e.instruction updated after := by
  obtain ⟨-, hadmits⟩ := hrun.succeeds_iff.mp ⟨v, after, h⟩
  rw [hrun.result_perform] at h
  cases e with
  | delete c name =>
    obtain ⟨_, hname, ⟨hafter, _, hfound, habsent⟩ | happlies⟩ := Edits.ok_of_delete h
    · cases hname
      cases hrun.found.symm.trans hfound
      exact .inl ⟨habsent, hafter⟩
    · cases hname
      exact .inr happlies
  | rename c old new =>
    obtain ⟨_, _, hold, hnew, ⟨hafter, hsame⟩ | happlies⟩ := Edits.ok_of_rename h
    · cases hold
      cases hnew
      obtain ⟨member, hmember, -⟩ := hadmits
      exact .inl ⟨⟨hsame, member, hmember⟩, hafter⟩
    · cases hold
      cases hnew
      exact .inr happlies
  | add c name value =>
    obtain ⟨_, _, hname, hvalue, happlies⟩ := Edits.ok_of_add h
    cases hname
    rcases hvalue with hvalue | ⟨hnone, -⟩
    · cases hvalue
      exact .inr happlies
    · cases hnone
  | retype c name role type =>
    obtain ⟨-, member, hmember, happlies, hsets⟩ := hrun.ok_of_retype h
    have hself := hrun.ne_self happlies
    have hlive := hrun.live? hmember
    -- the member is not the node of the activation, and its live member is itself
    cases hsets with
    | same stack is_target has_type =>
      cases hrun.stack.symm.trans stack
      rcases is_target with ⟨-, heq | hnone⟩ | ⟨-, name', hlive'⟩
      · exact absurd heq hself
      · exact nomatch hlive.symm.trans hnone
      · cases hlive.symm.trans hlive'
        exact .inl ⟨⟨member, hmember, has_type⟩, rfl⟩
    | self stack is_self =>
      cases hrun.stack.symm.trans stack
      exact absurd is_self hself
    | live stack not_self found differs applies =>
      cases hrun.stack.symm.trans stack
      cases hlive.symm.trans found
      exact .inr ⟨_, applies⟩
    | detached stack not_self not_found =>
      cases hrun.stack.symm.trans stack
      exact nomatch hlive.symm.trans not_found

/-- What an edit leads to is again a node with members of different roots. -/
theorem of_leaves {b : Activation} {table : NameTable} {left : Option (String × NodeId)}
    (hle : run.graph ≤ after.graph) (hstack : after.activations = b :: rest)
    (hordered : after.graph.Ordered) (hfound : (after.graph.shape b.self).members? = some table)
    (hl : e.Leaves run.graph after.graph members left)
    (htable : table.entries = e.placed left members.entries) : after.Holds b rest table where
  stack := hstack
  ordered := hordered
  found := hfound
  known id hid := by
    obtain ⟨y, hy, rfl⟩ := List.mem_map.mp hid
    rw [htable] at hy
    rcases MemberEdit.mem_placed hy with hold | rfl
    · exact Graph.contains_of_le hle (hrun.known _ (List.mem_map.mpr ⟨y, hold, rfl⟩))
    · exact hl.contains hle hrun.known
  distinct := by
    have hroot : ∀ {x y}, x ∈ members.entries → e.place left x = some y →
        run.graph.contains x.2 ∧ after.graph.root y.2 = run.graph.root x.2 := by
      intro x y hx hy
      have hin := hrun.known _ (List.mem_map.mpr ⟨x, hx, rfl⟩)
      exact ⟨hin, (hl.root_place hordered hx hy).trans (hrun.ordered.root_of_le hle hin)⟩
    rw [htable]
    refine List.pairwise_append.mpr ⟨?_, ?_, fun y hy z hz => ?_⟩
    · refine List.pairwise_filterMap.mpr (hrun.distinct.imp_of_mem ?_)
      intro x x' hx hx' hne y hy y' hy'
      rw [(hroot hx hy).2, (hroot hx' hy').2]
      exact hne
    · unfold MemberEdit.tail
      split
      · cases left <;> simp
      · exact .nil
    · -- a new member has a root that was not there before
      obtain ⟨x, hx, hplace⟩ := List.mem_filterMap.mp hy
      obtain ⟨hin, hsame⟩ := hroot hx hplace
      intro heq
      refine hl.root_tail hz ?_
      rw [← heq, hsame]
      exact hrun.ordered.contains_root hin

/-- **One edit.** It leaves what it should in the place of the member, and the other members as they
are, and so a node with members of different roots again. -/
theorem performed (hgiven : run.graph.Knows e.given)
    (h : (e.perform apply span method).result setting run = .ok v after) :
    ∃ b table left, after.Holds b rest table ∧ run.graph ≤ after.graph ∧
      (run.graph.shape a.self).withMembers? table = some (after.graph.shape b.self) ∧
      e.Leaves run.graph after.graph members left ∧
      table.entries = e.placed left members.entries := by
  rcases hrun.ok_of_perform h with ⟨hidle, rfl⟩ | ⟨updated, happlies⟩
  · obtain ⟨left, hleaves, hentries⟩ := MemberEdit.leaves_of_idle hidle
    exact ⟨a, members, left, hrun, le_rfl, Shape.withMembers?_self hrun.found, hleaves, hentries⟩
  have hedited := happlies.edited
  have hle := hedited.extends
  obtain ⟨hstack, -⟩ := happlies.shows hrun.stack
  rw [if_pos rfl] at hstack
  obtain ⟨k, members', table, hk, hfound, hmakes, hchanged⟩ := hedited.exists_makes
  cases hrun.found.symm.trans hfound
  obtain ⟨left, hleaves, hentries⟩ := MemberEdit.leaves_of_makes hmakes
  have hleaves := hleaves.rebase le_rfl hk (fun _ _ => rfl) hrun.known hgiven
  refine ⟨{ a with self := updated }, table, left, ?_, hle, hchanged, hleaves, hentries⟩
  exact hrun.of_leaves hle hstack (hedited.ordered hrun.ordered)
    (Shape.members?_of_withMembers? hchanged) hleaves hentries

end Run.Holds

end SchemaProjection
