import Mathlib.Data.List.Forall2
import SchemaProjection.Proofs.Graph.Edited

/-!
# Replaying edits

The edits that a run has recorded are to be replayed on a container somewhere else, by a client that
has nothing but the instructions. `Instruction.replay` is such a client. It keeps a list of names,
and beside each name the member that was there at the start, as long as no instruction has put
another one in its place. It fails if an instruction names a member that is not there, or gives a
name that is taken.

An edit of a container makes of its members what the instruction makes of the list
(`Graph.Makes.replay`). The relation between the two is `Agrees`: the names are the same and in the
same order, and a member that no instruction has replaced is still the member. What else may replace
members is left open by saying which ones are kept.
-/

namespace SchemaProjection

/-- **Entries of a replay**: names, each with its first member unless that was replaced. -/
abbrev ReplayEntries := List (String × Option NodeId)

/-- Entries as a replay begins with them. -/
def NameTable.unreplaced (members : NameTable) : ReplayEntries :=
  members.entries.map fun e => (e.1, some e.2)

namespace Instruction

/-- One entry is replaced in its place. The instruction does not tell by which node. -/
def overwrite (old new : String) (entries : ReplayEntries) : ReplayEntries :=
  entries.map fun e => if e.1 = old then (new, none) else e

/-- **What an instruction makes of a list of entries.** Additions go to the end, and all other
entries keep their places. -/
def replay? (i : Instruction) (entries : ReplayEntries) : Option ReplayEntries :=
  let names := entries.map Prod.fst
  match i.edit, i.args with
  | .add _, _ => if i.target ∈ names then none else some (entries ++ [(i.target, none)])
  | .delete _, _ =>
    if i.target ∈ names then some (entries.filter fun e => e.1 ≠ i.target) else none
  | .rename _, [.string new] =>
    if i.target ∈ names ∧ new ∉ names then some (overwrite i.target new entries) else none
  | .rename _, _ => none
  | .project _, _ | .setType, _ | .setReturnType, _ =>
    if i.target ∈ names then some (overwrite i.target i.target entries) else none

/-- Replays instructions, one after the other. -/
def replay (is : List Instruction) (entries : ReplayEntries) : Option ReplayEntries :=
  is.foldlM (fun entries i => i.replay? entries) entries

theorem replay_append (is : List Instruction) (i : Instruction) (entries : ReplayEntries) :
    replay (is ++ [i]) entries = replay is entries >>= i.replay? := by
  rw [replay, List.foldlM_append]
  simp only [List.foldlM_cons, List.foldlM_nil, bind_pure]
  rfl

end Instruction

/-! ### Agreement with the members of a container -/

/-- **A replay agrees with the members of a container**: it has the same names in the same order,
and of the members that are kept it knows none that is not there. -/
def Agrees (kept : NodeId → Prop) (entries : ReplayEntries) (members : NameTable) : Prop :=
  List.Forall₂ (fun l e => l.1 = e.1 ∧ ∀ id, l.2 = some id → kept id → e.2 = id) entries
    members.entries

namespace Agrees

variable {kept : NodeId → Prop} {entries : ReplayEntries} {members table : NameTable}
  {name old new : String} {id : NodeId}

/-- At the start nothing is replaced. -/
theorem unreplaced (kept : NodeId → Prop) (members : NameTable) :
    Agrees kept members.unreplaced members := by
  rw [Agrees, NameTable.unreplaced, List.forall₂_map_left_iff, List.forall₂_same]
  exact fun e _ => ⟨rfl, fun id hid _ => Option.some.inj hid⟩

theorem names (h : Agrees kept entries members) : entries.map Prod.fst = members.keys := by
  rw [← List.forall₂_eq_eq_eq, NameTable.keys, List.forall₂_map_left_iff,
    List.forall₂_map_right_iff]
  exact h.imp fun _ _ he => he.1

theorem mem_names (h : Agrees kept entries members) :
    name ∈ entries.map Prod.fst ↔ members.contains name := by
  rw [h.names, NameTable.contains_iff]

/-- A kept member that no instruction has replaced is there, under its name. -/
theorem get?_of_mem (h : Agrees kept entries members) (he : (name, some id) ∈ entries)
    (hkept : kept id) : members.get? name = some id := by
  refine NameTable.get?_iff.mpr ?_
  unfold Agrees at h
  generalize members.entries = list at h
  induction h with
  | nil => cases he
  | @cons l e entries list hle hrest ih =>
    rcases List.mem_cons.mp he with rfl | hmem
    · have hname : name = e.1 := hle.1
      rw [hname, ← hle.2 id rfl hkept]
      exact List.mem_cons_self
    · exact List.mem_cons_of_mem _ (ih hmem)

/-! ### Replaced members -/

/-- An entry is replaced on both sides. -/
theorem overwrite (h : Agrees kept entries members)
    (htable : table.entries = members.entries.map fun e => if e.1 = old then (new, id) else e) :
    Agrees kept (Instruction.overwrite old new entries) table := by
  rw [Agrees, Instruction.overwrite, htable, List.forall₂_map_left_iff,
    List.forall₂_map_right_iff]
  refine h.imp fun l e he => ?_
  by_cases hname : l.1 = old
  · rw [if_pos hname, if_pos (he.1.symm.trans hname)]
    exact ⟨rfl, fun _ hnone => nomatch hnone⟩
  · rw [if_neg hname, if_neg fun heq => hname (he.1.trans heq)]
    exact he

/-- A member that is not kept may be replaced past the replay. -/
theorem replaced (h : Agrees kept entries members) (hfound : members.get? name = some id)
    (hkept : ¬ kept id) (copy : NodeId) : Agrees kept entries (members.replace name copy) := by
  have hmember : ∀ e ∈ members.entries, e.1 = name → e.2 = id := fun e he hname =>
    congrArg Prod.snd (NameTable.eq_of_mem_entries he (NameTable.get?_iff.mp hfound) hname)
  unfold Agrees at h ⊢
  rw [NameTable.entries_replace, List.forall₂_map_right_iff]
  generalize members.entries = list at h hmember
  induction h with
  | nil => exact .nil
  | @cons l e entries list hle hrest ih =>
    refine .cons ?_ (ih fun e he => hmember e (List.mem_cons_of_mem _ he))
    by_cases hname : e.1 = name
    · rw [if_pos hname]
      refine ⟨hle.1.trans hname, fun known hknown hkeeps => ?_⟩
      -- a kept member under this name would be the one that is not kept
      have hsame : known = id :=
        (hle.2 known hknown hkeeps).symm.trans (hmember e List.mem_cons_self hname)
      exact absurd (hsame ▸ hkeeps) hkept
    · rw [if_neg hname]
      exact hle

end Agrees

/-- **An edit can be replayed**, and does the same to the replay as to the container. -/
theorem Graph.Makes.replay {g h : Graph} {members table : NameTable} {i : Instruction}
    (hmakes : Graph.Makes g h members i table) {kept : NodeId → Prop} {entries : ReplayEntries}
    (hagrees : Agrees kept entries members) :
    ∃ left, i.replay? entries = some left ∧ Agrees kept left table := by
  cases hmakes with
  | @add collection name v member shape free new node fresh =>
    have habsent : name ∉ entries.map Prod.fst := by
      intro hname
      rw [hagrees.mem_names.mp hname] at free
      cases free
    refine ⟨_, if_neg habsent, ?_⟩
    rw [Agrees, NameTable.entries_insert free]
    exact List.rel_append hagrees (.cons ⟨rfl, fun _ hnone => nomatch hnone⟩ .nil)
  | @delete collection name present =>
    refine ⟨_, if_pos (hagrees.mem_names.mpr present), ?_⟩
    rw [Agrees, NameTable.entries_erase]
    refine List.rel_filter (fun l e hle => ?_) hagrees
    show decide (l.1 ≠ name) = true ↔ decide (e.1 ≠ name) = true
    rw [hle.1]
  | @rename collection old new member copy found differs free copied =>
    have hpresent := hagrees.mem_names.mpr (NameTable.contains_of_get? found)
    have habsent : new ∉ entries.map Prod.fst := by
      intro hname
      rw [hagrees.mem_names.mp hname] at free
      cases free
    exact ⟨_, if_pos ⟨hpresent, habsent⟩, hagrees.overwrite (NameTable.entries_rename free)⟩
  | project found differs retyped =>
    exact ⟨_, if_pos (hagrees.mem_names.mpr (NameTable.contains_of_get? found)),
      hagrees.overwrite (NameTable.entries_replace _ _ _)⟩
  | setType found retyped =>
    exact ⟨_, if_pos (hagrees.mem_names.mpr (NameTable.contains_of_get? found)),
      hagrees.overwrite (NameTable.entries_replace _ _ _)⟩
  | setReturnType found retyped =>
    exact ⟨_, if_pos (hagrees.mem_names.mpr (NameTable.contains_of_get? found)),
      hagrees.overwrite (NameTable.entries_replace _ _ _)⟩

/-- **A container and its replay** stay in agreement when it is edited. -/
theorem Graph.Edited.replay {g h : Graph} {container updated : NodeId} {i : Instruction}
    (he : g.Edited container i h updated) {members : NameTable}
    (hmembers : (g.shape container).members? = some members) {kept : NodeId → Prop}
    {entries : ReplayEntries} (hagrees : Agrees kept entries members) :
    ∃ shape table left, h.node? updated = some ⟨some container, shape⟩ ∧
      shape.members? = some table ∧ i.replay? entries = some left ∧ Agrees kept left table := by
  cases he with
  | @mk h found table shape supplied hfound collection makes changed =>
    cases hmembers.symm.trans hfound
    obtain ⟨left, hleft, hagrees⟩ := makes.replay hagrees
    exact ⟨shape, table, left, h.node?_push_nextId _, Shape.members?_of_withMembers? changed, hleft,
      hagrees⟩

end SchemaProjection
