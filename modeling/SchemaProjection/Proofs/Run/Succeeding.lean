import SchemaProjection.Proofs.Run.SafeEdits

/-!
# When edits succeed

The lemmas about effects say what an edit has done once it has succeeded. Here are the conditions
under which it does (`Eval.Succeeds`). Once its arguments are there, an edit of members succeeds
exactly if the receiver keeps members in the collection of the edit, a member that is needed is
among them, and a name that is given is free (`Edits.succeeds_add_iff` and the lemmas after it). The
graph itself refuses such an edit in one case only, that a member has no name to be changed.

A type can be set where the receiver, and the live member that it stands for, may have one
(`Edits.succeeds_setType`).
-/

namespace SchemaProjection

namespace Eval

variable {setting : Setting} {run middle : Run} {α β : Type}

/-- **A step succeeds.** -/
def Succeeds (setting : Setting) (run : Run) (x : Eval α) : Prop :=
  ∃ a after, x.result setting run = .ok a after

theorem Succeeds.pure (a : α) : Succeeds setting run (pure a) := ⟨a, run, rfl⟩

/-- What follows a step whose result is known. -/
theorem Succeeds.after {x : Eval α} {f : α → Eval β} {a : α}
    (hx : x.result setting run = .ok a middle) (hf : Succeeds setting middle (f a)) :
    Succeeds setting run (x >>= f) := by
  obtain ⟨b, after, hrest⟩ := hf
  exact ⟨b, after, by rw [result_bind_of_ok hx, hrest]⟩

theorem Succeeds.bind {x : Eval α} {f : α → Eval β} (hx : Succeeds setting run x)
    (hf : ∀ a middle, x.result setting run = .ok a middle → Succeeds setting middle (f a)) :
    Succeeds setting run (x >>= f) := by
  obtain ⟨a, middle, hx⟩ := hx
  exact .after hx (hf a middle hx)

theorem succeeds_build {action : Building α} (h : action.Succeeds run.graph) :
    Succeeds setting run (build action) := by
  obtain ⟨a, g, hok⟩ := h
  refine ⟨a, { run with graph := g }, ?_⟩
  rw [result_build, hok]

theorem result_graph (setting : Setting) (run : Run) :
    Eval.graph.result setting run = .ok run.graph run := rfl

section

variable {a : Activation} {rest : List Activation} (hstack : run.activations = a :: rest)
include hstack

theorem result_self : Eval.self.result setting run = .ok a.self run := by
  have hactivation : activation.result setting run = .ok a run := by
    rw [result_activation, hstack]
  rw [Eval.self, result_bind_of_ok hactivation]
  rfl

theorem succeeds_setSelf (id : NodeId) : Succeeds setting run (setSelf id) := by
  refine ⟨(), { run with activations := { a with self := id } :: rest }, ?_⟩
  rw [setSelf, result_modifyActivation, hstack]

end

end Eval

namespace Edits

open Eval

variable {setting : Setting} {run after : Run} {call : MethodCall} {collection : Collection}
  {members : NameTable} {name : String} {member : NodeId} {v : Value}

/-! ### Arguments

Reading them changes nothing. -/

theorem result_stringArg {position : Nat}
    (h : call.args[position]? = some (.value (.string name))) :
    (stringArg call position).result setting run = .ok name run := by
  rw [stringArg]
  dsimp only
  rw [h]
  rfl

theorem result_membersOf
    (h : (run.graph.shape call.receiver).membersIn? collection = some members) :
    (membersOf call collection).result setting run = .ok members run := by
  rw [membersOf, result_bind_of_ok (result_graph _ _), h]
  rfl

theorem result_existing (h : members.get? name = some member)
    (absence : String → String → Absence) :
    (existing call members name absence).result setting run = .ok member run := by
  rw [existing, h]
  rfl

theorem result_requireFree (h : members.contains name = false) :
    (requireFree call members name).result setting run = .ok () run := by
  rw [requireFree, h]
  rfl

theorem result_memberValue (h : call.args[1]? = some (.value v)) :
    (memberValue call collection).result setting run = .ok v run := by
  rw [memberValue, h]
  rfl

/-- A type that is given as a node. -/
theorem result_typeArg {type : NodeId} (h : call.args = [.value (.type type)]) :
    (typeArg call).result setting run = .ok type run := by
  rw [typeArg, h]
  rfl

/-! ### Edits of members -/

variable (hname : call.args[0]? = some (.value (.string name)))
  (hmembers : (run.graph.shape call.receiver).membersIn? collection = some members)

include hname hmembers in
/-- Reading a member by its name. -/
theorem result_get (hmember : members.get? name = some member) :
    (get call collection).result setting run = .ok (.type member) run := by
  rw [get, result_bind_of_ok (result_stringArg hname),
    result_bind_of_ok (result_membersOf hmembers), result_bind_of_ok (result_existing hmember _)]
  rfl

theorem ok_of_get (h : (get call collection).result setting run = .ok v after) :
    ∃ name members member, call.args[0]? = some (.value (.string name)) ∧
      (run.graph.shape call.receiver).membersIn? collection = some members ∧
      members.get? name = some member ∧ v = .type member ∧ run = after := by
  obtain ⟨name, _, hread, h⟩ := ok_of_bind h
  obtain ⟨rfl, hname⟩ := ok_of_stringArg hread
  obtain ⟨members, _, hread, h⟩ := ok_of_bind h
  obtain ⟨rfl, hmembers⟩ := ok_of_membersOf hread
  obtain ⟨member, _, hread, h⟩ := ok_of_bind h
  obtain ⟨rfl, hmember⟩ := ok_of_existing hread
  cases h
  exact ⟨name, members, member, hname, Shape.membersIn?_iff.mpr hmembers, hmember, rfl, rfl⟩

variable {a : Activation} {rest : List Activation} (hstack : run.activations = a :: rest)
include hstack

/-- What the graph makes of an edit takes effect. -/
theorem succeeds_conclude {action : Building NodeId} (haction : action.Succeeds run.graph)
    (call : MethodCall) (edit : Edit) (target : String) (args : List Value) (result : Value) :
    Succeeds setting run (Eval.build action >>= fun updated =>
      conclude call updated edit target args result) := by
  refine (succeeds_build haction).bind fun updated _ hbuilt => ?_
  obtain ⟨g, -, rfl⟩ := ok_of_build hbuilt
  refine .after (result_self (by exact hstack)) ?_
  split
  · refine (succeeds_setSelf (by exact hstack) updated).bind fun _ _ _ => ?_
    exact Succeeds.bind ⟨(), _, rfl⟩ fun _ _ _ => .pure _
  · exact .pure _

variable (hfound : (run.graph.shape call.receiver).members? = some members)
include hname hfound

/-- A member can be added under a free name. -/
theorem succeeds_add_iff (hvalue : call.args[1]? = some (.value v)) :
    Succeeds setting run (add call collection) ↔
      (run.graph.shape call.receiver).collection? = some collection ∧
        members.contains name = false := by
  constructor
  · rintro ⟨_, after, h⟩
    obtain ⟨_, _, hgiven, -, updated, happlies⟩ := ok_of_add h
    cases hname.symm.trans hgiven
    refine ⟨happlies.edited.collection? rfl, ?_⟩
    obtain ⟨_, _, _, -, hfound', hmakes, -⟩ := happlies.edited.exists_makes
    cases hfound.symm.trans hfound'
    cases hmakes with
    | add free new node fresh => exact free
  rintro ⟨hcollection, hfree⟩
  have hmembers := Shape.membersIn?_iff.mpr ⟨hcollection, hfound⟩
  refine .after (result_stringArg hname) <| .after (result_membersOf hmembers) <|
    .after (result_memberValue hvalue) <| .after (result_requireFree hfree) ?_
  refine (succeeds_build (Building.succeeds_newMember _ _ _)).bind fun member _ h => ?_
  obtain ⟨g, hnew, rfl⟩ := ok_of_build h
  -- the receiver is what it was before the member was made
  have hfound := Graph.members?_of_le (Building.ok_of_newMember hnew).1.extends hfound
  exact succeeds_conclude (by exact hstack) (Building.succeeds_deriveMembers hfound _) _ _ _ _ _

/-- Whether a member that is not there can be deleted is an option. -/
theorem succeeds_delete_iff :
    Succeeds setting run (delete call collection) ↔
      (run.graph.shape call.receiver).collection? = some collection ∧
        (members.contains name ∨ setting.options.absentMember = .ignore) := by
  have hoptions : (read : Eval Setting).result setting run = .ok setting run := rfl
  constructor
  · rintro ⟨_, after, h⟩
    obtain ⟨_, _, hread, h⟩ := ok_of_bind h
    obtain ⟨rfl, hgiven⟩ := ok_of_stringArg hread
    cases hname.symm.trans hgiven
    obtain ⟨_, _, hread, h⟩ := ok_of_bind h
    obtain ⟨rfl, hcollection, hthere⟩ := ok_of_membersOf hread
    cases hfound.symm.trans hthere
    refine ⟨hcollection, ?_⟩
    split at h
    · next hpresent => exact .inl hpresent
    rw [result_bind_of_ok hoptions] at h
    split at h
    · next hignore => exact .inr hignore
    · obtain ⟨_, _, -, h⟩ := ok_of_bind h
      cases h
  rintro ⟨hcollection, h⟩
  have hmembers := Shape.membersIn?_iff.mpr ⟨hcollection, hfound⟩
  refine .after (result_stringArg hname) <| .after (result_membersOf hmembers) ?_
  split
  · exact succeeds_conclude hstack (Building.succeeds_deriveMembers hfound _) _ _ _ _ _
  · next habsent =>
    refine .after hoptions ?_
    rw [h.resolve_left habsent]
    exact .pure _

/-- A member can be renamed if it has a name, and the new name is free. To rename it to the name
that it has changes nothing. -/
theorem succeeds_rename_iff {new : String} (hnew : call.args[1]? = some (.value (.string new))) :
    Succeeds setting run (rename call collection) ↔
      (run.graph.shape call.receiver).collection? = some collection ∧
        ∃ member, members.get? name = some member ∧ (name = new ∨ members.contains new = false ∧
          ∃ shape, (run.graph.shape member).withName? new = some shape) := by
  constructor
  · rintro ⟨_, after, h⟩
    obtain ⟨_, _, hread, h⟩ := ok_of_bind h
    obtain ⟨rfl, hgiven⟩ := ok_of_stringArg hread
    cases hname.symm.trans hgiven
    obtain ⟨_, _, hread, h⟩ := ok_of_bind h
    obtain ⟨rfl, hgiven⟩ := ok_of_stringArg hread
    cases hnew.symm.trans hgiven
    obtain ⟨_, _, hread, h⟩ := ok_of_bind h
    obtain ⟨rfl, hcollection, hthere⟩ := ok_of_membersOf hread
    cases hfound.symm.trans hthere
    obtain ⟨member, _, hread, h⟩ := ok_of_bind h
    obtain ⟨rfl, hmember⟩ := ok_of_existing hread
    refine ⟨hcollection, member, hmember, ?_⟩
    split at h
    · next hsame => exact .inl hsame
    obtain ⟨_, _, hread, h⟩ := ok_of_bind h
    obtain ⟨rfl, hfree⟩ := ok_of_requireFree hread
    obtain ⟨_, _, hbuilt, -⟩ := ok_of_bind h
    obtain ⟨g, hrenamed, -⟩ := ok_of_build hbuilt
    obtain ⟨shape, hshape, -, -⟩ := Building.ok_of_deriveRenamed hrenamed
    exact .inr ⟨hfree, shape, hshape⟩
  rintro ⟨hcollection, member, hmember, h⟩
  have hmembers := Shape.membersIn?_iff.mpr ⟨hcollection, hfound⟩
  refine .after (result_stringArg hname) <| .after (result_stringArg hnew) <|
    .after (result_membersOf hmembers) <| .after (result_existing hmember _) ?_
  split
  · exact .pure _
  next hdiffers =>
  obtain ⟨hfree, hshape⟩ := h.resolve_left hdiffers
  refine .after (result_requireFree hfree) ?_
  refine (succeeds_build (Building.succeeds_deriveRenamed hshape)).bind fun _ _ h => ?_
  obtain ⟨g, hrenamed, rfl⟩ := ok_of_build h
  obtain ⟨shape, -, -, rfl⟩ := Building.ok_of_deriveRenamed hrenamed
  have hfound := Graph.members?_of_le (Graph.le_push run.graph ⟨some member, shape⟩) hfound
  exact succeeds_conclude (by exact hstack) (Building.succeeds_deriveMembers hfound _) _ _ _ _ _

/-! ### Types -/

omit hname hfound in
theorem result_live? (node : NodeId) :
    (live? node).result setting run = .ok (run.graph.live? a.self node) run := by
  rw [live?, result_bind_of_ok (result_self hstack), result_bind_of_ok (result_graph _ _),
    Graph.live?]
  cases (run.graph.shape a.self).members? <;> rfl

omit hname hfound hstack in
theorem succeeds_retyped? {role : TypeRole} {node : NodeId}
    (happlies : role.applies (run.graph.kind node)) (type : NodeId) :
    Succeeds setting run (retyped? role node type) := by
  refine .after (result_graph _ _) ?_
  split
  · exact .pure _
  · exact (succeeds_build (Building.succeeds_role happlies type)).bind fun _ _ _ => .pure _

omit hname hfound hstack in
/-- Either kind of type is set by its own method. -/
theorem run_role (apply : Apply) (call : MethodCall) (role : TypeRole) :
    Edits.run apply call (.edit role.edit) = setType call role := by
  cases role <;> rfl

omit hname hfound in
/-- **Setting a type succeeds** where the receiver may have one and so may its live member. -/
theorem succeeds_setType {role : TypeRole} {type : NodeId}
    (hargs : call.args = [.value (.type type)])
    (happlies : role.applies (run.graph.kind call.receiver))
    (hlive : ∀ name live, run.graph.live? a.self call.receiver = some (name, live) →
      role.applies (run.graph.kind live)) :
    Succeeds setting run (setType call role) := by
  refine .after (result_typeArg hargs) <| .after (result_graph _ _) ?_
  dsimp only
  rw [if_pos happlies]
  refine .after (result_self hstack) ?_
  split
  · -- the receiver is the node of the activation
    refine (succeeds_retyped? happlies type).bind fun updated? _ hretyped => ?_
    rcases ok_of_retyped? hretyped with ⟨-, rfl, rfl⟩ | ⟨-, shape, -, rfl, rfl⟩
    · exact .pure _
    · refine (succeeds_setSelf (by exact hstack) _).bind fun _ _ _ => ?_
      exact Succeeds.bind ⟨(), _, rfl⟩ fun _ _ _ => .pure _
  refine .after (result_live? hstack call.receiver) ?_
  cases hfound : run.graph.live? a.self call.receiver with
  | none =>
    refine (succeeds_retyped? happlies type).bind fun updated? _ _ => ?_
    cases updated? <;> exact .pure _
  | some found =>
    obtain ⟨name, live⟩ := found
    obtain ⟨members, hmembers, hmember, -⟩ := Graph.of_live? hfound
    refine (succeeds_retyped? (hlive name live hfound) type).bind fun updated? _ hretyped => ?_
    rcases ok_of_retyped? hretyped with ⟨-, rfl, rfl⟩ | ⟨-, shape, -, rfl, rfl⟩
    · exact .pure _
    · -- the copy of the member comes first, then the container gets it
      have hmembers := Graph.members?_of_le (Graph.le_push run.graph ⟨some live, shape⟩) hmembers
      have hname := NameTable.contains_of_get? hmember
      refine (succeeds_build (Building.succeeds_deriveMember hmembers hname _)).bind fun _ _ h => ?_
      obtain ⟨g, -, rfl⟩ := ok_of_build h
      refine (succeeds_setSelf (by exact hstack) _).bind fun _ _ _ => ?_
      exact Succeeds.bind ⟨(), _, rfl⟩ fun _ _ _ => .pure _

end Edits

end SchemaProjection
