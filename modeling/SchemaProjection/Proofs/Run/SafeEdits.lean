import SchemaProjection.Proofs.Run.Safety

/-!
# Edits are safe

An edit reads the members of a container, makes a new node out of what it has read, and derives a
changed copy of the container. What was read stays as it was while the graph grows, so the graph
does not refuse the copies (`Building.Succeeds`), and the copy is in order if the members that it
gets are. Two edits need more than that.

* **Renaming** fails where the member has no name to be changed. Members in order have names.
* **Projecting an operation** puts what the projection leads to in its place. It has to be a version
  of the operation (`Edits.Apply.Safe`), which it is if the declarations keep operations.

All methods of nodes are safe (`Edits.safe_run`), and so is preparing the target of a decorator
(`Edits.safe_materialize`).
-/

namespace SchemaProjection

/-! ### What the graph does not refuse -/

/-- Where a type may be set, another one may be. -/
theorem Shape.exists_change? {shape : Shape} {role : Edits.TypeRole}
    (h : role.applies shape.kind) (type : NodeId) :
    ∃ changed, role.change? type shape = some changed := by
  cases role <;> cases shape <;> first | exact ⟨_, rfl⟩ | exact absurd h Bool.false_ne_true

theorem Building.succeeds_role {g : Graph} {id : NodeId} {role : Edits.TypeRole}
    (happlies : role.applies (g.kind id)) (type : NodeId) : Succeeds g (role.derive id type) := by
  have hchanged := Shape.exists_change? happlies type
  cases role <;>
    exact Succeeds.bind ⟨g, g, rfl⟩ fun k _ hget => by
      cases hget
      exact succeeds_deriveShape hchanged _

namespace Edits

open Eval

variable {setting : Setting} {base : Graph} {run after : Run} {depth : Nat} {call : MethodCall}
  {collection : Collection}

/-! ### Arguments -/

theorem benign_stringArg (call : MethodCall) (position : Nat) :
    Benign setting base run (stringArg call position) := by
  unfold stringArg
  split
  · exact .pure _
  · exact .fail _ trivial
  · exact .fail _ trivial

theorem benign_membersOf (call : MethodCall) (collection : Collection) :
    Benign setting base run (membersOf call collection) := by
  refine Benign.graph.bind fun g after _ => ?_
  split
  · exact .pure _
  · exact .fail _ trivial

theorem benign_existing (call : MethodCall) (members : NameTable) (name : String)
    (absence : String → String → Absence) :
    Benign setting base run (existing call members name absence) := by
  unfold existing
  split
  · exact .pure _
  · exact (Benign.describe _).bind fun _ _ _ => .fail _ trivial

theorem benign_requireFree (call : MethodCall) (members : NameTable) (name : String) :
    Benign setting base run (requireFree call members name) := by
  unfold requireFree
  split
  · exact (Benign.describe _).bind fun _ _ _ => .fail _ trivial
  · exact .pure _

theorem benign_memberValue (call : MethodCall) (collection : Collection) :
    Benign setting base run (memberValue call collection) := by
  unfold memberValue
  dsimp only
  split
  · exact .pure _
  · split
    · exact .pure _
    · exact .fail _ trivial
  · exact .fail _ trivial

theorem benign_projectionArg (call : MethodCall) :
    Benign setting base run (projectionArg call) := by
  unfold projectionArg
  dsimp only
  split
  · exact .pure _
  · exact .pure _
  · exact .fail _ trivial

theorem benign_valueArgs (call : MethodCall) (operands : List Operand) :
    Benign setting base run (valueArgs call operands) := by
  induction operands generalizing run with
  | nil => exact .pure _
  | cons operand rest ih =>
    cases operand with
    | value v => exact ih.bind fun _ _ _ => .pure _
    | members ids => exact .fail _ trivial
    | projection name => exact .fail _ trivial

/-- What the graph makes of an edit takes effect. -/
theorem benign_conclude {a : Activation} {rest : List Activation}
    (hstack : run.activations = a :: rest) {action : Building NodeId}
    (haction : action.Succeeds run.graph) (call : MethodCall) (edit : Edit) (target : String)
    (args : List Value) (result : Value) :
    Benign setting base run (Eval.build action >>= fun updated =>
      conclude call updated edit target args result) := by
  refine (Benign.build haction).bind fun updated _ hbuilt => ?_
  obtain ⟨g, -, rfl⟩ := ok_of_build hbuilt
  refine Benign.bind (.self hstack) fun self _ hself => ?_
  obtain ⟨rfl, -⟩ := ok_of_self hself
  split
  · refine Benign.bind (.setSelf (by exact hstack) updated) fun _ _ _ => ?_
    exact (Benign.record _ _ _).bind fun _ _ _ => .pure _
  · exact .pure _

end Edits

/-! ### What edits lead to -/

namespace Run

variable {setting : Setting} {base : Graph} {run after : Run}

/-- **An edit that took effect.** Where operations are kept, a projected operation has to be
replaced by a version of it. -/
theorem Applies.follows {container updated : NodeId} {i : Instruction}
    (h : run.Applies container i updated after) (hrun : run.Sound setting base)
    (hproject : setting.declarations.KeepOperations base →
      run.graph.KeepsOperation after.graph container updated i) :
    run.Follows setting base after := by
  have htidy : after.graph.Tidy (setting.declarations.Orders base) :=
    hrun.tidy.edited h.edited fun hkept => hproject (hkept rfl)
  cases h with
  | self stack is_self edited =>
    rw [graph_note] at htidy
    exact ((Follows.grown hrun edited.extends htidy).adopt _).note _
  | detached stack not_self edited => exact .grown hrun edited.extends htidy

end Run

namespace Edits

variable {setting : Setting} {base : Graph} {run after : Run}

theorem SetsType.follows {role : TypeRole} {node type : NodeId}
    (h : SetsType role node type run after) (hrun : run.Sound setting base) :
    run.Follows setting base after := by
  cases h with
  | same => exact .refl hrun
  | self stack is_self differs retyped =>
    exact ((Run.Follows.supplied hrun (Graph.supplied_alter (role.alters type) retyped)).adopt
      _).note _
  | live stack not_self found differs applies =>
    refine applies.follows hrun fun _ hproject => ?_
    cases role <;> cases hproject
  | detached stack not_self not_found differs retyped =>
    exact .supplied hrun (Graph.supplied_alter (role.alters type) retyped)

theorem Materializes.follows {node id : NodeId} (h : Materializes node run id after)
    (hrun : run.Sound setting base) : run.Follows setting base after := by
  cases h with
  | own => exact .refl hrun
  | self stack old is_self =>
    exact (Run.Follows.supplied hrun (Graph.supplied_copy (hrun.begun.contains old))).adopt _
  | liveOwn => exact .refl hrun
  | @live a rest name live members shape g stack old not_self found live_old has_members copied
      changed =>
    obtain ⟨members', hmembers', hmember, -⟩ := Graph.of_live? found
    cases has_members.symm.trans hmembers'
    have htidy := hrun.tidy.copied has_members hmember (hrun.begun.contains live_old) changed
    rw [← copied] at htidy
    have hle : run.graph ≤ g := copied ▸ Graph.le_push _ _
    exact (Run.Follows.grown hrun (le_trans hle (Graph.le_push _ _)) htidy).adopt _
  | detached stack old not_self not_found =>
    exact .supplied hrun (Graph.supplied_copy (hrun.begun.contains old))

end Edits

namespace Edits

open Eval

variable {setting : Setting} {base : Graph} {run after : Run} {depth : Nat} {call : MethodCall}
  {collection : Collection} (hrun : run.Ready setting base depth)

/-! ### Edits of members -/

include hrun

theorem safe_add (call : MethodCall) (collection : Collection) :
    Safe setting base run (add call collection) where
  benign := by
    obtain ⟨a, rest, hstack⟩ := hrun.exists_activation
    refine (benign_stringArg call 0).bind fun name _ h => ?_
    obtain ⟨rfl, -⟩ := ok_of_stringArg h
    refine (benign_membersOf call collection).bind fun members _ h => ?_
    obtain ⟨rfl, -, hmembers⟩ := ok_of_membersOf h
    refine (benign_memberValue call collection).bind fun v _ h => ?_
    obtain ⟨rfl, -⟩ := ok_of_memberValue h
    refine (benign_requireFree call members name).bind fun _ _ h => ?_
    obtain ⟨rfl, -⟩ := ok_of_requireFree h
    refine (Benign.build (Building.succeeds_newMember collection name v)).bind fun member _ h => ?_
    obtain ⟨g, hnew, rfl⟩ := ok_of_build h
    -- the receiver is what it was before the member was made
    have hle := (Building.ok_of_newMember hnew).1.extends
    have hmembers := Graph.members?_of_le hle hmembers
    exact benign_conclude (by exact hstack) (Building.succeeds_deriveMembers hmembers _) _ _ _ _ _
  follows v after h := by
    obtain ⟨name, value, -, -, updated, happlies⟩ := ok_of_add h
    exact happlies.follows hrun.sound fun _ hproject => nomatch hproject

theorem safe_delete (call : MethodCall) (collection : Collection) :
    Safe setting base run (delete call collection) where
  benign := by
    obtain ⟨a, rest, hstack⟩ := hrun.exists_activation
    refine (benign_stringArg call 0).bind fun name _ h => ?_
    obtain ⟨rfl, -⟩ := ok_of_stringArg h
    refine (benign_membersOf call collection).bind fun members _ h => ?_
    obtain ⟨rfl, -, hmembers⟩ := ok_of_membersOf h
    split
    · exact benign_conclude (by exact hstack) (Building.succeeds_deriveMembers hmembers _) _ _ _ _ _
    · -- whether a missing member is an error is up to the options
      refine Benign.read.bind fun _ _ _ => ?_
      split
      · exact .pure _
      · exact (Benign.describe _).bind fun _ _ _ => .fail _ trivial
  follows v after h := by
    obtain ⟨name, -, ⟨rfl, -⟩ | ⟨updated, happlies⟩⟩ := ok_of_delete h
    · exact .refl hrun.sound
    · exact happlies.follows hrun.sound fun _ hproject => nomatch hproject

/-- A member may be without a name only where operations are not kept. -/
theorem benign_deriveRenamed {members : NameTable} {old : String} {member : NodeId}
    (hcollection : (run.graph.shape call.receiver).collection? = some collection)
    (hmembers : (run.graph.shape call.receiver).members? = some members)
    (hmember : members.get? old = some member) (new : String) :
    Benign setting base run (Eval.build (Building.deriveRenamed member new)) := by
  by_cases horders : setting.declarations.Orders base collection
  · -- the member is known by its own name
    have horderly := hrun.sound.tidy.members_of hmembers hcollection horders
    have hname := horderly.name _ (NameTable.get?_iff.mp hmember)
    exact .build (Building.succeeds_deriveRenamed (Shape.exists_withName? hname new))
  · -- the container holds what operations were projected to, and the refusal is expected
    intro failure after h
    rw [result_build] at h
    split at h
    · cases h
    · next fault g hfault =>
      cases h
      obtain ⟨node, rfl⟩ := Building.fault_of_deriveRenamed hfault
      exact fun hkept => horders fun _ => hkept

theorem safe_rename (call : MethodCall) (collection : Collection) :
    Safe setting base run (rename call collection) where
  benign := by
    obtain ⟨a, rest, hstack⟩ := hrun.exists_activation
    refine (benign_stringArg call 0).bind fun old _ h => ?_
    obtain ⟨rfl, -⟩ := ok_of_stringArg h
    refine (benign_stringArg call 1).bind fun new _ h => ?_
    obtain ⟨rfl, -⟩ := ok_of_stringArg h
    refine (benign_membersOf call collection).bind fun members _ h => ?_
    obtain ⟨rfl, hcollection, hmembers⟩ := ok_of_membersOf h
    refine (benign_existing call members old _).bind fun member _ h => ?_
    obtain ⟨rfl, hmember⟩ := ok_of_existing h
    split
    · exact .pure _
    refine (benign_requireFree call members new).bind fun _ _ h => ?_
    obtain ⟨rfl, -⟩ := ok_of_requireFree h
    refine (benign_deriveRenamed hrun hcollection hmembers hmember new).bind fun _ _ h => ?_
    obtain ⟨g, hrenamed, rfl⟩ := ok_of_build h
    obtain ⟨shape, -, -, rfl⟩ := Building.ok_of_deriveRenamed hrenamed
    -- the renamed member is new, so the receiver has the members that it had
    have hmembers := Graph.members?_of_le (Graph.le_push run.graph ⟨some member, shape⟩) hmembers
    exact benign_conclude (by exact hstack) (Building.succeeds_deriveMembers hmembers _) _ _ _ _ _
  follows v after h := by
    obtain ⟨old, new, -, -, ⟨rfl, -⟩ | ⟨updated, happlies⟩⟩ := ok_of_rename h
    · exact .refl hrun.sound
    · exact happlies.follows hrun.sound fun _ hproject => nomatch hproject

omit hrun in
theorem Replaces.follows {g : Graph} {member result made : NodeId}
    (h : Replaces g collection member result run made after) (hrun : run.Sound setting base) :
    run.Follows setting base after := by
  cases h with
  | operation => exact .refl hrun
  | same => exact .refl hrun
  | copy not_operation changed retyped =>
    exact .supplied hrun (Graph.supplied_alter (Shape.alters_withType? result) retyped)

/-- **Safe application of projections by name.** Where operations are kept, what an operation is
projected to is a version of it. -/
structure SafeApply (setting : Setting) (base : Graph) (depth : Nat) (apply : Apply) : Prop where
  safe : ∀ {run : Run} (span : Span) (node : NodeId) (name : String) (args : List Value),
    run.Ready setting base depth → Eval.Safe setting base run (apply span node name args)
  version : ∀ {run after : Run} {span : Span} {node id : NodeId} {name : String}
    {args : List Value}, run.Ready setting base depth → setting.declarations.KeepOperations base →
    run.graph.kind node = .operation →
    (apply span node name args).result setting run = .ok id after → after.graph.Version node id

section Projecting

variable {apply : Apply} (happly : SafeApply setting base depth apply)
include happly

theorem Projects.follows {member result : NodeId} {projection : String} {args : List Value}
    (h : Projects apply setting call collection run member projection args result after) :
    run.Follows setting base after := by
  cases h with
  | operation is_operation applied => exact (happly.safe _ _ _ _ hrun).follows _ _ applied
  | type not_operation found applied => exact (happly.safe _ _ _ _ hrun).follows _ _ applied

theorem safe_projected (call : MethodCall) (collection : Collection) (member : NodeId)
    (projection : String) (args : List Value) :
    Safe setting base run (projected apply call collection member projection args) where
  benign := by
    unfold projected
    split
    · exact (happly.safe _ _ _ _ hrun).benign
    · refine Benign.graph.bind fun g _ hgraph => ?_
      cases hgraph
      split
      · exact .fail _ trivial
      · next type htype =>
        have hsafe := happly.safe call.span type projection args hrun
        refine hsafe.benign.bind fun result after happlied => ?_
        have hle := (hsafe.follows result after happlied).graph
        split
        · exact .pure _
        · -- the member had a type before the projection of the type, and has it still
          rw [← Graph.shape_of_le hle (Graph.contains_of_read rfl htype)] at htype
          exact .build (Building.succeeds_deriveType htype result)
  follows made after h := by
    obtain ⟨result, prepared, hprojects, hreplaces⟩ := ok_of_projected h
    have hprepared := hprojects.follows hrun happly
    exact hprepared.trans (hreplaces.follows hprepared.sound)

/-- **A projected operation is replaced by a version of it**, where operations are kept. -/
theorem Projects.keepsOperation {name projection : String} {args : List Value}
    {member result made updated : NodeId} {prepared : Run}
    (h : Projects apply setting call collection run member projection args result prepared)
    (hfound : run.graph.member? call.receiver name = some member)
    (happlies : prepared.Applies call.receiver
      ⟨.project collection, name, .string projection :: args⟩ updated after)
    (hmade : after.graph.member? updated name = some made)
    (hresult : collection = .operations → made = result)
    (hkept : setting.declarations.KeepOperations base) :
    prepared.graph.KeepsOperation after.graph call.receiver updated
      ⟨.project collection, name, .string projection :: args⟩ := by
  intro hproject member' made' hmember' hmade'
  obtain rfl : collection = .operations := Edit.project.inj hproject
  have hle := (h.follows hrun happly).graph
  obtain ⟨members, hmembers, hmember⟩ := Option.bind_eq_some_iff.mp hfound
  have hreceiver := Graph.shape_of_le hle (Graph.contains_of_members? hmembers)
  -- the member is still the one that was projected
  obtain rfl : member' = member := by
    rw [Graph.member?, hreceiver] at hmember'
    exact Option.some.inj (hmember'.symm.trans hfound)
  obtain rfl : made' = result :=
    (Option.some.inj (hmade'.symm.trans hmade)).trans (hresult rfl)
  cases h with
  | operation _ applied =>
    have hoperations := happlies.edited.collection? rfl
    rw [hreceiver] at hoperations
    have horderly := hrun.sound.tidy.members_of hmembers hoperations fun _ => hkept
    have hkind := horderly.kind _ (NameTable.get?_iff.mp hmember)
    exact happly.version hrun hkept hkind applied
  | type not_operation => exact absurd rfl not_operation

theorem safe_project (call : MethodCall) (collection : Collection) :
    Safe setting base run (project apply call collection) where
  benign := by
    refine (benign_stringArg call 0).bind fun name _ h => ?_
    obtain ⟨rfl, -⟩ := ok_of_stringArg h
    refine (benign_projectionArg call).bind fun projection _ h => ?_
    obtain ⟨rfl, -⟩ := ok_of_projectionArg h
    refine (benign_valueArgs call _).bind fun args _ h => ?_
    obtain ⟨rfl, -⟩ := ok_of_valueArgs h
    refine (benign_membersOf call collection).bind fun members _ h => ?_
    obtain ⟨rfl, -, hmembers⟩ := ok_of_membersOf h
    refine (benign_existing call members name _).bind fun member _ h => ?_
    obtain ⟨rfl, hmember⟩ := ok_of_existing h
    have hprojected := safe_projected hrun happly call collection member projection args
    refine hprojected.benign.bind fun made after hmade => ?_
    have hafter := hprojected.follows made after hmade
    -- projections run in between, and the receiver has kept its members
    obtain ⟨a, rest, hstack⟩ := (hrun.follows hafter).exists_activation
    split
    · exact .pure _
    · have hmembers := Graph.members?_of_le hafter.graph hmembers
      have hname := NameTable.contains_of_get? hmember
      exact benign_conclude hstack (Building.succeeds_deriveMember hmembers hname made) _ _ _ _ _
  follows v after h := by
    have hextends : ∀ span node name args result prepared,
        (apply span node name args).result setting run = .ok result prepared →
          run.graph ≤ prepared.graph := fun span node name args result prepared happlied =>
      ((happly.safe span node name args hrun).follows result prepared happlied).graph
    obtain ⟨name, projection, args, member, result, prepared, -, -, -, hfound, hprojects, hafter⟩ :=
      ok_of_project hextends h
    have hprepared := hprojects.follows hrun happly
    rcases hafter with ⟨-, rfl⟩ | ⟨-, made, updated, hmade, hresult, -, happlies⟩
    · exact hprepared
    · exact hprepared.trans (happlies.follows hprepared.sound
        (hprojects.keepsOperation hrun happly hfound happlies hmade hresult))

end Projecting

/-! ### Live members -/

omit hrun in
theorem benign_live? {a : Activation} {rest : List Activation}
    (hstack : run.activations = a :: rest) (node : NodeId) :
    Benign setting base run (live? node) := by
  refine (Benign.self hstack).bind fun self _ _ => ?_
  refine Benign.graph.bind fun g _ _ => ?_
  split
  · exact .pure _
  · exact .pure _

theorem safe_materialize (node : NodeId) : Safe setting base run (materialize node) where
  benign := by
    obtain ⟨a, rest, hstack⟩ := hrun.exists_activation
    refine Benign.get.bind fun start _ hget => ?_
    cases hget
    dsimp only
    split
    · exact .pure _
    refine (Benign.self hstack).bind fun self middle hself => ?_
    obtain ⟨rfl, b, rest', hstack', rfl⟩ := ok_of_self hself
    cases hstack.symm.trans hstack'
    split
    · -- the node of the activation is replaced by its copy
      refine (Benign.build (Building.succeeds_derive node)).bind fun copy _ hcopy => ?_
      obtain ⟨g, -, rfl⟩ := ok_of_build hcopy
      exact Benign.bind (.setSelf (by exact hstack) copy) fun _ _ _ => .pure _
    refine (benign_live? hstack node).bind fun found _ hlive => ?_
    obtain ⟨rfl, b, rest', hstack', rfl⟩ := live_of_live? hlive
    cases hstack.symm.trans hstack'
    split
    · next name live hfound =>
      split
      · exact .pure _
      obtain ⟨members, hmembers, hmember, -⟩ := Graph.of_live? hfound
      refine (Benign.build (Building.succeeds_derive live)).bind fun copy _ hcopy => ?_
      obtain ⟨g, hderived, rfl⟩ := ok_of_build hcopy
      obtain ⟨rfl, rfl⟩ := Building.ok_of_derive hderived
      -- the copy of the member does not change what the node of the activation is
      have hle := Graph.le_push middle.graph ⟨some live, middle.graph.shape live⟩
      have hmembers := Graph.members?_of_le hle hmembers
      have hname := NameTable.contains_of_get? hmember
      refine Benign.bind (.build (Building.succeeds_deriveMember hmembers hname _))
        fun updated _ hupdated => ?_
      obtain ⟨k, -, rfl⟩ := ok_of_build hupdated
      exact Benign.bind (.setSelf (by exact hstack) updated) fun _ _ _ => .pure _
    · exact .build (Building.succeeds_derive node)
  follows id after h := (ok_of_materialize h).follows hrun.sound

/-! ### Types -/

omit hrun in
theorem benign_typeArg (call : MethodCall) : Benign setting base run (typeArg call) := by
  unfold typeArg
  split
  · exact .fail _ trivial
  · exact .fail _ trivial
  · exact .build (Building.succeeds_typeOf _)
  · exact .fail _ trivial

omit hrun in
/-- A node that has a type of the given sort may get another one. -/
theorem benign_retyped? {role : TypeRole} {node : NodeId}
    (happlies : role.applies (run.graph.kind node)) (type : NodeId) :
    Benign setting base run (retyped? role node type) := by
  refine Benign.graph.bind fun g _ hgraph => ?_
  cases hgraph
  split
  · exact .pure _
  · exact (Benign.build (Building.succeeds_role happlies type)).bind fun _ _ _ => .pure _

omit hrun in
/-- A node in the place of a live member. -/
private theorem benign_putLive {a : Activation} {rest : List Activation}
    (hstack : run.activations = a :: rest) {members : NameTable} {name : String}
    (hmembers : (run.graph.shape a.self).members? = some members) (hname : members.contains name)
    (updated : NodeId) (edit : Edit) (args : List Value) (result : Value) :
    Benign setting base run (Eval.build (Building.deriveMember a.self name updated) >>=
      fun container => setSelf container >>= fun _ => record edit name args >>= fun _ =>
        pure result) := by
  refine Benign.bind (.build (Building.succeeds_deriveMember hmembers hname updated))
    fun container _ hcontainer => ?_
  obtain ⟨g, -, rfl⟩ := ok_of_build hcontainer
  refine Benign.bind (.setSelf (by exact hstack) container) fun _ _ _ => ?_
  exact (Benign.record _ _ _).bind fun _ _ _ => .pure _

theorem benign_setType (call : MethodCall) (role : TypeRole) :
    Benign setting base run (setType call role) := by
  refine (benign_typeArg call).bind fun type typed htyped => ?_
  -- a type given by its value is made for the call
  obtain ⟨-, g, -, -, hsupplied, -, rfl⟩ := ok_of_typeArg htyped
  have hready := hrun.follows (.supplied hrun.sound hsupplied)
  obtain ⟨a, rest, hstack⟩ := hready.exists_activation
  refine Benign.graph.bind fun g _ hgraph => ?_
  cases hgraph
  dsimp only
  split
  swap
  · exact .fail_bind _ (by trivial) _
  next happlies =>
  refine (Benign.self hstack).bind fun self middle hself => ?_
  obtain ⟨rfl, b, rest', hstack', rfl⟩ := ok_of_self hself
  cases hstack.symm.trans hstack'
  split
  · -- the receiver is the node of the activation
    refine (benign_retyped? happlies type).bind fun updated? _ hretyped => ?_
    rcases ok_of_retyped? hretyped with ⟨-, rfl, rfl⟩ | ⟨-, shape, -, rfl, rfl⟩
    · exact .pure _
    · refine Benign.bind (.setSelf (by exact hstack) _) fun _ _ _ => ?_
      exact (Benign.record _ _ _).bind fun _ _ _ => .pure _
  refine (benign_live? hstack call.receiver).bind fun found last hlive => ?_
  obtain ⟨rfl, b, rest', hstack', rfl⟩ := live_of_live? hlive
  cases hstack.symm.trans hstack'
  split
  · next name live hfound =>
    obtain ⟨members, hmembers, hmember, hlineage⟩ := Graph.of_live? hfound
    -- the live member is of the kind of the receiver, since both are of one lineage
    have hkind := hready.sound.tidy.kind_of_sameLineage hlineage
    have happlies : role.applies (Graph.kind g live) := hkind ▸ happlies
    refine (benign_retyped? happlies type).bind fun updated? _ hretyped => ?_
    rcases ok_of_retyped? hretyped with ⟨-, rfl, rfl⟩ | ⟨-, shape, -, rfl, rfl⟩
    · exact .pure _
    · have hmembers := Graph.members?_of_le (Graph.le_push g ⟨some live, shape⟩) hmembers
      exact benign_putLive (by exact hstack) hmembers (NameTable.contains_of_get? hmember) _ _ _ _
  · -- the receiver belongs to no container in hand, so nothing is replaced
    refine (benign_retyped? happlies type).bind fun updated? _ _ => ?_
    cases updated? <;> exact .pure _

theorem safe_setType (call : MethodCall) (role : TypeRole) :
    Safe setting base run (setType call role) where
  benign := benign_setType hrun call role
  follows v after h := by
    obtain ⟨given, g, type, -, -, hsupplied, -, -, hsets⟩ := ok_of_setType h
    have hfollows := Run.Follows.supplied hrun.sound hsupplied
    exact hfollows.trans (hsets.follows hfollows.sound)

/-! ### Methods -/

theorem safe_get (call : MethodCall) (collection : Collection) :
    Safe setting base run (get call collection) := by
  refine .still hrun.sound ?_ fun v after h => ?_
  · refine (benign_stringArg call 0).bind fun name _ _ => ?_
    refine (benign_membersOf call collection).bind fun members _ _ => ?_
    exact (benign_existing call members name _).bind fun _ _ _ => .pure _
  · obtain ⟨name, _, hread, h⟩ := ok_of_bind h
    obtain ⟨rfl, -⟩ := ok_of_stringArg hread
    obtain ⟨members, _, hread, h⟩ := ok_of_bind h
    obtain ⟨rfl, -⟩ := ok_of_membersOf hread
    obtain ⟨member, _, hread, h⟩ := ok_of_bind h
    obtain ⟨rfl, -⟩ := ok_of_existing hread
    cases h
    rfl

/-- **Every method of nodes is safe**, provided that applying projections by name is. -/
theorem safe_run {apply : Apply} (happly : SafeApply setting base depth apply) (call : MethodCall)
    (method : Method) : Safe setting base run (Edits.run apply call method) := by
  cases method with
  | edit edit =>
    cases edit with
    | add c => exact safe_add hrun call c
    | delete c => exact safe_delete hrun call c
    | rename c => exact safe_rename hrun call c
    | project c => exact safe_project hrun happly call c
    | setType => exact safe_setType hrun call .declared
    | setReturnType => exact safe_setType hrun call .returned
  | get c => exact safe_get hrun call c

end Edits

end SchemaProjection
