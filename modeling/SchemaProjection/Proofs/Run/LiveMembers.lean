import SchemaProjection.Proofs.Run.Effects

/-!
# Effects on live members

Two operations reach into the node of the activation by way of a member that was read from it
before: preparing the target of a decorator, and setting a type. Both go to the live member, the one
of the same lineage that the node has now (`Graph.live?`).

`Edits.Materializes` and `Edits.SetsType` list what each of them does when it succeeds, and
`Edits.ok_of_materialize` and `Edits.ok_of_setType` read it off the code. A type that is set on a
live member is an edit of the container and takes effect like the others.
-/

namespace SchemaProjection

/-! ### Live members -/

/-- The member of a container that shares its lineage with a node. -/
def Graph.live? (g : Graph) (container node : NodeId) : Option (String × NodeId) :=
  match (g.shape container).members? with
  | none => none
  | some members => members.entries.find? fun e => g.sameLineage e.2 node

namespace Graph

variable {g : Graph} {container node live : NodeId} {members : NameTable}

/-- A live member is a member, of the same lineage. -/
theorem of_live? {name : String} (h : g.live? container node = some (name, live)) :
    ∃ members, (g.shape container).members? = some members ∧ members.get? name = some live ∧
      g.sameLineage live node := by
  unfold live? at h
  split at h
  · cases h
  · next members hmembers =>
    refine ⟨members, hmembers, NameTable.get?_iff.mpr (List.mem_of_find?_eq_some h), ?_⟩
    have hsame := List.find?_some h
    exact hsame

theorem eq_of_root {entries : List (String × NodeId)} {e e' : String × NodeId}
    (hroots : entries.Pairwise fun e e' => g.root e.2 ≠ g.root e'.2) (he : e ∈ entries)
    (he' : e' ∈ entries) (hsame : g.root e.2 = g.root e'.2) : e = e' := by
  have hone : entries.Pairwise fun e e' => g.root e.2 = g.root e'.2 → e = e' :=
    hroots.imp fun hne heq => absurd heq hne
  have hother : entries.Pairwise (flip fun e e' => g.root e.2 = g.root e'.2 → e = e') :=
    hroots.imp fun hne heq => absurd heq.symm hne
  exact hone.forall_of_forall_of_flip (fun _ _ _ => rfl) hother he he' hsame

variable (hmembers : (g.shape container).members? = some members)
include hmembers

/-- **The live member** of a node is the one with its root, if no two members have one root. -/
theorem live?_of_root (hroots : members.entries.Pairwise fun e e' => g.root e.2 ≠ g.root e'.2)
    {e : String × NodeId} (he : e ∈ members.entries) (hroot : g.root e.2 = g.root node) :
    g.live? container node = some e := by
  rw [live?, hmembers]
  dsimp only
  cases hfind : members.entries.find? fun e => g.sameLineage e.2 node with
  | none => exact absurd (decide_eq_true hroot) (List.find?_eq_none.mp hfind e he)
  | some found =>
    have hfound := List.mem_of_find?_eq_some hfind
    have hsame := List.find?_some hfind
    rw [eq_of_root hroots hfound he ((of_decide_eq_true hsame).trans hroot.symm)]

theorem live?_eq_none (hroots : ∀ e ∈ members.entries, g.root e.2 ≠ g.root node) :
    g.live? container node = none := by
  rw [live?, hmembers]
  exact List.find?_eq_none.mpr fun e he hsame => hroots e he (of_decide_eq_true hsame)

end Graph

namespace Edits

open Eval

variable {setting : Setting} {run after : Run} {call : MethodCall} {node id : NodeId}

theorem live_of_live? {found : Option (String × NodeId)}
    (h : (live? node).result setting run = .ok found after) :
    run = after ∧ ∃ a rest, run.activations = a :: rest ∧
      found = run.graph.live? a.self node := by
  obtain ⟨self, middle, hself, h⟩ := ok_of_bind h
  obtain ⟨rfl, a, rest, hstack, rfl⟩ := ok_of_self hself
  obtain ⟨g, _, hgraph, h⟩ := ok_of_bind h
  cases hgraph
  unfold Graph.live?
  split at h
  · next hmembers =>
    cases h
    exact ⟨rfl, a, rest, hstack, by rw [hmembers]⟩
  · next members hmembers =>
    cases h
    exact ⟨rfl, a, rest, hstack, by rw [hmembers]⟩

/-! ### Preparing the target of a decorator -/

/-- **How a node is made the run's own.** Nodes of the run stay; the node of the activation and its
live members are replaced by copies, in the activation, too; other nodes are copied by
themselves. -/
inductive Materializes (node : NodeId) (run : Run) : NodeId → Run → Prop
  | own (owned : run.watermark ≤ node.index) : Materializes node run node run
  | self {a : Activation} {rest : List Activation} (stack : run.activations = a :: rest)
    (old : node.index < run.watermark) (is_self : node = a.self) :
    Materializes node run run.graph.nextId
      ({ run with graph := run.graph.push ⟨some node, run.graph.shape node⟩ }.adopt
        run.graph.nextId)
  | liveOwn {a : Activation} {rest : List Activation} {name : String} {live : NodeId}
    (stack : run.activations = a :: rest) (old : node.index < run.watermark)
    (not_self : node ≠ a.self) (found : run.graph.live? a.self node = some (name, live))
    (owned : run.watermark ≤ live.index) : Materializes node run live run
  | live {a : Activation} {rest : List Activation} {name : String} {live : NodeId}
    {members : NameTable} {shape : Shape} {g : Graph} (stack : run.activations = a :: rest)
    (old : node.index < run.watermark) (not_self : node ≠ a.self)
    (found : run.graph.live? a.self node = some (name, live))
    (live_old : live.index < run.watermark)
    (has_members : (run.graph.shape a.self).members? = some members)
    (copied : g = run.graph.push ⟨some live, run.graph.shape live⟩)
    (changed : (run.graph.shape a.self).withMembers? (members.replace name run.graph.nextId) =
      some shape) :
    Materializes node run run.graph.nextId
      ({ run with graph := g.push ⟨some a.self, shape⟩ }.adopt g.nextId)
  | detached {a : Activation} {rest : List Activation} (stack : run.activations = a :: rest)
    (old : node.index < run.watermark) (not_self : node ≠ a.self)
    (not_found : run.graph.live? a.self node = none) :
    Materializes node run run.graph.nextId
      { run with graph := run.graph.push ⟨some node, run.graph.shape node⟩ }

theorem ok_of_materialize (h : (materialize node).result setting run = .ok id after) :
    Materializes node run id after := by
  obtain ⟨start, _, hget, h⟩ := ok_of_bind h
  cases hget
  dsimp only at h
  split at h
  · next howned =>
    cases h
    exact .own howned
  next hold =>
  rw [Nat.not_le] at hold
  obtain ⟨self, middle, hself, h⟩ := ok_of_bind h
  obtain ⟨rfl, a, rest, hstack, rfl⟩ := ok_of_self hself
  split at h
  · -- the target is the node of the activation itself
    next hnode =>
    obtain ⟨copy, _, hcopy, h⟩ := ok_of_bind h
    obtain ⟨g, hbuilt, rfl⟩ := ok_of_build hcopy
    obtain ⟨rfl, rfl⟩ := Building.ok_of_derive hbuilt
    obtain ⟨_, _, hset, h⟩ := ok_of_bind h
    obtain rfl := ok_of_setSelf hset
    cases h
    exact .self hstack hold hnode
  next hnode =>
  obtain ⟨found, _, hlive, h⟩ := ok_of_bind h
  obtain ⟨rfl, b, rest', hstack', hfound⟩ := live_of_live? hlive
  cases hstack.symm.trans hstack'
  split at h
  · next name live =>
    split at h
    · next howned =>
      cases h
      exact .liveOwn hstack hold hnode hfound.symm howned
    -- the live member is from before the run, so it is copied, and so is what contains it
    next hliveold =>
    rw [Nat.not_le] at hliveold
    obtain ⟨copy, _, hcopy, h⟩ := ok_of_bind h
    obtain ⟨g, hbuilt, rfl⟩ := ok_of_build hcopy
    obtain ⟨rfl, rfl⟩ := Building.ok_of_derive hbuilt
    obtain ⟨updated, _, hupdated, h⟩ := ok_of_bind h
    obtain ⟨g', hderived, rfl⟩ := ok_of_build hupdated
    obtain ⟨members, shape, hmembers, -, hchanged, rfl, rfl⟩ :=
      Building.ok_of_deriveMember hderived
    obtain ⟨_, _, hset, h⟩ := ok_of_bind h
    obtain rfl := ok_of_setSelf hset
    cases h
    -- the copy of the member does not change what the node of the activation is
    obtain ⟨members', hmembers', -, -⟩ := Graph.of_live? hfound.symm
    rw [Graph.shape_of_le (Graph.le_push _ _) (Graph.contains_of_members? hmembers')]
      at hmembers hchanged
    exact .live hstack hold hnode hfound.symm hliveold hmembers rfl hchanged
  · obtain ⟨g, hbuilt, rfl⟩ := ok_of_build h
    obtain ⟨rfl, rfl⟩ := Building.ok_of_derive hbuilt
    exact .detached hstack hold hnode hfound.symm

/-! ### Types -/

namespace TypeRole

/-- A node with another type. -/
def change? : TypeRole → NodeId → Shape → Option Shape
  | .declared, type => Shape.withType? type
  | .returned, type => Shape.withReturnType? type

theorem alters (role : TypeRole) (type : NodeId) : Shape.Alters (role.change? type) := by
  cases role with
  | declared => exact Shape.alters_withType? type
  | returned => exact Shape.alters_withReturnType? type

/-- What has a type has no members. -/
theorem members?_of_change {role : TypeRole} {type : NodeId} {shape changed : Shape}
    (h : role.change? type shape = some changed) : shape.members? = none := by
  cases role with
  | declared => cases shape <;> first | rfl | cases h
  | returned => cases shape <;> first | rfl | cases h

end TypeRole

theorem ok_of_typeArg {type : NodeId} (h : (typeArg call).result setting run = .ok type after) :
    ∃ v g, call.args = [.value v] ∧ v ≠ .absent ∧ run.graph.Supplied g ∧ g.Denotes v type ∧
      after = { run with graph := g } := by
  unfold typeArg at h
  split at h
  · cases h
  · cases h
  · next v hgiven hargs =>
    obtain ⟨g, hbuilt, rfl⟩ := ok_of_build h
    obtain ⟨hsupplied, hdenotes⟩ := Building.ok_of_typeOf hbuilt
    exact ⟨v, g, hargs, hgiven, hsupplied, hdenotes, rfl⟩
  · cases h

theorem ok_of_retyped? {role : TypeRole} {type : NodeId} {updated? : Option NodeId}
    (h : (retyped? role node type).result setting run = .ok updated? after) :
    (role.current? (run.graph.shape node) = some type ∧ updated? = none ∧ run = after) ∨
      (role.current? (run.graph.shape node) ≠ some type ∧ ∃ shape,
        role.change? type (run.graph.shape node) = some shape ∧
          updated? = some run.graph.nextId ∧
          after = { run with graph := run.graph.push ⟨some node, shape⟩ }) := by
  obtain ⟨g, _, hgraph, h⟩ := ok_of_bind h
  cases hgraph
  split at h
  · next hsame =>
    cases h
    exact .inl ⟨hsame, rfl, rfl⟩
  · next hdiffers =>
    obtain ⟨updated, middle, hbuild, h⟩ := ok_of_bind h
    obtain ⟨g, hbuilt, rfl⟩ := ok_of_build hbuild
    cases h
    refine .inr ⟨hdiffers, ?_⟩
    cases role with
    | declared =>
      obtain ⟨shape, hshape, rfl, rfl⟩ := Building.ok_of_deriveType hbuilt
      exact ⟨shape, hshape, rfl, rfl⟩
    | returned =>
      obtain ⟨shape, hshape, rfl, rfl⟩ := Building.ok_of_deriveReturnType hbuilt
      exact ⟨shape, hshape, rfl, rfl⟩

/-- **How a type is set.** A node that has the type stays. Otherwise the node of the activation is
replaced, or its live member in it, or a copy is made of some other node. -/
inductive SetsType (role : TypeRole) (node type : NodeId) (run : Run) : Run → Prop
  | same {target : NodeId} {a : Activation} {rest : List Activation}
    (stack : run.activations = a :: rest)
    (is_target : target = node ∧ (node = a.self ∨ run.graph.live? a.self node = none) ∨
      node ≠ a.self ∧ ∃ name, run.graph.live? a.self node = some (name, target))
    (has_type : role.current? (run.graph.shape target) = some type) :
    SetsType role node type run run
  | self {a : Activation} {rest : List Activation} {name : String} {shape : Shape}
    (stack : run.activations = a :: rest) (is_self : node = a.self)
    (differs : role.current? (run.graph.shape node) ≠ some type)
    (retyped : role.change? type (run.graph.shape node) = some shape) :
    SetsType role node type run
      (({ run with graph := run.graph.push ⟨some node, shape⟩ }.adopt run.graph.nextId).note
        ⟨role.edit, name, [.type type]⟩)
  | live {a : Activation} {rest : List Activation} {name : String} {live updated : NodeId}
    {after : Run} (stack : run.activations = a :: rest) (not_self : node ≠ a.self)
    (found : run.graph.live? a.self node = some (name, live))
    (differs : role.current? (run.graph.shape live) ≠ some type)
    (applies : run.Applies a.self ⟨role.edit, name, [.type type]⟩ updated after) :
    SetsType role node type run after
  | detached {a : Activation} {rest : List Activation} {shape : Shape}
    (stack : run.activations = a :: rest) (not_self : node ≠ a.self)
    (not_found : run.graph.live? a.self node = none)
    (differs : role.current? (run.graph.shape node) ≠ some type)
    (retyped : role.change? type (run.graph.shape node) = some shape) :
    SetsType role node type run { run with graph := run.graph.push ⟨some node, shape⟩ }

/-- A live member with another type is put in its place. -/
private theorem applies_of_retyped {role : TypeRole} {type live : NodeId} {name : String}
    {shape : Shape} {v result : Value} {a : Activation} {rest : List Activation}
    (hstack : run.activations = a :: rest)
    (hfound : run.graph.live? a.self node = some (name, live))
    (hshape : role.change? type (run.graph.shape live) = some shape)
    (h : (build (Building.deriveMember a.self name run.graph.nextId) >>= fun container =>
      setSelf container >>= fun _ => record role.edit name [.type type] >>= fun _ =>
        pure result).result setting
          { run with graph := run.graph.push ⟨some live, shape⟩ } = .ok v after) :
    ∃ updated, run.Applies a.self ⟨role.edit, name, [.type type]⟩ updated after := by
  obtain ⟨container, _, hcontainer, h⟩ := ok_of_bind h
  obtain ⟨g, hbuilt, rfl⟩ := ok_of_build hcontainer
  obtain ⟨members, changed, hmembers, -, hchanged, rfl, rfl⟩ := Building.ok_of_deriveMember hbuilt
  obtain ⟨_, _, hset, h⟩ := ok_of_bind h
  obtain rfl := ok_of_setSelf hset
  obtain ⟨_, _, hnote, h⟩ := ok_of_bind h
  obtain rfl := ok_of_record hnote
  cases h
  obtain ⟨members', hmembers', hlive, -⟩ := Graph.of_live? hfound
  rw [Graph.shape_of_le (Graph.le_push _ _) (Graph.contains_of_members? hmembers')]
    at hmembers hchanged
  cases hmembers.symm.trans hmembers'
  have hcopy := Graph.derives_nextId (role.alters type) hshape
  have hsupplied := Graph.supplied_alter (role.alters type) hshape
  refine ⟨_, .self hstack rfl ?_⟩
  -- either role has its own instruction
  cases role with
  | declared =>
    exact .mk hsupplied hmembers (fun c hc => nomatch hc)
      (.setType hlive hcopy) hchanged
  | returned =>
    exact .mk hsupplied hmembers (fun c hc => nomatch hc)
      (.setReturnType hlive hcopy) hchanged

/-- Setting a type, once it is known which one. -/
theorem setsType_of_typed {role : TypeRole} {type : NodeId} {typed : Run} {v : Value}
    (htype : (typeArg call).result setting run = .ok type typed)
    (h : (setType call role).result setting run = .ok v after) :
    role.applies (typed.graph.kind call.receiver) ∧
      SetsType role call.receiver type typed after := by
  obtain ⟨_, _, htype', h⟩ := ok_of_bind h
  cases htype.symm.trans htype'
  obtain ⟨_, _, hgraph, h⟩ := ok_of_bind h
  cases hgraph
  dsimp only at h
  by_cases happlies : role.applies (typed.graph.kind call.receiver)
  · refine ⟨happlies, ?_⟩
    rw [if_pos happlies] at h
    obtain ⟨self, _, hself, h⟩ := ok_of_bind h
    obtain ⟨rfl, a, rest, hstack, rfl⟩ := ok_of_self hself
    split at h
    · next hreceiver =>
      obtain ⟨updated?, _, hretyped, h⟩ := ok_of_bind h
      rcases ok_of_retyped? hretyped with ⟨hsame, rfl, rfl⟩ | ⟨hdiffers, shape, hshape, rfl, rfl⟩
      · cases h
        exact .same hstack (.inl ⟨rfl, .inl hreceiver⟩) hsame
      · obtain ⟨_, _, hset, h⟩ := ok_of_bind h
        obtain rfl := ok_of_setSelf hset
        obtain ⟨_, _, hnote, h⟩ := ok_of_bind h
        obtain rfl := ok_of_record hnote
        cases h
        exact .self hstack hreceiver hdiffers hshape
    next hreceiver =>
    obtain ⟨found, _, hlive, h⟩ := ok_of_bind h
    obtain ⟨rfl, b, rest', hstack', hfound⟩ := live_of_live? hlive
    cases hstack.symm.trans hstack'
    split at h
    · next name live =>
      obtain ⟨updated?, _, hretyped, h⟩ := ok_of_bind h
      rcases ok_of_retyped? hretyped with ⟨hsame, rfl, rfl⟩ | ⟨hdiffers, shape, hshape, rfl, rfl⟩
      · cases h
        exact .same hstack (.inr ⟨hreceiver, name, hfound.symm⟩) hsame
      · obtain ⟨updated, happlies⟩ := applies_of_retyped hstack hfound.symm hshape h
        exact .live hstack hreceiver hfound.symm hdiffers happlies
    · obtain ⟨updated?, _, hretyped, h⟩ := ok_of_bind h
      rcases ok_of_retyped? hretyped with ⟨hsame, rfl, rfl⟩ | ⟨hdiffers, shape, hshape, rfl, rfl⟩
      · cases h
        exact .same hstack (.inl ⟨rfl, .inr hfound.symm⟩) hsame
      · cases h
        exact .detached hstack hreceiver hfound.symm hdiffers hshape
  · rw [if_neg happlies] at h
    cases h

theorem ok_of_setType {role : TypeRole} {v : Value}
    (h : (setType call role).result setting run = .ok v after) :
    ∃ given g type, call.args = [.value given] ∧ given ≠ .absent ∧ run.graph.Supplied g ∧
      g.Denotes given type ∧ role.applies (g.kind call.receiver) ∧
      SetsType role call.receiver type { run with graph := g } after := by
  obtain ⟨type, _, htype, -⟩ := ok_of_bind h
  obtain ⟨happlies, hsets⟩ := setsType_of_typed htype h
  obtain ⟨given, g, hargs, hgiven, hsupplied, hdenotes, rfl⟩ := ok_of_typeArg htype
  exact ⟨given, g, type, hargs, hgiven, hsupplied, hdenotes, happlies, hsets⟩

end Edits

end SchemaProjection
