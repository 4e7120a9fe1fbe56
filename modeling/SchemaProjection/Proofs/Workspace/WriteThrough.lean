import SchemaProjection.Proofs.Run.Succeeding
import SchemaProjection.Proofs.Workspace.Integrity

/-!
# Setting the type of a member writes through

A node that was read from the members of `self` may be an older version of a member: since it was
read, the member may have been renamed or retyped. A type that is set on it reaches the member that
`self` has now, and nothing else (`Workspace.setType_writes_through`).

The live member is found by its lineage. If no two members of a container have one root, only one of
them can be meant (`Graph.live?_of_root`). It is of the kind of the node that was read, so it may
have the type if the node may.
-/

namespace SchemaProjection

/-- **A node with another type**: a property, a variant or an operation that is otherwise the same.
Its name stays, and so do the flag of an optional property and the parameters of an operation. -/
inductive Shape.Retyped (type : NodeId) : Shape → Shape → Prop
  | property (name : String) (old : NodeId) (optional : Bool) :
    Retyped type (.modelProperty name old optional) (.modelProperty name type optional)
  | variant (name : String) (old : NodeId) :
    Retyped type (.unionVariant name old) (.unionVariant name type)
  | operation (name : String) (parameters old : NodeId) :
    Retyped type (.operation name parameters old) (.operation name parameters type)

theorem Edits.TypeRole.retyped_of_change {role : TypeRole} {type : NodeId} {shape changed : Shape}
    (h : role.change? type shape = some changed) : shape.Retyped type changed := by
  cases role <;> cases shape <;> cases h <;> constructor

namespace Graph

variable {g h : Graph} {container updated : NodeId}

/-- What setting a type makes of a container and its member. -/
theorem Edited.retyped {role : Edits.TypeRole} {name : String} {type : NodeId}
    (he : g.Edited container ⟨role.edit, name, [.type type]⟩ h updated) :
    ∃ members member copy, (g.shape container).members? = some members ∧
      members.get? name = some member ∧ h.Derives member (role.change? type) copy ∧
      (g.shape container).withMembers? (members.replace name copy) = some (h.shape updated) := by
  obtain ⟨k, members, table, hle, hfound, hmakes, hchanged⟩ := he.exists_makes
  cases role with
  | declared =>
    cases hmakes with
    | setType hmember retyped =>
      have halters := Shape.alters_withType? type
      exact ⟨members, _, _, hfound, hmember, retyped.mono hle halters, hchanged⟩
  | returned =>
    cases hmakes with
    | setReturnType hmember retyped =>
      have halters := Shape.alters_withReturnType? type
      exact ⟨members, _, _, hfound, hmember, retyped.mono hle halters, hchanged⟩

end Graph

/-- **What setting a type does to the node of the activation** when it is set on another node: if a
live member is found, it has the type afterwards, and nothing happens if it has it already; if none
is found, the node of the activation stays. -/
theorem Edits.SetsType.exact {role : TypeRole} {node type : NodeId} {run after : Run}
    {a : Activation} {rest : List Activation} (h : SetsType role node type run after)
    (hstack : run.activations = a :: rest) (hself : node ≠ a.self) :
    ∃ updated, after.activations = { a with self := updated } :: rest ∧ run.graph ≤ after.graph ∧
      (∀ name live, run.graph.live? a.self node = some (name, live) →
        (role.current? (run.graph.shape live) = some type → updated = a.self) ∧
        (role.current? (run.graph.shape live) ≠ some type →
          run.graph.Edited a.self ⟨role.edit, name, [.type type]⟩ after.graph updated)) ∧
      (run.graph.live? a.self node = none → updated = a.self) := by
  cases h with
  | @same target b rest' stack is_target has_type =>
    cases hstack.symm.trans stack
    refine ⟨a.self, hstack, le_rfl, fun name live hlive => ⟨fun _ => rfl, fun hdiffers => ?_⟩,
      fun _ => rfl⟩
    rcases is_target with ⟨-, hnode | hnone⟩ | ⟨-, name', hlive'⟩
    · exact absurd hnode hself
    · exact nomatch hlive.symm.trans hnone
    · cases hlive.symm.trans hlive'
      exact absurd has_type hdiffers
  | self stack is_self differs retyped =>
    cases hstack.symm.trans stack
    exact absurd is_self hself
  | @live b rest' name live updated after stack not_self found differs applies =>
    cases hstack.symm.trans stack
    refine ⟨updated, ?_, applies.edited.extends, fun name' live' hlive => ?_, fun hnone => ?_⟩
    · obtain ⟨hshown, -⟩ := applies.shows hstack
      rw [hshown, if_pos rfl]
    · cases hlive.symm.trans found
      exact ⟨fun hsame => absurd hsame differs, fun _ => applies.edited⟩
    · exact nomatch hnone.symm.trans found
  | detached stack not_self not_found differs retyped =>
    refine ⟨a.self, hstack, Graph.le_push _ _, fun name live hlive => ?_, fun _ => rfl⟩
    cases hstack.symm.trans stack
    exact nomatch hlive.symm.trans not_found

namespace Workspace

variable {w : Workspace} {admits : Event → Prop}

/-- A run may have built anything by now, and may be in any activations. -/
theorem reaches_of_grown {g : Graph} (h : w.graph.Grown w.graph.size g)
    (trace : Option (List Instruction)) (activations : List Activation) :
    (Run.start w.graph w.metadata trace).Reaches w.setting
      { Run.start w.graph w.metadata trace with graph := g, activations := activations } := by
  have hbuilt : (Run.start w.graph w.metadata trace).Reaches w.setting
      { Run.start w.graph w.metadata trace with graph := g } := Eval.reaches_of_grown h
  exact hbuilt.trans (Run.Move.stack _ activations).reaches

/-- **Setting the type of a member writes through**, in any state that a run of a reachable
workspace gets to, if the members of the node of the activation have different roots. The node that
the type is set on may be any version of a member. If the live member has the type, the node of the
activation stays. Otherwise the members of its copy are the same under the same names and in the
same order, but for the live member, in whose place there is a copy of it with the type. The node of
the activation also stays if no member shares its lineage with the node. -/
theorem setType_writes_through (hw : w.Reachable admits) {trace : Option (List Instruction)}
    {run : Run} (hrun : (Run.start w.graph w.metadata trace).Reaches w.setting run)
    {a : Activation} {rest : List Activation} (hstack : run.activations = a :: rest)
    {members : NameTable} (hmembers : (run.graph.shape a.self).members? = some members)
    (hroots : members.entries.Pairwise fun e e' => run.graph.root e.2 ≠ run.graph.root e'.2)
    (role : Edits.TypeRole) {node : NodeId} (hself : node ≠ a.self)
    (happlies : role.applies (run.graph.kind node)) (type : NodeId) (apply : Edits.Apply)
    (span : Span) (method : Word) :
    ∃ v after updated,
      (Edits.run apply ⟨span, method, node, [.value (.type type)]⟩ (.edit role.edit)).result
        w.setting run = .ok v after ∧
      after.activations = { a with self := updated } :: rest ∧ run.graph ≤ after.graph ∧
      (∀ name live, (name, live) ∈ members.entries → run.graph.root live = run.graph.root node →
        (role.current? (run.graph.shape live) = some type → updated = a.self) ∧
        (role.current? (run.graph.shape live) ≠ some type → ∃ copy table,
          (run.graph.shape a.self).withMembers? table = some (after.graph.shape updated) ∧
          table.keys = members.keys ∧ table.get? name = some copy ∧
          (∀ other, other ≠ name → table.get? other = members.get? other) ∧
          after.graph.origin? copy = some live ∧
          (run.graph.shape live).Retyped type (after.graph.shape copy))) ∧
      ((∀ e ∈ members.entries, run.graph.root e.2 ≠ run.graph.root node) → updated = a.self) := by
  have hfaithful := hrun.faithful (Nat.le_refl _) hw.faithful
  have htidy : run.graph.Tidy fun _ => False :=
    ⟨hfaithful.ordered, fun id origin h => (hfaithful.kinds id origin h).symm,
      fun _ _ _ _ h => h.elim⟩
  have hlive : ∀ name live, run.graph.live? a.self node = some (name, live) →
      role.applies (run.graph.kind live) := by
    intro name live hfound
    obtain ⟨-, -, -, hlineage⟩ := Graph.of_live? hfound
    rw [htidy.kind_of_sameLineage hlineage]
    exact happlies
  have hok : Eval.Succeeds w.setting run
      (Edits.setType ⟨span, method, node, [.value (.type type)]⟩ role) :=
    Edits.succeeds_setType hstack rfl happlies hlive
  obtain ⟨v, after, hok⟩ := hok
  obtain ⟨-, hsets⟩ := Edits.setsType_of_typed (Edits.result_typeArg rfl) hok
  obtain ⟨updated, hstack', hle, hfound, hnone⟩ := hsets.exact hstack hself
  refine ⟨v, after, updated, ?_, hstack', hle, fun name live hentry hroot => ?_,
    fun hroots => hnone (Graph.live?_eq_none hmembers hroots)⟩
  · rw [Edits.run_role]
    exact hok
  have hlive? := Graph.live?_of_root hmembers hroots hentry hroot
  obtain ⟨hsame, hdiffers⟩ := hfound name live hlive?
  refine ⟨hsame, fun hne => ?_⟩
  obtain ⟨members', live', copy, hmembers', hlive', hcopy, hchanged⟩ := (hdiffers hne).retyped
  cases hmembers.symm.trans hmembers'
  have hmember : members.get? name = some live := NameTable.get?_iff.mpr hentry
  cases hmember.symm.trans hlive'
  -- the live member is a node of the graph, so it reads the same before and after
  obtain ⟨changed, hchange⟩ := Shape.exists_change? (hlive name live hlive?) type
  have hin := Graph.contains_of_read (role.alters type).unknown hchange
  obtain ⟨shape, hshape, hnode⟩ := hcopy
  rw [Graph.shape_of_le hle hin] at hshape
  refine ⟨copy, members.replace name copy, hchanged, NameTable.keys_replaceIn .., ?_,
    fun other hother => NameTable.get?_replace_of_ne hother, Graph.origin?_of_node? hnode, ?_⟩
  · exact NameTable.get?_replace (NameTable.contains_of_get? hmember)
  · rw [Graph.shape_of_node? hnode]
    exact role.retyped_of_change hshape

/-- A model with an optional property `a`, node 26, and a property `c`, node 27. -/
def staleSteps : List Event :=
  [.construct (.model "M"), .construct (.property ⟨25⟩ "a" ⟨4⟩ true),
    .construct (.property ⟨25⟩ "c" ⟨4⟩ false)]

def staleWorkspace : Workspace := staleSteps.foldl after (ofGraph .initial)

/-- The members of the model once `a` is renamed to `b`, which is node 28. -/
def renamedMembers : NameTable := .ofList [("b", ⟨28⟩), ("c", ⟨27⟩)]

/-- A run in which `a` was renamed to `b`, and `self` is node 29. -/
def renamedRun : Run :=
  { Run.start staleWorkspace.graph staleWorkspace.metadata none with
    graph := (staleWorkspace.graph.push ⟨some ⟨26⟩, .modelProperty "b" ⟨4⟩ true⟩).push
      ⟨some ⟨25⟩, .model (some "M") renamedMembers⟩
    activations := [.start 1 ⟨29⟩ .forward 0 []] }

/-- A type that is set on `a`, as it was read before, reaches `b`. The property stays optional, and
`c` stays as it is. -/
theorem setType_writes_through_renamed :
    staleWorkspace.Reachable (fun _ => True) ∧
      (Run.start staleWorkspace.graph staleWorkspace.metadata none).Reaches staleWorkspace.setting
        renamedRun ∧
      ∀ apply : Edits.Apply, ∃ v after updated copy table,
        (Edits.run apply ⟨default, ⟨"setType", default⟩, ⟨26⟩, [.value (.type ⟨5⟩)]⟩
          (.edit .setType)).result staleWorkspace.setting renamedRun = .ok v after ∧
        (after.graph.shape updated).members? = some table ∧ table.keys = ["b", "c"] ∧
        table.get? "b" = some copy ∧ table.get? "c" = some ⟨27⟩ ∧
        after.graph.origin? copy = some ⟨28⟩ ∧
        after.graph.shape copy = .modelProperty "b" ⟨5⟩ true := by
  have hstart : (ofGraph .initial).KnowsAll staleSteps ∧
      (Shape.modelProperty "b" ⟨4⟩ true).kind = staleWorkspace.graph.kind ⟨26⟩ ∧
      (Shape.model (some "M") renamedMembers).kind =
        (staleWorkspace.graph.push ⟨some ⟨26⟩, .modelProperty "b" ⟨4⟩ true⟩).kind ⟨25⟩ ∧
      (staleWorkspace.graph.contains ⟨26⟩ ∧
        (staleWorkspace.graph.push ⟨some ⟨26⟩, .modelProperty "b" ⟨4⟩ true⟩).contains ⟨25⟩) := by
    decide +kernel
  obtain ⟨hknows, hmember, hmodel, hmemberin, hmodelin⟩ := hstart
  have hread : (renamedRun.graph.shape ⟨29⟩).members? = some renamedMembers ∧
      (renamedMembers.entries.Pairwise fun e e' =>
        renamedRun.graph.root e.2 ≠ renamedRun.graph.root e'.2) ∧
      Edits.TypeRole.declared.applies (renamedRun.graph.kind ⟨26⟩) ∧
      ("b", ⟨28⟩) ∈ renamedMembers.entries ∧
      renamedRun.graph.root ⟨28⟩ = renamedRun.graph.root ⟨26⟩ ∧
      renamedRun.graph.shape ⟨28⟩ = .modelProperty "b" ⟨4⟩ true ∧
      renamedMembers.keys = ["b", "c"] ∧ renamedMembers.get? "c" = some ⟨27⟩ := by
    decide +kernel
  obtain ⟨hmembers, hroots, happlies, hentry, hroot, hlive, hkeys, hother⟩ := hread
  have hreachable : staleWorkspace.Reachable fun _ => True :=
    Reachable.start.steps (fun _ _ => trivial) hknows
  have hgrown : staleWorkspace.graph.Grown staleWorkspace.graph.size renamedRun.graph :=
    .derive _ _ (.inl hmodelin) hmodel (.derive _ _ (.inl hmemberin) hmember .refl)
  have hreached : (Run.start staleWorkspace.graph staleWorkspace.metadata none).Reaches
      staleWorkspace.setting renamedRun := reaches_of_grown hgrown none _
  refine ⟨hreachable, hreached, fun apply => ?_⟩
  obtain ⟨v, after, updated, hok, -, -, hwritten, -⟩ := setType_writes_through hreachable hreached
    rfl hmembers hroots .declared (by decide) happlies ⟨5⟩ apply default ⟨"setType", default⟩
  have hdiffers : (renamedRun.graph.shape ⟨28⟩).type? ≠ some ⟨5⟩ := by
    rw [hlive]
    decide
  obtain ⟨copy, table, hchanged, htable, hcopy, hothers, horigin, hretyped⟩ :=
    (hwritten "b" ⟨28⟩ hentry hroot).2 hdiffers
  rw [hlive] at hretyped
  refine ⟨v, after, updated, copy, table, hok, Shape.members?_of_withMembers? hchanged,
    htable.trans hkeys, hcopy, (hothers "c" (by decide)).trans hother, horigin, ?_⟩
  generalize after.graph.shape copy = shape at hretyped
  cases hretyped
  rfl

end Workspace

end SchemaProjection
