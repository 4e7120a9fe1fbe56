import SchemaProjection.Proofs.Pairing.Basic
import SchemaProjection.Run.Editing

/-!
# Edits side by side

Every edit does on the right what it does on the left (`Edits.follows_run`), provided that the
receiver and the arguments are known on the left and applying a projection does the same on both
sides. Edits tell nodes apart by their ids and their lineages, which a shift keeps apart, and by the
watermark, which is shifted, too.
-/

namespace SchemaProjection

instance : Refers MethodCall where
  refs call := call.receiver :: refs call.args
  renumber ρ call := { call with receiver := ρ call.receiver, args := renumber ρ call.args }
  renumber_eq_self {ρ call} h := by
    have hreceiver : ρ call.receiver = call.receiver := h call.receiver List.mem_cons_self
    have hargs : renumber ρ call.args = call.args :=
      renumber_eq_self fun id hid => h id (List.mem_cons_of_mem _ hid)
    rw [hreceiver, hargs]

namespace Edits

open Eval

variable {P : Pairing} {run other : Run} {call : MethodCall}

/-! ### What a call names -/

theorem knows_receiver {g : Graph} (h : g.Knows call) : g.contains call.receiver :=
  h call.receiver List.mem_cons_self

theorem knows_args {g : Graph} (h : g.Knows call) : g.Knows call.args :=
  fun id hid => h id (List.mem_cons_of_mem _ hid)

theorem args_renumber (call : MethodCall) (position : Nat) :
    (renumber P.move call).args[position]? = call.args[position]?.map (renumber P.move) :=
  List.getElem?_map ..

theorem knows_arg {g : Graph} (h : g.Knows call) {position : Nat} {operand : Operand}
    (harg : call.args[position]? = some operand) : g.Knows operand :=
  Graph.knows_list_iff.mp (knows_args h) operand (List.mem_of_getElem? harg)

/-! ### Arguments -/

theorem follows_stringArg (hp : run.Paired P other) (call : MethodCall) (position : Nat) :
    Follows P run other (stringArg call position) (stringArg (renumber P.move call) position) := by
  unfold stringArg
  rw [args_renumber]
  cases call.args[position]? with
  | none => exact .fail rfl _
  | some operand =>
    cases operand with
    | value v =>
      cases v with
      | string s => exact .plain hp rfl
      | absent | bool | number | type => exact .fail rfl _
    | members ids => exact .fail rfl _
    | projection name => exact .fail rfl _

theorem follows_membersOf (hp : run.Paired P other) (hcall : run.graph.Knows call)
    (collection : Collection) :
    Follows P run other (membersOf call collection)
      (membersOf (renumber P.move call) collection) := by
  refine Follows.graph_bind ?_
  have hreceiver : (renumber P.move call).receiver = P.move call.receiver := rfl
  rw [hreceiver, hp.graph.shape_move, Shape.membersIn?_renumber,
    hp.graph.describe_move (knows_receiver hcall)]
  cases hmembers : (run.graph.shape call.receiver).membersIn? collection with
  | none => exact .fail rfl _
  | some members =>
    have hmembers : (run.graph.shape call.receiver).members? = some members := by
      unfold Shape.membersIn? at hmembers
      split at hmembers
      · exact hmembers
      · cases hmembers
    exact .pure hp (hp.graph.closed.knows_members hmembers)

theorem follows_existing (hp : run.Paired P other) (hcall : run.graph.Knows call)
    {members : NameTable} (hmembers : run.graph.Knows members) (name : String)
    (absence : String → String → Absence) :
    Follows P run other (existing call members name absence)
      (existing (renumber P.move call) (renumber P.move members) name absence) := by
  unfold existing
  rw [NameTable.get?_renumber]
  cases hmember : members.get? name with
  | some member =>
    have hknown : run.graph.contains member :=
      hmembers member (NameTable.mem_values_of_get? hmember)
    exact .pure hp (Graph.knows_id_iff.mpr hknown)
  | none => exact .describe_bind hp (knows_receiver hcall) (.fail rfl _)

theorem follows_requireFree (hp : run.Paired P other) (hcall : run.graph.Knows call)
    (members : NameTable) (name : String) :
    Follows P run other (requireFree call members name)
      (requireFree (renumber P.move call) (renumber P.move members) name) := by
  unfold requireFree
  rw [NameTable.contains_renumber]
  by_cases hname : members.contains name
  · rw [if_pos hname, if_pos hname]
    exact .describe_bind hp (knows_receiver hcall) (.fail rfl _)
  · rw [if_neg hname, if_neg hname]
    exact .plain hp rfl

theorem follows_projectionArg (hp : run.Paired P other) (call : MethodCall) :
    Follows P run other (projectionArg call) (projectionArg (renumber P.move call)) := by
  unfold projectionArg
  dsimp only
  rw [args_renumber]
  cases call.args[1]? with
  | none => exact .fail rfl _
  | some operand =>
    cases operand with
    | value v =>
      cases v with
      | string s => exact .plain hp rfl
      | absent | bool | number | type => exact .fail rfl _
    | members ids => exact .fail rfl _
    | projection name => exact .plain hp rfl

theorem follows_valueArgs (hp : run.Paired P other) (call : MethodCall) {operands : List Operand}
    (hoperands : run.graph.Knows operands) :
    Follows P run other (valueArgs call operands)
      (valueArgs (renumber P.move call) (renumber P.move operands)) := by
  induction operands generalizing run other with
  | nil => exact .plain hp rfl
  | cons operand rest ih =>
    obtain ⟨hoperand, hrest⟩ := Graph.knows_cons_iff.mp hoperands
    cases operand with
    | value v =>
      refine (ih hp hrest).bind fun vs after after' hle hp hvs => ?_
      exact .pure hp (Graph.knows_cons_iff.mpr ⟨hoperand.mono hle, hvs⟩)
    | members ids => exact .fail rfl _
    | projection name => exact .fail rfl _

theorem follows_memberValue (hp : run.Paired P other) (hcall : run.graph.Knows call)
    (collection : Collection) :
    Follows P run other (memberValue call collection)
      (memberValue (renumber P.move call) collection) := by
  unfold memberValue
  dsimp only
  rw [args_renumber]
  cases harg : call.args[1]? with
  | none =>
    by_cases hcollection : collection = .members
    · simp only [Option.map_none, if_pos hcollection]
      exact .plain hp rfl
    · simp only [Option.map_none, if_neg hcollection]
      exact .fail rfl _
  | some operand =>
    cases operand with
    | value v => exact .pure hp (knows_arg hcall harg)
    | members ids => exact .fail rfl _
    | projection name => exact .fail rfl _

/-! ### Taking effect -/

variable (hP : P.Sound)
include hP

theorem follows_conclude (hp : run.Paired P other) (call : MethodCall) {updated : NodeId}
    (hupdated : run.graph.contains updated) (edit : Edit) (target : String) (args : List Value)
    (hargs : run.graph.Knows args) (result : Value) (hresult : run.graph.Knows result) :
    Follows P run other (conclude call updated edit target args result)
      (conclude (renumber P.move call) (P.move updated) edit target (renumber P.move args)
        (renumber P.move result)) := by
  refine Follows.self_bind hp fun self _ => ?_
  have hreceiver : (renumber P.move call).receiver = P.move call.receiver := rfl
  rw [hreceiver]
  -- an edit of the node itself is recorded, any other one only returns its result
  by_cases hself : call.receiver = self
  · rw [if_pos hself, if_pos (congrArg P.move hself)]
    refine (follows_setSelf hp hupdated).bind fun _ set set' hle hp _ => ?_
    refine (follows_record hP hp edit target (hargs.mono hle)).bind
      fun _ recorded recorded' hle' hp _ => ?_
    exact .pure hp (hresult.mono (le_trans hle hle'))
  · rw [if_neg hself, if_neg fun h => hself (P.move_injective h)]
    exact .pure hp (a := Value.type updated) (Graph.knows_id_iff.mpr hupdated)

/-! ### Edits of members -/

/-- A copy of the receiver with corresponding members. -/
theorem follows_replaceMembers (hp : run.Paired P other) (hcall : run.graph.Knows call)
    {table table' : NameTable} (htable' : table' = renumber P.move table)
    (htable : run.graph.Knows table) :
    Follows P run other (Eval.build (Building.deriveMembers call.receiver table))
      (Eval.build (Building.deriveMembers (renumber P.move call).receiver table')) := by
  rw [htable']
  exact follows_build hP hp
    (Building.follows_deriveMembers hp.graph (knows_receiver hcall) htable)

theorem follows_add (hp : run.Paired P other) (hcall : run.graph.Knows call)
    (collection : Collection) :
    Follows P run other (add call collection) (add (renumber P.move call) collection) := by
  refine (follows_stringArg hp call 0).bind fun name _ _ hle hp _ => ?_
  replace hcall := hcall.mono hle
  refine (follows_membersOf hp hcall collection).bind fun members _ _ hle hp hmembers => ?_
  replace hcall := hcall.mono hle
  refine (follows_memberValue hp hcall collection).bind fun value _ _ hle hp hvalue => ?_
  replace hcall := hcall.mono hle
  replace hmembers := hmembers.mono hle
  refine (follows_requireFree hp hcall members name).bind fun _ _ _ hle hp _ => ?_
  replace hcall := hcall.mono hle
  replace hmembers := hmembers.mono hle
  replace hvalue := hvalue.mono hle
  refine (follows_build hP hp (Building.follows_newMember hp.graph collection name hvalue)).bind
    fun member _ _ hle hp hmember => ?_
  replace hcall := hcall.mono hle
  replace hmembers := hmembers.mono hle
  replace hvalue := hvalue.mono hle
  refine (follows_replaceMembers hP hp hcall (NameTable.insert_renumber _ _ _ _)
    (hmembers.insert (Graph.knows_id_iff.mp hmember))).bind fun updated _ _ hle hp hupdated => ?_
  exact follows_conclude hP hp call (Graph.knows_id_iff.mp hupdated) _ _ [value]
    (Graph.knows_cons_iff.mpr ⟨hvalue.mono hle, fun _ h => nomatch h⟩)
    (.type member) (hmember.mono hle)

theorem follows_delete (hp : run.Paired P other) (hcall : run.graph.Knows call)
    (collection : Collection) :
    Follows P run other (delete call collection) (delete (renumber P.move call) collection) := by
  refine (follows_stringArg hp call 0).bind fun name _ _ hle hp _ => ?_
  replace hcall := hcall.mono hle
  refine (follows_membersOf hp hcall collection).bind fun members _ _ hle hp hmembers => ?_
  replace hcall := hcall.mono hle
  rw [NameTable.contains_renumber, Refers.renumber_string]
  by_cases hname : members.contains name
  · rw [if_pos hname, if_pos hname]
    refine (follows_replaceMembers hP hp hcall (NameTable.erase_renumber _ _ _) hmembers.erase).bind
      fun updated _ _ hle hp hupdated => ?_
    exact follows_conclude hP hp call (Graph.knows_id_iff.mp hupdated) _ _ []
      (fun _ h => nomatch h) .absent (fun _ h => nomatch h)
  · rw [if_neg hname, if_neg hname]
    refine Follows.read_bind ?_
    -- deleting what is not there: the options decide, and may excuse the left failure
    rcases hP.absentMember with hsame | ⟨hstrict, hexcused⟩
    · rw [hsame]
      cases P.left.options.absentMember with
      | ignore => exact .plain hp rfl
      | error => exact .describe_bind hp (knows_receiver hcall) (.fail rfl _)
    · rw [hstrict]
      exact .of_excused _ _ rfl (hexcused _)

theorem follows_rename (hp : run.Paired P other) (hcall : run.graph.Knows call)
    (collection : Collection) :
    Follows P run other (rename call collection) (rename (renumber P.move call) collection) := by
  refine (follows_stringArg hp call 0).bind fun old _ _ hle hp _ => ?_
  replace hcall := hcall.mono hle
  refine (follows_stringArg hp call 1).bind fun new _ _ hle hp _ => ?_
  replace hcall := hcall.mono hle
  refine (follows_membersOf hp hcall collection).bind fun members _ _ hle hp hmembers => ?_
  replace hcall := hcall.mono hle
  refine (follows_existing hp hcall hmembers old _).bind fun member _ _ hle hp hmember => ?_
  replace hcall := hcall.mono hle
  replace hmembers := hmembers.mono hle
  rw [Refers.renumber_string, Refers.renumber_string]
  by_cases hsame : old = new
  · rw [if_pos hsame, if_pos hsame]
    exact .pure hp (a := Value.type member) hmember
  · rw [if_neg hsame, if_neg hsame]
    refine (follows_requireFree hp hcall members new).bind fun _ _ _ hle hp _ => ?_
    replace hcall := hcall.mono hle
    replace hmembers := hmembers.mono hle
    replace hmember := hmember.mono hle
    refine (follows_build hP hp
      (Building.follows_deriveRenamed hp.graph (Graph.knows_id_iff.mp hmember) new)).bind
      fun renamed _ _ hle hp hrenamed => ?_
    replace hcall := hcall.mono hle
    replace hmembers := hmembers.mono hle
    refine (follows_replaceMembers hP hp hcall (NameTable.rename_renumber _ _ _ _ _)
      (hmembers.rename (Graph.knows_id_iff.mp hrenamed) old new)).bind
      fun updated _ _ hle hp hupdated => ?_
    exact follows_conclude hP hp call (Graph.knows_id_iff.mp hupdated) _ _ [.string new]
      (fun _ h => nomatch h) (.type renamed) (hrenamed.mono hle)

section Projecting

variable {apply apply' : Apply}
  (happly : ∀ {run other : Run}, run.Paired P other → ∀ span {node} name {args},
    run.graph.contains node → run.graph.Knows args →
    Follows P run other (apply span node name args)
      (apply' span (P.move node) name (renumber P.move args)))
include happly

theorem follows_projected (hp : run.Paired P other) (call : MethodCall) (collection : Collection)
    {member : NodeId} (hmember : run.graph.contains member) (projection : String)
    {args : List Value} (hargs : run.graph.Knows args) :
    Follows P run other (projected apply call collection member projection args)
      (projected apply' (renumber P.move call) collection (P.move member) projection
        (renumber P.move args)) := by
  unfold projected
  -- operations are projected themselves, other members by their types
  by_cases hcollection : collection = .operations
  · rw [if_pos hcollection, if_pos hcollection]
    exact happly hp _ _ hmember hargs
  · rw [if_neg hcollection, if_neg hcollection]
    refine Follows.graph_bind ?_
    rw [hp.graph.shape_move, Shape.type?_renumber, hp.graph.describe_move hmember]
    cases htype : (run.graph.shape member).type? with
    | none => exact .fail rfl _
    | some type =>
      have hknown : run.graph.contains type := by
        refine hp.graph.closed.knows_shape member type ?_
        show type ∈ (run.graph.shape member).refs
        generalize run.graph.shape member = shape at htype
        cases shape <;> simp only [Shape.type?, reduceCtorEq, Option.some.injEq] at htype <;>
          exact htype ▸ List.mem_cons_self
      refine (happly hp _ _ hknown hargs).bind fun result _ _ hle hp hresult => ?_
      replace hmember := Graph.contains_of_le hle hmember
      rw [Refers.renumber_id]
      -- a projection that changes nothing leaves no copy behind
      by_cases hsame : result = type
      · rw [if_pos hsame, if_pos (congrArg P.move hsame)]
        exact .pure hp (Graph.knows_id_iff.mpr hmember)
      · rw [if_neg hsame, if_neg fun h => hsame (P.move_injective h)]
        exact follows_build hP hp
          (Building.follows_deriveType hp.graph hmember (Graph.knows_id_iff.mp hresult))

theorem follows_project (hp : run.Paired P other) (hcall : run.graph.Knows call)
    (collection : Collection) :
    Follows P run other (project apply call collection)
      (project apply' (renumber P.move call) collection) := by
  refine (follows_stringArg hp call 0).bind fun name _ _ hle hp _ => ?_
  replace hcall := hcall.mono hle
  refine (follows_projectionArg hp call).bind fun projection _ _ hle hp _ => ?_
  replace hcall := hcall.mono hle
  have hdrop : (renumber P.move call).args.drop 2 = renumber P.move (call.args.drop 2) :=
    List.map_drop.symm
  have hrest : Graph.Knows _ (call.args.drop 2) := Graph.knows_list_iff.mpr fun operand h =>
    Graph.knows_list_iff.mp (knows_args hcall) operand (List.mem_of_mem_drop h)
  rw [hdrop]
  refine (follows_valueArgs hp call hrest).bind fun args _ _ hle hp hargs => ?_
  replace hcall := hcall.mono hle
  refine (follows_membersOf hp hcall collection).bind fun members _ _ hle hp hmembers => ?_
  replace hcall := hcall.mono hle
  replace hargs := hargs.mono hle
  rw [Refers.renumber_string, Refers.renumber_string]
  refine (follows_existing hp hcall hmembers name _).bind fun member _ _ hle hp hmember => ?_
  replace hcall := hcall.mono hle
  replace hargs := hargs.mono hle
  refine (follows_projected hP happly hp call collection (Graph.knows_id_iff.mp hmember) projection
    hargs).bind fun result _ _ hle hp hresult => ?_
  replace hcall := hcall.mono hle
  replace hargs := hargs.mono hle
  replace hmember := hmember.mono hle
  rw [Refers.renumber_id, Refers.renumber_id]
  -- the same holds of the container
  by_cases hsame : result = member
  · rw [if_pos hsame, if_pos (congrArg P.move hsame)]
    exact .pure hp (a := Value.type member) hmember
  · rw [if_neg hsame, if_neg fun h => hsame (P.move_injective h)]
    refine (follows_build hP hp (Building.follows_deriveMember hp.graph (knows_receiver hcall) name
      (Graph.knows_id_iff.mp hresult))).bind fun updated _ _ hle hp hupdated => ?_
    exact follows_conclude hP hp call (Graph.knows_id_iff.mp hupdated) _ _
      (.string projection :: args) (hargs.mono hle) (.type result) (hresult.mono hle)

end Projecting

/-! ### Live members -/

omit hP in
theorem follows_live? (hp : run.Paired P other) {node : NodeId} :
    Follows P run other (live? node) (live? (P.move node)) := by
  refine Follows.self_bind hp fun self hself => ?_
  refine Follows.graph_bind ?_
  rw [hp.graph.shape_move, Shape.members?_renumber]
  cases hmembers : (run.graph.shape self).members? with
  | none => exact .plain hp rfl
  | some members =>
    -- membership of a lineage is told by its root, which moves along
    have hfind : (renumber P.move members).entries.find?
        (fun e => other.graph.sameLineage e.2 (P.move node)) =
        renumber P.move (members.entries.find? fun e => run.graph.sameLineage e.2 node) := by
      rw [NameTable.entries_renumber, List.find?_map]
      refine congrArg (Option.map _) (congrArg (members.entries.find? ·) (funext fun e => ?_))
      exact hp.graph.sameLineage_move
    dsimp only [Option.map_some]
    rw [hfind]
    refine .pure hp fun id hid => ?_
    obtain ⟨e, he, hid⟩ := List.mem_flatMap.mp hid
    rw [Option.mem_toList] at he
    refine hp.graph.closed.knows_members hmembers id ?_
    have heq : id = e.2 := List.mem_singleton.mp hid
    exact heq ▸ List.mem_map.mpr ⟨e, List.mem_of_find?_eq_some he, rfl⟩

theorem follows_materialize (hp : run.Paired P other) {node : NodeId}
    (hnode : run.graph.contains node) :
    Follows P run other (materialize node) (materialize (P.move node)) := by
  refine Follows.get_bind ?_
  dsimp only
  -- either watermark stands where its run began, so both agree on which nodes are their own
  rw [hp.watermark.1, hp.watermark.2]
  by_cases hown : P.mark ≤ node.index
  · rw [if_pos hown, if_pos (P.mark_le_index_move.mpr hown)]
    exact .pure hp (Graph.knows_id_iff.mpr hnode)
  rw [if_neg hown, if_neg fun h => hown (P.mark_le_index_move.mp h)]
  refine Follows.self_bind hp fun self hself => ?_
  -- the node itself is copied, and the copy takes its place
  by_cases hsame : node = self
  · rw [if_pos hsame, if_pos (congrArg P.move hsame)]
    refine (follows_build hP hp (Building.follows_derive hp.graph hnode)).bind
      fun copy _ _ hle hp hcopy => ?_
    refine (follows_setSelf hp (Graph.knows_id_iff.mp hcopy)).bind fun _ _ _ hle hp _ => ?_
    exact .pure hp (hcopy.mono hle)
  rw [if_neg hsame, if_neg fun h => hsame (P.move_injective h)]
  -- a member is copied inside of its container, any other node by itself
  refine (follows_live? hp).bind fun found _ _ hle hp hfound => ?_
  cases found with
  | none =>
    replace hnode := Graph.contains_of_le hle hnode
    exact follows_build hP hp (Building.follows_derive hp.graph hnode)
  | some entry =>
    obtain ⟨name, live⟩ := entry
    have hlive : Graph.contains _ live := hfound live (by simp [refs])
    have hmoved : renumber P.move (some (name, live)) = some (name, P.move live) := rfl
    rw [hmoved]
    dsimp only
    by_cases hown : P.mark ≤ live.index
    · rw [if_pos hown, if_pos (P.mark_le_index_move.mpr hown)]
      exact .pure hp (Graph.knows_id_iff.mpr hlive)
    rw [if_neg hown, if_neg fun h => hown (P.mark_le_index_move.mp h)]
    replace hself := Graph.contains_of_le hle hself
    refine (follows_build hP hp (Building.follows_derive hp.graph hlive)).bind
      fun copy _ _ hle hp hcopy => ?_
    replace hself := Graph.contains_of_le hle hself
    refine (follows_build hP hp (Building.follows_deriveMember hp.graph hself name
      (Graph.knows_id_iff.mp hcopy))).bind fun updated _ _ hle hp hupdated => ?_
    replace hcopy := hcopy.mono hle
    refine (follows_setSelf hp (Graph.knows_id_iff.mp hupdated)).bind fun _ _ _ hle hp _ => ?_
    exact .pure hp (hcopy.mono hle)

/-! ### Types -/

omit hP in
theorem current?_renumber (role : TypeRole) (shape : Shape) :
    role.current? (renumber P.move shape) = (role.current? shape).map P.move := by
  cases role with
  | declared => exact Shape.type?_renumber _ _
  | returned => exact Shape.returnType?_renumber _ _

theorem follows_retyped? (hp : run.Paired P other) (role : TypeRole) {node type : NodeId}
    (hnode : run.graph.contains node) (htype : run.graph.contains type) :
    Follows P run other (retyped? role node type)
      (retyped? role (P.move node) (P.move type)) := by
  refine Follows.graph_bind ?_
  -- a type that is there already is told apart by its id
  have hcurrent : (role.current? (run.graph.shape node)).map P.move = some (P.move type) ↔
      role.current? (run.graph.shape node) = some type := by
    cases role.current? (run.graph.shape node) with
    | none => simp
    | some current => simp [P.move_injective.eq_iff]
  rw [hp.graph.shape_move, current?_renumber]
  by_cases hsame : role.current? (run.graph.shape node) = some type
  · rw [if_pos hsame, if_pos (hcurrent.mpr hsame)]
    exact .plain hp rfl
  · rw [if_neg hsame, if_neg fun h => hsame (hcurrent.mp h)]
    have hderive : Building.Follows P.toShift run.graph other.graph (role.derive node type)
        (role.derive (P.move node) (P.move type)) := by
      cases role with
      | declared => exact Building.follows_deriveType hp.graph hnode htype
      | returned => exact Building.follows_deriveReturnType hp.graph hnode htype
    refine (follows_build hP hp hderive).bind fun updated _ _ hle hp hupdated => ?_
    exact .pure hp (a := some updated) fun id hid => hupdated id (by simpa [refs] using hid)

theorem follows_typeArg (hp : run.Paired P other) (hcall : run.graph.Knows call) :
    Follows P run other (typeArg call) (typeArg (renumber P.move call)) := by
  have hargs := knows_args hcall
  have hmoved : (renumber P.move call).args = renumber P.move call.args := rfl
  unfold typeArg
  rw [hmoved]
  cases hcase : call.args with
  | nil => exact .fail rfl _
  | cons operand rest =>
    rw [hcase] at hargs
    obtain ⟨hoperand, -⟩ := Graph.knows_cons_iff.mp hargs
    cases rest with
    | cons second rest =>
      cases operand with
      | value v => cases v <;> exact .fail rfl _
      | members ids => exact .fail rfl _
      | projection name => exact .fail rfl _
    | nil =>
      cases operand with
      | value v =>
        have hbuild := follows_build hP hp (Building.follows_typeOf hp.graph (v := v) hoperand)
        cases v with
        | absent => exact .fail rfl _
        | bool | number | string | type => exact hbuild
      | members ids => exact .fail rfl _
      | projection name => exact .fail rfl _

/-- Sets the node of the activation and records the new type, as the last part of an edit. -/
private theorem follows_retype (hp : run.Paired P other) {updated type result : NodeId}
    (hupdated : run.graph.contains updated) (edit : Edit) (name : String)
    (htype : run.graph.contains type) (hresult : run.graph.contains result) :
    Follows P run other
      (setSelf updated >>= fun _ => record edit name [.type type] >>= fun _ =>
        pure (Value.type result))
      (setSelf (P.move updated) >>= fun _ => record edit name [.type (P.move type)] >>= fun _ =>
        pure (Value.type (P.move result))) := by
  refine (follows_setSelf hp hupdated).bind fun _ _ _ hle hp _ => ?_
  have hargs : run.graph.Knows [Value.type type] :=
    Graph.knows_cons_iff.mpr ⟨Graph.knows_id_iff.mpr htype, fun _ h => nomatch h⟩
  refine (follows_record hP hp edit name (hargs.mono hle)).bind fun _ _ _ hle' hp _ => ?_
  exact .pure hp (a := Value.type result)
    (Graph.knows_id_iff.mpr (Graph.contains_of_le (le_trans hle hle') hresult))

theorem follows_setType (hp : run.Paired P other) (hcall : run.graph.Knows call)
    (role : TypeRole) :
    Follows P run other (setType call role) (setType (renumber P.move call) role) := by
  refine (follows_typeArg hP hp hcall).bind fun type typed typed' hle hp htype => ?_
  replace hcall := hcall.mono hle
  have hreceiver := knows_receiver hcall
  have hmoved : (renumber P.move call).receiver = P.move call.receiver := rfl
  refine Follows.graph_bind ?_
  dsimp only
  rw [hmoved, hp.graph.kind_move, hp.graph.describe_move hreceiver, hp.graph.shape_move,
    Shape.name?_renumber, Refers.renumber_id]
  rw [Graph.knows_id_iff] at htype
  by_cases happlies : role.applies (typed.graph.kind call.receiver)
  · rw [if_pos happlies, if_pos happlies]
    refine Follows.self_bind hp fun self hself => ?_
    by_cases hsame : call.receiver = self
    · rw [if_pos hsame, if_pos (congrArg P.move hsame)]
      refine (follows_retyped? hP hp role hreceiver htype).bind
        fun updated? _ _ hle hp hupdated => ?_
      cases updated? with
      | none =>
        exact .pure hp (a := Value.type call.receiver)
          (Graph.knows_id_iff.mpr (Graph.contains_of_le hle hreceiver))
      | some updated =>
        have hupdated : Graph.contains _ updated := hupdated updated (by simp [refs])
        exact follows_retype hP hp hupdated _ _ (Graph.contains_of_le hle htype) hupdated
    -- a live member is retyped inside of its container, any other node by itself
    · rw [if_neg hsame, if_neg fun h => hsame (P.move_injective h)]
      refine (follows_live? hp).bind fun found _ _ hle hp hfound => ?_
      replace htype := Graph.contains_of_le hle htype
      replace hself := Graph.contains_of_le hle hself
      replace hreceiver := Graph.contains_of_le hle hreceiver
      cases found with
      | none =>
        refine (follows_retyped? hP hp role hreceiver htype).bind
          fun updated? _ _ hle hp hupdated => ?_
        cases updated? with
        | none =>
          exact .pure hp (a := Value.type call.receiver)
            (Graph.knows_id_iff.mpr (Graph.contains_of_le hle hreceiver))
        | some updated => exact .pure hp (a := Value.type updated) hupdated
      | some entry =>
        obtain ⟨name, live⟩ := entry
        have hlive : Graph.contains _ live := hfound live (by simp [refs])
        have hentry : renumber P.move (some (name, live)) = some (name, P.move live) := rfl
        rw [hentry]
        dsimp only
        refine (follows_retyped? hP hp role hlive htype).bind fun updated? _ _ hle hp hupdated => ?_
        replace htype := Graph.contains_of_le hle htype
        replace hself := Graph.contains_of_le hle hself
        replace hlive := Graph.contains_of_le hle hlive
        cases updated? with
        | none => exact .pure hp (a := Value.type live) (Graph.knows_id_iff.mpr hlive)
        | some updated =>
          have hupdated : Graph.contains _ updated := hupdated updated (by simp [refs])
          have hmember := Building.follows_deriveMember hp.graph hself name hupdated
          refine (follows_build hP hp hmember).bind fun container _ _ hle hp hcontainer => ?_
          exact follows_retype hP hp (Graph.knows_id_iff.mp hcontainer) _ _
            (Graph.contains_of_le hle htype) (Graph.contains_of_le hle hupdated)
  · rw [if_neg happlies, if_neg happlies]
    exact .fail_bind rfl _ _ _

/-! ### Methods -/

omit hP in
theorem follows_get (hp : run.Paired P other) (hcall : run.graph.Knows call)
    (collection : Collection) :
    Follows P run other (get call collection) (get (renumber P.move call) collection) := by
  refine (follows_stringArg hp call 0).bind fun name _ _ hle hp _ => ?_
  replace hcall := hcall.mono hle
  refine (follows_membersOf hp hcall collection).bind fun members _ _ hle hp hmembers => ?_
  replace hcall := hcall.mono hle
  refine (follows_existing hp hcall hmembers name _).bind fun member _ _ _ hp hmember => ?_
  exact .pure hp (a := Value.type member) hmember

/-- **A method call does the same on both sides**, provided that applying a projection does. -/
theorem follows_run {apply apply' : Apply}
    (happly : ∀ {run other : Run}, run.Paired P other → ∀ span {node} name {args},
      run.graph.contains node → run.graph.Knows args →
      Follows P run other (apply span node name args)
        (apply' span (P.move node) name (renumber P.move args)))
    (hp : run.Paired P other) (hcall : run.graph.Knows call) (method : Method) :
    Follows P run other (Edits.run apply call method)
      (Edits.run apply' (renumber P.move call) method) := by
  cases method with
  | edit edit =>
    cases edit with
    | add c => exact follows_add hP hp hcall c
    | delete c => exact follows_delete hP hp hcall c
    | rename c => exact follows_rename hP hp hcall c
    | project c => exact follows_project hP happly hp hcall c
    | setType => exact follows_setType hP hp hcall .declared
    | setReturnType => exact follows_setType hP hp hcall .returned
  | get c => exact follows_get hp hcall c

end Edits

end SchemaProjection
