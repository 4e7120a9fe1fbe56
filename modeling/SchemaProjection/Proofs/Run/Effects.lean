import SchemaProjection.Proofs.Graph.Edited
import SchemaProjection.Proofs.Run.Editing

/-!
# Effects of edits

What an edit that succeeds has done. It is read off the code once, here, in the words of
`Graph.Edited`: an edit that was made has **taken effect** on its container (`Run.Applies`). If the
container is the node of the activation, the changed copy takes its place and the edit is recorded
(`Run.adopt`, `Run.note`); otherwise the copy is only allocated.

There is one lemma for each method that edits members (`Edits.ok_of_add` and the lemmas after it).
Each lists all that can happen, edits that turn out to change nothing included, so that no later
proof has to open an edit again.
-/

namespace SchemaProjection

/-! ### Building -/

namespace Building

variable {g h : Graph} {id copy : NodeId}

theorem ok_of_alloc {shape : Shape} {origin : Option NodeId}
    (hok : (alloc shape origin).run g = .ok id h) : id = g.nextId ∧ h = g.push ⟨origin, shape⟩ := by
  cases hok
  exact ⟨rfl, rfl⟩

theorem ok_of_bind {α β : Type} {x : Building α} {f : α → Building β} {b : β}
    (hok : (x >>= f).run g = .ok b h) : ∃ a k, x.run g = .ok a k ∧ (f a).run k = .ok b h := by
  rw [EStateM.run_bind] at hok
  cases hx : x.run g with
  | ok a k =>
    rw [hx] at hok
    exact ⟨a, k, rfl, hok⟩
  | error fault k =>
    rw [hx] at hok
    cases hok

theorem ok_of_deriveShape {shape? : Option Shape} {fault : String → GraphFault}
    (hok : (deriveShape id shape? fault).run g = .ok copy h) :
    ∃ shape, shape? = some shape ∧ copy = g.nextId ∧ h = g.push ⟨some id, shape⟩ := by
  cases shape? with
  | some shape => exact ⟨shape, rfl, ok_of_alloc hok⟩
  | none => cases hok

theorem ok_of_derive (hok : (derive id).run g = .ok copy h) :
    copy = g.nextId ∧ h = g.push ⟨some id, g.shape id⟩ := ok_of_alloc hok

theorem ok_of_deriveMembers {members : NameTable}
    (hok : (deriveMembers id members).run g = .ok copy h) :
    ∃ shape, (g.shape id).withMembers? members = some shape ∧ copy = g.nextId ∧
      h = g.push ⟨some id, shape⟩ := ok_of_deriveShape hok

theorem ok_of_deriveMember {name : String} {member : NodeId}
    (hok : (deriveMember id name member).run g = .ok copy h) :
    ∃ members shape, (g.shape id).members? = some members ∧ members.contains name ∧
      (g.shape id).withMembers? (members.replace name member) = some shape ∧ copy = g.nextId ∧
      h = g.push ⟨some id, shape⟩ := by
  obtain ⟨_, _, hget, hok⟩ := ok_of_bind hok
  cases hget
  cases hmembers : (g.shape id).members? with
  | none =>
    rw [hmembers] at hok
    cases hok
  | some members =>
    rw [hmembers] at hok
    dsimp only at hok
    split at hok
    · next hname =>
      obtain ⟨shape, hshape, hcopy⟩ := ok_of_deriveMembers hok
      exact ⟨members, shape, rfl, hname, hshape, hcopy⟩
    · cases hok

theorem ok_of_deriveRenamed {name : String} (hok : (deriveRenamed id name).run g = .ok copy h) :
    ∃ shape, (g.shape id).withName? name = some shape ∧ copy = g.nextId ∧
      h = g.push ⟨some id, shape⟩ := ok_of_deriveShape hok

theorem ok_of_deriveType {type : NodeId} (hok : (deriveType id type).run g = .ok copy h) :
    ∃ shape, (g.shape id).withType? type = some shape ∧ copy = g.nextId ∧
      h = g.push ⟨some id, shape⟩ := ok_of_deriveShape hok

theorem ok_of_deriveReturnType {type : NodeId}
    (hok : (deriveReturnType id type).run g = .ok copy h) :
    ∃ shape, (g.shape id).withReturnType? type = some shape ∧ copy = g.nextId ∧
      h = g.push ⟨some id, shape⟩ := ok_of_deriveShape hok

end Building

namespace Graph

variable {g h : Graph} {id : NodeId}

/-- A node without members is a part. -/
theorem supplied_create {shape : Shape} (hshape : shape.members? = none) :
    g.Supplied (g.push ⟨none, shape⟩) :=
  .create shape (fun _ h => by rw [hshape] at h; cases h) .refl

theorem supplied_copy (hid : g.contains id) : g.Supplied (g.push ⟨some id, g.shape id⟩) :=
  .derive id _ hid rfl rfl .refl

/-- A copy at the end is a copy in the graph that has it. -/
theorem derives_nextId {change : Shape → Option Shape} {shape : Shape}
    (halters : Shape.Alters change) (h : change (g.shape id) = some shape) :
    (g.push ⟨some id, shape⟩).Derives id change g.nextId := by
  have hid : g.contains id := contains_of_read halters.unknown h
  refine ⟨shape, ?_, g.node?_push_nextId _⟩
  rw [shape_of_le (le_push _ _) hid]
  exact h

end Graph

namespace Building

variable {g h : Graph} {v : Value}

/-- A value denotes a node that is there, or one that is allocated for it. -/
theorem ok_of_typeOf {type : NodeId} (hok : (typeOf v).run g = .ok type h) :
    g.Supplied h ∧ h.Denotes v type := by
  cases v with
  | absent | type =>
    cases hok
    exact ⟨.refl, rfl⟩
  | bool | number | string =>
    obtain ⟨rfl, rfl⟩ := ok_of_alloc hok
    exact ⟨Graph.supplied_create rfl, g.node?_push_nextId _⟩

private theorem ok_of_member {name : String} {collection : Collection} {shape : Shape} {k : Graph}
    {member : NodeId} (hsupplied : g.Supplied k) (hchildless : shape.members? = none)
    (hshape : Graph.MemberShape g (k.push ⟨none, shape⟩) name collection v shape)
    (hok : (alloc shape none).run k = .ok member h) :
    g.Supplied h ∧ ¬ g.contains member ∧
      ∃ shape, Graph.MemberShape g h name collection v shape ∧
        h.node? member = some ⟨none, shape⟩ := by
  obtain ⟨rfl, rfl⟩ := ok_of_alloc hok
  refine ⟨hsupplied.trans (Graph.supplied_create hchildless), fun hin => ?_, shape, hshape,
    k.node?_push_nextId _⟩
  exact k.not_contains_nextId (Graph.contains_of_le hsupplied.extends hin)

/-- **A new member** is new, and it is made from the value. -/
theorem ok_of_newMember {collection : Collection} {name : String} {member : NodeId}
    (hok : (newMember collection name v).run g = .ok member h) :
    g.Supplied h ∧ ¬ g.contains member ∧
      ∃ shape, Graph.MemberShape g h name collection v shape ∧
        h.node? member = some ⟨none, shape⟩ := by
  cases collection with
  | properties =>
    obtain ⟨type, k, htype, hok⟩ := ok_of_bind hok
    obtain ⟨hsupplied, hdenotes⟩ := ok_of_typeOf htype
    exact ok_of_member hsupplied rfl (.property (hdenotes.mono (Graph.le_push _ _))) hok
  | variants =>
    obtain ⟨type, k, htype, hok⟩ := ok_of_bind hok
    obtain ⟨hsupplied, hdenotes⟩ := ok_of_typeOf htype
    exact ok_of_member hsupplied rfl (.variant (hdenotes.mono (Graph.le_push _ _))) hok
  | operations =>
    obtain ⟨_, _, hget, hok⟩ := ok_of_bind hok
    cases hget
    cases hsignature : signature? g v with
    | some signature =>
      rw [hsignature] at hok
      exact ok_of_member .refl rfl (.signature hsignature) hok
    | none =>
      rw [hsignature] at hok
      -- without a signature to take over, the parameters are an empty model of their own
      obtain ⟨parameters, k, hparameters, hok⟩ := ok_of_bind hok
      obtain ⟨rfl, rfl⟩ := ok_of_alloc hparameters
      obtain ⟨returnType, k', htype, hok⟩ := ok_of_bind hok
      obtain ⟨hsupplied, hdenotes⟩ := ok_of_typeOf htype
      have hempty : (Shape.model none .empty).members? = some .empty := rfl
      have hmodel : g.Supplied (g.push ⟨none, .model none .empty⟩) :=
        .create _ (fun members h => (Option.some.inj (hempty.symm.trans h)).symm) .refl
      have hle := le_trans hsupplied.extends
        (Graph.le_push k' ⟨none, .operation name g.nextId returnType⟩)
      have hnode := g.node?_push_nextId ⟨none, .model none .empty⟩
      refine ok_of_member (hmodel.trans hsupplied) rfl
        (.operation hsignature ?_ (hdenotes.mono (Graph.le_push _ _))) hok
      rw [Graph.node?_of_le hle (Graph.contains_of_node? hnode), hnode]
  | members =>
    cases v with
    | absent => exact ok_of_member .refl rfl .absent hok
    | type id => exact ok_of_member .refl rfl .type hok
    | bool | number | string =>
      exact ok_of_member .refl rfl (.literal (fun h => (nomatch h)) fun _ h => nomatch h) hok

end Building

/-! ### Taking effect -/

namespace Run

/-- The state with another node in the innermost activation. -/
def adopt (id : NodeId) (run : Run) : Run :=
  { run with activations := run.activations.modifyHead fun a => { a with self := id } }

/-- The state with an edit recorded, if the outermost activation is the innermost one. -/
def note (i : Instruction) (run : Run) : Run :=
  if run.depth = 1 then { run with trace := run.trace.map (· ++ [i]) } else run

variable {run after : Run} {i : Instruction}

@[simp] theorem graph_note (i : Instruction) (run : Run) : (run.note i).graph = run.graph := by
  unfold note
  split <;> rfl

@[simp] theorem activations_note (i : Instruction) (run : Run) :
    (run.note i).activations = run.activations := by
  unfold note
  split <;> rfl

@[simp] theorem watermark_note (i : Instruction) (run : Run) :
    (run.note i).watermark = run.watermark := by
  unfold note
  split <;> rfl

theorem activations_adopt {a : Activation} {rest : List Activation}
    (h : run.activations = a :: rest) (id : NodeId) :
    (run.adopt id).activations = { a with self := id } :: rest := by
  rw [adopt, h]
  rfl

/-- **An edit of a container takes effect**, with a changed copy. On the node of the activation it
is recorded and puts the copy in its place; on another container it only allocates the copy. -/
inductive Applies (container : NodeId) (i : Instruction) (run : Run) : NodeId → Run → Prop
  | self {g : Graph} {updated : NodeId} {a : Activation} {rest : List Activation}
    (stack : run.activations = a :: rest) (is_self : container = a.self)
    (edited : run.graph.Edited container i g updated) :
    Applies container i run updated (({ run with graph := g }.adopt updated).note i)
  | detached {g : Graph} {updated : NodeId} {a : Activation} {rest : List Activation}
    (stack : run.activations = a :: rest) (not_self : container ≠ a.self)
    (edited : run.graph.Edited container i g updated) :
    Applies container i run updated { run with graph := g }

theorem Applies.edited {container updated : NodeId} (h : run.Applies container i updated after) :
    run.graph.Edited container i after.graph updated := by
  cases h with
  | self stack is_self edited =>
    rw [graph_note]
    exact edited
  | detached stack not_self edited => exact edited

end Run

namespace Eval

variable {setting : Setting} {run after : Run} {α : Type}

theorem ok_of_build {action : Building α} {a : α}
    (h : (build action).result setting run = .ok a after) :
    ∃ g, action.run run.graph = .ok a g ∧ after = { run with graph := g } := by
  obtain ⟨_, _, hget, h⟩ := ok_of_bind h
  cases hget
  cases haction : action.run run.graph with
  | ok b g =>
    rw [haction] at h
    cases h
    exact ⟨g, rfl, rfl⟩
  | error fault g =>
    rw [haction] at h
    cases h

theorem ok_of_setSelf {id : NodeId} (h : (setSelf id).result setting run = .ok () after) :
    after = run.adopt id := by
  rw [setSelf, result_modifyActivation] at h
  unfold Run.adopt
  cases hstack : run.activations with
  | nil =>
    rw [hstack] at h
    cases h
  | cons a rest =>
    rw [hstack] at h
    cases h
    rfl

theorem ok_of_record {edit : Edit} {target : String} {args : List Value}
    (h : (record edit target args).result setting run = .ok () after) :
    after = run.note ⟨edit, target, args⟩ := by
  cases h
  rfl

end Eval

namespace Edits

open Eval

variable {setting : Setting} {run after : Run} {call : MethodCall} {collection : Collection}

/-! ### Arguments

Reading an argument changes nothing. -/

theorem ok_of_stringArg {position : Nat} {name : String}
    (h : (stringArg call position).result setting run = .ok name after) :
    run = after ∧ call.args[position]? = some (.value (.string name)) := by
  unfold stringArg at h
  split at h
  · next s hs =>
    cases h
    exact ⟨rfl, hs⟩
  · cases h
  · cases h

theorem ok_of_membersOf {members : NameTable}
    (h : (membersOf call collection).result setting run = .ok members after) :
    run = after ∧ (run.graph.shape call.receiver).collection? = some collection ∧
      (run.graph.shape call.receiver).members? = some members := by
  obtain ⟨g, _, hgraph, h⟩ := ok_of_bind h
  cases hgraph
  split at h
  · next found hfound =>
    cases h
    exact ⟨rfl, Shape.membersIn?_iff.mp hfound⟩
  · cases h

theorem ok_of_existing {members : NameTable} {name : String}
    {absence : String → String → Absence} {member : NodeId}
    (h : (existing call members name absence).result setting run = .ok member after) :
    run = after ∧ members.get? name = some member := by
  unfold existing at h
  split at h
  · next found hfound =>
    cases h
    exact ⟨rfl, hfound⟩
  · cases h

theorem ok_of_requireFree {members : NameTable} {name : String}
    (h : (requireFree call members name).result setting run = .ok () after) :
    run = after ∧ members.contains name = false := by
  unfold requireFree at h
  split at h
  · cases h
  · next hfree =>
    cases h
    exact ⟨rfl, Bool.not_eq_true _ ▸ hfree⟩

/-- The value of a new member is given, or it is one of an enum. -/
theorem ok_of_memberValue {v : Value}
    (h : (memberValue call collection).result setting run = .ok v after) :
    run = after ∧ (call.args[1]? = some (.value v) ∨
      call.args[1]? = none ∧ collection = .members ∧ v = .absent) := by
  unfold memberValue at h
  dsimp only at h
  split at h
  · next given hgiven =>
    cases h
    exact ⟨rfl, .inl hgiven⟩
  · next hgiven =>
    split at h
    · next hcollection =>
      cases h
      exact ⟨rfl, .inr ⟨hgiven, hcollection, rfl⟩⟩
    · cases h
  · cases h

theorem ok_of_projectionArg {projection : String}
    (h : (projectionArg call).result setting run = .ok projection after) :
    run = after ∧ (call.args[1]? = some (.projection projection) ∨
      call.args[1]? = some (.value (.string projection))) := by
  unfold projectionArg at h
  dsimp only at h
  split at h
  · next name hname =>
    cases h
    exact ⟨rfl, .inl hname⟩
  · next name hname =>
    cases h
    exact ⟨rfl, .inr hname⟩
  · cases h

theorem ok_of_valueArgs {operands : List Operand} {args : List Value}
    (h : (valueArgs call operands).result setting run = .ok args after) :
    run = after ∧ operands = args.map .value := by
  induction operands generalizing args after with
  | nil =>
    cases h
    exact ⟨rfl, rfl⟩
  | cons operand rest ih =>
    cases operand with
    | members ids => cases h
    | projection name => cases h
    | value v =>
      obtain ⟨args', middle, hrest, hargs⟩ := ok_of_bind h
      obtain ⟨rfl, rfl⟩ := ih hrest
      cases hargs
      exact ⟨rfl, rfl⟩

/-! ### Edits of members -/

/-- What follows once the changed copy of the receiver is allocated. -/
private theorem applies_of_conclude {g : Graph} {updated : NodeId} {edit : Edit} {target : String}
    {args : List Value} {result v : Value}
    (hedited : run.graph.Edited call.receiver ⟨edit, target, args⟩ g updated)
    (h : (conclude call updated edit target args result).result setting { run with graph := g } =
      .ok v after) :
    run.Applies call.receiver ⟨edit, target, args⟩ updated after ∧ after.graph = g := by
  obtain ⟨self, middle, hself, h⟩ := ok_of_bind h
  obtain ⟨rfl, a, rest, hstack, rfl⟩ := ok_of_self hself
  split at h
  · next hreceiver =>
    obtain ⟨_, adopted, hadopt, h⟩ := ok_of_bind h
    obtain rfl := ok_of_setSelf hadopt
    obtain ⟨_, noted, hnote, h⟩ := ok_of_bind h
    obtain rfl := ok_of_record hnote
    cases h
    exact ⟨.self hstack hreceiver hedited, Run.graph_note _ _⟩
  · next hreceiver =>
    cases h
    exact ⟨.detached hstack hreceiver hedited, rfl⟩

theorem ok_of_add {v : Value} (h : (add call collection).result setting run = .ok v after) :
    ∃ name value, call.args[0]? = some (.value (.string name)) ∧
      (call.args[1]? = some (.value value) ∨
        call.args[1]? = none ∧ collection = .members ∧ value = .absent) ∧
      ∃ updated, run.Applies call.receiver ⟨.add collection, name, [value]⟩ updated after := by
  obtain ⟨name, _, hread, h⟩ := ok_of_bind h
  obtain ⟨rfl, hname⟩ := ok_of_stringArg hread
  obtain ⟨members, _, hread, h⟩ := ok_of_bind h
  obtain ⟨rfl, hcollection, hmembers⟩ := ok_of_membersOf hread
  obtain ⟨value, _, hread, h⟩ := ok_of_bind h
  obtain ⟨rfl, hvalue⟩ := ok_of_memberValue hread
  obtain ⟨_, _, hread, h⟩ := ok_of_bind h
  obtain ⟨rfl, hfree⟩ := ok_of_requireFree hread
  obtain ⟨member, _, hmember, h⟩ := ok_of_bind h
  obtain ⟨g, hbuilt, rfl⟩ := ok_of_build hmember
  obtain ⟨hsupplied, hfresh, shape, hshape, hnode⟩ := Building.ok_of_newMember hbuilt
  obtain ⟨updated, _, hupdated, h⟩ := ok_of_bind h
  obtain ⟨g', hbuilt, rfl⟩ := ok_of_build hupdated
  obtain ⟨changed, hchanged, rfl, rfl⟩ := Building.ok_of_deriveMembers hbuilt
  -- the new member does not change what the receiver is
  rw [Graph.shape_of_le hsupplied.extends (Graph.contains_of_members? hmembers)] at hchanged
  have hedited : run.graph.Edited call.receiver ⟨.add collection, name, [value]⟩ _ _ :=
    .mk hsupplied hmembers (fun c hc => Option.some.inj hc ▸ hcollection)
      (.add hfree hshape hnode hfresh) hchanged
  exact ⟨name, value, hname, hvalue, _, (applies_of_conclude hedited h).1⟩

theorem ok_of_delete {v : Value} (h : (delete call collection).result setting run = .ok v after) :
    ∃ name, call.args[0]? = some (.value (.string name)) ∧
      ((after = run ∧ ∃ members, (run.graph.shape call.receiver).members? = some members ∧
          members.contains name = false) ∨
        ∃ updated, run.Applies call.receiver ⟨.delete collection, name, []⟩ updated after) := by
  obtain ⟨name, _, hread, h⟩ := ok_of_bind h
  obtain ⟨rfl, hname⟩ := ok_of_stringArg hread
  obtain ⟨members, _, hread, h⟩ := ok_of_bind h
  obtain ⟨rfl, hcollection, hmembers⟩ := ok_of_membersOf hread
  refine ⟨name, hname, ?_⟩
  split at h
  · next hpresent =>
    obtain ⟨updated, _, hupdated, h⟩ := ok_of_bind h
    obtain ⟨g, hbuilt, rfl⟩ := ok_of_build hupdated
    obtain ⟨changed, hchanged, rfl, rfl⟩ := Building.ok_of_deriveMembers hbuilt
    have hedited : run.graph.Edited call.receiver ⟨.delete collection, name, []⟩ _ _ :=
      .mk .refl hmembers (fun c hc => Option.some.inj hc ▸ hcollection) (.delete hpresent) hchanged
    exact .inr ⟨_, (applies_of_conclude hedited h).1⟩
  · next habsent =>
    -- the options may allow the deletion of a member that is not there, which changes nothing
    obtain ⟨options, _, hread, h⟩ := ok_of_bind h
    cases hread
    split at h
    · cases h
      exact .inl ⟨rfl, members, hmembers, Bool.not_eq_true _ ▸ habsent⟩
    · cases h

theorem ok_of_rename {v : Value} (h : (rename call collection).result setting run = .ok v after) :
    ∃ old new, call.args[0]? = some (.value (.string old)) ∧
      call.args[1]? = some (.value (.string new)) ∧
      ((after = run ∧ old = new) ∨
        ∃ updated,
          run.Applies call.receiver ⟨.rename collection, old, [.string new]⟩ updated after) := by
  obtain ⟨old, _, hread, h⟩ := ok_of_bind h
  obtain ⟨rfl, hold⟩ := ok_of_stringArg hread
  obtain ⟨new, _, hread, h⟩ := ok_of_bind h
  obtain ⟨rfl, hnew⟩ := ok_of_stringArg hread
  obtain ⟨members, _, hread, h⟩ := ok_of_bind h
  obtain ⟨rfl, hcollection, hmembers⟩ := ok_of_membersOf hread
  obtain ⟨member, _, hread, h⟩ := ok_of_bind h
  obtain ⟨rfl, hmember⟩ := ok_of_existing hread
  refine ⟨old, new, hold, hnew, ?_⟩
  split at h
  · next hsame =>
    cases h
    exact .inl ⟨rfl, hsame⟩
  · next hdiffers =>
    -- a copy of the member with the new name is made first, then one of the receiver
    obtain ⟨_, _, hread, h⟩ := ok_of_bind h
    obtain ⟨rfl, hfree⟩ := ok_of_requireFree hread
    obtain ⟨renamed, _, hrenamed, h⟩ := ok_of_bind h
    obtain ⟨g, hcopied, rfl⟩ := ok_of_build hrenamed
    obtain ⟨shape, hshape, rfl, rfl⟩ := Building.ok_of_deriveRenamed hcopied
    obtain ⟨updated, _, hupdated, h⟩ := ok_of_bind h
    obtain ⟨g', hbuilt, rfl⟩ := ok_of_build hupdated
    obtain ⟨changed, hchanged, rfl, rfl⟩ := Building.ok_of_deriveMembers hbuilt
    have halters := Shape.alters_withName? new
    have hsupplied := Graph.supplied_alter halters hshape
    rw [Graph.shape_of_le hsupplied.extends (Graph.contains_of_members? hmembers)] at hchanged
    have hedited : run.graph.Edited call.receiver ⟨.rename collection, old, [.string new]⟩ _ _ :=
      .mk hsupplied hmembers (fun c hc => Option.some.inj hc ▸ hcollection)
        (.rename hmember hdiffers hfree (Graph.derives_nextId halters hshape)) hchanged
    exact .inr ⟨_, (applies_of_conclude hedited h).1⟩

section Projecting

variable {apply : Apply}

/-- What a projection makes of a member, or of its type, and in which state. -/
inductive Projects (apply : Apply) (setting : Setting) (call : MethodCall) (collection : Collection)
    (run : Run) (member : NodeId) (projection : String) (args : List Value) :
    NodeId → Run → Prop
  | operation {result : NodeId} {after : Run} (is_operation : collection = .operations)
    (applied : (apply call.span member projection args).result setting run = .ok result after) :
    Projects apply setting call collection run member projection args result after
  | type {type result : NodeId} {after : Run} (not_operation : collection ≠ .operations)
    (found : (run.graph.shape member).type? = some type)
    (applied : (apply call.span type projection args).result setting run = .ok result after) :
    Projects apply setting call collection run member projection args result after

/-- Whether a member stays as it is: an operation if it is what was made of it, another member if
its type is. -/
def Unchanged (g : Graph) (collection : Collection) (member result : NodeId) : Prop :=
  if collection = .operations then result = member else (g.shape member).type? = some result

/-- What is put in place of a member: what was made of it, or a copy of the type that was made. The
first graph is the one in which the member was read. -/
inductive Replaces (g : Graph) (collection : Collection) (member result : NodeId) (run : Run) :
    NodeId → Run → Prop
  | operation (is_operation : collection = .operations) :
    Replaces g collection member result run result run
  | same (not_operation : collection ≠ .operations)
    (unchanged : Unchanged g collection member result) :
    Replaces g collection member result run member run
  | copy {shape : Shape} (not_operation : collection ≠ .operations)
    (changed : ¬ Unchanged g collection member result)
    (retyped : (run.graph.shape member).withType? result = some shape) :
    Replaces g collection member result run run.graph.nextId
      { run with graph := run.graph.push ⟨some member, shape⟩ }

theorem ok_of_projected {member made : NodeId} {projection : String} {args : List Value}
    (h : (projected apply call collection member projection args).result setting run =
      .ok made after) :
    ∃ result prepared, Projects apply setting call collection run member projection args result
      prepared ∧ Replaces run.graph collection member result prepared made after := by
  unfold projected at h
  split at h
  · next hoperation =>
    exact ⟨made, after, .operation hoperation h, .operation hoperation⟩
  · next hmember =>
    obtain ⟨g, _, hgraph, h⟩ := ok_of_bind h
    cases hgraph
    split at h
    · cases h
    · next type htype =>
      obtain ⟨result, prepared, happly, h⟩ := ok_of_bind h
      refine ⟨result, prepared, .type hmember htype happly, ?_⟩
      have hunchanged : Unchanged run.graph collection member result ↔ result = type := by
        rw [Unchanged, if_neg hmember, htype, Option.some.injEq]
        exact eq_comm
      split at h
      · next hsame =>
        cases h
        exact .same hmember (hunchanged.mpr hsame)
      · next hdiffers =>
        obtain ⟨g, hbuilt, rfl⟩ := ok_of_build h
        obtain ⟨shape, hshape, rfl, rfl⟩ := Building.ok_of_deriveType hbuilt
        exact .copy hmember (fun hsame => hdiffers (hunchanged.mp hsame)) hshape

theorem Replaces.supplied {g : Graph} {member result made : NodeId}
    (h : Replaces g collection member result run made after) :
    run.graph.Supplied after.graph := by
  cases h with
  | operation => exact .refl
  | same => exact .refl
  | copy not_operation changed retyped =>
    exact Graph.supplied_alter (Shape.alters_withType? result) retyped

/-- A member stays exactly if nothing else is put in its place. -/
theorem Replaces.unchanged_iff {g : Graph} {member result made : NodeId}
    (h : Replaces g collection member result run made after) :
    Unchanged g collection member result ↔ made = member := by
  cases h with
  | operation is_operation =>
    rw [Unchanged, if_pos is_operation]
  | same not_operation unchanged => exact ⟨fun _ => rfl, fun _ => unchanged⟩
  | copy not_operation changed retyped =>
    -- a copy would be a new node, and the member is not
    refine ⟨fun hunchanged => absurd hunchanged changed, fun hsame => ?_⟩
    have hin : run.graph.contains member := Graph.contains_of_read rfl retyped
    rw [← hsame] at hin
    exact absurd hin run.graph.not_contains_nextId

/-- What an operation is replaced by is what was made of it; the replacement of another member has
the type that was made. -/
theorem Replaces.made {g : Graph} {member result made : NodeId}
    (h : Replaces g collection member result run made after) (hdiffers : made ≠ member) :
    (collection = .operations → made = result) ∧
      (collection ≠ .operations → after.graph.Derives member (Shape.withType? result) made) := by
  cases h with
  | operation is_operation => exact ⟨fun _ => rfl, fun hne => absurd is_operation hne⟩
  | same not_operation unchanged => exact absurd rfl hdiffers
  | copy not_operation changed retyped =>
    exact ⟨fun heq => absurd heq not_operation, fun _ =>
      Graph.derives_nextId (Shape.alters_withType? result) retyped⟩

/-- The last part of projecting a member: its replacement is put in its place. -/
private theorem applies_of_replaced {name projection : String} {args : List Value}
    {members : NameTable} {member result made : NodeId} {prepared replaced : Run} {v value : Value}
    {g : Graph}
    (hcollection : (prepared.graph.shape call.receiver).collection? = some collection)
    (hmembers : (prepared.graph.shape call.receiver).members? = some members)
    (hmember : members.get? name = some member) (hdiffers : made ≠ member)
    (hreplaces : Replaces g collection member result prepared made replaced)
    (h : (build (Building.deriveMember call.receiver name made) >>= fun updated =>
      conclude call updated (.project collection) name (.string projection :: args) value).result
        setting replaced = .ok v after) :
    ∃ updated, Graph.member? after.graph updated name = some made ∧
      (collection = .operations → made = result) ∧
      (collection ≠ .operations → after.graph.Derives member (Shape.withType? result) made) ∧
      prepared.Applies call.receiver ⟨.project collection, name, .string projection :: args⟩ updated
        after := by
  obtain ⟨updated, _, hupdated, h⟩ := ok_of_bind h
  obtain ⟨g, hbuilt, rfl⟩ := ok_of_build hupdated
  obtain ⟨members', changed, hmembers', hpresent, hchanged, rfl, rfl⟩ :=
    Building.ok_of_deriveMember hbuilt
  -- the container has stayed what it was when its members were read
  have hsupplied := hreplaces.supplied
  rw [Graph.shape_of_le hsupplied.extends (Graph.contains_of_members? hmembers)]
    at hmembers' hchanged
  obtain rfl : members = members' := Option.some.inj (hmembers.symm.trans hmembers')
  obtain ⟨hoperation, hcopy⟩ := hreplaces.made hdiffers
  have hedited : prepared.graph.Edited call.receiver
      ⟨.project collection, name, .string projection :: args⟩
      (replaced.graph.push ⟨some call.receiver, changed⟩) replaced.graph.nextId :=
    .mk hsupplied hmembers (fun c hc => Option.some.inj hc ▸ hcollection)
      (.project hmember hdiffers fun hne => ⟨result, hcopy hne⟩) hchanged
  have hstate : ({ replaced with
      graph := replaced.graph.push ⟨some call.receiver, changed⟩ } : Run) =
        { prepared with graph := replaced.graph.push ⟨some call.receiver, changed⟩ } := by
    cases hreplaces <;> rfl
  rw [hstate] at h
  obtain ⟨happlies, hgraph⟩ := applies_of_conclude hedited h
  refine ⟨_, ?_, hoperation, fun hne => ?_, happlies⟩
  · rw [hgraph, Graph.member?, Graph.shape_of_node? (Graph.node?_push_nextId _ _),
      Shape.members?_of_withMembers? hchanged]
    exact NameTable.get?_replace hpresent
  · rw [hgraph]
    exact (hcopy hne).mono (Graph.le_push _ _) (Shape.alters_withType? result)

/-- **Projecting a member** takes effect in the state that applying the projection has led to. It
is given that this has only extended the graph. -/
theorem ok_of_project {v : Value}
    (hextends : ∀ span node name args result prepared,
      (apply span node name args).result setting run = .ok result prepared →
        run.graph ≤ prepared.graph)
    (h : (project apply call collection).result setting run = .ok v after) :
    ∃ name projection args member result prepared,
      call.args[0]? = some (.value (.string name)) ∧
      (call.args[1]? = some (.projection projection) ∨
        call.args[1]? = some (.value (.string projection))) ∧
      call.args.drop 2 = args.map .value ∧
      run.graph.member? call.receiver name = some member ∧
      Projects apply setting call collection run member projection args result prepared ∧
      ((Unchanged run.graph collection member result ∧ after = prepared) ∨
        (¬ Unchanged run.graph collection member result ∧ ∃ made updated,
          Graph.member? after.graph updated name = some made ∧
          (collection = .operations → made = result) ∧
          (collection ≠ .operations → after.graph.Derives member (Shape.withType? result) made) ∧
          prepared.Applies call.receiver ⟨.project collection, name, .string projection :: args⟩
            updated after)) := by
  obtain ⟨name, _, hread, h⟩ := ok_of_bind h
  obtain ⟨rfl, hname⟩ := ok_of_stringArg hread
  obtain ⟨projection, _, hread, h⟩ := ok_of_bind h
  obtain ⟨rfl, hprojection⟩ := ok_of_projectionArg hread
  obtain ⟨args, _, hread, h⟩ := ok_of_bind h
  obtain ⟨rfl, hargs⟩ := ok_of_valueArgs hread
  obtain ⟨members, _, hread, h⟩ := ok_of_bind h
  obtain ⟨rfl, hcollection, hmembers⟩ := ok_of_membersOf hread
  obtain ⟨member, _, hread, h⟩ := ok_of_bind h
  obtain ⟨rfl, hmember⟩ := ok_of_existing hread
  obtain ⟨made, replaced, hprojected, h⟩ := ok_of_bind h
  obtain ⟨result, prepared, hprojects, hreplaces⟩ := ok_of_projected hprojected
  have hfound : run.graph.member? call.receiver name = some member := by
    rw [Graph.member?, hmembers]
    exact hmember
  have hle : run.graph ≤ prepared.graph := by
    cases hprojects with
    | operation is_operation applied => exact hextends _ _ _ _ _ _ applied
    | type not_operation found applied => exact hextends _ _ _ _ _ _ applied
  have hunchanged := hreplaces.unchanged_iff
  refine ⟨name, projection, args, member, result, prepared, hname, hprojection, hargs, hfound,
    hprojects, ?_⟩
  -- the code compares the replacement with the member, the statement speaks of the type
  split at h
  · next hsame =>
    cases h
    refine .inl ⟨hunchanged.mpr hsame, ?_⟩
    cases hreplaces with
    | operation => rfl
    | same => rfl
    | copy not_operation changed retyped => exact absurd (hunchanged.mpr hsame) changed
  · next hdiffers =>
    refine .inr ⟨fun hsame => hdiffers (hunchanged.mp hsame), made, ?_⟩
    -- the receiver was read before the projection was applied, which has only extended the graph
    rw [← Graph.shape_of_le hle (Graph.contains_of_members? hmembers)] at hcollection hmembers
    exact applies_of_replaced hcollection hmembers hmember hdiffers hreplaces h

end Projecting

end Edits

end SchemaProjection
