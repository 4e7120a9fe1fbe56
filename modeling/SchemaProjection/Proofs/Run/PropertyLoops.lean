import SchemaProjection.Proofs.Run.SelfEdits
import SchemaProjection.Proofs.Run.Succeeding
import SchemaProjection.Proofs.Run.Yields

/-!
# Loops over the properties of a model

A loop over the properties of the node of the activation goes through a snapshot of them, while its
body edits the node. Here each round deletes the property, renames it or leaves it, and what a round
does to a property is its **fate** (`Fate`): the name that it ends up with, if it stays.

The loop is under way (`Fate.Underway`) if the node has the properties that are done, as their fates
have it, in front of those that are still to come, as they were. Each statement of a round takes
this one property further (`Fate.Underway.proceeds_rename`, `Fate.Underway.proceeds_delete`,
`Fate.Underway.proceeds_project`). The new names may not get into each other's way nor into that of
a property still to come (`Fate.NoCollision`); this is all that is needed for no edit to fail.
-/

namespace SchemaProjection

/-! ### Tables in which one entry is edited -/

namespace NameTable

variable {t : NameTable} {old new : String} {id other : NodeId}
  {front back : List (String × NodeId)}

/-- The entries around an entry have other names. -/
theorem ne_of_entries (h : t.entries = front ++ (old, id) :: back) :
    (∀ e ∈ front, e.1 ≠ old) ∧ ∀ e ∈ back, e.1 ≠ old := by
  have hnodup := t.nodup_keys
  rw [h, List.map_append, List.map_cons, List.nodup_append] at hnodup
  obtain ⟨-, hback, hfront⟩ := hnodup
  refine ⟨fun e he => hfront e.1 (List.mem_map_of_mem he) old List.mem_cons_self, ?_⟩
  rintro e he rfl
  exact (List.nodup_cons.mp hback).1 (List.mem_map.mpr ⟨e, he, rfl⟩)

theorem get?_of_entries (h : t.entries = front ++ (old, id) :: back) : t.get? old = some id := by
  rw [get?_iff, h]
  exact List.mem_append_right _ List.mem_cons_self

theorem entries_rename_at (h : t.entries = front ++ (old, id) :: back)
    (hfree : t.contains new = false) :
    (t.rename old new other).entries = front ++ (new, other) :: back := by
  obtain ⟨hfront, hback⟩ := ne_of_entries h
  have hsame : ∀ {entries : List (String × NodeId)}, (∀ e ∈ entries, e.1 ≠ old) →
      entries.map (fun e => if e.1 = old then (new, other) else e) = entries := fun hne =>
    (List.map_congr_left fun e he => if_neg (hne e he)).trans (List.map_id' _)
  rw [entries_rename hfree, h, List.map_append, List.map_cons, if_pos rfl, hsame hfront,
    hsame hback]

theorem entries_erase_at (h : t.entries = front ++ (old, id) :: back) :
    (t.erase old).entries = front ++ back := by
  obtain ⟨hfront, hback⟩ := ne_of_entries h
  rw [entries_erase, h, List.filter_append, List.filter_cons_of_neg (by simp),
    List.filter_eq_self.mpr (by simpa using hfront), List.filter_eq_self.mpr (by simpa using hback)]

end NameTable

/-! ### What is made -/

namespace Building

variable {g : Graph} {id : NodeId}

theorem run_deriveShape {shape? : Option Shape} {shape : Shape} (h : shape? = some shape)
    (fault : String → GraphFault) :
    (deriveShape id shape? fault).run g = .ok g.nextId (g.push ⟨some id, shape⟩) := by
  rw [h]
  rfl

/-- A renamed copy of a property. -/
theorem run_deriveRenamed {old new : String} {type : NodeId} {optional : Bool}
    (h : g.shape id = .modelProperty old type optional) :
    (deriveRenamed id new).run g =
      .ok g.nextId (g.push ⟨some id, .modelProperty new type optional⟩) :=
  run_deriveShape (by rw [h]; rfl) _

/-- A copy of a model with other properties. -/
theorem run_deriveMembers {name : Option String} {t members : NameTable}
    (h : g.shape id = .model name t) :
    (deriveMembers id members).run g = .ok g.nextId (g.push ⟨some id, .model name members⟩) :=
  run_deriveShape (by rw [h]; rfl) _

end Building

namespace Graph

variable {g : Graph} {id : NodeId}

theorem shape_push_nextId (g : Graph) (node : Node) :
    (g.push node).shape g.nextId = node.shape :=
  shape_of_node? (g.node?_push_nextId node)

theorem contains_of_model {name : Option String} {t : NameTable}
    (h : g.shape id = .model name t) : g.contains id :=
  contains_of_shape_ne fun hunknown => nomatch h.symm.trans hunknown

theorem contains_of_modelProperty {name : String} {type : NodeId} {optional : Bool}
    (h : g.shape id = .modelProperty name type optional) : g.contains id :=
  contains_of_shape_ne fun hunknown => nomatch h.symm.trans hunknown

end Graph

namespace Scene

open Eval Edits

variable {setting : Setting} {scene : Scene} {g h : Graph} {self updated p : NodeId}
  {frames : List Frame}

/-! ### Reading -/

variable {ev : Evaluator}

theorem yields_bound {text : String} {v : Value}
    (hbound : frames.findSome? (·.lookup text) = some v) :
    (Form.name text).Yields setting (scene.run g self frames) (.value v)
      (scene.run g self frames) := by
  refine Expr.yields_name fun w hw => ?_
  subst hw
  have hactivation : Eval.activation.result setting (scene.run g self frames) =
      .ok (scene.activation self frames) (scene.run g self frames) := result_activation ..
  have hlookup : (scene.activation self frames).lookup? w.text = some v := hbound
  rw [Evaluation.resolve, result_bind_of_ok hactivation, hlookup]
  rfl

theorem yields_self (hfree : frames.findSome? (·.lookup "self") = none) :
    (Form.name "self").Yields setting (scene.run g self frames) (.value (.type self))
      (scene.run g self frames) :=
  Expr.yields_name fun _ hw =>
    Evaluation.result_self (a := scene.activation self frames) hw rfl hfree

/-- A name that stands for nothing else stands for the projections of that name. -/
theorem yields_projection {text : String} (hfree : frames.findSome? (·.lookup text) = none)
    (hself : text ≠ "self") (hintrinsic : Intrinsic.ofName? text = none)
    (hglobal : g.lookup? text = none) (hdeclared : setting.declarations.isDeclared text) :
    (Form.name text).Yields setting (scene.run g self frames) (.projection text)
      (scene.run g self frames) := by
  refine Expr.yields_name fun w hw => ?_
  subst hw
  have hactivation : Eval.activation.result setting (scene.run g self frames) =
      .ok (scene.activation self frames) (scene.run g self frames) := result_activation ..
  have hgraph : Eval.graph.result setting (scene.run g self frames) = .ok g _ := rfl
  have hread : (read : Eval Setting).result setting (scene.run g self frames) = .ok setting _ := rfl
  have hlookup : (scene.activation self frames).lookup? w.text = none := hfree
  rw [Evaluation.resolve, result_bind_of_ok hactivation, hlookup]
  dsimp only
  rw [if_neg hself, hintrinsic]
  dsimp only
  rw [result_bind_of_ok hgraph, hglobal]
  dsimp only
  rw [result_bind_of_ok hread, if_pos hdeclared]
  rfl

/-- A field of a node. -/
theorem yields_field {target : Expr} {text : String} {id : NodeId} {operand : Operand}
    (htarget : target.Yields setting (scene.run g self frames) (.value (.type id))
      (scene.run g self frames))
    (hfield : Evaluation.nodeField? (g.shape id) text = some operand) :
    (Form.member target text).Yields setting (scene.run g self frames) operand
      (scene.run g self frames) := by
  refine htarget.field fun w hw => ?_
  have hgraph : Eval.graph.result setting (scene.run g self frames) = .ok g _ := rfl
  subst hw
  rw [Evaluation.field]
  dsimp only
  rw [result_bind_of_ok hgraph, hfield]
  rfl

/-! ### Edits -/

theorem result_build {α : Type} {action : Building α} {a : α} (haction : action.run g = .ok a h) :
    (build action).result setting (scene.run g self frames) = .ok a (scene.run h self frames) := by
  have hrun : action.run (scene.run g self frames).graph = .ok a h := haction
  rw [Eval.result_build, hrun]
  rfl

/-- An edit of the node takes effect. Nothing is recorded. -/
theorem result_conclude {call : MethodCall} (hreceiver : call.receiver = self) (edit : Edit)
    (target : String) (args : List Value) (v : Value) :
    (conclude call updated edit target args v).result setting (scene.run g self frames) =
      .ok v (scene.run g updated frames) := by
  have hself : Eval.self.result setting (scene.run g self frames) = .ok self _ := rfl
  have hset : (setSelf updated).result setting (scene.run g self frames) =
      .ok () (scene.run g updated frames) := rfl
  have hrecord : (record edit target args).result setting (scene.run g updated frames) =
      .ok () (scene.run g updated frames) := by
    show EStateM.Result.ok () (if scene.depth = 1 then _ else _) = _
    split <;> rfl
  rw [conclude, result_bind_of_ok hself, if_pos hreceiver, result_bind_of_ok hset,
    result_bind_of_ok hrecord]
  rfl

variable {call : MethodCall} {name : Option String} {t : NameTable} {old new : String}
  {type : NodeId} {optional : Bool}

theorem result_membersOf (hreceiver : g.shape call.receiver = .model name t) :
    (membersOf call .properties).result setting (scene.run g self frames) =
      .ok t (scene.run g self frames) :=
  Edits.result_membersOf (congrArg (·.membersIn? .properties) hreceiver)

/-- **Renaming a property** of the node, to a name that is free. -/
theorem result_rename (setting : Setting) (scene : Scene) (frames : List Frame)
    (hself : g.shape self = .model name t) (hold : t.get? old = some p)
    (hp : g.shape p = .modelProperty old type optional) (hne : old ≠ new)
    (hfree : t.contains new = false) :
    ∃ h updated renamed, g ≤ h ∧ h.shape updated = .model name (t.rename old new renamed) ∧
      h.shape renamed = .modelProperty new type optional ∧
      ∀ call : MethodCall, call.receiver = self →
        call.args = [.value (.string old), .value (.string new)] →
        (rename call .properties).result setting (scene.run g self frames) =
          .ok (.type renamed) (scene.run h updated frames) := by
  have hfirst := g.le_push ⟨some p, .modelProperty new type optional⟩
  have hself' : (g.push ⟨some p, .modelProperty new type optional⟩).shape self = .model name t := by
    rw [Graph.shape_of_le hfirst (Graph.contains_of_model hself), hself]
  -- the renamed copy of the property comes first, then the copy of the node around it
  have hsecond := (g.push ⟨some p, .modelProperty new type optional⟩).le_push
    ⟨some self, .model name (t.rename old new g.nextId)⟩
  refine ⟨_, _, g.nextId, le_trans hfirst hsecond, Graph.shape_push_nextId _ _, ?_, ?_⟩
  · have hnew := Graph.contains_of_node?
      (g.node?_push_nextId ⟨some p, .modelProperty new type optional⟩)
    rw [Graph.shape_of_le hsecond hnew, Graph.shape_push_nextId]
  · rintro call rfl hargs
    rw [rename, result_bind_of_ok (result_stringArg (by rw [hargs]; rfl)),
      result_bind_of_ok (result_stringArg (by rw [hargs]; rfl)),
      result_bind_of_ok (result_membersOf hself), result_bind_of_ok (result_existing hold _),
      if_neg hne, result_bind_of_ok (result_requireFree hfree),
      result_bind_of_ok (result_build (Building.run_deriveRenamed hp)),
      result_bind_of_ok (result_build (Building.run_deriveMembers hself'))]
    exact result_conclude rfl _ _ _ _

/-- A name is not changed into itself. -/
theorem result_rename_same (hself : g.shape self = .model name t) (hold : t.get? old = some p)
    (hreceiver : call.receiver = self)
    (hargs : call.args = [.value (.string old), .value (.string old)]) :
    (rename call .properties).result setting (scene.run g self frames) =
      .ok (.type p) (scene.run g self frames) := by
  subst hreceiver
  rw [rename, result_bind_of_ok (result_stringArg (by rw [hargs]; rfl)),
    result_bind_of_ok (result_stringArg (by rw [hargs]; rfl)),
    result_bind_of_ok (result_membersOf hself), result_bind_of_ok (result_existing hold _),
    if_pos rfl]
  rfl

/-- **Deleting a property** of the node. -/
theorem result_delete (setting : Setting) (scene : Scene) (frames : List Frame)
    (hself : g.shape self = .model name t) (hold : t.get? old = some p) :
    ∃ h updated, g ≤ h ∧ h.shape updated = .model name (t.erase old) ∧
      ∀ call : MethodCall, call.receiver = self → call.args = [.value (.string old)] →
        (delete call .properties).result setting (scene.run g self frames) =
          .ok .absent (scene.run h updated frames) := by
  refine ⟨_, _, g.le_push ⟨some self, .model name (t.erase old)⟩, Graph.shape_push_nextId _ _, ?_⟩
  rintro call rfl hargs
  rw [delete, result_bind_of_ok (result_stringArg (by rw [hargs]; rfl)),
    result_bind_of_ok (result_membersOf hself), if_pos (NameTable.contains_of_get? hold),
    result_bind_of_ok (result_build (Building.run_deriveMembers hself))]
  exact result_conclude rfl _ _ _ _

/-- Arguments that are values are passed on. -/
theorem result_valueArgs (setting : Setting) (call : MethodCall) (vs : List Value) (run : Run) :
    (valueArgs call (vs.map Operand.value)).result setting run = .ok vs run := by
  induction vs with
  | nil => rfl
  | cons v vs ih =>
    rw [List.map_cons, valueArgs, result_bind_of_ok ih]
    rfl

variable {projection : String} {args : List Value}

/-- A node that a projection does not apply to stays as it is. -/
theorem result_applyNamed_aside (hdeclared : setting.declarations.isDeclared projection)
    (haside : setting.declarations.resolve? g type projection = none) (span : Span) :
    (Evaluation.applyNamed ev span type projection args).result setting
      (scene.run g self frames) = .ok type (scene.run g self frames) := by
  have hgraph : Eval.graph.result setting (scene.run g self frames) = .ok g _ := rfl
  have hread : (read : Eval Setting).result setting (scene.run g self frames) = .ok setting _ := rfl
  rw [Evaluation.applyNamed, result_bind_of_ok hread]
  dsimp only
  rw [hdeclared, Bool.not_true, if_neg (by decide), result_bind_of_ok (result_get _ _),
    result_bind_of_ok hgraph, haside]
  rfl

/-- A projection that does not apply to the type of a property leaves it as it is. -/
theorem result_project_aside (hself : g.shape self = .model name t) (hold : t.get? old = some p)
    (hp : g.shape p = .modelProperty old type optional)
    (hdeclared : setting.declarations.isDeclared projection)
    (haside : setting.declarations.resolve? g type projection = none)
    (hreceiver : call.receiver = self)
    (hargs : call.args =
      .value (.string old) :: .projection projection :: args.map Operand.value) :
    (project (Evaluation.applyNamed ev) call .properties).result setting
      (scene.run g self frames) = .ok (.type p) (scene.run g self frames) := by
  subst hreceiver
  have hgraph : Eval.graph.result setting (scene.run g call.receiver frames) = .ok g _ := rfl
  have hname : (projectionArg call).result setting (scene.run g call.receiver frames) =
      .ok projection (scene.run g call.receiver frames) := by
    rw [projectionArg, hargs]
    rfl
  -- the type comes out unchanged, so no copy of the property is made
  have hprojected : (projected (Evaluation.applyNamed ev) call .properties p projection args).result
      setting (scene.run g call.receiver frames) =
        .ok p (scene.run g call.receiver frames) := by
    rw [projected, if_neg (by decide), result_bind_of_ok hgraph, hp]
    dsimp only [Shape.type?]
    rw [result_bind_of_ok (result_applyNamed_aside hdeclared haside _), if_pos rfl]
    rfl
  rw [project, result_bind_of_ok (result_stringArg (by rw [hargs]; rfl)),
    result_bind_of_ok hname, hargs, List.drop_succ_cons, List.drop_succ_cons, List.drop_zero,
    result_bind_of_ok (result_valueArgs ..), result_bind_of_ok (result_membersOf hself),
    result_bind_of_ok (result_existing hold _), result_bind_of_ok hprojected, if_pos rfl]
  rfl

end Scene

/-! ### Fates -/

/-- **What becomes of the properties of a model**: the name that an entry ends up with, if it
stays. -/
abbrev Fate := String × NodeId → Option String

namespace Fate

variable {fate : Fate} {source g h : Graph} {name : Option String} {self updated : NodeId}
  {e : String × NodeId} {kept done rest : List (String × NodeId)} {t t' : NameTable}

/-- A property stays, under the name of its fate and with its type and its optionality. -/
def Keeps (fate : Fate) (source g : Graph) (e kept : String × NodeId) : Prop :=
  fate e = some kept.1 ∧ ∃ type optional, source.shape e.2 = .modelProperty e.1 type optional ∧
    g.shape kept.2 = .modelProperty kept.1 type optional

/-- **The properties of a model as their fates have it**: those that stay, in their order. -/
def Fulfilled (fate : Fate) (source g : Graph) (entries kept : List (String × NodeId)) : Prop :=
  List.Forall₂ (fate.Keeps source g) (entries.filter fun e => (fate e).isSome) kept

/-- **No new name is in the way**: it is not the one that another property gets, and not the one
that another property has. -/
structure NoCollision (fate : Fate) (entries : List (String × NodeId)) : Prop where
  distinct : ∀ e ∈ entries, ∀ e' ∈ entries, ∀ new, fate e = some new → fate e' = some new → e = e'
  fresh : ∀ e ∈ entries, ∀ e' ∈ entries, fate e = some e'.1 → e = e'

/-- **A loop under way**, over a snapshot of the properties of a model. -/
structure Underway (fate : Fate) (source : Graph) (name : Option String)
    (done rest : List (String × NodeId)) (g : Graph) (node : NodeId) : Prop where
  grown : source ≤ g
  properties : ∀ e ∈ rest, ∃ type optional, source.shape e.2 = .modelProperty e.1 type optional
  model : ∃ t kept, g.shape node = .model name t ∧ t.entries = kept ++ rest ∧
    fate.Fulfilled source g done kept

theorem Keeps.contains {kept : String × NodeId} (hk : fate.Keeps source g e kept) :
    g.contains kept.2 := by
  obtain ⟨-, type, optional, -, hshape⟩ := hk
  exact Graph.contains_of_modelProperty hshape

theorem Keeps.mono {kept : String × NodeId} (hk : fate.Keeps source g e kept) (hle : g ≤ h) :
    fate.Keeps source h e kept := by
  have hcontains := hk.contains
  obtain ⟨hfate, type, optional, hsource, hshape⟩ := hk
  exact ⟨hfate, type, optional, hsource, (Graph.shape_of_le hle hcontains).trans hshape⟩

theorem Fulfilled.mono (hf : fate.Fulfilled source g done kept) (hle : g ≤ h) :
    fate.Fulfilled source h done kept := hf.imp fun _ _ hk => hk.mono hle

/-- Whatever is kept comes from a property that is done. -/
theorem Fulfilled.exists_keeps (hf : fate.Fulfilled source g done kept) {k : String × NodeId}
    (hk : k ∈ kept) : ∃ e ∈ done, fate.Keeps source g e k := by
  obtain ⟨i, hi, rfl⟩ := List.mem_iff_getElem.mp hk
  have hkeeps := (List.forall₂_iff_get.mp hf).2 i (hf.length_eq ▸ hi) hi
  exact ⟨_, List.mem_of_mem_filter (List.get_mem _ _), hkeeps⟩

/-- What is kept are properties, under their new names. -/
theorem Fulfilled.properties (hf : fate.Fulfilled source g done kept) :
    ∀ k ∈ kept, ∃ type optional, g.shape k.2 = .modelProperty k.1 type optional := by
  intro k hk
  obtain ⟨e, -, hkeeps⟩ := hf.exists_keeps hk
  obtain ⟨-, type, optional, -, hshape⟩ := hkeeps
  exact ⟨type, optional, hshape⟩

theorem Fulfilled.keep (hf : fate.Fulfilled source g done kept) {k : String × NodeId}
    (hk : fate.Keeps source g e k) : fate.Fulfilled source g (done ++ [e]) (kept ++ [k]) := by
  rw [Fulfilled, List.filter_append, List.filter_cons_of_pos (by rw [hk.1]; rfl)]
  exact List.rel_append hf (.cons hk .nil)

theorem Fulfilled.drop (hf : fate.Fulfilled source g done kept) (he : fate e = none) :
    fate.Fulfilled source g (done ++ [e]) kept := by
  rw [Fulfilled, List.filter_append, List.filter_cons_of_neg (by rw [he]; decide), List.filter_nil,
    List.append_nil]
  exact hf

namespace Underway

/-- The property of the round, in the graph that the loop has reached. -/
theorem shape_head (hu : fate.Underway source name done (e :: rest) g self) :
    ∃ type optional, source.shape e.2 = .modelProperty e.1 type optional ∧
      g.shape e.2 = .modelProperty e.1 type optional := by
  obtain ⟨type, optional, hshape⟩ := hu.properties e List.mem_cons_self
  refine ⟨type, optional, hshape, (Graph.shape_of_le hu.grown ?_).trans hshape⟩
  exact Graph.contains_of_modelProperty hshape

/-- The node still has the property of the round under its name. -/
theorem get?_head (hu : fate.Underway source name done (e :: rest) g self)
    (hself : g.shape self = .model name t) : t.get? e.1 = some e.2 := by
  obtain ⟨t', kept, hself', hentries, -⟩ := hu.model
  cases hself.symm.trans hself'
  exact NameTable.get?_of_entries hentries

/-- **The new name of the property of the round is free**, if it is another one. -/
theorem free (hu : fate.Underway source name done (e :: rest) g self)
    (hfate : fate.NoCollision (done ++ e :: rest)) (hnodup : (done ++ e :: rest).Nodup)
    {new : String} (he : fate e = some new) (hne : e.1 ≠ new)
    (hself : g.shape self = .model name t) : t.contains new = false := by
  obtain ⟨t', kept, hself', hentries, hkept⟩ := hu.model
  cases hself.symm.trans hself'
  have hmem : e ∈ done ++ e :: rest := List.mem_append_right _ List.mem_cons_self
  refine Bool.eq_false_iff.mpr fun hcontains => ?_
  obtain ⟨k, hk, rfl⟩ := List.mem_map.mp (NameTable.contains_iff.mp hcontains)
  rw [hentries] at hk
  rcases List.mem_append.mp hk with hk | hk
  · -- another property that is done would have got the same name
    obtain ⟨e', he', hkeeps⟩ := hkept.exists_keeps hk
    obtain rfl := hfate.distinct e hmem e' (List.mem_append_left _ he') _ he hkeeps.1
    exact (List.nodup_append.mp hnodup).2.2 e he' e List.mem_cons_self rfl
  · obtain rfl := hfate.fresh e hmem k (List.mem_append_right _ hk) he
    exact hne rfl

/-- **One round further**, and the property of the round is kept. -/
theorem keep (hu : fate.Underway source name done (e :: rest) g self) (hle : g ≤ h)
    {k : String × NodeId} (he : fate e = some k.1)
    (hshape : ∀ {type optional}, g.shape e.2 = .modelProperty e.1 type optional →
      h.shape k.2 = .modelProperty k.1 type optional)
    (hself : g.shape self = .model name t) (hupdated : h.shape updated = .model name t')
    (hentries : ∀ {front}, t.entries = front ++ e :: rest → t'.entries = front ++ k :: rest) :
    fate.Underway source name (done ++ [e]) rest h updated := by
  obtain ⟨type, optional, hsource, hread⟩ := hu.shape_head
  obtain ⟨t'', kept, hself', hbefore, hkept⟩ := hu.model
  cases hself.symm.trans hself'
  refine ⟨le_trans hu.grown hle, fun e' he' => hu.properties e' (List.mem_cons_of_mem _ he'), t',
    kept ++ [k], hupdated, ?_, ?_⟩
  · rw [hentries hbefore, List.append_cons]
  · exact (hkept.mono hle).keep ⟨he, type, optional, hsource, hshape hread⟩

/-- **One round further**, and the property of the round is gone. -/
theorem drop (hu : fate.Underway source name done (e :: rest) g self) (hle : g ≤ h)
    (he : fate e = none) (hself : g.shape self = .model name t)
    (hupdated : h.shape updated = .model name t')
    (hentries : ∀ {front}, t.entries = front ++ e :: rest → t'.entries = front ++ rest) :
    fate.Underway source name (done ++ [e]) rest h updated := by
  obtain ⟨t'', kept, hself', hbefore, hkept⟩ := hu.model
  cases hself.symm.trans hself'
  exact ⟨le_trans hu.grown hle, fun e' he' => hu.properties e' (List.mem_cons_of_mem _ he'), t',
    kept, hupdated, hentries hbefore, (hkept.mono hle).drop he⟩

end Underway

end Fate

/-! ### Statements of a round -/

namespace Form

/-- A call of a method on the node, about the property of the round. -/
def onItem (method param : String) (args : List Expr) : Stmt :=
  stmt (call (member (name "self") method) (member (name param) "name" :: args))

/-- A loop over the properties of the node. -/
def forProperties (param : String) (body : Block) : Block :=
  block [stmt (call (member (member (name "self") "properties") "forEach") [lambda [param] body])]

end Form

namespace Fate.Underway

open Eval

variable {setting : Setting} {scene : Scene} {fate : Fate} {source g : Graph}
  {name : Option String} {self : NodeId} {e : String × NodeId}
  {done rest : List (String × NodeId)} {frames : List Frame} {param : String}
  (hu : fate.Underway source name done (e :: rest) g self)
  (hself : frames.findSome? (·.lookup "self") = none)
  (hparam : frames.findSome? (·.lookup param) = some (.type e.2))
include hu

/-- The item of the round is read by its name. -/
theorem yields_itemName (hparam : frames.findSome? (·.lookup param) = some (.type e.2)) :
    (Form.member (Form.name param) "name").Yields setting (scene.run g self frames)
      (.value (.string e.1)) (scene.run g self frames) := by
  obtain ⟨type, optional, -, hread⟩ := hu.shape_head
  refine Scene.yields_field (Scene.yields_bound hparam) ?_
  rw [hread]
  rfl

include hself hparam

/-- A method that is called on the node makes its edit. -/
theorem proceeds_onItem {method : String} {m : Method} {args : List Expr} {operands : List Operand}
    {v : Value} {h : Graph} {updated : NodeId} (hmethod : Method.ofName? method = some m)
    (hargs : Expr.YieldAll setting (scene.run g self frames) args operands
      (scene.run g self frames))
    (hedit : ∀ ev (call : MethodCall), call.receiver = self →
      call.args = .value (.string e.1) :: operands →
      (Edits.run (Evaluation.applyNamed ev) call m).result setting (scene.run g self frames) =
        .ok v (scene.run h updated frames)) :
    (Form.onItem method param args).Proceeds setting (scene.run g self frames)
      (scene.run h updated frames) :=
  Stmt.proceeds_expr <| (Scene.yields_self hself).method
    (.cons (hu.yields_itemName hparam) hargs) hmethod fun ev _ _ _ => hedit ev _ rfl rfl

/-- **Renaming the property of the round** as its fate has it. -/
theorem proceeds_rename (hfate : fate.NoCollision (done ++ e :: rest))
    (hnodup : (done ++ e :: rest).Nodup) {new : String} (he : fate e = some new) {arg : Expr}
    (harg : arg.Yields setting (scene.run g self frames) (.value (.string new))
      (scene.run g self frames)) :
    ∃ h updated, fate.Underway source name (done ++ [e]) rest h updated ∧
      (Form.onItem "renameProperty" param [arg]).Proceeds setting (scene.run g self frames)
        (scene.run h updated frames) := by
  obtain ⟨t, kept, hnode, -⟩ := hu.model
  obtain ⟨type, optional, -, hread⟩ := hu.shape_head
  have hold := hu.get?_head hnode
  have hmethod : Method.ofName? "renameProperty" = some (.edit (.rename .properties)) := by decide
  have hargs : Expr.YieldAll setting (scene.run g self frames) [arg] [.value (.string new)]
      (scene.run g self frames) := .cons harg (.nil _)
  by_cases hne : e.1 = new
  · -- the name is the new one already
    subst hne
    exact ⟨g, self, hu.keep (k := e) le_rfl he (fun hshape => hshape) hnode hnode fun h => h,
      hu.proceeds_onItem hself hparam hmethod hargs fun _ _ =>
        Scene.result_rename_same hnode (hu.get?_head hnode)⟩
  · have hfree := hu.free hfate hnodup he hne hnode
    obtain ⟨h, updated, renamed, hle, hupdated, hrenamed, hedit⟩ :=
      Scene.result_rename setting scene frames hnode (hu.get?_head hnode) hread hne hfree
    refine ⟨h, updated, hu.keep (k := (new, renamed)) hle he (fun hshape => ?_) hnode hupdated
      fun hentries => NameTable.entries_rename_at hentries hfree,
      hu.proceeds_onItem hself hparam hmethod hargs fun _ => hedit⟩
    cases hread.symm.trans hshape
    exact hrenamed

/-- **Deleting the property of the round**, if this is its fate. -/
theorem proceeds_delete (he : fate e = none) :
    ∃ h updated, fate.Underway source name (done ++ [e]) rest h updated ∧
      (Form.onItem "deleteProperty" param []).Proceeds setting (scene.run g self frames)
        (scene.run h updated frames) := by
  obtain ⟨t, kept, hnode, -⟩ := hu.model
  have hmethod : Method.ofName? "deleteProperty" = some (.edit (.delete .properties)) := by decide
  obtain ⟨h, updated, hle, hupdated, hedit⟩ :=
    Scene.result_delete setting scene frames hnode (hu.get?_head hnode)
  exact ⟨h, updated, hu.drop hle he hnode hupdated NameTable.entries_erase_at,
    hu.proceeds_onItem hself hparam hmethod (.nil _) fun _ => hedit⟩

/-- **Projecting the property of the round** leaves it, if the projection does not apply to its
type. -/
theorem proceeds_project (he : fate e = some e.1) {projection : String} {args : List Value}
    {forms : List Expr}
    (hforms : Expr.YieldAll setting (scene.run g self frames) forms
      (.projection projection :: args.map Operand.value) (scene.run g self frames))
    (hdeclared : setting.declarations.isDeclared projection)
    (haside : ∀ type optional, g.shape e.2 = .modelProperty e.1 type optional →
      setting.declarations.resolve? g type projection = none) :
    fate.Underway source name (done ++ [e]) rest g self ∧
      (Form.onItem "projectProperty" param forms).Proceeds setting (scene.run g self frames)
        (scene.run g self frames) := by
  obtain ⟨t, kept, hnode, -⟩ := hu.model
  obtain ⟨type, optional, -, hread⟩ := hu.shape_head
  have hmethod : Method.ofName? "projectProperty" = some (.edit (.project .properties)) := by decide
  exact ⟨hu.keep (k := e) le_rfl he (fun hshape => hshape) hnode hnode fun h => h,
    hu.proceeds_onItem hself hparam hmethod hforms fun _ _ =>
      Scene.result_project_aside hnode (hu.get?_head hnode) hread hdeclared (haside _ _ hread)⟩

end Fate.Underway

/-! ### The loop -/

/-- Some properties of a model are done, and the items still to come are the others. -/
def Fate.InLoop (fate : Fate) (source : Graph) (name : Option String) (t : NameTable) (g : Graph)
    (node : NodeId) (items : List NodeId) : Prop :=
  ∃ done rest, t.entries = done ++ rest ∧ items = rest.map Prod.snd ∧
    fate.Underway source name done rest g node

/-- **A loop over the properties of a model** makes of each property what its fate has, if every
round takes it one property further. -/
theorem Fate.proceeds_forProperties {setting : Setting} {scene : Scene} {fate : Fate}
    {source : Graph} {name : Option String} {model : NodeId} {t : NameTable} {param : String}
    {body : Block} {params : Frame} (hself : params.lookup "self" = none)
    (hmodel : source.shape model = .model name t)
    (hproperties : ∀ e ∈ t.entries, ∃ type optional,
      source.shape e.2 = .modelProperty e.1 type optional)
    (hround : ∀ done e rest g self, t.entries = done ++ e :: rest →
      fate.Underway source name done (e :: rest) g self →
        ∃ h updated, fate.Underway source name (done ++ [e]) rest h updated ∧
          body.Proceeds setting (scene.run g self ([(param, .type e.2)] :: [] :: [params]))
            (scene.run h updated ([(param, .type e.2)] :: [] :: [params]))) :
    ∃ h updated t', source ≤ h ∧ h.shape updated = .model name t' ∧
      fate.Fulfilled source h t.entries t'.entries ∧
      (Form.forProperties param body).Proceeds setting (scene.run source model [params])
        (scene.run h updated [params]) := by
  have hnode : [[], params].findSome? (·.lookup "self") = none := by
    rw [List.findSome?_cons_of_isNone rfl, List.findSome?_cons_of_isNone (by rw [hself]; rfl)]
    rfl
  have hitems : (Form.member (Form.name "self") "properties").Yields setting
      (scene.run source model ([] :: [params])) (.members t.values)
      (scene.run source model ([] :: [params])) := by
    refine Scene.yields_field (Scene.yields_self hnode) ?_
    rw [hmodel]
    rfl
  -- the items of the snapshot are the values of the entries, so the first one heads `rest`
  have hrounds : ∀ g self item items, fate.InLoop source name t g self (item :: items) →
      ∃ h updated, fate.InLoop source name t h updated items ∧
        body.Proceeds setting (scene.run g self ([(param, .type item)] :: [] :: [params]))
          (scene.run h updated ([(param, .type item)] :: [] :: [params])) := by
    rintro g self item items ⟨done, _ | ⟨e, rest⟩, hentries, hitems, hu⟩
    · cases hitems
    cases hitems
    obtain ⟨h, updated, hnext, hbody⟩ := hround done e rest g self hentries hu
    exact ⟨h, updated, ⟨done ++ [e], rest, by rw [hentries, List.append_cons], rfl, hnext⟩, hbody⟩
  obtain ⟨h, updated, ⟨done, rest, hentries, hdone, hu⟩, hloop⟩ :=
    Scene.yields_forEach (fate.InLoop source name t) hitems hrounds
      ⟨[], t.entries, rfl, rfl, le_rfl, hproperties, t, [], hmodel, rfl, .nil⟩
  -- no item is left, so all entries are done and the node has nothing but what was kept
  obtain rfl := List.map_eq_nil_iff.mp hdone.symm
  rw [List.append_nil] at hentries
  obtain ⟨t', kept, hnode', hkept, hfulfilled⟩ := hu.model
  rw [List.append_nil] at hkept
  subst hentries hkept
  exact ⟨h, updated, t', hu.grown, hnode', hfulfilled,
    Stmt.ProceedAll.block (.cons (Stmt.proceeds_expr hloop) (.nil _))⟩

end SchemaProjection
