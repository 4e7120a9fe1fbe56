import SchemaProjection.Proofs.Run.Failing
import SchemaProjection.Proofs.Workspace.Declaring
import SchemaProjection.Proofs.Workspace.Endings
import SchemaProjection.Proofs.Workspace.Members

/-!
# Projections with a known body

A call for a node applies a projection in a fresh state, so what it comes to is what the body of the
projection comes to in its scene (`Workspace.scene`). If the body proceeds to its end, the call
succeeds with what the node has become, and only the graph of the workspace has changed
(`Workspace.tryProject_of_proceeds`); if the body fails, then so does the call
(`Workspace.tryProject_of_fails`).

For a body that is a loop over the properties of a model, it is enough to say what a round does to a
property (`Workspace.tryProject_forProperties`).

A projection has the body that the text has that it was declared from (`Projection.DeclaredFrom`),
and so the form of it.
-/

namespace SchemaProjection

/-- **A projection is declared from a source**: it is what a tree of the source declares. -/
def Projection.DeclaredFrom (source : Source) (p : Projection) : Prop :=
  ∃ trees, source.projections = .ok trees ∧
    ∃ tree ∈ trees, ∃ g hostCount, p.DeclaredBy g hostCount tree

/-- What a tree has for a direction. -/
def ProjectionTree.along? (tree : ProjectionTree) : Direction → Option DirectionTree
  | .forward => tree.forward?
  | .backward => tree.backward?

namespace Projection.DeclaredFrom

variable {source : Source} {p : Projection} {form : ProjectionTree}

/-- The form of a source with one projection is the form of what is declared from it. -/
theorem eq_bare (hp : p.DeclaredFrom source) (hforms : source.hasForms [form]) :
    ∃ tree g hostCount, tree.bare = form ∧ p.DeclaredBy g hostCount tree := by
  obtain ⟨trees, hread, tree, htree, g, hostCount, hdeclared⟩ := hp
  have hbare := Source.bare_of_hasForms hforms hread
  obtain ⟨t, rfl, rfl⟩ := List.map_eq_singleton_iff.mp hbare
  obtain rfl := List.mem_singleton.mp htree
  exact ⟨tree, g, hostCount, rfl, hdeclared⟩

/-- Each direction has the form that the source has. -/
theorem direction? (hp : p.DeclaredFrom source) (hforms : source.hasForms [form])
    (direction : Direction) {bare : DirectionTree} (hbare : form.along? direction = some bare) :
    ∃ tree, p.direction? direction = some tree ∧ tree.bare = bare := by
  obtain ⟨tree, g, hostCount, rfl, hdeclared⟩ := hp.eq_bare hforms
  cases direction with
  | forward =>
    obtain ⟨d, hd, rfl⟩ := Option.map_eq_some_iff.mp hbare
    exact ⟨d, hdeclared.forward.trans hd, rfl⟩
  | backward =>
    obtain ⟨d, hd, rfl⟩ := Option.map_eq_some_iff.mp hbare
    exact ⟨d, hdeclared.backward.trans hd, rfl⟩

end Projection.DeclaredFrom

namespace Workspace

variable {w : Workspace} {p : Projection} {node : NodeId} {direction : Direction}
  {tree : DirectionTree} {args : List Value}

/-- The scene of a body that a call from outside runs. -/
def scene (w : Workspace) (p : Projection) (node : NodeId) (direction : Direction)
    (args : List Value) : Scene where
  metadata := w.metadata
  memo := Memo.empty.insert ⟨node, p.id, direction, args⟩ .active
  watermark := w.graph.size
  depth := 1
  direction
  hostCount := p.hostCount
  below := []

section

variable (hp : w.declarations.get? p.id = some p) (hdepth : 1 ≤ w.options.maxDepth)
  (hnode : w.graph.contains node) (htree : p.direction? direction = some tree)
include hp hdepth hnode htree

/-- **A call runs the body in its scene**, with levels enough for the body. -/
theorem tryProject_eq_body : ∃ levels, tree.body.height ≤ levels ∧
    w.tryProject node ⟨p.id, direction⟩ args =
      w.leaving ((Evaluation.leave ⟨node, p.id, direction, args⟩
        ((evaluator levels).block tree.body)).result w.setting
        ((w.scene p node direction args).run w.graph node
          [Evaluation.bindings tree.params args])) := by
  -- one level is for the application, and what is below is enough for the body
  have hlevels : w.setting.levels =
      w.declarations.height + w.setting.reserve 1 + 1 := w.setting.reserve_of_lt hdepth
  have hheight : tree.body.height ≤ w.declarations.height + w.setting.reserve 1 :=
    Nat.le_add_right_of_le (Declarations.height_body_le (List.mem_of_getElem? hp) htree)
  have hstart : (Run.start w.graph w.metadata none).depth < w.setting.options.maxDepth := hdepth
  let call : ProjectionCall := .tryProject ⟨node, ⟨p.id, direction⟩, args⟩
  have hending : call.ending w = _ := (call.ending_eq w).trans (call.result_projectWith w hp hnode)
  rw [hlevels] at hending
  refine ⟨_, hheight, (tryProject_eq w call.request).trans (congrArg w.leaving ?_)⟩
  exact hending.trans (Evaluation.result_apply_new htree (Memo.find?_empty _) hstart)

variable {form : Block} (hform : tree.body.bare = form)
include hform

/-- **A call comes to what the body does.** -/
theorem tryProject_of_proceeds {h : Graph} {updated : NodeId} {frames : List Frame}
    (hbody : form.Proceeds w.setting
      ((w.scene p node direction args).run w.graph node [Evaluation.bindings tree.params args])
      ((w.scene p node direction args).run h updated frames)) :
    w.tryProject node ⟨p.id, direction⟩ args = (.ok updated, { w with graph := h }) := by
  obtain ⟨levels, hlevels, hcall⟩ := tryProject_eq_body hp hdepth hnode htree
  rw [hcall, Evaluation.result_leave (hbody tree.body hform levels hlevels) rfl]
  rfl

/-- **A call fails as the body does.** -/
theorem tryProject_of_fails {cause : Cause}
    (hbody : form.Fails w.setting
      ((w.scene p node direction args).run w.graph node [Evaluation.bindings tree.params args])
      cause) :
    ∃ span, (w.tryProject node ⟨p.id, direction⟩ args).1 = .error ⟨cause, span⟩ := by
  obtain ⟨levels, hlevels, hcall⟩ := tryProject_eq_body hp hdepth hnode htree
  obtain ⟨span, failed, hfails⟩ := hbody tree.body hform levels hlevels
  -- the activation of the body is there to be closed
  obtain ⟨a, hstack, -⟩ := Evaluation.left_of_block hfails
  rw [hcall, Evaluation.result_leave_error hfails hstack]
  exact ⟨span, rfl⟩

end

/-- The properties of a model are properties, under their own names. -/
theorem Reachable.properties (hw : w.Reachable Event.Regular) {name : Option String}
    {t : NameTable} (hmodel : w.graph.shape node = .model name t) :
    ∀ e ∈ t.entries, ∃ type optional, w.graph.shape e.2 = .modelProperty e.1 type optional := by
  intro e he
  have horderly := hw.tidy.members node .properties t (by rw [hmodel]; rfl) (by decide)
  have hkind : (w.graph.shape e.2).kind = .modelProperty := horderly.kind e he
  have hname := horderly.name e he
  cases hshape : w.graph.shape e.2 <;> rw [hshape] at hkind hname <;> cases hkind
  cases hname
  exact ⟨_, _, rfl⟩

/-- **A call that loops over the properties of a model** makes of each what its fate has, if every
round takes it one property further. -/
theorem tryProject_forProperties (hp : w.declarations.get? p.id = some p)
    (hdepth : 1 ≤ w.options.maxDepth) (htree : p.direction? direction = some tree)
    {param : String} {body : Block} (hform : tree.body.bare = Form.forProperties param body)
    {name : Option String} {t : NameTable} (hmodel : w.graph.shape node = .model name t)
    (hproperties : ∀ e ∈ t.entries, ∃ type optional,
      w.graph.shape e.2 = .modelProperty e.1 type optional)
    (hself : (Evaluation.bindings tree.params args).lookup "self" = none) {fate : Fate}
    (hround : ∀ done e rest g self, t.entries = done ++ e :: rest →
      fate.Underway w.graph name done (e :: rest) g self →
        ∃ h updated, fate.Underway w.graph name (done ++ [e]) rest h updated ∧
          body.Proceeds w.setting ((w.scene p node direction args).run g self
              ([(param, .type e.2)] :: [] :: [Evaluation.bindings tree.params args]))
            ((w.scene p node direction args).run h updated
              ([(param, .type e.2)] :: [] :: [Evaluation.bindings tree.params args]))) :
    ∃ h updated t',
      w.tryProject node ⟨p.id, direction⟩ args = (.ok updated, { w with graph := h }) ∧
      w.graph ≤ h ∧ h.shape updated = .model name t' ∧
      fate.Fulfilled w.graph h t.entries t'.entries := by
  obtain ⟨h, updated, t', hle, hupdated, hfulfilled, hbody⟩ :=
    Fate.proceeds_forProperties hself hmodel hproperties hround
  exact ⟨h, updated, t', tryProject_of_proceeds hp hdepth (Graph.contains_of_model hmodel) htree
    hform hbody, hle, hupdated, hfulfilled⟩

/-! ### Declaring -/

theorem graph_withProjections (w : Workspace) (ps : List Projection) :
    (w.withProjections ps).graph = w.graph := rfl

theorem metadata_withProjections (w : Workspace) (ps : List Projection) :
    (w.withProjections ps).metadata = w.metadata := rfl

theorem hosts_withProjections (w : Workspace) (ps : List Projection) :
    (w.withProjections ps).hosts = w.hosts := rfl

theorem options_withProjections (w : Workspace) (ps : List Projection) :
    (w.withProjections ps).options = w.options := rfl

theorem declarations_importModule (w : Workspace) (m : Host.Module) :
    (w.importModule m).declarations = w.declarations := rfl

theorem importModule_withProjections (w : Workspace) (ps : List Projection) (m : Host.Module) :
    (w.withProjections ps).importModule m = (w.importModule m).withProjections ps := rfl

/-- The last projection is found by its id. -/
theorem get?_withProjections {id : ProjectionId}
    (hid : id = ⟨w.declarations.projections.length⟩) :
    (w.withProjections [p]).declarations.get? id = some p := by
  rw [hid]
  exact List.getElem?_concat_length

/-- **Declaring a source with one projection**, whose selector stands for something. -/
theorem declare_of_hasForms {file text : String} {form : ProjectionTree}
    (hsize : Source.ofText file text = .ok ⟨file, text⟩)
    (hforms : Source.hasForms ⟨file, text⟩ [form])
    (htarget : (Declarations.target? w.graph form.selector.text).isSome) :
    ∃ p, (w.declare file text).2 = w.withProjections [p] ∧ p.DeclaredFrom ⟨file, text⟩ ∧
      p.id = ⟨w.declarations.projections.length⟩ ∧ p.hostCount = w.hosts.length := by
  have hdeclares := declares_declareSource w ⟨file, text⟩
  rw [declare, hsize]
  dsimp only
  generalize w.declareSource ⟨file, text⟩ = outcome at hdeclares ⊢
  obtain ⟨result, after⟩ := outcome
  cases hdeclares with
  | all hread hps hids =>
    have hbare := Source.bare_of_hasForms hforms hread
    obtain ⟨tree, rfl, -⟩ := List.map_eq_singleton_iff.mp hbare
    cases hps with
    | cons hp hrest =>
      cases hrest
      exact ⟨_, rfl, ⟨_, hread, tree, List.mem_cons_self, _, _, hp⟩, (List.cons.inj hids).1,
        hp.hostCount⟩
  | unread hfails =>
    rw [Source.hasForms, hfails] at hforms
    cases hforms
  | @unknown front back tree ps hread hnone hps hids =>
    have hbare := Source.bare_of_hasForms hforms hread
    cases front with
    | nil =>
      -- the only tree would have to be the unknown one
      have hform : tree.bare = form := (List.cons.inj hbare).1
      have hknown : (Declarations.target? w.graph tree.selector.text).isSome := by
        rw [← hform] at htarget
        exact htarget
      rw [hnone] at hknown
      cases hknown
    | cons first front => simp at hbare

end Workspace

end SchemaProjection
