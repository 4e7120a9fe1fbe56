import SchemaProjection.Proofs.Workspace.Versioned

/-!
# The view of a version

The projection of `versioningText` makes of a model the view that a version has of it. It goes
through the properties and asks the module `versioning` about each: one that is not there yet, or
not any more, is deleted, one that had another name then gets it back, and the others are projected
in turn.

`Workspace.views_of_version` says what comes out, for any properties with any records: exactly the
properties that are there in the version, in their order, under the names that they have in it. The
old names may not get into the way of each other or of the present names (`Views.Unambiguous`), and
the projection has to be declared after the module was imported. It does not see modules that are
imported later, and then fails on every model that has properties (`Workspace.tryProject_early`).
-/

namespace SchemaProjection

open Host.Versioning

/-! ### Records in a version -/

namespace Host.Versioning.Record

variable (r : Record) (version : Double)

/-- Whether a node was added after a version. -/
def isAddedLater : Bool := (r.added.ieeeCompare? version).any Ordering.isGT

/-- Whether a node was removed by a version. -/
def isRemoved : Bool := (r.removed.ieeeCompare? version).any Ordering.isLE

/-- Whether a node was renamed after a version. -/
def isRenamed : Bool := (r.renamed.ieeeCompare? version).any Ordering.isGT

/-- Whether a node is there in a version. -/
def isPresent : Bool := !r.isAddedLater version && !r.isRemoved version

/-- The name of a node in a version, given its name now. -/
def nameIn (name : String) : String := if r.isRenamed version then r.oldName else name

/-! These are the answers of the module, compared with the version. -/

theorem compare_added : CompareOp.gt.result? (.number r.added) (.number version) =
    some (r.isAddedLater version) := rfl

theorem compare_removed : CompareOp.le.result? (.number r.removed) (.number version) =
    some (r.isRemoved version) := rfl

theorem compare_renamed : CompareOp.gt.result? (.number r.renamed) (.number version) =
    some (r.isRenamed version) := rfl

end Host.Versioning.Record

/-! ### The projection -/

namespace Form

/-- A question about the property of the round. -/
def ask (function : String) : Expr := call (name function) [name "p"]

/-- One statement or another, as an answer compares with the version. -/
def choose (op : CompareOp) (function : String) (body otherwise : Stmt) : Stmt :=
  cond (compare op (ask function) (name "version")) (block [body]) (some (block [otherwise]))

/-- What is done to the property of the round. -/
def toVersionRound : Stmt :=
  choose .gt "getAddedOn" (onItem "deleteProperty" "p" []) <|
  choose .le "getRemovedOn" (onItem "deleteProperty" "p" []) <|
  choose .gt "getRenamedFromVersion"
    (onItem "renameProperty" "p" [ask "getRenamedFromOldName"]) <|
  onItem "projectProperty" "p" [name "toVersion", name "version"]

def toVersion : ProjectionTree :=
  ⟨default, word "model", word "toVersion",
    some ⟨default, [word "version"], forProperties "p" (block [toVersionRound])⟩, none⟩

end Form

def versioningText : String := String.join
  ["\nprojection model#toVersion \x7b\n",
    "  to(version) \x7b\n",
    "    self.properties.forEach((p) => \x7b\n",
    "      if getAddedOn(p) > version \x7b\n",
    "        self.deleteProperty(p.name);\n",
    "      \x7d else if getRemovedOn(p) <= version \x7b\n",
    "        self.deleteProperty(p.name);\n",
    "      \x7d else if getRenamedFromVersion(p) > version \x7b\n",
    "        self.renameProperty(p.name, getRenamedFromOldName(p));\n",
    "      \x7d else \x7b\n",
    "        self.projectProperty(p.name, toVersion, version);\n",
    "      \x7d;\n",
    "    \x7d);\n",
    "  \x7d\n",
    "\x7d\n"]

def versioningSource : Source := ⟨"versioning.cadl", versioningText⟩

theorem hasForms_versioningSource : versioningSource.hasForms [Form.toVersion] :=
  Source.hasForms_of_lines (by decide +kernel)

/-! ### Names in a version -/

namespace Views

variable {record : NodeId → Record} {v : Double} {t : NameTable}

/-- **The old names of renamed properties** are not in the way: they differ from each other and from
the names that the properties have now. -/
structure Unambiguous (record : NodeId → Record) (v : Double) (t : NameTable) : Prop where
  distinct : ∀ e ∈ t.entries, ∀ e' ∈ t.entries, (record e.2).isRenamed v →
    (record e'.2).isRenamed v → (record e.2).oldName = (record e'.2).oldName → e = e'
  fresh : ∀ e ∈ t.entries, (record e.2).isRenamed v → (record e.2).oldName ∉ t.keys

/-- What becomes of the properties of a model in a version. -/
def fate (record : NodeId → Record) (v : Double) : Fate := fun e =>
  if (record e.2).isPresent v then some ((record e.2).nameIn v e.1) else none

theorem isSome_fate (e : String × NodeId) :
    (fate record v e).isSome = (record e.2).isPresent v := by
  rw [fate]
  cases (record e.2).isPresent v <;> rfl

theorem fate_eq_some {e : String × NodeId} {new : String} (h : fate record v e = some new) :
    (record e.2).nameIn v e.1 = new := by
  rw [fate] at h
  split at h
  · exact Option.some.inj h
  · cases h

/-- A property has an old name in a version, or its own. -/
theorem nameIn_cases (r : Record) (v : Double) (name : String) :
    (r.isRenamed v ∧ r.nameIn v name = r.oldName) ∨ r.nameIn v name = name := by
  rw [Record.nameIn]
  split
  · next h => exact .inl ⟨h, rfl⟩
  · exact .inr rfl

theorem Unambiguous.noCollision (h : Unambiguous record v t) :
    (fate record v).NoCollision t.entries where
  distinct e he e' he' new hnew hnew' := by
    have hsame := (fate_eq_some hnew).trans (fate_eq_some hnew').symm
    rcases nameIn_cases (record e.2) v e.1 with ⟨hold, heq⟩ | heq <;>
      rcases nameIn_cases (record e'.2) v e'.1 with ⟨hold', heq'⟩ | heq' <;>
      rw [heq, heq'] at hsame
    · exact h.distinct e he e' he' hold hold' hsame
    · exact absurd (hsame ▸ NameTable.mem_keys_of_mem he') (h.fresh e he hold)
    · exact absurd (hsame ▸ NameTable.mem_keys_of_mem he) (h.fresh e' he' hold')
    · exact NameTable.eq_of_mem_entries he he' hsame
  fresh e he e' he' hnew := by
    have hsame := fate_eq_some hnew
    rcases nameIn_cases (record e.2) v e.1 with ⟨hold, heq⟩ | heq <;> rw [heq] at hsame
    · exact absurd (hsame ▸ NameTable.mem_keys_of_mem he') (h.fresh e he hold)
    · exact NameTable.eq_of_mem_entries he he' hsame

/-! ### Names in a round -/

/-- **What the names of the projection stand for** in a round of its loop. -/
structure InRound (frames : List Frame) (item : NodeId) (v : Double) : Prop where
  self : frames.findSome? (·.lookup "self") = none
  item : frames.findSome? (·.lookup "p") = some (.type item)
  version : frames.findSome? (·.lookup "version") = some (.number v)
  projection : frames.findSome? (·.lookup "toVersion") = none

/-- A block does not change it. -/
theorem InRound.block {frames : List Frame} {item : NodeId} (h : InRound frames item v) :
    InRound ([] :: frames) item v := ⟨h.self, h.item, h.version, h.projection⟩

/-- The projection takes a version. -/
theorem bindings_eq {tree : DirectionTree}
    (hbare : tree.bare = ⟨default, [Form.word "version"], Form.forProperties "p"
      (Form.block [Form.toVersionRound])⟩) (v : Double) :
    Evaluation.bindings tree.params [.number v] = [("version", .number v)] := by
  obtain ⟨word, hparams, hword⟩ :=
    List.map_eq_singleton_iff.mp (congrArg DirectionTree.params hbare)
  have htext : word.text = "version" := congrArg Word.text hword
  rw [hparams, ← htext]
  rfl

end Views

namespace Workspace

variable {keys : Keys} {w : Workspace} {p : Projection} {node : NodeId} {name : Option String}
  {t : NameTable}

/-- **A model with a view in every version**, in a workspace around one instance of the module. The
projection is the only one of its name, and nothing else goes by this name. A model that was derived
from outside may have anything for members, so there its members have to be properties. -/
structure Viewable (keys : Keys) (w : Workspace) (p : Projection) (node : NodeId)
    (name : Option String) (t : NameTable) : Prop where
  distinct : keys.Distinct
  reachable : w.Reachable (Event.Versioned keys)
  hosts : w.hosts = [module keys]
  depth : 1 ≤ w.options.maxDepth
  declared : w.declarations.get? p.id = some p
  source : p.DeclaredFrom versioningSource
  only : ∀ q ∈ w.declarations.projections, q.name = "toVersion" → q = p
  unbound : w.graph.lookup? "toVersion" = none
  model : w.graph.shape node = .model name t
  orderly : w.Reachable Event.Regular ∨
    ∀ e ∈ t.entries, ∃ type optional, w.graph.shape e.2 = .modelProperty e.1 type optional
  types : ∀ e ∈ t.entries, ∀ type, (w.graph.shape e.2).type? = some type →
    w.graph.kind type ≠ .model

/-- **The view of a model in every version** is what the projection makes of it, whatever the
records of the properties, unless the old names are in the way. -/
def Views (w : Workspace) (p : Projection) (node : NodeId) (name : Option String)
    (t : NameTable) : Prop :=
  ∃ record : NodeId → Record, (∀ e ∈ t.entries, w.Recalls e.2 (record e.2)) ∧
    ∀ v, Views.Unambiguous record v t →
      ∃ view after t', w.tryProject node ⟨p.id, .forward⟩ [.number v] = (.ok view, after) ∧
        after.graph.shape view = .model name t' ∧
        List.Forall₂ (fun e e' => e'.1 = (record e.2).nameIn v e.1 ∧ ∃ type optional,
            w.graph.shape e.2 = .modelProperty e.1 type optional ∧
            after.graph.shape e'.2 = .modelProperty e'.1 type optional)
          (t.entries.filter fun e => (record e.2).isPresent v) t'.entries

/-- **A body in the scene sees** the modules and the metadata of the workspace. -/
structure Seen (w : Workspace) (scene : Scene) : Prop where
  hosts : scene.hostCount = w.hosts.length
  metadata : scene.metadata = w.metadata

namespace Viewable

variable (hv : w.Viewable keys p node name t)
include hv

theorem declaredBy : ∃ tree g hostCount, tree.bare = Form.toVersion ∧
    p.DeclaredBy g hostCount tree := hv.source.eq_bare hasForms_versioningSource

theorem name_eq : p.name = "toVersion" := by
  obtain ⟨tree, g, hostCount, hbare, hdeclared⟩ := hv.declaredBy
  exact hdeclared.name.trans (congrArg (·.name.text) hbare)

theorem target_eq : p.target = .kind .model := by
  obtain ⟨tree, g, hostCount, hbare, hdeclared⟩ := hv.declaredBy
  have hselector : tree.selector.text = "model" := congrArg (·.selector.text) hbare
  have htarget := hdeclared.target
  rw [hselector] at htarget
  exact (Option.some.inj htarget).symm

theorem isDeclared : w.setting.declarations.isDeclared "toVersion" :=
  List.any_eq_true.mpr ⟨p, List.mem_of_getElem? hv.declared, decide_eq_true hv.name_eq⟩

theorem properties : ∀ e ∈ t.entries, ∃ type optional,
    w.graph.shape e.2 = .modelProperty e.1 type optional :=
  hv.orderly.elim (fun hregular => hregular.properties hv.model) fun hproperties => hproperties

theorem contains {e : String × NodeId} (he : e ∈ t.entries) : w.graph.contains e.2 := by
  obtain ⟨type, optional, hshape⟩ := hv.properties e he
  exact Graph.contains_of_modelProperty hshape

/-- **The types of the properties are not projected**, since they are no models. -/
theorem resolve?_eq_none {g : Graph} (hle : w.graph ≤ g) {e : String × NodeId} (he : e ∈ t.entries)
    {type : NodeId} {optional : Bool} (hshape : g.shape e.2 = .modelProperty e.1 type optional) :
    w.setting.declarations.resolve? g type "toVersion" = none := by
  have hproperty : w.graph.shape e.2 = .modelProperty e.1 type optional :=
    (Graph.shape_of_le hle (hv.contains he)).symm.trans hshape
  have hkind : g.kind type ≠ .model := by
    have htype : w.graph.contains type :=
      hv.reachable.graph_closed.knows_shape e.2 type (by rw [hproperty]; exact List.mem_cons_self)
    rw [Graph.kind, Graph.shape_of_le hle htype]
    exact hv.types e he type (by rw [hproperty]; rfl)
  -- no other projection has the name, and this one is for models
  refine List.find?_eq_none.mpr fun q hq happlies => ?_
  obtain ⟨happlies, hname⟩ := Bool.and_eq_true_iff.mp happlies
  obtain rfl := hv.only q hq (of_decide_eq_true hname)
  rw [Projection.appliesTo, hv.target_eq] at happlies
  exact hkind (of_decide_eq_true happlies)

/-- Every property has a record. -/
theorem exists_shown : ∃ record : NodeId → Record, ∀ id,
    (record id).Shown keys w.graph w.metadata id :=
  ⟨_, fun id => (Host.Versioning.exists_shown
    (hv.reachable.keepsRecords hv.distinct).fits w.graph id).choose_spec⟩

/-! ### A round -/

variable {scene : Scene} (hscene : w.Seen scene) {v : Double} {g : Graph} {self : NodeId}
  {e : String × NodeId} {outer : Frame} {frames : List Frame} (hle : w.graph ≤ g)
  (he : e ∈ t.entries) (hin : Views.InRound (outer :: frames) e.2 v)
include hscene hle he hin

/-- **The module answers in the run** as it does outside, since the projection was declared after
the import. -/
theorem yields_ask {function : String} {value : Value}
    (ha : Answers keys w.graph w.metadata function e.2 value) (hvalue : value.Plain) :
    (Form.ask function).Yields w.setting (scene.run g self (outer :: frames)) (.value value)
      (scene.run g self (outer :: frames)) := by
  have hargs : Expr.YieldAll w.setting (scene.run g self (outer :: frames)) [Form.name "p"]
      ([Value.type e.2].map Operand.value) (scene.run g self (outer :: frames)) :=
    .cons (Scene.yields_bound hin.item) (.nil _)
  have hvisible : w.setting.hosts.take scene.hostCount = [module keys] := by
    rw [hscene.hosts]
    exact List.take_length.trans hv.hosts
  have hanswers : Answers keys g scene.metadata function e.2 value :=
    hscene.metadata ▸ ha.mono hv.reachable.graph_closed.ordered hle (hv.contains he)
  exact hargs.function fun word hword =>
    hanswers.callHost hvalue rfl hvisible (Graph.contains_of_le hle (hv.contains he)) hword

/-- **A choice by an answer** takes the branch that the comparison has it take. -/
theorem proceeds_choose {P : Graph → NodeId → Prop} {op : CompareOp} {function : String}
    {body otherwise : Stmt} {x : Double} {holds : Bool}
    (ha : Answers keys w.graph w.metadata function e.2 (.number x))
    (hop : op.result? (.number x) (.number v) = some holds)
    (hbody : holds = true → ∃ h updated, P h updated ∧
      body.Proceeds w.setting (scene.run g self ([] :: outer :: frames))
        (scene.run h updated ([] :: outer :: frames)))
    (hotherwise : holds = false → ∃ h updated, P h updated ∧
      otherwise.Proceeds w.setting (scene.run g self ([] :: outer :: frames))
        (scene.run h updated ([] :: outer :: frames))) :
    ∃ h updated, P h updated ∧ (Form.choose op function body otherwise).Proceeds w.setting
      (scene.run g self (outer :: frames)) (scene.run h updated (outer :: frames)) :=
  Scene.proceeds_choice
    ((hv.yields_ask hscene hle he hin ha trivial).compare (Scene.yields_bound hin.version) hop)
    hbody hotherwise

omit hscene in
/-- The property of the round is projected in vain. -/
theorem proceeds_project {fate : Fate} {done rest : List (String × NodeId)}
    (hu : fate.Underway w.graph name done (e :: rest) g self) (hname : fate e = some e.1) :
    ∃ h updated, fate.Underway w.graph name (done ++ [e]) rest h updated ∧
      (Form.onItem "projectProperty" "p" [Form.name "toVersion", Form.name "version"]).Proceeds
        w.setting (scene.run g self (outer :: frames)) (scene.run h updated (outer :: frames)) := by
  have hunbound : g.lookup? "toVersion" = none := by
    rw [Graph.lookup?, hle.globals]
    exact hv.unbound
  have hforms : Expr.YieldAll w.setting (scene.run g self (outer :: frames))
      [Form.name "toVersion", Form.name "version"]
      (.projection "toVersion" :: [Value.number v].map Operand.value)
      (scene.run g self (outer :: frames)) :=
    .cons (Scene.yields_projection hin.projection (by decide) (by decide) hunbound hv.isDeclared)
      (.cons (Scene.yields_bound hin.version) (.nil _))
  exact ⟨g, self, hu.proceeds_project hin.self hin.item hname hforms hv.isDeclared
    fun type optional hshape => hv.resolve?_eq_none hle he hshape⟩

/-- **A round makes of its property** what becomes of it in the version. -/
theorem proceeds_round {record : NodeId → Record}
    (hrecord : (record e.2).Shown keys w.graph w.metadata e.2)
    {done rest : List (String × NodeId)} (hentries : t.entries = done ++ e :: rest)
    (hfate : (Views.fate record v).NoCollision t.entries)
    (hu : (Views.fate record v).Underway w.graph name done (e :: rest) g self) :
    ∃ h updated, (Views.fate record v).Underway w.graph name (done ++ [e]) rest h updated ∧
      Form.toVersionRound.Proceeds w.setting (scene.run g self (outer :: frames))
        (scene.run h updated (outer :: frames)) := by
  have hnodup : (done ++ e :: rest).Nodup := hentries ▸ t.nodup_keys.of_map
  refine hv.proceeds_choose hscene hle he hin hrecord.added ((record e.2).compare_added v)
    (fun hadded => ?_) fun hadded => ?_
  · -- not there yet
    have hgone : Views.fate record v e = none := by
      simp [Views.fate, Record.isPresent, hadded]
    exact hu.proceeds_delete hin.block.self hin.block.item hgone
  refine hv.proceeds_choose hscene hle he hin.block hrecord.removed
    ((record e.2).compare_removed v) (fun hremoved => ?_) fun hremoved => ?_
  · -- not there any more
    have hgone : Views.fate record v e = none := by
      simp [Views.fate, Record.isPresent, hremoved]
    exact hu.proceeds_delete hin.block.block.self hin.block.block.item hgone
  have hstays : Views.fate record v e = some ((record e.2).nameIn v e.1) := by
    simp [Views.fate, Record.isPresent, hadded, hremoved]
  refine hv.proceeds_choose hscene hle he hin.block.block hrecord.renamed
    ((record e.2).compare_renamed v) (fun hrenamed => ?_) fun hrenamed => ?_
  · -- under another name
    rw [Record.nameIn, if_pos hrenamed] at hstays
    exact hu.proceeds_rename hin.block.block.block.self hin.block.block.block.item
      (hentries ▸ hfate) hnodup hstays
      (hv.yields_ask hscene hle he hin.block.block.block hrecord.oldName trivial)
  · -- as it is
    rw [Record.nameIn, hrenamed, if_neg Bool.false_ne_true] at hstays
    exact hv.proceeds_project hle he hin.block.block.block hu hstays

end Viewable

/-- **The view of a version.** In every workspace around one instance of the module, the projection
makes of a model whose properties have no models for types what the version has of it, if it was
declared after the import: the properties that are there, in their order and under their names, with
their types and their optionality. -/
theorem views_of_version (hv : w.Viewable keys p node name t)
    (hlate : p.hostCount = w.hosts.length) : w.Views p node name t := by
  obtain ⟨record, hrecord⟩ := hv.exists_shown
  refine ⟨record, fun e he => recalls_of_shown hv.hosts (hv.contains he) (hrecord e.2),
    fun v hunambiguous => ?_⟩
  obtain ⟨tree, htree, hbare⟩ := hv.source.direction? hasForms_versioningSource .forward rfl
  have hbindings := Views.bindings_eq hbare v
  -- the modules in sight of the body are those of the workspace, and nothing is written meanwhile
  have hscene : w.Seen (w.scene p node .forward [.number v]) := ⟨hlate, rfl⟩
  obtain ⟨h, view, t', hrun, -, hview, hkept⟩ := tryProject_forProperties hv.declared hv.depth
    htree (congrArg DirectionTree.body hbare) hv.model hv.properties (by rw [hbindings]; rfl)
    fun done e rest g self hentries hu => by
      have he : e ∈ t.entries := hentries ▸ List.mem_append_right _ List.mem_cons_self
      have hin : Views.InRound [[], [("p", .type e.2)], [], [("version", .number v)]] e.2 v :=
        ⟨rfl, rfl, rfl, rfl⟩
      obtain ⟨h, updated, hnext, hbody⟩ := hv.proceeds_round hscene hu.grown he hin (hrecord e.2)
        hentries hunambiguous.noCollision hu
      rw [hbindings]
      exact ⟨h, updated, hnext, Stmt.ProceedAll.block (.cons hbody (.nil _))⟩
  refine ⟨view, _, t', hrun, hview, ?_⟩
  have hfilter : (t.entries.filter fun e => (record e.2).isPresent v) =
      t.entries.filter fun e => (Views.fate record v e).isSome :=
    List.filter_congr fun e _ => (Views.isSome_fate e).symm
  rw [hfilter]
  exact hkept.imp fun e e' hkeeps => ⟨(Views.fate_eq_some hkeeps.1).symm, hkeeps.2⟩

/-! ### Before and after the import -/

/-- Where no module is in sight, no question is answered. -/
theorem fails_ask {setting : Setting} {scene : Scene} (hscene : scene.hostCount = 0) {g : Graph}
    {self item : NodeId} {frames : List Frame}
    (hitem : frames.findSome? (·.lookup "p") = some (.type item)) (function : String) :
    (Form.ask function).Fails setting (scene.run g self frames)
      (.undeclaredIdentifier (.hostExport .function function)) := by
  have hargs : Expr.YieldAll setting (scene.run g self frames) [Form.name "p"]
      ([Value.type item].map Operand.value) (scene.run g self frames) :=
    .cons (Scene.yields_bound hitem) (.nil _)
  refine hargs.fails_function fun word hword => ?_
  subst hword
  have hnone : Host.find? (setting.hosts.take (scene.activation self frames).hostCount) .function
      word.text = none := by
    rw [Scene.activation, hscene]
    rfl
  exact Evaluation.fails_callHost rfl hnone _

/-- **A projection that was declared before the import** does not see the module. It fails on every
model that has properties. -/
theorem tryProject_early (hv : w.Viewable keys p node name t) (hearly : p.hostCount = 0)
    {e : String × NodeId} {rest : List (String × NodeId)} (hentries : t.entries = e :: rest)
    (v : Double) : ∃ span, (w.tryProject node ⟨p.id, .forward⟩ [.number v]).1 =
      .error ⟨.undeclaredIdentifier (.hostExport .function "getAddedOn"), span⟩ := by
  obtain ⟨tree, htree, hbare⟩ := hv.source.direction? hasForms_versioningSource .forward rfl
  refine tryProject_of_fails hv.declared hv.depth (Graph.contains_of_model hv.model) htree
    (congrArg DirectionTree.body hbare) ?_
  rw [Views.bindings_eq hbare]
  refine Scene.fails_forProperties rfl hv.model hentries (Stmt.Fails.block ?_ [])
  -- the first question of the first round fails
  exact ((fails_ask hearly rfl "getAddedOn").compare _).cond _ _

/-! ### Workspaces with a projection -/

/-- **The first projection that is declared** is the only one, so a model whose properties have no
models for types is viewable. -/
theorem viewable_of_first {base : Workspace} (hkeys : keys.Distinct)
    (hreachable : (base.withProjections [p]).Reachable fun e => e.Versioned keys ∧ e.Regular)
    (hhosts : base.hosts.length = 1) (hnone : base.declarations.projections.length = 0)
    (hid : p.id = ⟨base.declarations.projections.length⟩)
    (hsource : p.DeclaredFrom versioningSource) (hdepth : 1 ≤ base.options.maxDepth)
    (hunbound : base.graph.lookup? "toVersion" = none)
    (hmodel : base.graph.shape node = .model name t)
    (htypes : ∀ e ∈ t.entries,
      (base.graph.shape e.2).type?.all fun type => base.graph.kind type ≠ .model) :
    (base.withProjections [p]).Viewable keys p node name t where
  distinct := hkeys
  reachable := hreachable.mono fun _ h => h.1
  hosts := (hreachable.mono fun _ h => h.1).hosts_eq hkeys hhosts
  depth := hdepth
  declared := get?_withProjections hid
  source := hsource
  only := by
    intro q hq _
    rcases List.mem_append.mp hq with hold | hnew
    · rw [List.eq_nil_of_length_eq_zero hnone] at hold
      cases hold
    · exact List.mem_singleton.mp hnew
  unbound := hunbound
  model := hmodel
  orderly := .inl (hreachable.mono fun _ h => h.2)
  types := by
    intro e he type htype
    have hall := htypes e he
    rw [graph_withProjections] at htype ⊢
    rw [htype] at hall
    exact of_decide_eq_true hall

/-- The keys of the first instance of the module. -/
def versioningKeys : Keys := ⟨⟨0⟩, ⟨1⟩, ⟨2⟩, ⟨3⟩⟩

/-- A model with a property that was added later and one that was renamed. -/
def recordedSteps : List Event :=
  [.importModule (module versioningKeys), .construct (.model "Foo"),
    .construct (.property ⟨25⟩ "b" ⟨4⟩ false), .construct (.property ⟨25⟩ "newName" ⟨4⟩ true),
    .callDecorator "added" ⟨26⟩ [.number (.ofNat 2)],
    .callDecorator "renamedFrom" ⟨27⟩ [.number (.ofNat 2), .string "oldName"]]

def recordedWorkspace : Workspace := recordedSteps.foldl after (ofGraph .initial)

theorem views_of_version_recorded : ∃ (p : Projection) (t : NameTable),
    ((recordedWorkspace.declare "versioning.cadl" versioningText).2.Viewable versioningKeys p ⟨25⟩
        (some "Foo") t ∧
      p.hostCount = (recordedWorkspace.declare "versioning.cadl" versioningText).2.hosts.length ∧
      t.entries = [("b", ⟨26⟩), ("newName", ⟨27⟩)]) ∧
    (recordedWorkspace.declare "versioning.cadl" versioningText).2.Views p ⟨25⟩ (some "Foo") t := by
  have hsteps : recordedWorkspace.Reachable fun e => e.Versioned versioningKeys ∧ e.Regular := by
    refine Reachable.start.steps (fun e he => ?_) (by decide +kernel)
    simp only [recordedSteps, List.mem_cons, List.not_mem_nil, or_false] at he
    rcases he with rfl | rfl | rfl | rfl | rfl | rfl <;> refine ⟨?_, trivial⟩ <;>
      first | rfl | trivial
  have hreachable := hsteps.step (.declare "versioning.cadl" versioningText) ⟨trivial, trivial⟩
    fun _ h => nomatch h
  rw [after] at hreachable
  obtain ⟨p, hdeclare, hsource, hid, hlate⟩ := recordedWorkspace.declare_of_hasForms
    (by decide +kernel) hasForms_versioningSource (by decide +kernel)
  have hmodel : recordedWorkspace.graph.shape ⟨25⟩ =
      .model (some "Foo") ⟨[("b", ⟨26⟩), ("newName", ⟨27⟩)], by decide⟩ := by decide +kernel
  rw [hdeclare] at hreachable ⊢
  have hview := viewable_of_first (by decide) hreachable (by decide +kernel) (by decide +kernel) hid
    hsource (by decide +kernel) (by decide +kernel) hmodel (by decide +kernel)
  rw [← hosts_withProjections recordedWorkspace [p]] at hlate
  exact ⟨p, _, ⟨hview, hlate, rfl⟩, views_of_version hview hlate⟩

/-- A model with a property, in a workspace without modules. -/
def plainSteps : List Event :=
  [.construct (.model "Foo"), .construct (.property ⟨25⟩ "a" ⟨4⟩ false)]

def plainWorkspace : Workspace := plainSteps.foldl after (ofGraph .initial)

/-- **The import may not come last**: in a workspace where the projection was declared before, the
model has no views. -/
theorem views_early : ∃ (p : Projection) (t : NameTable),
    ((plainWorkspace.declare "versioning.cadl" versioningText).2.importModule
        (module versioningKeys)).Viewable versioningKeys p ⟨25⟩ (some "Foo") t ∧
    ¬ ((plainWorkspace.declare "versioning.cadl" versioningText).2.importModule
        (module versioningKeys)).Views p ⟨25⟩ (some "Foo") t := by
  have hsteps : plainWorkspace.Reachable fun e => e.Versioned versioningKeys ∧ e.Regular := by
    refine Reachable.start.steps (fun e he => ?_) (by decide +kernel)
    simp only [plainSteps, List.mem_cons, List.not_mem_nil, or_false] at he
    rcases he with rfl | rfl <;> exact ⟨trivial, trivial⟩
  have hdeclared := hsteps.step (.declare "versioning.cadl" versioningText) ⟨trivial, trivial⟩
    fun _ h => nomatch h
  have hreachable := hdeclared.step (.importModule (module versioningKeys)) ⟨rfl, trivial⟩
    fun _ h => nomatch h
  rw [after, after] at hreachable
  obtain ⟨p, hdeclare, hsource, hid, hearly⟩ := plainWorkspace.declare_of_hasForms
    (by decide +kernel) hasForms_versioningSource (by decide +kernel)
  rw [hdeclare, importModule_withProjections] at hreachable ⊢
  rw [← declarations_importModule plainWorkspace (module versioningKeys)] at hid
  have hmodel : (plainWorkspace.importModule (module versioningKeys)).graph.shape ⟨25⟩ =
      .model (some "Foo") ⟨[("a", ⟨26⟩)], by decide⟩ := by decide +kernel
  have hview := viewable_of_first (by decide) hreachable (by decide +kernel) (by decide +kernel) hid
    hsource (by decide +kernel) (by decide +kernel) hmodel (by decide +kernel)
  refine ⟨p, _, hview, ?_⟩
  rintro ⟨record, hrecalls, hviews⟩
  have hmem : ("a", (⟨26⟩ : NodeId)) ∈ [("a", (⟨26⟩ : NodeId))] := List.mem_cons_self
  -- the property was never renamed, so no old name is in the way
  have hunambiguous : Views.Unambiguous record (.ofNat 1) ⟨[("a", ⟨26⟩)], by decide⟩ := by
    have hanswer : Answers versioningKeys
        (plainWorkspace.importModule (module versioningKeys)).graph
        (plainWorkspace.importModule (module versioningKeys)).metadata "getRenamedFromVersion"
        ⟨26⟩ (.number (-Double.ofNat 1)) := ⟨_, _, rfl, by decide +kernel⟩
    rw [← graph_withProjections _ [p], ← metadata_withProjections _ [p]] at hanswer
    have hcall := callFunction_of_answers hview.hosts (hview.contains hmem) hanswer
    have hrecord : (record ⟨26⟩).renamed = -Double.ofNat 1 :=
      Value.number.inj (Except.ok.inj ((hrecalls _ hmem).renamed.symm.trans hcall))
    have hnever : (record ⟨26⟩).isRenamed (.ofNat 1) = false := by
      rw [Record.isRenamed, hrecord]
      decide +kernel
    refine ⟨?_, ?_⟩
    · rintro e he e' he' -
      rw [List.mem_singleton.mp he, List.mem_singleton.mp he']
      exact fun _ _ => rfl
    · intro e he hold
      rw [List.mem_singleton.mp he, hnever] at hold
      cases hold
  obtain ⟨view, after, t', hrun, -⟩ := hviews _ hunambiguous
  obtain ⟨span, hfails⟩ :=
    tryProject_early hview (hearly.trans (by decide +kernel)) rfl (.ofNat 1)
  rw [hrun] at hfails
  cases hfails

end Workspace

end SchemaProjection
