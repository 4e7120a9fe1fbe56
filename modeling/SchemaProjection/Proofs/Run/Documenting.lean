import SchemaProjection.Proofs.Reading
import SchemaProjection.Proofs.Run.LiveMembers
import SchemaProjection.Run.Evaluation
import SchemaProjection.Proofs.Run.Records

/-!
# Where documentation lands

`@doc(e, t)` prepares the node that `e` denotes and attaches the text to what it gets. What a body
sees of it is what `getDoc` returns afterwards (`Evaluation.documentation?`).
`Evaluation.doc_lands` says when that is the text, for the node of the activation and for its live
members:

* the node of the activation, or the copy that replaces it, shows the text;
* a node from before the run stands for its live member, and this, or the copy that replaces it,
  shows the text, whichever version of the member was given;
* a node of the run is decorated as it is. If it is an older version of a live member, the text
  shows there only as long as no version in between has documentation of its own.
-/

namespace SchemaProjection

/-! ### The modules that export `@doc` -/

namespace Host

variable {m : Module} {f : Function} {modules : List Module}

private theorem Module.Standard.doc (hm : m.Standard) :
    (∃ key, m.export? .decorator "doc" = some (Doc.attach key) ∧
        m.export? .function "getDoc" = some (Doc.getDoc key)) ∨
      (m.export? .decorator "doc" = none ∧ m.export? .function "getDoc" = none) := by
  rcases hm with ⟨key, rfl⟩ | ⟨keys, rfl⟩
  · exact .inl ⟨key, rfl, rfl⟩
  · exact .inr ⟨rfl, rfl⟩

/-- **`@doc` and `getDoc` come from one module.** -/
theorem find?_getDoc (hstandard : ∀ m ∈ modules, m.Standard)
    (h : find? modules .decorator "doc" = some f) :
    ∃ key, f = Doc.attach key ∧ find? modules .function "getDoc" = some (Doc.getDoc key) := by
  have hlast : ∀ m ∈ modules.reverse, m.Standard := fun m hm => hstandard m (List.mem_reverse.mp hm)
  unfold find? at h ⊢
  generalize modules.reverse = latest at h hlast
  -- on the modules, the one imported last first
  induction latest with
  | nil => cases h
  | cons m rest ih =>
    obtain ⟨hm, hrest⟩ := List.forall_mem_cons.mp hlast
    rw [List.findSome?_cons] at h ⊢
    rcases hm.doc with ⟨key, hdecorator, hfunction⟩ | ⟨hdecorator, hfunction⟩
    · rw [hdecorator] at h
      rw [hfunction]
      exact ⟨key, (Option.some.inj h).symm, rfl⟩
    · rw [hdecorator] at h
      rw [hfunction]
      exact ih h hrest

/-- What attaching a text does when it succeeds. -/
theorem Doc.ok_of_attach {key : Metadata.Key} {args : List Value} {g : Graph}
    {metadata after : Metadata} {v : Value}
    (h : (attach key args).result g metadata = .ok v after) :
    ∃ id text, args[0]? = some (.type id) ∧ args[1]? = some (.string text) ∧ g.contains id ∧
      v = .absent ∧ after = metadata.set key id (.string text) := by
  unfold attach at h
  rw [Call.result_bind, Call.result_nodeAt] at h
  split at h
  · next id middle hnode =>
    split at hnode
    · next given harg =>
      split at hnode
      · next hgiven =>
        cases hnode
        dsimp only at h
        split at h
        · next text htext =>
          cases h
          exact ⟨id, text, harg, htext, hgiven, rfl, rfl⟩
        · cases h
        · cases h
      · cases hnode
    · cases hnode
    · cases hnode
  · cases h

theorem Doc.result_getDoc {key : Metadata.Key} {id : NodeId} {g : Graph} {metadata : Metadata} :
    (getDoc key [.type id]).result g metadata =
      if g.contains id then .ok ((metadata.read? g key id).getD .absent) metadata
      else .error (.expected "getDoc" (.typeAt 1) (some (.type id))) metadata := by
  unfold getDoc
  rw [Call.result_bind, Call.result_nodeAt]
  by_cases hid : g.contains id
  · simp only [List.getElem?_cons_zero, if_pos hid]
    rfl
  · simp only [List.getElem?_cons_zero, if_neg hid]

end Host

/-! ### Live members -/

namespace Graph

variable {g : Graph} {container node live : NodeId} {name : String}

/-- **The live member of a node**: the only member of a container in the lineage of the node, under
its name. -/
def LiveMember (g : Graph) (container node : NodeId) (name : String) (live : NodeId) : Prop :=
  ∃ members, (g.shape container).members? = some members ∧ members.get? name = some live ∧
    g.sameLineage live node ∧ ∀ e ∈ members.entries, g.sameLineage e.2 node → e.1 = name

theorem LiveMember.live? (h : g.LiveMember container node name live) :
    g.live? container node = some (name, live) := by
  obtain ⟨members, hmembers, hfound, hsame, honly⟩ := h
  have hentry : (name, live) ∈ members.entries := NameTable.get?_iff.mp hfound
  rw [Graph.live?, hmembers]
  dsimp only
  cases hfind : members.entries.find? fun e => g.sameLineage e.2 node with
  | none => exact absurd hsame (List.find?_eq_none.mp hfind _ hentry)
  | some e =>
    have he := List.mem_of_find?_eq_some hfind
    have heq := List.find?_some hfind
    rw [NameTable.eq_of_mem_entries he hentry (honly e he heq)]

end Graph

/-- The member under a name in a container that got another one there. -/
theorem Graph.member?_of_replace {g : Graph} {node : NodeId} {name : String}
    {members : NameTable} {shape changed : Shape} {origin : Option NodeId}
    (hname : members.contains name)
    (hchanged : shape.withMembers? (members.replace name node) = some changed) :
    (g.push ⟨origin, changed⟩).member? g.nextId name = some node := by
  rw [member?, shape_of_node? (g.node?_push_nextId _), Shape.members?_of_withMembers? hchanged]
  exact NameTable.get?_replace hname

/-- **What is prepared.** A node of the run is prepared as it is. Otherwise the node of the
activation then is what was prepared for it, and what was prepared for an older version of a member
is under its name there. -/
theorem Edits.Materializes.prepared {node id : NodeId} {run after : Run} {b : Activation}
    {rest : List Activation} (h : Materializes node run id after)
    (hstack : after.activations = b :: rest) :
    after.metadata = run.metadata ∧ ∃ a, run.activations = a :: rest ∧
      b = { a with self := b.self } ∧
      (run.watermark ≤ node.index → id = node ∧ after = run) ∧
      (node = a.self → id = b.self) ∧
      ∀ name live, node ≠ a.self → run.graph.live? a.self node = some (name, live) →
        node.index < run.watermark → after.graph.member? b.self name = some id := by
  have hadopted : ∀ {a rest'} (_ : run.activations = a :: rest') (g : Graph) (id : NodeId),
      (Run.adopt id { run with graph := g }).activations = { a with self := id } :: rest' :=
    fun stack _ id => Run.activations_adopt stack id
  cases h with
  | own owned =>
    exact ⟨rfl, b, hstack, rfl, fun _ => ⟨rfl, rfl⟩, fun h => h,
      fun _ _ _ _ hold => absurd owned (Nat.not_le.mpr hold)⟩
  | @self a rest' stack old is_self =>
    rw [hadopted stack] at hstack
    cases hstack
    exact ⟨rfl, a, stack, rfl, fun howned => absurd howned (Nat.not_le.mpr old), fun _ => rfl,
      fun _ _ hne _ _ => absurd is_self hne⟩
  | @liveOwn a rest' name live stack old not_self found owned =>
    cases stack.symm.trans hstack
    refine ⟨rfl, b, stack, rfl, fun howned => absurd howned (Nat.not_le.mpr old),
      fun hself => absurd hself not_self, fun name' live' _ found' _ => ?_⟩
    cases found.symm.trans found'
    obtain ⟨members, hmembers, hlive, -⟩ := Graph.of_live? found
    rw [Graph.member?, hmembers]
    exact hlive
  | @live a rest' name live members shape g stack old not_self found live_old has_members copied
      changed =>
    rw [hadopted stack] at hstack
    cases hstack
    refine ⟨rfl, a, stack, rfl, fun howned => absurd howned (Nat.not_le.mpr old),
      fun hself => absurd hself not_self, fun name' live' _ found' _ => ?_⟩
    cases found.symm.trans found'
    obtain ⟨members', hmembers', hlive, -⟩ := Graph.of_live? found
    cases has_members.symm.trans hmembers'
    exact Graph.member?_of_replace (NameTable.contains_of_get? hlive) changed
  | @detached a rest' stack old not_self not_found =>
    cases stack.symm.trans hstack
    refine ⟨rfl, b, stack, rfl, fun howned => absurd howned (Nat.not_le.mpr old),
      fun hself => absurd hself not_self, fun name live _ found _ => ?_⟩
    cases not_found.symm.trans found

namespace Evaluation

open Eval

variable {setting : Setting} {run after : Run} {a : Activation} {rest : List Activation}

/-! ### Calls of exports -/

/-- What calling an export comes to: what the function does, and the check of what it returns. -/
theorem result_callHost {sort : Host.ExportSort} {word : Word} {f : Host.Function}
    (hstack : run.activations = a :: rest)
    (hfound : Host.find? (setting.hosts.take a.hostCount) sort word.text = some f)
    (args : List Value) :
    (callHost sort word args).result setting run =
      match (f args).result run.graph run.metadata with
      | .error fault metadata =>
        .error ⟨.host word.text (.failed fault), some word.span⟩ { run with metadata }
      | .ok (.type id) metadata =>
        if run.graph.contains id then .ok (.type id) { run with metadata }
        else .error ⟨.host word.text (.foreignNode id), some word.span⟩ { run with metadata }
      | .ok v metadata => .ok v { run with metadata } := by
  have hactivation : activation.result setting run = .ok a run := by
    rw [result_activation, hstack]
  have hread : (read : Eval Setting).result setting run = .ok setting run := rfl
  have hget : (get : Eval Run).result setting run = .ok run run := rfl
  unfold callHost
  dsimp only
  rw [result_bind_of_ok hread, result_bind_of_ok hactivation, hfound]
  dsimp only
  rw [result_bind_of_ok hget]
  split
  · next fault metadata hfailed =>
    have hfailed : (f args).result run.graph run.metadata = .error fault metadata := hfailed
    rw [hfailed]
    rfl
  · next v metadata hreturned =>
    have hreturned : (f args).result run.graph run.metadata = .ok v metadata := hreturned
    have hset : (set { run with metadata } : Eval PUnit).result setting run =
      .ok ⟨⟩ { run with metadata } := rfl
    rw [hreturned, result_bind_of_ok hset]
    cases v with
    | type id =>
      dsimp only
      split <;> rfl
    | absent | bool | number | string => rfl

theorem ok_of_callHost {sort : Host.ExportSort} {word : Word} {args : List Value} {v : Value}
    (h : (callHost sort word args).result setting run = .ok v after) :
    ∃ a rest f metadata, run.activations = a :: rest ∧
      Host.find? (setting.hosts.take a.hostCount) sort word.text = some f ∧
      (f args).result run.graph run.metadata = .ok v metadata ∧ after = { run with metadata } := by
  obtain ⟨_, _, hread, hopened⟩ := ok_of_bind h
  cases hread
  obtain ⟨a, middle, hactivation, hcall⟩ := ok_of_bind hopened
  obtain ⟨hsame, rest, hstack⟩ := ok_of_activation hactivation
  rw [hsame] at hcall
  refine ⟨a, rest, ?_⟩
  cases hfound : Host.find? (setting.hosts.take a.hostCount) sort word.text with
  | none =>
    dsimp only at hcall
    rw [hfound] at hcall
    cases hcall
  | some f =>
    rw [result_callHost hstack hfound] at h
    refine ⟨f, ?_⟩
    cases hcall : (f args).result run.graph run.metadata with
    | error fault metadata =>
      rw [hcall] at h
      cases h
    | ok value metadata =>
      rw [hcall] at h
      refine ⟨metadata, hstack, rfl, ?_⟩
      cases value with
      | type id =>
        dsimp only at h
        split at h
        · cases h
          exact ⟨rfl, rfl⟩
        · cases h
      | absent | bool | number | string =>
        cases h
        exact ⟨rfl, rfl⟩

/-- **What `getDoc` returns** for a node, called where the run has come to. -/
def documentation? (setting : Setting) (run : Run) (id : NodeId) : Option Value :=
  match (callHost .function ⟨"getDoc", default⟩ [.type id]).result setting run with
  | .ok v _ => some v
  | .error _ _ => none

/-- `getDoc` reads the documentation of a node along its lineage. It has to be a value of the
graph. -/
theorem documentation?_eq {key : Metadata.Key} {id : NodeId} (hstack : run.activations = a :: rest)
    (hfound : Host.find? (setting.hosts.take a.hostCount) .function "getDoc" =
      some (Host.Doc.getDoc key)) :
    documentation? setting run id =
      if run.graph.contains id then
        match (run.metadata.read? run.graph key id).getD .absent with
        | .type other => if run.graph.contains other then some (.type other) else none
        | v => some v
      else none := by
  unfold documentation?
  rw [result_callHost hstack hfound, Host.Doc.result_getDoc]
  by_cases hid : run.graph.contains id
  · rw [if_pos hid, if_pos hid]
    cases (run.metadata.read? run.graph key id).getD .absent with
    | type other =>
      dsimp only
      by_cases hother : run.graph.contains other
      · rw [if_pos hother, if_pos hother]
      · rw [if_neg hother, if_neg hother]
    | absent | bool | number | string => rfl
  · rw [if_neg hid, if_neg hid]

theorem documentation?_set {key : Metadata.Key} {id : NodeId} {text : String}
    (hstack : run.activations = a :: rest)
    (hfound : Host.find? (setting.hosts.take a.hostCount) .function "getDoc" =
      some (Host.Doc.getDoc key)) (hid : run.graph.contains id)
    (hread : run.metadata.read? run.graph key id = some (.string text)) :
    documentation? setting run id = some (.string text) := by
  rw [documentation?_eq hstack hfound, if_pos hid, hread]
  rfl

/-! ### The decorator -/

theorem ok_of_values_pair {ev : Evaluator} {target text : Expr} {vs : List Value}
    (h : (values ev [target, text]).result setting run = .ok vs after) :
    ∃ first second between, (value ev target).result setting run = .ok first between ∧
      (value ev text).result setting between = .ok second after ∧ vs = [first, second] := by
  rw [values, List.mapM_cons] at h
  obtain ⟨first, between, hfirst, h⟩ := ok_of_bind h
  obtain ⟨others, _, hothers, h⟩ := ok_of_bind h
  cases h
  rw [List.mapM_cons] at hothers
  obtain ⟨second, _, hsecond, hothers⟩ := ok_of_bind hothers
  cases hothers
  exact ⟨first, second, between, hfirst, hsecond, rfl⟩

/-- The steps of `@doc` with two arguments: it evaluates them, prepares the node, and attaches the
text to the node that it got. -/
private theorem ok_of_doc (hstandard : setting.Standard) {levels : Nat} {span : Span} {word : Word}
    (hword : word.text = "doc") {target text : Expr} {operand : Operand}
    (h : ((evaluator (levels + 1)).expr (.decorator span word [target, text])).result setting run =
      .ok operand after) :
    ∃ node t between middle id prepared a rest key,
      (value (evaluator levels) target).result setting run = .ok (.type node) between ∧
      (value (evaluator levels) text).result setting between = .ok (.string t) middle ∧
      (Edits.materialize node).result setting middle = .ok id prepared ∧
      prepared.activations = a :: rest ∧
      Host.find? (setting.hosts.take a.hostCount) .function "getDoc" =
        some (Host.Doc.getDoc key) ∧ prepared.graph.contains id ∧
      after = { prepared with metadata := prepared.metadata.set key id (.string t) } := by
  obtain ⟨vs, middle, hvs, h⟩ := ok_of_bind h
  obtain ⟨args, prepared, hargs, h⟩ := ok_of_bind h
  obtain ⟨v, _, hcall, h⟩ := ok_of_bind h
  cases h
  obtain ⟨a, rest, f, metadata, hstack, hfound, hattach, rfl⟩ := ok_of_callHost hcall
  have hvisible : ∀ m ∈ setting.hosts.take a.hostCount, m.Standard := fun m hm =>
    hstandard m (List.mem_of_mem_take hm)
  rw [hword] at hfound
  obtain ⟨key, rfl, hgetDoc⟩ := Host.find?_getDoc hvisible hfound
  obtain ⟨id, t, hnode, htext, hid, rfl, rfl⟩ := Host.Doc.ok_of_attach hattach
  obtain ⟨first, second, between, hfirst, hsecond, rfl⟩ := ok_of_values_pair hvs
  -- only a node is prepared, and nothing else can be documented
  cases first with
  | type node =>
    obtain ⟨made, _, hmade, hargs⟩ := ok_of_bind hargs
    cases hargs
    cases hnode
    cases htext
    exact ⟨node, t, between, middle, id, prepared, a, rest, key, hfirst, hsecond, hmade, hstack,
      hgetDoc, hid, rfl⟩
  | absent | bool | number | string =>
    cases hargs
    cases hnode

/-- **Where documentation lands.** After `@doc(e, t)` with `e` denoting a node, the text is what
`getDoc` returns for the node of the activation, if that is the node, and for the live member of the
node, if the node is from before the run or no version of the member from the given one on has
documentation. Otherwise the documentation of the live member stays what it was. -/
theorem doc_lands (setting : Setting) (hstandard : setting.Standard) (levels : Nat)
    {run after : Run} {span : Span} {word : Word} (hword : word.text = "doc") {target text : Expr}
    {operand : Operand}
    (h : ((evaluator (levels + 1)).expr (.decorator span word [target, text])).result setting run =
      .ok operand after) :
    ∃ node t between middle a rest updated key,
      (value (evaluator levels) target).result setting run = .ok (.type node) between ∧
      (value (evaluator levels) text).result setting between = .ok (.string t) middle ∧
      middle.activations = a :: rest ∧ after.activations = { a with self := updated } :: rest ∧
      Host.find? (setting.hosts.take a.hostCount) .function "getDoc" =
        some (Host.Doc.getDoc key) ∧
      (node = a.self → documentation? setting after updated = some (.string t)) ∧
      ∀ name live, node ≠ a.self → middle.graph.LiveMember a.self node name live →
        ∃ kept, after.graph.member? updated name = some kept ∧
          (node.index < middle.watermark → documentation? setting after kept = some (.string t)) ∧
          (middle.watermark ≤ node.index → kept = live ∧
            (middle.metadata.Uncovered key node (middle.graph.lineage live) →
              documentation? setting after live = some (.string t)) ∧
            (¬ middle.metadata.Uncovered key node (middle.graph.lineage live) →
              documentation? setting after live = documentation? setting middle live)) := by
  obtain ⟨node, t, between, middle, id, prepared, b, rest, key, htarget, htext, hmade, hstack,
    hgetDoc, hid, rfl⟩ := ok_of_doc hstandard hword h
  obtain ⟨hmetadata, a, hstack', hb, howned, hself, hlive⟩ :=
    (Edits.ok_of_materialize hmade).prepared hstack
  rw [hb] at hgetDoc hstack
  -- what was prepared shows the text
  have hshows : documentation? setting
      { prepared with metadata := prepared.metadata.set key id (.string t) } id =
        some (.string t) :=
    documentation?_set hstack hgetDoc hid
      (Metadata.read?_set (Metadata.uncovered_self _ _ key id) _)
  refine ⟨node, t, between, middle, a, rest, b.self, key, htarget, htext, hstack', hstack, hgetDoc,
    fun hnode => hself hnode ▸ hshows, fun name live hne hmember => ?_⟩
  have hfound := hmember.live?
  rcases Nat.lt_or_ge node.index middle.watermark with hold | hnew
  · exact ⟨id, hlive name live hne hfound hold, fun _ => hshows,
      fun hnew => absurd hold (Nat.not_lt.mpr hnew)⟩
  -- a node of the run is decorated as it is, and it is read through the versions that come after it
  obtain ⟨rfl, rfl⟩ := howned hnew
  obtain ⟨members, hmembers, hentry, -⟩ := hmember
  have hsame : { a with self := b.self } = a := (List.cons.inj (hstack.symm.trans hstack')).1
  have hkept : { a with self := b.self }.self = a.self := congrArg Activation.self hsame
  refine ⟨live, ?_, fun hold => absurd hnew (Nat.not_le.mpr hold), fun _ => ⟨rfl, fun hshown => ?_,
    fun hcovered => ?_⟩⟩
  · refine Eq.trans (congrArg (Graph.member? _ · name) hkept) ?_
    rw [Graph.member?, hmembers]
    exact hentry
  · refine documentation?_set hstack hgetDoc ?_ (Metadata.read?_set hshown _)
    obtain ⟨newer, older, hlineage, -⟩ := hshown
    exact Graph.contains_of_mem_lineage (hlineage ▸ List.mem_append_right _ List.mem_cons_self) hid
  · have hbefore := @documentation?_eq setting prepared a rest key live hstack' hgetDoc
    rw [hbefore, ← Metadata.read?_set_of_not hcovered (.string t)]
    exact documentation?_eq hstack hgetDoc

/-- `@doc(p, "text")` -/
def documentProperty : Expr :=
  .decorator default ⟨"doc", default⟩
    [.name ⟨"p", default⟩, .literal default (.string "text")]

/-- A run with the module `doc` that began on a model, node 26, whose property, node 25, is bound
to `p`. -/
def boundProperty : Run :=
  { Run.start ((Graph.initial.push ⟨none, .modelProperty "p" ⟨4⟩ false⟩).push
      ⟨none, .model (some "M") (NameTable.empty.insert "p" ⟨25⟩)⟩) .empty none with
    activations := [.start 1 ⟨26⟩ .forward 1 [("p", .type ⟨25⟩)]] }

/-- The text lands on the copy of the property that `self` has now. -/
theorem doc_lands_property :
    ∃ operand after, ((evaluator 6).expr documentProperty).result
        ⟨.empty, [Host.Doc.module ⟨0⟩], .default⟩ boundProperty = .ok operand after ∧
      after.activations.map Activation.self = [⟨28⟩] ∧
      ∃ kept, after.graph.member? ⟨28⟩ "p" = some kept ∧ kept = ⟨27⟩ ∧
        documentation? ⟨.empty, [Host.Doc.module ⟨0⟩], .default⟩ after kept =
          some (.string "text") := by
  have hok : okAnd (fun _ after => decide (after.activations.map Activation.self = [⟨28⟩] ∧
      after.graph.member? ⟨28⟩ "p" = some ⟨27⟩))
      (((evaluator 6).expr documentProperty).result ⟨.empty, [Host.Doc.module ⟨0⟩], .default⟩
        boundProperty) := by
    decide +kernel
  obtain ⟨operand, after, hafter, hok⟩ := of_okAnd hok
  obtain ⟨hself, hcopy⟩ := of_decide_eq_true hok
  have hstandard : Setting.Standard ⟨.empty, [Host.Doc.module ⟨0⟩], .default⟩ := fun m hm =>
    List.mem_singleton.mp hm ▸ .inl ⟨⟨0⟩, rfl⟩
  obtain ⟨node, t, between, middle, a, rest, updated, key, htarget, htext, hstack, hafterstack, -,
    -, hlive⟩ := doc_lands _ hstandard 5 rfl hafter
  cases htarget
  cases htext
  cases hstack
  have hmember : boundProperty.graph.LiveMember ⟨26⟩ ⟨25⟩ "p" ⟨25⟩ := by
    refine ⟨_, rfl, rfl, rfl, ?_⟩
    decide +kernel
  rw [hafterstack] at hself
  cases hself
  obtain ⟨kept, hkept, hshown, -⟩ := hlive "p" ⟨25⟩ (by decide) hmember
  exact ⟨operand, after, hafter, congrArg _ hafterstack, kept, hkept,
    Option.some.inj (hkept.symm.trans hcopy), hshown (by decide +kernel)⟩

end Evaluation

end SchemaProjection
