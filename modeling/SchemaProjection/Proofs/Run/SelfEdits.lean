import SchemaProjection.Proofs.Run.Policies

/-!
# Edits of `self`

A method call on `self` evaluates the receiver first and the arguments after it. The edit is made of
the node that `self` was before the arguments, and it takes effect only if that is still the node of
the activation. `Evaluation.call_self` says what becomes of such a call, whatever the arguments do:

* if they leave the node of the activation as it is, the changed copy takes its place, and in the
  outermost activation exactly this edit is recorded, after the ones that the arguments made;
* if they edit `self` themselves, the changed copy of the old node is allocated and nothing else
  happens: neither the node of the activation nor the trace shows the edit.

Which edit a call asks for is told by its operands (`Edit.instruction?`), and an edit that would
change nothing is not made (`Edits.Prepares`).
-/

namespace SchemaProjection

/-! ### The edit that a call asks for -/

namespace Operand

def string? : Operand → Option String
  | .value (.string s) => some s
  | _ => none

def value? : Operand → Option Value
  | .value v => some v
  | _ => none

/-- The name of a projection, given as a string or by itself. -/
def projectionName? : Operand → Option String
  | .projection name => some name
  | operand => operand.string?

theorem mapM_value? (vs : List Value) : (vs.map Operand.value).mapM value? = some vs := by
  induction vs with
  | nil => rfl
  | cons v rest ih => simp [ih, value?]

end Operand

/-- **The instruction that an edit of a member asks for**, by its operands. -/
def Edit.instruction? (edit : Edit) (operands : List Operand) : Option Instruction := do
  let name ← operands[0]? >>= Operand.string?
  match edit with
  | .add collection =>
    match operands[1]? with
    | some operand => return ⟨edit, name, [← operand.value?]⟩
    | none => if collection = .members then return ⟨edit, name, [.absent]⟩ else none
  | .delete _ => return ⟨edit, name, []⟩
  | .rename _ => return ⟨edit, name, [.string (← operands[1]? >>= Operand.string?)]⟩
  | .project _ =>
    let projection ← operands[1]? >>= Operand.projectionName?
    return ⟨edit, name, .string projection :: (← (operands.drop 2).mapM Operand.value?)⟩
  | .setType | .setReturnType => none

namespace Edits

open Eval

variable {setting : Setting} {run after : Run} {call : MethodCall} {apply : Apply}

/-- What a container has in the place of a projected member: what was made of an operation, and of
another member a copy with the type that was made. -/
def Holds (collection : Collection) (name : String) (member result : NodeId) (g : Graph)
    (container : NodeId) : Prop :=
  ∃ made, g.member? container name = some made ∧
    (collection = .operations → made = result) ∧
    (collection ≠ .operations → g.Derives member (Shape.withType? result) made)

/-- **What precedes an edit**: the instruction that it asks for, the condition under which it would
change nothing, what the copy holds beyond what the instruction tells, and the state in which the
edit is made. Only projecting a member does something before, that is, to apply the projection, and
only there the copy depends on what this has led to. -/
inductive Prepares (apply : Apply) (setting : Setting) (call : MethodCall) (run : Run) :
    Instruction → Prop → (Graph → NodeId → Prop) → Run → Prop
  | add (collection : Collection) (name : String) (v : Value) :
    Prepares apply setting call run ⟨.add collection, name, [v]⟩ False (fun _ _ => True) run
  | delete {collection : Collection} {name : String} {members : NameTable}
    (found : (run.graph.shape call.receiver).members? = some members) :
    Prepares apply setting call run ⟨.delete collection, name, []⟩ (members.contains name = false)
      (fun _ _ => True) run
  | rename (collection : Collection) (old new : String) :
    Prepares apply setting call run ⟨.rename collection, old, [.string new]⟩ (old = new)
      (fun _ _ => True) run
  | project {collection : Collection} {name projection : String} {args : List Value}
    {member result : NodeId} {prepared : Run}
    (found : run.graph.member? call.receiver name = some member)
    (projects : Projects apply setting call collection run member projection args result prepared) :
    Prepares apply setting call run ⟨.project collection, name, .string projection :: args⟩
      (Unchanged run.graph collection member result) (Holds collection name member result) prepared

/-- **An edit that succeeds** changes nothing, or takes effect as what it was asked for. -/
theorem ok_of_edit {edit : Edit} {v : Value} (hmember : edit.collection?.isSome)
    (hextends : ∀ span node name args result prepared,
      (apply span node name args).result setting run = .ok result prepared →
        run.graph ≤ prepared.graph)
    (h : (Edits.run apply call (.edit edit)).result setting run = .ok v after) :
    ∃ i idle holds prepared, edit.instruction? call.args = some i ∧
      Prepares apply setting call run i idle holds prepared ∧
      ((idle ∧ after = prepared) ∨ (¬ idle ∧ ∃ updated,
        prepared.Applies call.receiver i updated after ∧ holds after.graph updated)) := by
  cases edit with
  | add c =>
    obtain ⟨name, value, hname, hvalue, hafter⟩ := ok_of_add h
    refine ⟨⟨.add c, name, [value]⟩, _, _, _, ?_, .add c name value, .inr ⟨id, ?_⟩⟩
    · rcases hvalue with hvalue | ⟨hnone, hmembers, rfl⟩
      · simp [Edit.instruction?, hname, hvalue, Operand.string?, Operand.value?]
      · simp [Edit.instruction?, hname, hnone, hmembers, Operand.string?]
    · obtain ⟨updated, happlies⟩ := hafter
      exact ⟨updated, happlies, trivial⟩
  | delete c =>
    obtain ⟨name, hname, ⟨hafter, members, hfound, habsent⟩ | ⟨updated, happlies⟩⟩ := ok_of_delete h
    · refine ⟨⟨.delete c, name, []⟩, _, _, _, ?_, .delete hfound, .inl ⟨habsent, hafter⟩⟩
      simp [Edit.instruction?, hname, Operand.string?]
    · obtain ⟨members, hfound, hpresent⟩ := happlies.edited.present
      refine ⟨⟨.delete c, name, []⟩, _, _, _, ?_, .delete hfound,
        .inr ⟨?_, updated, happlies, trivial⟩⟩
      · simp [Edit.instruction?, hname, Operand.string?]
      · rw [hpresent]
        exact Bool.noConfusion
  | rename c =>
    obtain ⟨old, new, hold, hnew, hafter⟩ := ok_of_rename h
    refine ⟨⟨.rename c, old, [.string new]⟩, _, _, _, ?_, .rename c old new, ?_⟩
    · simp [Edit.instruction?, hold, hnew, Operand.string?]
    · rcases hafter with ⟨hafter, hsame⟩ | ⟨updated, happlies⟩
      · exact .inl ⟨hsame, hafter⟩
      · exact .inr ⟨happlies.edited.differs, updated, happlies, trivial⟩
  | project c =>
    obtain ⟨name, projection, args, member, result, prepared, hname, hprojection, hargs, hfound,
      hprojects, hafter⟩ := ok_of_project hextends h
    refine ⟨⟨.project c, name, .string projection :: args⟩, _, _, _, ?_,
      .project hfound hprojects, ?_⟩
    · have hvalues : (call.args.drop 2).mapM Operand.value? = some args := by
        rw [hargs]
        exact Operand.mapM_value? args
      rcases hprojection with hprojection | hprojection <;>
        simp [Edit.instruction?, hname, hprojection, hvalues, Operand.projectionName?,
          Operand.string?]
    · rcases hafter with hsame | ⟨hchanged, made, updated, hmade, hresult, hcopy, happlies⟩
      · exact .inl hsame
      · exact .inr ⟨hchanged, updated, happlies, made, hmade, hresult, hcopy⟩
  | setType => cases hmember
  | setReturnType => cases hmember

end Edits

/-! ### Applications in between -/

/-- What applying a projection leaves alone: the stack and, inside a run, the trace. -/
structure Run.Aside (run after : Run) : Prop where
  graph : run.graph ≤ after.graph
  activations : after.activations = run.activations
  trace : 0 < run.depth → after.trace = run.trace

namespace Evaluation

open Eval

variable {setting : Setting} {run after : Run} {node result : NodeId} {args : List Value}

theorem aside_of_apply {levels : Nat} {projection : Projection} {direction : Direction}
    (h : ((evaluator levels).apply node projection direction args).result setting run =
      .ok result after) : run.Aside after := by
  cases levels with
  | zero => cases h
  | succ levels =>
    have h : (Evaluation.apply (evaluator levels) node projection direction args).result setting
      run = .ok result after := h
    obtain ⟨tree, -, ⟨rfl, -⟩ | ⟨flow, finished, a, rest, hblock, hstack, -, rfl⟩⟩ := ok_of_apply h
    · exact ⟨le_rfl, rfl, fun _ => rfl⟩
    · have hrecord := (evaluator_advances setting levels).block tree.body flow finished hblock
      obtain ⟨b, hb, -, -⟩ := hrecord.frames_of.stack _ _ rfl
      cases hstack.symm.trans hb
      -- the body runs at least two deep, where nothing is recorded
      refine ⟨hrecord.frames_of.graph, rfl, fun hdepth => hrecord.trace_eq ?_⟩
      exact Nat.succ_lt_succ hdepth

theorem aside_of_applyNamed {levels : Nat} {span : Span} {name : String}
    (h : (applyNamed (evaluator levels) span node name args).result setting run =
      .ok result after) : run.Aside after := by
  obtain ⟨_, _, hread, h⟩ := ok_of_bind h
  cases hread
  dsimp only at h
  split at h
  · obtain ⟨_, _, hfail, -⟩ := ok_of_bind h
    cases hfail
  obtain ⟨_, _, hget, h⟩ := ok_of_bind h
  cases hget
  obtain ⟨_, _, hgraph, h⟩ := ok_of_bind h
  cases hgraph
  split at h
  · exact aside_of_apply h
  · cases h
    exact ⟨le_rfl, rfl, fun _ => rfl⟩

theorem aside_of_prepares {levels : Nat} {call : MethodCall} {i : Instruction} {idle : Prop}
    {holds : Graph → NodeId → Prop}
    (h : Edits.Prepares (applyNamed (evaluator levels)) setting call run i idle holds after) :
    run.Aside after := by
  cases h with
  | add | delete | rename => exact ⟨le_rfl, rfl, fun _ => rfl⟩
  | project found projects =>
    cases projects with
    | operation is_operation applied => exact aside_of_applyNamed applied
    | type not_operation found applied => exact aside_of_applyNamed applied

/-! ### Calls on `self` -/

/-- `self` is the node of the activation, unless a name is bound to something else. -/
theorem result_self {word : Word} {a : Activation} {rest : List Activation}
    (hword : word.text = "self") (hstack : run.activations = a :: rest)
    (hfree : a.lookup? "self" = none) :
    (resolve word).result setting run = .ok (.value (.type a.self)) run := by
  have hactivation : activation.result setting run = .ok a run := by
    rw [result_activation, hstack]
  rw [resolve, result_bind_of_ok hactivation, hword, hfree]
  rfl

/-- A call of an edit on `self` evaluates the arguments and makes the edit of the node that `self`
was before. -/
private theorem ok_of_call_self {levels : Nat} {a : Activation} {rest : List Activation}
    (hstack : run.activations = a :: rest) (hfree : a.lookup? "self" = none)
    {span memberSpan : Span} {word method : Word} (hword : word.text = "self") {m : Method}
    (hmethod : Method.ofName? method.text = some m) {args : List Expr} {operand : Operand}
    (h : ((evaluator (levels + 1)).expr (.call span (.member memberSpan (.name word) method)
      args)).result setting run = .ok operand after) :
    ∃ operands middle v,
      (args.mapM (evaluator levels).expr).result setting run = .ok operands middle ∧
      (Edits.run (applyNamed (evaluator levels)) ⟨span, method, a.self, operands⟩ m).result setting
        middle = .ok v after := by
  have h : (call (evaluator levels) span (.member memberSpan (.name word) method) args).result
    setting run = .ok operand after := h
  obtain ⟨receiver, _, hreceiver, h⟩ := ok_of_bind h
  cases levels with
  | zero => cases hreceiver
  | succ levels =>
    have hreceiver : (resolve word).result setting run = .ok receiver _ := hreceiver
    rw [result_self hword hstack hfree] at hreceiver
    cases hreceiver
    unfold callMethod at h
    dsimp only at h
    rw [hmethod] at h
    obtain ⟨operands, middle, hoperands, h⟩ := ok_of_bind h
    obtain ⟨v, _, hedit, h⟩ := ok_of_bind h
    cases h
    exact ⟨operands, middle, v, hoperands, hedit⟩

/-- **An edit of `self`.** The edit is made of the node that `self` was before the arguments were
evaluated, in the state after them; a projected member is replaced by what its projection has led
to. The copy takes the place of the node, and the edit is recorded, exactly if the arguments have
left that node where it was. -/
theorem call_self (setting : Setting) (levels : Nat) {run after : Run} {a : Activation}
    {rest : List Activation} (hstack : run.activations = a :: rest) (hdepth : 0 < a.depth)
    (hfree : a.lookup? "self" = none) {span memberSpan : Span} {word method : Word}
    (hword : word.text = "self") {edit : Edit} (hmember : edit.collection?.isSome)
    (hmethod : Method.ofName? method.text = some (.edit edit)) {args : List Expr}
    {operand : Operand}
    (h : ((evaluator (levels + 1)).expr (.call span (.member memberSpan (.name word) method)
      args)).result setting run = .ok operand after) :
    ∃ operands middle b i idle holds prepared,
      (args.mapM (evaluator levels).expr).result setting run = .ok operands middle ∧
      middle.activations = b :: rest ∧ b.depth = a.depth ∧
      edit.instruction? operands = some i ∧
      Edits.Prepares (applyNamed (evaluator levels)) setting ⟨span, method, a.self, operands⟩ middle
        i idle holds prepared ∧
      prepared.activations = b :: rest ∧ prepared.trace = middle.trace ∧
      ((idle ∧ after = prepared) ∨ (¬ idle ∧ ∃ updated,
        prepared.graph.Edited a.self i after.graph updated ∧ holds after.graph updated ∧
        after.activations = { b with self := if b.self = a.self then updated else b.self } :: rest ∧
        after.trace = if b.self = a.self ∧ b.depth = 1 then middle.trace.map (· ++ [i])
          else middle.trace)) := by
  obtain ⟨operands, middle, v, hoperands, hedit⟩ := ok_of_call_self hstack hfree hword hmethod h
  have hargs : run.Advances (fun _ _ => true) middle :=
    advances_mapM args (fun e _ => (evaluator_advances setting levels).expr e) operands middle
      hoperands
  obtain ⟨b, hb, hsame, -⟩ := hargs.frames_of.stack a rest hstack
  have hextends : ∀ span node name args result prepared,
      (applyNamed (evaluator levels) span node name args).result setting middle =
        .ok result prepared → middle.graph ≤ prepared.graph :=
    fun _ _ _ _ _ _ happlied => (aside_of_applyNamed happlied).graph
  obtain ⟨i, idle, holds, prepared, hasked, hprepares, hafter⟩ :=
    Edits.ok_of_edit hmember hextends hedit
  have haside := aside_of_prepares hprepares
  have hstack' : prepared.activations = b :: rest := haside.activations.trans hb
  have htrace : prepared.trace = middle.trace := haside.trace (by
    rw [Run.depth_of_stack hb, hsame]
    exact hdepth)
  refine ⟨operands, middle, b, i, idle, holds, prepared, hoperands, hb, hsame, hasked, hprepares,
    hstack', htrace, hafter.imp_right ?_⟩
  rintro ⟨hchanges, updated, happlies, hholds⟩
  obtain ⟨hshown, hrecorded⟩ := happlies.shows hstack'
  rw [htrace] at hrecorded
  exact ⟨hchanges, updated, happlies.edited, hholds, hshown, hrecorded⟩

/-- Adding a property to `self`. -/
def addProperty (args : List Expr) : Expr :=
  .call default (.member default (.name ⟨"self", default⟩) ⟨"addProperty", default⟩) args

/-- `self.addProperty("b", self.addProperty("a", string).type)`: the second property gets the type
of the first one, which is added while it is evaluated. -/
def addWithinAdd : Expr :=
  addProperty [.literal default (.string "b"),
    .member default (addProperty [.literal default (.string "a"), .name ⟨"string", default⟩])
      ⟨"type", default⟩]

/-- A model without properties, node 25, in the outermost activation of a recorded run. -/
def bareModel : Run :=
  { Run.start (Graph.initial.push ⟨none, .model (some "M") .empty⟩) .empty (some []) with
    activations := [.start 1 ⟨25⟩ .forward 0 []] }

/-- There the edit in the argument takes effect and is recorded. The edit around it leaves a copy of
the old node, without the property that the argument added, and `self` and the trace do not show
it. -/
theorem call_self_within :
    ∃ operand after, ((evaluator 6).expr addWithinAdd).result ⟨.empty, [], .default⟩ bareModel =
        .ok operand after ∧
      after.activations.map Activation.self = [⟨27⟩] ∧
      (after.graph.shape ⟨27⟩).members?.map NameTable.keys = some ["a"] ∧
      (after.graph.shape ⟨29⟩).members?.map NameTable.keys = some ["b"] ∧
      after.trace = some [⟨.add .properties, "a", [.type ⟨4⟩]⟩] ∧
      ∃ operands middle b i idle holds prepared,
        middle.activations = [b] ∧ Edit.instruction? (.add .properties) operands = some i ∧
        Edits.Prepares (applyNamed (evaluator 5)) ⟨.empty, [], .default⟩
          ⟨default, ⟨"addProperty", default⟩, ⟨25⟩, operands⟩ middle i idle holds prepared ∧
        prepared.trace = middle.trace ∧
        ((idle ∧ after = prepared) ∨ (¬ idle ∧ ∃ updated,
          prepared.graph.Edited ⟨25⟩ i after.graph updated ∧ holds after.graph updated ∧
          after.activations = [{ b with self := if b.self = ⟨25⟩ then updated else b.self }] ∧
          after.trace = if b.self = ⟨25⟩ ∧ b.depth = 1 then middle.trace.map (· ++ [i])
            else middle.trace)) := by
  have hok : okAnd (fun _ after => decide (after.activations.map Activation.self = [⟨27⟩] ∧
      (after.graph.shape ⟨27⟩).members?.map NameTable.keys = some ["a"] ∧
      (after.graph.shape ⟨29⟩).members?.map NameTable.keys = some ["b"] ∧
      after.trace = some [⟨.add .properties, "a", [.type ⟨4⟩]⟩]))
      (((evaluator 6).expr addWithinAdd).result ⟨.empty, [], .default⟩ bareModel) := by
    decide +kernel
  obtain ⟨operand, after, hafter, hok⟩ := of_okAnd hok
  obtain ⟨hself, hkept, hlost, htrace⟩ := of_decide_eq_true hok
  have hstack : bareModel.activations = .start 1 ⟨25⟩ .forward 0 [] :: [] := rfl
  have hmember : (Edit.add .properties).collection?.isSome := rfl
  have hmethod : Method.ofName? "addProperty" = some (.edit (.add .properties)) := by
    decide +kernel
  obtain ⟨operands, middle, b, i, idle, holds, prepared, -, hmiddle, -, hasked, hprepares, -,
    hsame, hcases⟩ :=
      call_self ⟨.empty, [], .default⟩ 5 hstack (by decide) rfl rfl hmember hmethod hafter
  exact ⟨operand, after, hafter, hself, hkept, hlost, htrace, operands, middle, b, i, idle, holds,
    prepared, hmiddle, hasked, hprepares, hsame, hcases⟩

end Evaluation

end SchemaProjection
