import SchemaProjection.Proofs.Pairing.Editing
import SchemaProjection.Proofs.Run.Evaluation
import SchemaProjection.Run.Projecting

/-!
# Evaluation side by side

Every expression, block and application does on the right what it does on the left, at every level
of the evaluator (`evaluator_follows`), and so does a whole run (`Eval.follows_projectNode`). Of the
settings it is only asked that they agree as far as the left run looks at them (`Pairing.Sound`).
-/

namespace SchemaProjection

/-- Two evaluators whose parts do the same on both sides. They are made of steps, so that what was
opened can be closed on both sides after a failure. -/
structure Evaluator.Follows (P : Pairing) (ev ev' : Evaluator) : Prop where
  left : ev.Steps P.left
  right : ev'.Steps P.right
  expr : ∀ {run other : Run}, run.Paired P other → ∀ e,
    Eval.Follows P run other (ev.expr e) (ev'.expr e)
  block : ∀ {run other : Run}, run.Paired P other → ∀ b,
    Eval.Follows P run other (ev.block b) (ev'.block b)
  apply : ∀ {run other : Run} {node : NodeId} {projection : Projection} {args : List Value},
    run.Paired P other → ∀ direction, run.graph.contains node → run.graph.Knows args →
    P.visible projection.hostCount →
    Eval.Follows P run other (ev.apply node projection direction args)
      (ev'.apply (P.move node) projection direction (renumber P.move args))

/-! ### Renumbered values -/

namespace Value

variable (ρ : NodeId → NodeId) (v : Value)

theorem kind_renumber : (Refers.renumber ρ v).kind = v.kind := by cases v <;> rfl

theorem order?_renumber (w : Value) :
    (Refers.renumber ρ v).order? (Refers.renumber ρ w) = v.order? w := by
  cases v <;> cases w <;> rfl

end Value

theorem ArithmeticOp.result?_renumber (ρ : NodeId → NodeId) (op : ArithmeticOp) (a b : Value) :
    op.result? (renumber ρ a) (renumber ρ b) = op.result? a b := by
  cases op <;> cases a <;> cases b <;> rfl

/-- What an arithmetic operator results in names no node. -/
theorem ArithmeticOp.refs_of_result? {op : ArithmeticOp} {a b v : Value}
    (h : op.result? a b = some v) : v.refs = [] := by
  unfold ArithmeticOp.result? at h
  split at h <;> cases h <;> rfl

theorem CompareOp.result?_renumber {ρ : NodeId → NodeId} (hρ : Function.Injective ρ)
    (op : CompareOp) (a b : Value) :
    op.result? (renumber ρ a) (renumber ρ b) = op.result? a b := by
  have heq : renumber ρ a = renumber ρ b ↔ a = b := (Value.renumber_injective hρ).eq_iff
  cases op with
  | eq | ne => simp only [CompareOp.result?, Value.kind_renumber, heq, ne_eq]
  | lt | le | gt | ge => simp only [CompareOp.result?, Value.order?_renumber]

theorem Graph.Shifted.isTruthy_move {σ : Shift} {g h : Graph} (hs : g.Shifted σ h)
    (operand : Operand) : (renumber σ.move operand).isTruthy h = operand.isTruthy g := by
  cases operand with
  | value v =>
    cases v with
    | type id =>
      show (!([Intrinsic.void, .never, .null].any fun i => h.isIntrinsic (σ.move id) i)) = _
      simp only [hs.isIntrinsic_move]
      rfl
    | absent | bool | number | string => rfl
  | members ids =>
    show (!(ids.map σ.move).isEmpty) = _
    rw [List.isEmpty_map]
    rfl
  | projection name => rfl

namespace Evaluation

open Eval

variable {P : Pairing} {run other : Run} {α : Type}

/-! ### Names and fields -/

theorem lookup?_renumber (ρ : NodeId → NodeId) (a : Activation) (name : String) :
    (renumber ρ a).lookup? name = (a.lookup? name).map (renumber ρ) := by
  have hframe : ∀ frame : Frame,
      (renumber ρ frame).lookup name = (frame.lookup name).map (renumber ρ) := by
    intro frame
    -- a frame is searched by names, which stay
    induction frame with
    | nil => rfl
    | cons entry rest ih =>
      show ((entry.1, renumber ρ entry.2) :: renumber ρ rest).lookup name = _
      rw [List.lookup_cons, List.lookup_cons, ih]
      cases name == entry.1 <;> rfl
  show (a.frames.map (renumber ρ)).findSome? (·.lookup name) = _
  rw [Activation.lookup?]
  -- and so are the frames, from the innermost on
  induction a.frames with
  | nil => rfl
  | cons frame rest ih =>
    rw [List.map_cons, List.findSome?_cons, List.findSome?_cons, hframe, ih]
    cases frame.lookup name <;> rfl

theorem knows_lookup? {g : Graph} {a : Activation} (ha : g.Knows a) {name : String} {v : Value}
    (h : a.lookup? name = some v) : g.Knows v := by
  obtain ⟨frame, hframe, hlookup⟩ := List.exists_of_findSome?_eq_some h
  obtain ⟨front, back, rfl, -⟩ := List.lookup_eq_some_iff.mp hlookup
  intro id hid
  refine ha id (List.mem_cons_of_mem _ (List.mem_flatMap.mpr ⟨_, hframe, ?_⟩))
  refine List.mem_flatMap.mpr ⟨(name, v), List.mem_append_right _ List.mem_cons_self, ?_⟩
  exact List.mem_append_right _ hid

theorem nodeField?_renumber (ρ : NodeId → NodeId) (shape : Shape) (name : String) :
    nodeField? (renumber ρ shape) name = (nodeField? shape name).map (renumber ρ) := by
  unfold nodeField?
  split
  · rw [Shape.name?_renumber]
    cases shape.name? <;> rfl
  · rw [Shape.kind_renumber]
    rfl
  · rw [Shape.type?_renumber]
    cases shape.type? <;> rfl
  · rw [Shape.returnType?_renumber]
    cases shape.returnType? <;> rfl
  · rw [Shape.parameters?_renumber]
    cases shape.parameters? <;> rfl
  · cases shape <;> rfl
  -- an enum member shows its value, where one is given
  · cases shape with
    | enumMember name value =>
      cases value <;> rfl
    | _ => rfl
  · cases Collection.ofName? name with
    | none => rfl
    | some collection =>
      have hmembers := Shape.membersIn?_renumber ρ shape collection
      cases hfound : shape.membersIn? collection with
      | none =>
        rw [hfound] at hmembers
        simp [hmembers, hfound]
      | some members =>
        rw [hfound] at hmembers
        have hvalues : Operand.members (renumber ρ members).values =
            renumber ρ (Operand.members members.values) :=
          congrArg Operand.members (NameTable.values_renumber ρ members)
        simp [hmembers, hfound, hvalues]

theorem knows_nodeField? {g : Graph} (hclosed : g.Closed) {id : NodeId} {name : String}
    {operand : Operand} (h : nodeField? (g.shape id) name = some operand) : g.Knows operand := by
  have hshape := hclosed.knows_shape id
  -- every part of a node that a field shows is among what its shape refers to
  generalize g.shape id = shape at h hshape
  intro r hr
  refine hshape r ?_
  show r ∈ shape.refs
  have hr : r ∈ operand.refs := hr
  unfold nodeField? at h
  split at h
  · cases h
    cases hname : shape.name? <;> rw [hname] at hr <;> cases hr
  · cases h
    cases hr
  · cases shape <;> cases h <;> exact hr
  · cases shape <;> cases h
    exact List.mem_cons_of_mem _ hr
  · cases shape <;> cases h
    exact List.mem_singleton.mp hr ▸ List.mem_cons_self
  · cases shape <;> cases h
    cases hr
  · cases shape with
    | enumMember name value =>
      cases value with
      | none => cases h; cases hr
      | some v => cases h; exact List.mem_flatMap.mpr ⟨v, by simp, hr⟩
    | _ => cases h
  · next name' _ _ _ _ _ _ _ =>
    obtain ⟨collection, -, h⟩ := Option.bind_eq_some_iff.mp h
    obtain ⟨members, hmembers, h⟩ := Option.bind_eq_some_iff.mp h
    cases h
    unfold Shape.membersIn? at hmembers
    split at hmembers
    · rw [Shape.refs_of_members? hmembers]
      exact hr
    · cases hmembers

variable (hP : P.Sound)
include hP

theorem follows_resolve (hp : run.Paired P other) (word : Word) :
    Follows P run other (resolve word) (resolve word) := by
  refine Follows.activation_bind hp fun a ha _ => ?_
  have hknown := Graph.knows_list_iff.mp hp.knows_activations a ha
  rw [lookup?_renumber]
  cases hbound : a.lookup? word.text with
  | some v => exact .pure hp (a := Operand.value v) (knows_lookup? hknown hbound)
  | none =>
    dsimp only [Option.map_none]
    -- names that are not bound: `self`, the intrinsic types, declared types, projections
    by_cases hself : word.text = "self"
    · rw [if_pos hself, if_pos hself]
      exact .pure hp (a := Operand.value (.type a.self))
        (Graph.knows_id_iff.mpr (hknown a.self List.mem_cons_self))
    rw [if_neg hself, if_neg hself]
    cases Intrinsic.ofName? word.text with
    | some i =>
      have hintrinsic := Follows.pure hp (a := Operand.value (.type (Graph.intrinsic i)))
        (Graph.knows_id_iff.mpr (hp.graph.closed.intrinsics i))
      have hmoved : renumber P.move (Operand.value (.type (Graph.intrinsic i))) =
          Operand.value (.type (Graph.intrinsic i)) :=
        congrArg (fun id => Operand.value (.type id)) (hp.graph.intrinsic_move i)
      rw [hmoved] at hintrinsic
      exact hintrinsic
    | none =>
      refine Follows.graph_bind ?_
      rw [hp.graph.lookup?_move]
      cases hglobal : run.graph.lookup? word.text with
      | some id =>
        have hid : run.graph.contains id :=
          hp.graph.closed.globals id (NameTable.mem_values_of_get? hglobal)
        exact .pure hp (a := Operand.value (.type id)) (Graph.knows_id_iff.mpr hid)
      | none =>
        refine Follows.read_bind ?_
        -- whether a projection is declared may differ, but then only if the left run fails
        rcases hP.isDeclared word.text with hsame | ⟨hundeclared, hexcused⟩
        · rw [hsame]
          by_cases hdeclared : P.left.declarations.isDeclared word.text
          · rw [if_pos hdeclared]
            exact .plain hp rfl
          · rw [if_neg hdeclared]
            exact .fail rfl _
        · refine .of_excused ⟨.undeclaredIdentifier (.identifier word.text), word.span⟩ run ?_
            (hexcused _)
          rw [hundeclared]
          rfl

omit hP in
theorem follows_field (hp : run.Paired P other) (word : Word) {target : Operand}
    (htarget : run.graph.Knows target) :
    Follows P run other (field word target) (field word (renumber P.move target)) := by
  cases target with
  | value v =>
    cases v with
    | type id =>
      have hid : run.graph.contains id := htarget id List.mem_cons_self
      refine Follows.graph_bind ?_
      rw [hp.graph.shape_move, nodeField?_renumber, hp.graph.describe_move hid]
      cases hfield : nodeField? (run.graph.shape id) word.text with
      | some operand => exact .pure hp (knows_nodeField? hp.graph.closed hfield)
      | none => exact .fail rfl _
    | string s =>
      show Follows P run other (field word (.value (.string s))) (field word (.value (.string s)))
      unfold field
      dsimp only
      by_cases hlength : word.text = "length"
      · rw [if_pos hlength]
        exact .plain hp rfl
      · rw [if_neg hlength]
        exact .fail rfl _
    | absent | bool | number => exact .fail rfl _
  | members ids =>
    have hlength : (ids.map P.move).length = ids.length := List.length_map _
    show Follows P run other (field word (.members ids)) (field word (.members (ids.map P.move)))
    unfold field
    dsimp only
    rw [hlength]
    by_cases hsize : word.text = "size"
    · rw [if_pos hsize]
      exact .plain hp rfl
    · rw [if_neg hsize]
      exact .fail rfl _
  | projection name => exact .fail rfl _

/-! ### Host functions -/

theorem follows_callHost (hp : run.Paired P other) (sort : Host.ExportSort) (word : Word)
    {args : List Value} (hargs : run.graph.Knows args) :
    Follows P run other (callHost sort word args)
      (callHost sort word (renumber P.move args)) := by
  refine Follows.read_bind ?_
  refine Follows.activation_bind hp fun a ha _ => ?_
  have hcount : (renumber P.move a).hostCount = a.hostCount := rfl
  dsimp only
  -- both runs see the modules that were imported when the projection was declared
  rw [hcount, hP.hosts (hp.visible a ha)]
  cases hfound : Host.find? (P.left.hosts.take a.hostCount) sort word.text with
  | none => exact .fail rfl _
  | some f =>
    refine Follows.get_bind ?_
    have hanswers := hP.answers (hp.visible a ha) hfound hp.graph hp.metadata hargs
    unfold Pairing.Answers Host.Call.result at hanswers
    split at hanswers
    · next v m v' m' hleft hright =>
      obtain ⟨rfl, hmetadata⟩ := hanswers
      rw [hleft, hright]
      have hpaired : ({ run with metadata := m } : Run).Paired P { other with metadata := m' } :=
        { hp with metadata := hmetadata }
      have hwrite : Follows P run other (set { run with metadata := m } : Eval Unit)
          (set { other with metadata := m' }) := ⟨rfl, knows_unit _, le_rfl, hpaired⟩
      refine hwrite.bind fun _ _ _ hle hwritten _ => ?_
      -- a returned node is checked against each graph
      cases v with
      | type id =>
        show Follows P _ _ _ (if other.graph.contains (P.move id) then _ else _)
        rw [hp.graph.contains_move]
        dsimp only
        by_cases hid : run.graph.contains id
        · rw [if_pos hid, if_pos hid]
          exact .pure hwritten (a := Value.type id)
            (Graph.knows_id_iff.mpr (Graph.contains_of_le hle hid))
        · rw [if_neg hid, if_neg hid]
          exact .inr rfl
      | absent | bool | number | string => exact .plain hwritten rfl
    · next hleft hright =>
      rw [hleft, hright, hanswers]
      exact .inr rfl
    · exact hanswers.elim

/-! ### Steps over lists -/

omit hP in
theorem follows_mapM {β : Type} [Refers β] (hp : run.Paired P other) {f f' : α → Eval β}
    (xs : List α) (hf : ∀ x, ∀ {run other : Run}, run.Paired P other →
      Follows P run other (f x) (f' x)) :
    Follows P run other (xs.mapM f) (xs.mapM f') := by
  induction xs generalizing run other with
  | nil =>
    rw [List.mapM_nil, List.mapM_nil]
    exact .plain hp rfl
  | cons x rest ih =>
    rw [List.mapM_cons, List.mapM_cons]
    refine (hf x hp).bind fun b _ _ _ hp hb => ?_
    refine (ih hp).bind fun bs _ _ hle hp hbs => ?_
    exact .pure hp (Graph.knows_cons_iff.mpr ⟨hb.mono hle, hbs⟩)

/-! ### Values -/

variable {ev ev' : Evaluator} (hev : ev.Follows P ev')
include hev

omit hP in
theorem follows_value (hp : run.Paired P other) (e : Expr) :
    Follows P run other (value ev e) (value ev' e) := by
  refine (hev.expr hp e).bind fun operand _ _ _ hp hoperand => ?_
  cases operand with
  | value v => exact .pure hp (a := v) hoperand
  | members ids => exact .fail rfl _
  | projection name => exact .fail rfl _

omit hP in
theorem follows_values (hp : run.Paired P other) (es : List Expr) :
    Follows P run other (values ev es) (values ev' es) :=
  follows_mapM hp es fun e _ _ hp => follows_value hev hp e

omit hP in
theorem follows_truth (hp : run.Paired P other) (e : Expr) :
    Follows P run other (truth ev e) (truth ev' e) := by
  refine (hev.expr hp e).bind fun operand _ _ _ hp _ => ?_
  refine Follows.graph_bind ?_
  rw [hp.graph.isTruthy_move]
  exact .plain hp rfl

/-! ### Applications -/

theorem follows_applyNamed (hp : run.Paired P other) (span : Span) {node : NodeId}
    (hnode : run.graph.contains node) (name : String) {args : List Value}
    (hargs : run.graph.Knows args) :
    Follows P run other (applyNamed ev span node name args)
      (applyNamed ev' span (P.move node) name (renumber P.move args)) := by
  have hdirection : (other.activations.head?.map Activation.direction).getD .forward =
      (run.activations.head?.map Activation.direction).getD .forward := by
    rw [hp.activations]
    cases run.activations <;> rfl
  refine Follows.read_bind ?_
  dsimp only
  -- the excuse is only needed where the left run knows no projection of the name
  by_cases hdeclared : P.left.declarations.isDeclared name
  · have hright : P.right.declarations.isDeclared name := by
      rcases hP.isDeclared name with hsame | ⟨hundeclared, -⟩
      · exact hsame.trans hdeclared
      · rw [hdeclared] at hundeclared
        cases hundeclared
    rw [hdeclared, hright]
    refine Follows.get_bind ?_
    refine Follows.graph_bind ?_
    rw [hdirection, hP.resolve hp.graph hnode hdeclared]
    cases hresolve : P.left.declarations.resolve? run.graph node name with
    | none => exact .pure hp (Graph.knows_id_iff.mpr hnode)
    | some projection =>
      exact hev.apply hp _ hnode hargs (hP.visible projection (List.mem_of_find?_eq_some hresolve))
  · rw [Bool.not_eq_true] at hdeclared
    rcases hP.isDeclared name with hsame | ⟨-, hexcused⟩
    · rw [hsame, hdeclared]
      exact .fail_bind rfl _ _ _
    · refine .of_excused ⟨.unknownProjection (.undeclared name), span⟩ run ?_ (hexcused _)
      rw [hdeclared]
      rfl

omit hP hev in
theorem bindings_renumber (params : List Word) (args : List Value) :
    bindings params (renumber P.move args) = renumber P.move (bindings params args) := by
  have hmoved : ∀ frame : Frame, renumber P.move frame = frame.map (renumber P.move) :=
    fun _ => rfl
  rw [hmoved, bindings, bindings, List.map_reverse, List.map_map]
  refine congrArg List.reverse (List.map_congr_left fun entry _ => ?_)
  have hget : (renumber P.move args)[entry.2]? = args[entry.2]?.map (renumber P.move) :=
    List.getElem?_map ..
  simp only [Function.comp, hget]
  cases args[entry.2]? <;> rfl

omit hP hev in
theorem knows_bindings {g : Graph} (params : List Word) {args : List Value} (hargs : g.Knows args) :
    g.Knows (bindings params args) := by
  refine Graph.knows_list_iff.mpr fun entry hentry => ?_
  obtain ⟨⟨word, i⟩, -, rfl⟩ := List.mem_map.mp (List.mem_reverse.mp hentry)
  intro id hid
  have hid : id ∈ refs ((args[i]?).getD .absent) := hid
  cases harg : args[i]? with
  | none =>
    rw [harg] at hid
    cases hid
  | some v =>
    rw [harg] at hid
    exact Graph.knows_list_iff.mp hargs v (List.mem_of_getElem? harg) id hid

omit hP in
theorem follows_enter (hp : run.Paired P other) {node : NodeId} (hnode : run.graph.contains node)
    {projection : Projection} (hvisible : P.visible projection.hostCount) (direction : Direction)
    (tree : DirectionTree) {args : List Value} (hargs : run.graph.Knows args) :
    Follows P run other (enter ev node projection direction tree args)
      (enter ev' (P.move node) projection direction tree (renumber P.move args)) := by
  rw [enter_eq, enter_eq]
  refine Follows.get_bind ?_
  rw [depth_eq hp, bindings_renumber]
  refine follows_inActivation hp (a := .start (run.depth + 1) node direction projection.hostCount
    (bindings tree.params args)) (fun id hid => ?_) hvisible (List.cons_ne_nil _ _)
    (hev.left.block tree.body fun _ => rfl) (hev.right.block tree.body fun _ => rfl)
    fun _ hp => hev.block hp tree.body
  rcases List.mem_cons.mp hid with rfl | hid
  · exact hnode
  · rcases List.mem_append.mp hid with hid | hid
    · exact knows_bindings tree.params hargs id hid
    · cases hid

theorem follows_apply (hp : run.Paired P other) {node : NodeId} {projection : Projection}
    {args : List Value} (direction : Direction) (hnode : run.graph.contains node)
    (hargs : run.graph.Knows args) (hvisible : P.visible projection.hostCount) :
    Follows P run other (Evaluation.apply ev node projection direction args)
      (Evaluation.apply ev' (P.move node) projection direction (renumber P.move args)) := by
  unfold Evaluation.apply
  cases projection.direction? direction with
  | none => exact .fail rfl _
  | some tree =>
    -- both memos are asked for the same application, up to the renumbering
    let key : MemoKey := ⟨node, projection.id, direction, args⟩
    refine Follows.remembered_bind hp key fun entry hentry => ?_
    cases entry with
    | some entry =>
      cases entry with
      | active => exact .pure hp (Graph.knows_id_iff.mpr hnode)
      | done result =>
        have hresult : run.graph.contains result :=
          hentry result (by simp [refs, MemoEntry.refs])
        exact .pure hp (Graph.knows_id_iff.mpr hresult)
    | none =>
      refine Follows.read_bind ?_
      refine Follows.get_bind ?_
      -- the application itself, once it is neither remembered nor too deep
      have hrest : Follows P run other
          (remember key .active >>= fun _ => enter ev node projection direction tree args >>=
            fun result => remember key (.done result) >>= fun _ => pure result)
          (remember (renumber P.move key) .active >>= fun _ =>
            enter ev' (P.move node) projection direction tree (renumber P.move args) >>=
            fun result => remember (renumber P.move key) (.done result) >>=
              fun _ => pure result) := by
        refine (follows_remember hp key .active fun _ h => nomatch h).bind
          fun _ _ _ hle hp _ => ?_
        refine (follows_enter hev hp (Graph.contains_of_le hle hnode) hvisible direction tree
          (hargs.mono hle)).bind fun result _ _ _ hp hresult => ?_
        refine (follows_remember hp key (.done result) hresult).bind
          fun _ _ _ hle hp _ => ?_
        exact .pure hp (hresult.mono hle)
      dsimp only
      rw [depth_eq hp]
      by_cases hlimit : P.left.options.maxDepth ≤ run.depth
      · rcases hP.maxDepth with hsame | ⟨-, hexcused⟩
        · rw [hsame, if_pos hlimit, if_pos hlimit]
          exact .describe_bind hp hnode (.fail_bind rfl _ _ _)
        · rw [if_pos hlimit]
          exact .of_excused _ run rfl (hexcused _ _ _)
      -- the right run may be allowed to go deeper, never less deep
      · have hright : ¬P.right.options.maxDepth ≤ run.depth := by
          rcases hP.maxDepth with hsame | ⟨hle, -⟩
          · rw [hsame]
            exact hlimit
          · exact fun h => hlimit (Nat.le_trans hle h)
        rw [if_neg hlimit, if_neg hright]
        exact hrest

/-! ### Calls -/

omit hP hev in
theorem itemFrame_renumber (params : List Word) (item : NodeId) (position : Nat) :
    renumber P.move (itemFrame params item position) =
      itemFrame params (P.move item) position := by
  match params with
  | [] => rfl
  | [p] => rfl
  | p :: q :: _ => rfl

omit hP hev in
theorem knows_itemFrame {g : Graph} (params : List Word) {item : NodeId} (hitem : g.contains item)
    (position : Nat) : g.Knows (itemFrame params item position) := by
  have hall : ∀ id ∈ refs (itemFrame params item position), id = item := by
    match params with
    | [] => exact fun id hid => nomatch hid
    | [p] => exact fun id hid => by simpa [itemFrame, refs, Value.refs] using hid
    | p :: q :: _ => exact fun id hid => by simpa [itemFrame, refs, Value.refs] using hid
  exact fun id hid => hall id hid ▸ hitem

omit hP in
theorem follows_forItems (hp : run.Paired P other) (params : List Word) (body : Block)
    (position : Nat) {items : List NodeId} (hitems : run.graph.Knows items) :
    Follows P run other (forItems ev params body position items)
      (forItems ev' params body position (renumber P.move items)) := by
  induction items generalizing run other position with
  | nil => exact .plain hp rfl
  | cons item rest ih =>
    obtain ⟨hitem, hrest⟩ := Graph.knows_cons_iff.mp hitems
    show Follows P run other _
      (forItems ev' params body position (P.move item :: renumber P.move rest))
    rw [forItems_cons, forItems_cons, ← itemFrame_renumber]
    -- the body sees the item and its position, in a frame of its own
    refine (follows_inRound hp (knows_itemFrame params (Graph.knows_id_iff.mp hitem) position)
      (hev.left.block body fun _ => rfl) (hev.right.block body fun _ => rfl)
      fun _ hp => hev.block hp body).bind fun flow _ _ hle hp _ => ?_
    cases flow with
    | returned => exact .plain hp rfl
    | proceed => exact ih hp _ (hrest.mono hle)

omit hP in
theorem follows_forEach (hp : run.Paired P other) (span : Span) {items : List NodeId}
    (hitems : run.graph.Knows items) (args : List Expr) :
    Follows P run other (forEach ev span items args)
      (forEach ev' span (renumber P.move items) args) := by
  unfold forEach
  split
  · rw [discard_eq, discard_eq]
    exact (follows_forItems hev hp _ _ 0 hitems).bind fun _ _ _ _ hp _ => .plain hp rfl
  · exact .fail rfl _
  · exact .fail rfl _

theorem follows_callMethod (hp : run.Paired P other) (span : Span) {receiver : Operand}
    (hreceiver : run.graph.Knows receiver) (method : Word) (args : List Expr) :
    Follows P run other (callMethod ev span receiver method args)
      (callMethod ev' span (renumber P.move receiver) method args) := by
  cases receiver with
  | members items =>
    show Follows P run other (callMethod ev span (.members items) method args)
      (callMethod ev' span (.members (renumber P.move items)) method args)
    unfold callMethod
    dsimp only
    by_cases hname : method.text = "forEach"
    · rw [if_pos hname, if_pos hname]
      have hitems : run.graph.Knows items := Graph.knows_list_iff.mpr fun id hid =>
        Graph.knows_id_iff.mpr (hreceiver id hid)
      exact (follows_forEach hev hp span hitems args).bind fun _ _ _ _ hp _ => .plain hp rfl
    · rw [if_neg hname, if_neg hname]
      exact .fail rfl _
  | value v =>
    cases v with
    | string s =>
      show Follows P run other (callMethod ev span (.value (.string s)) method args)
        (callMethod ev' span (.value (.string s)) method args)
      unfold callMethod
      dsimp only
      cases casing? method.text with
      | none => exact .fail rfl _
      | some casing =>
        by_cases hargs : args.isEmpty
        · simp only [if_pos hargs]
          exact .plain hp rfl
        · simp only [if_neg hargs]
          exact .fail rfl _
    | type id =>
      have hid : run.graph.contains id := hreceiver id List.mem_cons_self
      show Follows P run other (callMethod ev span (.value (.type id)) method args)
        (callMethod ev' span (.value (.type (P.move id))) method args)
      unfold callMethod
      dsimp only
      cases Method.ofName? method.text with
      | none => exact .describe_bind hp hid (.fail rfl _)
      | some m =>
        refine (follows_mapM hp args fun e _ _ hp => hev.expr hp e).bind
          fun operands _ _ hle hp hoperands => ?_
        have hcall : Graph.Knows _ (MethodCall.mk span method id operands) := fun r hr => by
          rcases List.mem_cons.mp hr with rfl | hr
          · exact Graph.contains_of_le hle hid
          · exact hoperands r hr
        -- an edit may apply projections to the members that it edits
        refine (Edits.follows_run hP (fun hp span _ name _ hnode hargs =>
          follows_applyNamed hP hev hp span hnode name hargs) hp hcall m).bind
          fun v _ _ _ hp hv => ?_
        exact .pure hp (a := Operand.value v) hv
    | absent | bool | number => exact .fail rfl _
  | projection name => exact .fail rfl _

theorem follows_call (hp : run.Paired P other) (span : Span) (callee : Expr) (args : List Expr) :
    Follows P run other (call ev span callee args) (call ev' span callee args) := by
  unfold call
  split
  · refine (follows_values hev hp args).bind fun vs _ _ _ hp hvs => ?_
    refine (follows_callHost hP hp .function _ hvs).bind fun v _ _ _ hp hv => ?_
    exact .pure hp (a := Operand.value v) hv
  · refine (hev.expr hp _).bind fun receiver _ _ _ hp hreceiver => ?_
    exact follows_callMethod hP hev hp span hreceiver _ args
  · exact .fail rfl _

omit hev in
theorem follows_decorated (hp : run.Paired P other) {args : List Value}
    (hargs : run.graph.Knows args) :
    Follows P run other (decorated args) (decorated (renumber P.move args)) := by
  cases args with
  | nil => exact .plain hp rfl
  | cons v rest =>
    obtain ⟨hv, hrest⟩ := Graph.knows_cons_iff.mp hargs
    cases v with
    | type id =>
      refine (Edits.follows_materialize hP hp (hv id List.mem_cons_self)).bind
        fun own _ _ hle hp hown => ?_
      exact .pure hp (a := Value.type own :: rest)
        (Graph.knows_cons_iff.mpr ⟨hown, hrest.mono hle⟩)
    | absent | bool | number | string => exact .pure hp (Graph.knows_cons_iff.mpr ⟨hv, hrest⟩)

/-! ### Expressions -/

omit hP in
theorem follows_unary (hp : run.Paired P other) (span : Span) (op : UnaryOp) (operand : Expr) :
    Follows P run other (unary ev span op operand) (unary ev' span op operand) := by
  refine (hev.expr hp operand).bind fun result _ _ _ hp _ => ?_
  cases op with
  | not =>
    refine Follows.graph_bind ?_
    rw [hp.graph.isTruthy_move]
    exact .plain hp rfl
  | neg =>
    cases result with
    | value v =>
      cases v with
      | number x => exact .plain hp rfl
      | absent | bool | string | type => exact .fail rfl _
    | members ids => exact .fail rfl _
    | projection name => exact .fail rfl _

omit hP in
theorem follows_binary (hp : run.Paired P other) (span : Span) (op : BinaryOp) (lhs rhs : Expr) :
    Follows P run other (binary ev span op lhs rhs) (binary ev' span op lhs rhs) := by
  cases op with
  | arithmetic op =>
    refine (follows_value hev hp lhs).bind fun a _ _ _ hp _ => ?_
    refine (follows_value hev hp rhs).bind fun b _ _ _ hp _ => ?_
    -- the operands, and the kinds that a failure tells, do not depend on ids
    rw [ArithmeticOp.result?_renumber, Value.kind_renumber, Value.kind_renumber]
    cases hresult : op.result? a b with
    | some v => exact .plain hp (ArithmeticOp.refs_of_result? hresult)
    | none => exact .fail rfl _
  | compare op =>
    refine (follows_value hev hp lhs).bind fun a _ _ _ hp _ => ?_
    refine (follows_value hev hp rhs).bind fun b _ _ _ hp _ => ?_
    rw [CompareOp.result?_renumber P.move_injective, Value.kind_renumber, Value.kind_renumber]
    cases op.result? a b with
    | some v => exact .plain hp rfl
    | none => exact .fail rfl _
  | logic op =>
    refine (follows_truth hev hp lhs).bind fun holds _ _ _ hp _ => ?_
    have hholds : renumber P.move holds = holds := rfl
    rw [hholds]
    cases op.shortcut? holds with
    | some v => exact .plain hp rfl
    | none => exact (follows_truth hev hp rhs).bind fun _ _ _ _ hp _ => .plain hp rfl

theorem follows_expr (hp : run.Paired P other) (e : Expr) :
    Follows P run other (expr ev e) (expr ev' e) := by
  cases e with
  | literal span literal =>
    refine .plain hp ?_
    cases literal <;> rfl
  | name word => exact follows_resolve hP hp word
  | member span target word =>
    exact (hev.expr hp target).bind fun operand _ _ _ hp hoperand => follows_field hp word hoperand
  | call span callee args => exact follows_call hP hev hp span callee args
  | decorator span name args =>
    refine (follows_values hev hp args).bind fun vs _ _ _ hp hvs => ?_
    refine (follows_decorated hP hp hvs).bind fun prepared _ _ _ hp hprepared => ?_
    refine (follows_callHost hP hp .decorator name hprepared).bind fun v _ _ _ hp hv => ?_
    exact .pure hp (a := Operand.value v) hv
  | project span target name args =>
    refine (follows_value hev hp target).bind fun v _ _ _ hp hv => ?_
    cases v with
    | type id =>
      refine (follows_values hev hp args).bind fun vs _ _ hle hp hvs => ?_
      refine (follows_applyNamed hP hev hp name.span
        (Graph.contains_of_le hle (hv id List.mem_cons_self)) name.text hvs).bind
        fun result _ _ _ hp hresult => ?_
      exact .pure hp (a := Operand.value (.type result)) hresult
    | absent | bool | number | string => exact .fail rfl _
  | lambda span params body => exact .fail rfl _
  | unary span op operand =>
    refine (follows_unary hev hp span op operand).bind fun v _ _ _ hp hv => ?_
    exact .pure hp (a := Operand.value v) hv
  | binary span op lhs rhs =>
    refine (follows_binary hev hp span op lhs rhs).bind fun v _ _ _ hp hv => ?_
    exact .pure hp (a := Operand.value v) hv

/-! ### Statements and blocks -/

omit hev in
theorem follows_giveBack (hp : run.Paired P other) (span : Span) {v : Value}
    (hv : run.graph.Knows v) :
    Follows P run other (giveBack span v) (giveBack span (renumber P.move v)) := by
  -- only an absent value cannot be given back, and renumbering makes none
  have habsent : renumber P.move v = .absent ↔ v = .absent := by
    cases v <;> simp [renumber, Value.renumber]
  unfold giveBack
  by_cases hnone : v = .absent
  · rw [if_pos hnone, if_pos (habsent.mpr hnone)]
    exact .fail_bind rfl _ _ _
  · rw [if_neg hnone, if_neg fun h => hnone (habsent.mp h)]
    refine (follows_build hP hp (Building.follows_typeOf hp.graph hv)).bind
      fun node _ _ _ hp hnode => ?_
    refine (follows_setSelf hp (Graph.knows_id_iff.mp hnode)).bind fun _ _ _ _ hp _ => ?_
    refine Follows.bind (follows_modifyActivation hp fun a ha => ⟨rfl, ha, rfl, fun h => h⟩)
      fun _ _ _ _ hp _ => .plain hp rfl

theorem follows_stmt (hp : run.Paired P other) (s : Stmt) :
    Follows P run other (stmt ev s) (stmt ev' s) := by
  cases s with
  | expr span e =>
    rw [stmt, stmt, discard_eq, discard_eq, bind_assoc, bind_assoc]
    refine (hev.expr hp e).bind fun operand _ _ _ hp _ => ?_
    rw [pure_bind]
    exact Follows.activation_bind hp fun a _ _ => .plain hp rfl
  | cond span test body otherwise =>
    refine (follows_truth hev hp test).bind fun holds _ _ _ hp _ => ?_
    have hholds : renumber P.move holds = holds := rfl
    rw [hholds]
    cases holds with
    | true => exact hev.block hp body
    | false =>
      cases otherwise with
      | some alternative => exact hev.block hp alternative
      | none => exact .plain hp rfl
  | ret span e =>
    exact (follows_value hev hp e).bind fun v _ _ _ hp hv => follows_giveBack hP hp span hv

theorem follows_stmts (hp : run.Paired P other) (ss : List Stmt) :
    Follows P run other (stmts ev ss) (stmts ev' ss) := by
  induction ss generalizing run other with
  | nil => exact .plain hp rfl
  | cons s rest ih =>
    refine (follows_stmt hP hev hp s).bind fun flow _ _ _ hp _ => ?_
    cases flow with
    | returned => exact .plain hp rfl
    | proceed => exact ih hp

theorem follows_block (hp : run.Paired P other) (b : Block) :
    Follows P run other (block ev b) (block ev' b) := by
  rw [block_eq, block_eq]
  have hempty : run.graph.Knows ([] : Frame) := fun _ h => nomatch h
  exact follows_inFrame hp hempty fun _ hp => follows_stmts hP hev hp b.stmts

end Evaluation

theorem Evaluator.Follows.next {P : Pairing} (hP : P.Sound) {ev ev' : Evaluator}
    (hev : ev.Follows P ev') : ev.next.Follows P ev'.next where
  left := hev.left.next
  right := hev.right.next
  expr hp e := Evaluation.follows_expr hP hev hp e
  block hp b := Evaluation.follows_block hP hev hp b
  apply hp direction := Evaluation.follows_apply hP hev hp direction

/-- **Evaluation does the same on both sides**, at every level. The right run may have more levels
if it is excused that the left run has used up its own. -/
theorem evaluator_follows {P : Pairing} (hP : P.Sound) {levels levels' : Nat}
    (hlevels : levels' = levels ∨ levels ≤ levels' ∧ P.excused ⟨.internal .depth, none⟩) :
    (evaluator levels).Follows P (evaluator levels') := by
  induction levels generalizing levels' with
  | zero =>
    rcases hlevels with rfl | ⟨-, hexcused⟩
    · exact ⟨evaluator_steps _ _, evaluator_steps _ _, fun _ _ => .inr rfl, fun _ _ => .inr rfl,
        fun _ _ _ _ _ => .inr rfl⟩
    · exact ⟨evaluator_steps _ _, evaluator_steps _ _, fun _ _ => .of_excused _ _ rfl hexcused,
        fun _ _ => .of_excused _ _ rfl hexcused, fun _ _ _ _ _ => .of_excused _ _ rfl hexcused⟩
  | succ levels ih =>
    obtain ⟨n, rfl⟩ : ∃ n, levels' = n + 1 := by
      rcases hlevels with rfl | ⟨hle, -⟩
      · exact ⟨levels, rfl⟩
      · exact ⟨levels' - 1, (Nat.sub_add_cancel (Nat.le_trans (Nat.succ_pos _) hle)).symm⟩
    rw [evaluator_succ, evaluator_succ]
    refine (ih ?_).next hP
    rcases hlevels with heq | ⟨hle, hexcused⟩
    · exact .inl (Nat.succ.inj heq)
    · exact .inr ⟨Nat.le_of_succ_le_succ hle, hexcused⟩

/-! ### Whole runs side by side -/

namespace Eval

variable {P : Pairing} {run other : Run}

theorem follows_projectNode (hP : P.Sound)
    (hlevels : P.right.levels = P.left.levels ∨
      P.left.levels ≤ P.right.levels ∧ P.excused ⟨.internal .depth, none⟩)
    (hp : run.Paired P other) {node : NodeId} (hnode : run.graph.contains node) (handle : Handle)
    {args : List Value} (hargs : run.graph.Knows args) :
    Follows P run other (projectNode node handle args)
      (projectNode (P.move node) handle (renumber P.move args)) := by
  refine Follows.graph_bind ?_
  rw [hp.graph.contains_move, hnode]
  refine Follows.read_bind ?_
  cases hleft : P.left.declarations.get? handle.projection with
  | none =>
    rcases hP.get handle.projection with hsame | ⟨-, hexcused⟩
    · rw [hsame, hleft]
      exact .failWith rfl _
    · exact .of_excused ⟨.unknownProjection (.unknownId handle.projection.index), none⟩ run rfl
        (hexcused _)
  | some projection =>
    rcases hP.get handle.projection with hsame | ⟨hnone, -⟩
    · rw [hsame, hleft]
      have hmem : projection ∈ P.left.declarations.projections := List.mem_of_getElem? hleft
      refine Follows.read_bind ?_
      exact (evaluator_follows hP hlevels).apply hp _ hnode hargs (hP.visible projection hmem)
    · rw [hleft] at hnone
      cases hnone

end Eval

end SchemaProjection
