import SchemaProjection.Proofs.Run.Returning
import SchemaProjection.Proofs.Run.Unfolding

/-!
# Every run has a call tree

An application is where evaluation starts over, in an activation of its own: it is refused, returns
what is known about it, or enters a body. With it the induction on the level closes
(`Evaluation.unfoldsAt`): whatever is asked for has a valid call tree, and its height is within the
levels of the setting. At the recursion limit no body is entered, so below it there is always a
level left for the application and enough of them for the body.

Two things follow for whole runs. The tree of a run says what it comes to, whatever evaluator stands
below its levels (`Eval.unfolds_start`). And one tree serves two settings, so a run comes to the
same under a more permissive one (`Eval.result_relaxed`).
-/

namespace SchemaProjection

/-! ### Applications -/

/-- The state in which the body of a new application starts: it is marked as active and has an
activation of its own. -/
def Run.opened (run : Run) (node : NodeId) (p : Projection) (direction : Direction)
    (tree : DirectionTree) (args : List Value) : Run :=
  Run.entered { run with memo := run.memo.insert ⟨node, p.id, direction, args⟩ .active } node p
    direction tree args

/-- The state in which an application is left: its activation is closed, and it is marked as
done. -/
def Run.closed (finished : Run) (key : MemoKey) (rest : List Activation) (result : NodeId) : Run :=
  { finished with activations := rest, memo := finished.memo.insert key (.done result) }

namespace Evaluation

open Eval

variable {R : Relaxation} {setting : Setting} {level depth : Nat} {s : Progress} {run : Run}
  {ev : Evaluator} {node : NodeId} {p : Projection} {direction : Direction} {tree : DirectionTree}
  {args : List Value}

/-- Runs a body, leaves it, and notes what has become of the node. -/
def leave (key : MemoKey) (body : Eval Flow) : Eval NodeId := do
  let (_, a) ← Eval.closing body Eval.popActivation
  Eval.remember key (.done a.self)
  return a.self

theorem result_leave {key : MemoKey} {body : Eval Flow} {flow : Flow} {finished : Run}
    {a : Activation} {rest : List Activation} (hbody : body.result setting run = .ok flow finished)
    (hstack : finished.activations = a :: rest) :
    (leave key body).result setting run = .ok a.self (finished.closed key rest a.self) := by
  rw [leave, result_bind, result_closing, hbody, closed_ok (result_popActivation hstack)]
  rfl

theorem result_leave_error {key : MemoKey} {body : Eval Flow} {failure : Failure} {failed : Run}
    {a : Activation} {rest : List Activation}
    (hbody : body.result setting run = .error failure failed)
    (hstack : failed.activations = a :: rest) :
    (leave key body).result setting run = .error failure { failed with activations := rest } := by
  rw [leave, result_bind, result_closing, hbody, closed_error (result_popActivation hstack)]

/-! #### What an application comes to -/

section

variable (htree : p.direction? direction = some tree)
include htree

/-- What is known about an application is what it comes to. -/
theorem result_apply_known {entry : MemoEntry}
    (hknown : run.memo.find? ⟨node, p.id, direction, args⟩ = some entry) :
    (Evaluation.apply ev node p direction args).result setting run =
      .ok (match entry with | .done result => result | .active => node) run := by
  have hremembered : (Eval.remembered? ⟨node, p.id, direction, args⟩).result setting run =
      .ok (some entry) run := congrArg (fun entry => EStateM.Result.ok entry run) hknown
  rw [Evaluation.apply, htree]
  dsimp only
  rw [result_bind_of_ok hremembered]
  cases entry with
  | done result => rfl
  | active => rfl

variable (hunknown : run.memo.find? ⟨node, p.id, direction, args⟩ = none)
include hunknown

/-- At the recursion limit an application that is not known fails. -/
theorem result_apply_limit (hdepth : setting.options.maxDepth ≤ run.depth) :
    (Evaluation.apply ev node p direction args).result setting run =
      .error ⟨.recursionLimit setting.options.maxDepth p.name (run.graph.describe node),
        some p.span⟩ run := by
  have hremembered : (Eval.remembered? ⟨node, p.id, direction, args⟩).result setting run =
      .ok none run := congrArg (fun entry => EStateM.Result.ok entry run) hunknown
  have hread : (read : Eval Setting).result setting run = .ok setting run := rfl
  rw [Evaluation.apply, htree]
  dsimp only
  rw [result_bind_of_ok hremembered]
  dsimp only
  rw [result_bind_of_ok hread, result_bind_of_ok (result_get setting run), if_pos hdepth]
  rfl

/-- **Below the limit it runs the body** in an activation of its own. -/
theorem result_apply_new (hdepth : run.depth < setting.options.maxDepth) :
    (Evaluation.apply ev node p direction args).result setting run =
      (leave ⟨node, p.id, direction, args⟩ (ev.block tree.body)).result setting
        (run.opened node p direction tree args) := by
  have hremembered : (Eval.remembered? ⟨node, p.id, direction, args⟩).result setting run =
      .ok none run := congrArg (fun entry => EStateM.Result.ok entry run) hunknown
  have hread : (read : Eval Setting).result setting run = .ok setting run := rfl
  have hnoted : (Eval.remember ⟨node, p.id, direction, args⟩ .active).result setting run =
      .ok () { run with memo := run.memo.insert ⟨node, p.id, direction, args⟩ .active } := rfl
  rw [Evaluation.apply, htree]
  dsimp only
  rw [result_bind_of_ok hremembered]
  dsimp only
  rw [result_bind_of_ok hread, result_bind_of_ok (result_get setting run),
    if_neg (Nat.not_le.mpr hdepth), result_bind_of_ok hnoted]
  -- entering is running the body and closing the activation
  rw [result_bind, enter_eq, result_bind_of_ok (result_get _ _), inActivation,
    result_bind_of_ok (result_pushActivation _), ← result_bind]
  simp only [bind_assoc, pure_bind, leave]
  rfl

/-- The tree of an application that runs the body and succeeds. -/
theorem valid_left (hdepth : run.depth < setting.options.maxDepth) {flow : Flow} {finished : Run}
    {a : Activation} {rest : List Activation} {inside : List CallTree}
    (hstack : finished.activations = a :: rest)
    (hbody : (CallTree.mk (.block tree.body) (run.opened node p direction tree args)
      (.ok flow finished) inside).Valid setting) :
    (CallTree.mk (.apply node p direction args) run
      (.ok a.self (finished.closed ⟨node, p.id, direction, args⟩ rest a.self))
      [.mk (.block tree.body) (run.opened node p direction tree args) (.ok flow finished)
        inside]).Valid setting := by
  have hbodyMakes : Makes setting (run.opened node p direction tree args)
      (fun ev => ev.block tree.body) _ (.ok flow finished) := .ask (.block tree.body) _ inside
  have hmakes : Makes setting (run.opened node p direction tree args)
      (fun ev => leave ⟨node, p.id, direction, args⟩ (ev.block tree.body)) _ _ :=
    (hbodyMakes.closing_ok (fun _ _ _ => ofClosing_of_popActivation)
      (result_popActivation hstack)).bind (.const _)
  exact .mk (hmakes.congr fun _ => result_apply_new htree hunknown hdepth)
    fun t ht => List.mem_singleton.mp ht ▸ hbody

/-- The tree of an application that runs the body and fails. The activation is closed all the
same. -/
theorem valid_failed (hdepth : run.depth < setting.options.maxDepth) {failure : Failure}
    {after : Run} {a : Activation} {rest : List Activation} {inside : List CallTree}
    (hstack : after.activations = a :: rest)
    (hbody : (CallTree.mk (.block tree.body) (run.opened node p direction tree args)
      (.error failure after) inside).Valid setting) :
    (CallTree.mk (.apply node p direction args) run
      (.error failure { after with activations := rest })
      [.mk (.block tree.body) (run.opened node p direction tree args) (.error failure after)
        inside]).Valid setting := by
  have hbodyMakes : Makes setting (run.opened node p direction tree args)
      (fun ev => ev.block tree.body) _ (.error failure after) := .ask (.block tree.body) _ inside
  have hmakes : Makes setting (run.opened node p direction tree args)
      (fun ev => leave ⟨node, p.id, direction, args⟩ (ev.block tree.body)) _ _ :=
    (hbodyMakes.closing_error (fun _ _ _ => ofClosing_of_popActivation)
      (result_popActivation hstack)).bind_error _
  exact .mk (hmakes.congr fun _ => result_apply_new htree hunknown hdepth)
    fun t ht => List.mem_singleton.mp ht ▸ hbody

end

/-! #### What is known where a body starts and ends -/

/-- **Where a body starts**, its application is active, and there is one activation more. -/
theorem at_opened (hR : R.Sound) (hs : s.At R depth run)
    (hp : p ∈ R.strict.declarations.projections) (hdepth : depth < R.strict.options.maxDepth) :
    Progress.At R (depth + 1) (s.after (.enters ⟨node, p.id, direction, args⟩))
      (run.opened node p direction tree args) where
  shows := by
    refine ⟨?_, ?_, ?_⟩
    · show run.memo.insert _ _ = s.memo.insert _ _
      rw [hs.shows.memo]
    · -- the new activation is one deeper than the one below it
      show (run.depth + 1) :: run.activations.map Activation.depth =
        (s.active.length + 1) :: Progress.depths s.active
      rw [hs.shows.depth_eq, hs.shows.depths]
    · show s.active.length + 1 ≤ R.strict.options.maxDepth
      rw [hs.length_active]
      exact hdepth
  sees := List.forall_mem_cons.mpr ⟨hR.visible p hp, hs.sees⟩
  framed := List.forall_mem_cons.mpr ⟨List.cons_ne_nil _ _, hs.framed⟩
  length_active := congrArg Nat.succ hs.length_active

/-- **Where a body was left**, its application is done, and the ones around it are active. -/
theorem shows_closed {key : MemoKey} {s' : Progress} {finished : Run} {a : Activation}
    {rest : List Activation} (hactive : s'.active = key :: s.active)
    (hs : s'.Shows setting finished) (hstack : finished.activations = a :: rest) :
    (s'.after (.leaves key a.self)).Shows setting (finished.closed key rest a.self) where
  memo := by
    show finished.memo.insert _ _ = s'.memo.insert _ _
    rw [hs.memo]
  depths := by
    have hdepths := hs.depths
    rw [hstack, hactive] at hdepths
    show rest.map Activation.depth = Progress.depths s'.active.tail
    rw [hactive]
    exact (List.cons.inj hdepths).2
  bounded := by
    have hbounded := hs.bounded
    show s'.active.tail.length ≤ setting.options.maxDepth
    rw [List.length_tail]
    omega

/-! #### The trees of applications -/

/-- An application may have a result without the body being entered. -/
theorem unfolds_returns (hs : s.At R depth run) {id : NodeId}
    (hresult : ∀ {setting ev},
      (Evaluation.apply ev node p direction args).result setting run = .ok id run)
    (hallows : s.Allows R.strict (.returns ⟨node, p.id, direction, args⟩ id)) :
    (Query.apply node p direction args).Unfolds R (level + 1) s run := by
  have hvalid : ∀ setting,
      (CallTree.mk (.apply node p direction args) run (.ok id run) []).Valid setting :=
    fun setting => .mk ((Makes.const (pure id)).congr fun _ => hresult) (List.forall_mem_nil _)
  exact ⟨.ok id run, [], hvalid _, Nat.succ_le_succ (Nat.zero_le level), ⟨hallows, trivial⟩,
    ⟨rfl, hs.shows, hs.sees, hs.framed⟩, .inl (hvalid _)⟩

/-- It may also fail before that. -/
theorem unfolds_refuses {failure : Failure}
    (hstrict : ∀ {ev}, (Evaluation.apply ev node p direction args).result R.strict run =
      .error failure run)
    (hallows : s.Allows R.strict (.refuses ⟨node, p.id, direction, args⟩))
    (hcause : failure.cause.isDepth = false)
    (hlax : (∀ {ev}, (Evaluation.apply ev node p direction args).result R.lax run =
      .error failure run) ∨ R.excused failure) :
    (Query.apply node p direction args).Unfolds R (level + 1) s run := by
  have hvalid : ∀ {setting}, (∀ {ev}, (Evaluation.apply ev node p direction args).result setting
      run = .error failure run) →
      (CallTree.mk (.apply node p direction args) run (.error failure run) []).Valid setting :=
    fun h => .mk ((Makes.const (failWith failure.cause failure.span)).congr fun _ => h)
      (List.forall_mem_nil _)
  exact ⟨.error failure run, [], hvalid hstrict, Nat.succ_le_succ (Nat.zero_le level),
    ⟨hallows, trivial⟩, Cause.ne_depth hcause, hlax.imp (fun h => hvalid h) id⟩

/-- **An application that is entered** logs what its body logs, between entries of its own. -/
theorem unfolds_enters (hR : R.Sound) (hs : s.At R depth run)
    (hp : p ∈ R.strict.declarations.projections) (htree : p.direction? direction = some tree)
    (hunknown : s.memo.find? ⟨node, p.id, direction, args⟩ = none)
    (hdepth : depth < R.strict.options.maxDepth)
    (hbody : (Query.block tree.body).Unfolds R level
      (s.after (.enters ⟨node, p.id, direction, args⟩)) (run.opened node p direction tree args)) :
    (Query.apply node p direction args).Unfolds R (level + 1) s run := by
  obtain ⟨ending, inside, hvalid, hheight, haccepts, hleads, hlax⟩ := hbody
  have hallows : s.Allows R.strict (.enters ⟨node, p.id, direction, args⟩) :=
    ⟨hunknown, p, hp, rfl, by rw [htree]; rfl⟩
  have hheights : CallTree.heights [.mk (.block tree.body)
      (run.opened node p direction tree args) ending inside] + 1 ≤ level + 1 :=
    Nat.succ_le_succ (CallTree.heights_le fun t ht => List.mem_singleton.mp ht ▸ hheight)
  -- the body starts below the limit of the lax setting, too
  have hstrict : run.depth < R.strict.options.maxDepth := by
    rw [hs.shows.depth_eq, hs.length_active]
    exact hdepth
  have hdeeper : run.depth < R.lax.options.maxDepth := by
    rcases hR.maxDepth with hsame | ⟨hle, -⟩
    · exact hsame ▸ hstrict
    · exact Nat.lt_of_lt_of_le hstrict hle
  rw [← hs.shows.memo] at hunknown
  cases ending with
  | error failure after =>
    -- the body has failed in the activation that was opened for it
    have hresult : ((evaluator level).block tree.body).result R.strict
        (run.opened node p direction tree args) = .error failure after :=
      hvalid.answered_evaluator hheight
    obtain ⟨a, hstack, -⟩ := Evaluation.left_of_block hresult
    refine ⟨.error failure _, _, valid_failed htree hunknown hstrict hstack hvalid, hheights, ?_,
      hleads, hlax.imp (valid_failed htree hunknown hdeeper hstack) id⟩
    show s.Accepts R.strict (.enters _ :: (CallTree.log _ ++ []))
    rw [List.append_nil]
    exact ⟨hallows, haccepts⟩
  | ok flow finished =>
    obtain ⟨hactive, hshows, hsees, hframed⟩ := hleads
    -- the application is active still, so its activation is there to be closed
    obtain ⟨a, rest, hstack⟩ : ∃ a rest, finished.activations = a :: rest := by
      refine List.exists_cons_of_length_pos ?_
      rw [hshows.length_activations, hactive]
      exact Nat.succ_pos _
    refine ⟨_, _, valid_left htree hunknown hstrict hstack hvalid, hheights, ?_, ?_,
      .inl (valid_left htree hunknown hdeeper hstack (hlax.resolve_right id))⟩
    · show s.Accepts R.strict (.enters _ :: ((CallTree.log _ ++ []) ++ [.leaves _ a.self]))
      rw [List.append_nil]
      refine ⟨hallows, (Progress.accepts_append _ _).mpr ⟨haccepts, ?_, trivial⟩⟩
      show List.head? _ = some _
      rw [hactive]
      rfl
    · show Progress.Leads R s ((s.after (.enters _)).along
        ((CallTree.log _ ++ []) ++ [.leaves _ a.self])) _
      rw [List.append_nil, Progress.along_append]
      refine ⟨?_, shows_closed hactive hshows hstack, ?_, ?_⟩
      · show List.tail _ = s.active
        rw [hactive]
        rfl
      · exact (List.forall_mem_cons.mp (hstack ▸ hsees : ∀ b ∈ a :: rest, _)).2
      · exact ((Run.framed_iff hstack).mp hframed).2

/-- **An application** is refused, returns what is known, or is entered. -/
theorem unfolds_apply (hR : R.Sound) (hev : UnfoldsAt R level) (hs : s.At R depth run)
    (node : NodeId) (direction : Direction) (args : List Value)
    (hp : p ∈ R.strict.declarations.projections)
    (hlevel : R.strict.reserve depth ≤ level + 1) :
    (Query.apply node p direction args).Unfolds R (level + 1) s run := by
  have hmemo : run.memo = s.memo := hs.shows.memo
  cases htree : p.direction? direction with
  | none =>
    have hresult : ∀ {setting ev}, (Evaluation.apply ev node p direction args).result setting run =
        .error ⟨.unknownProjection (.noDirection p.name direction.name), some p.span⟩ run := by
      intro setting ev
      rw [Evaluation.apply, htree]
      rfl
    exact unfolds_refuses hresult (.inr ⟨p, hp, rfl, htree⟩) rfl (.inl hresult)
  | some tree =>
    cases hknown : s.memo.find? ⟨node, p.id, direction, args⟩ with
    | some entry =>
      refine unfolds_returns hs (result_apply_known htree (hmemo ▸ hknown)) ?_
      cases entry with
      | done result => exact .inl hknown
      | active => exact .inr ⟨hknown, rfl⟩
    | none =>
      by_cases hdepth : depth < R.strict.options.maxDepth
      · -- below the recursion limit there are levels for the body
        refine unfolds_enters hR hs hp htree hknown hdepth
          (hev.block _ (at_opened hR hs hp hdepth) ?_)
        have hheight := Declarations.height_body_le hp htree
        rw [R.strict.reserve_of_lt hdepth] at hlevel
        omega
      · have hlimit : R.strict.options.maxDepth ≤ run.depth := by
          rw [hs.shows.depth_eq, hs.length_active]
          exact Nat.not_lt.mp hdepth
        refine unfolds_refuses (result_apply_limit htree (hmemo ▸ hknown) hlimit) (.inl hknown)
          rfl ?_
        -- under a higher limit the body might be entered, which is why this failure is an excuse
        rcases hR.maxDepth with hsame | ⟨-, hexcused⟩
        · rw [← hsame] at hlimit ⊢
          exact .inl (result_apply_limit htree (hmemo ▸ hknown) hlimit)
        · exact .inr (hexcused _ rfl)

/-! ### All levels -/

/-- What an expression or a block asks for one level up makes its tree. -/
theorem unfolds_next {query : Query} (hs : s.At R depth run)
    (hlog : ∀ ending inside, query.log run ending inside = .starts run :: inside.flatten)
    (h : Unfolds R level s run fun ev => ev.next.ask query) :
    query.Unfolds R (level + 1) s run := by
  obtain ⟨calls, ending, hmakes, hcalls, haccepts, hleads, hlax⟩ := h
  have hstart : (CallTree.mk query run ending calls).log = .starts run :: CallTree.logs calls :=
    hlog _ _
  refine ⟨ending, calls, .mk hmakes fun t ht => (hcalls t ht).1, ?_, ?_, ?_, ?_⟩
  · exact Nat.succ_le_succ (CallTree.heights_le fun t ht => (hcalls t ht).2)
  · rw [hstart]
    exact ⟨hs.shows, haccepts⟩
  · rw [hstart]
    exact hleads
  · exact hlax.imp (fun h => .mk h.1 h.2) id

/-- **Everything unfolds at the level that it needs.** -/
theorem unfoldsAt (hR : R.Sound) (level : Nat) : UnfoldsAt R level := by
  induction level with
  | zero =>
    -- nothing can be evaluated without a level, since there is always a reserve
    have hpos := R.strict.reserve_pos
    refine ⟨fun {depth _ _} e _ h => ?_, fun {depth _ _} b _ h => ?_,
      fun {depth _ _} _ _ _ _ _ _ h => ?_⟩
    · have := hpos depth
      omega
    · have := hpos depth
      omega
    · have := hpos depth
      omega
  | succ level ih =>
    refine ⟨fun e hs h => ?_, fun b hs h => ?_, fun node _ direction args hs hp h => ?_⟩
    · exact unfolds_next hs (fun _ _ => rfl) (unfolds_expr ih hs hR e h)
    · exact unfolds_next hs (fun _ _ => rfl) (unfolds_block ih hs b h)
    · exact unfolds_apply hR ih hs node direction args hp h

end Evaluation

/-! ### Whole runs -/

/-- Nothing is known at the start of a run. -/
theorem Progress.at_start (R : Relaxation) (g : Graph) (m : Metadata)
    (trace : Option (List Instruction)) :
    Progress.At R 0 Progress.start (Run.start g m trace) where
  shows := ⟨rfl, rfl, Nat.zero_le _⟩
  sees _ ha := nomatch ha
  framed _ ha := nomatch ha
  length_active := rfl

namespace Eval

/-- Applies a projection at the top level, with a given evaluator. -/
def projectWith (ev : Evaluator) (node : NodeId) (handle : Handle) (args : List Value) :
    Eval NodeId := do
  if !(← graph).contains node then
    failWith (.typeMismatch (.foreignNode node)) none
  match (← read).declarations.get? handle.projection with
  | none => failWith (.unknownProjection (.unknownId handle.projection.index)) none
  | some projection => ev.apply node projection handle.direction args

variable {R : Relaxation} {setting : Setting} {run : Run} {ev : Evaluator} {node : NodeId}
  {handle : Handle} {args : List Value}

theorem result_projectWith : (projectWith ev node handle args).result setting run =
    if run.graph.contains node then
      match setting.declarations.get? handle.projection with
      | none => .error ⟨.unknownProjection (.unknownId handle.projection.index), none⟩ run
      | some projection => (ev.apply node projection handle.direction args).result setting run
    else .error ⟨.typeMismatch (.foreignNode node), none⟩ run := by
  have hgraph : Eval.graph.result setting run = .ok run.graph run := rfl
  have hread : (read : Eval Setting).result setting run = .ok setting run := rfl
  rw [projectWith, result_bind_of_ok hgraph]
  cases hnode : run.graph.contains node with
  | false => rfl
  | true =>
    dsimp only [Bool.not_true]
    rw [if_neg (by decide), if_pos rfl, result_bind_of_ok hread]
    cases setting.declarations.get? handle.projection <;> rfl

/-- A run evaluates with the levels that its setting needs. -/
theorem result_projectNode : (projectNode node handle args).result setting run =
    (projectWith (evaluator setting.levels) node handle args).result setting run := by
  have hgraph : Eval.graph.result setting run = .ok run.graph run := rfl
  have hread : (read : Eval Setting).result setting run = .ok setting run := rfl
  rw [result_projectWith, projectNode, result_bind_of_ok hgraph]
  cases hnode : run.graph.contains node with
  | false => rfl
  | true =>
    dsimp only [Bool.not_true]
    rw [if_neg (by decide), if_pos rfl, result_bind_of_ok hread]
    cases setting.declarations.get? handle.projection <;> rfl

variable {g : Graph} {m : Metadata} {trace : Option (List Instruction)}

/-- **The run of a declared projection unfolds**, within the levels of the strict setting. -/
theorem unfolds_start (hR : R.Sound) {p : Projection}
    (hp : p ∈ R.strict.declarations.projections) (node : NodeId) (direction : Direction)
    (args : List Value) :
    (Query.apply node p direction args).Unfolds R R.strict.levels Progress.start
      (Run.start g m trace) :=
  (Evaluation.unfoldsAt hR R.strict.levels).apply node direction args
    (Progress.at_start R g m trace) hp (Nat.le_of_eq R.strict.levels_eq_reserve.symm)

/-- **A whole run comes to the same under the lax setting**, unless it fails with an excuse. -/
theorem result_relaxed (hR : R.Sound) (node : NodeId) (handle : Handle) (args : List Value) :
    (projectNode node handle args).result R.lax (Run.start g m trace) =
        (projectNode node handle args).result R.strict (Run.start g m trace) ∨
      R.Excuses ((projectNode node handle args).result R.strict (Run.start g m trace)) := by
  rw [result_projectNode, result_projectNode, result_projectWith, result_projectWith]
  by_cases hnode : (Run.start g m trace).graph.contains node = true
  · rw [if_pos hnode, if_pos hnode]
    cases hprojection : R.strict.declarations.get? handle.projection with
    | none =>
      -- the lax setting may have such a projection, but then any failure is an excuse
      rcases hR.get handle.projection with hsame | ⟨-, hexcused⟩
      · rw [hsame, hprojection]
        exact .inl rfl
      · exact .inr (hexcused _)
    | some p =>
      have hlax : R.lax.declarations.get? handle.projection = some p := by
        rcases hR.get handle.projection with hsame | ⟨hnone, -⟩
        · exact hsame.trans hprojection
        · rw [hprojection] at hnone
          cases hnone
      rw [hlax]
      have hp : p ∈ R.strict.declarations.projections := List.mem_of_getElem? hprojection
      have hunfolds : (Query.apply node p handle.direction args).Unfolds R R.strict.levels
          Progress.start (Run.start g m trace) := unfolds_start hR hp node handle.direction args
      obtain ⟨ending, inside, hvalid, hheight, -, -, hrelaxed⟩ := hunfolds
      -- one tree says what both evaluators come to
      have hstrict := hvalid.answered_evaluator hheight
      rcases hrelaxed with hvalid' | hexcused
      · have hlax := hvalid'.answered_evaluator (Nat.le_trans hheight hR.levels)
        exact .inl (hlax.trans hstrict.symm)
      · refine .inr ?_
        show R.Excuses (Eval.result _ _ _)
        exact hstrict ▸ hexcused
  · rw [if_neg hnode, if_neg hnode]
    exact .inl rfl

end Eval

end SchemaProjection
