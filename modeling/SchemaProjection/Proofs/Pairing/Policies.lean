import SchemaProjection.Proofs.Pairing.Recording
import SchemaProjection.Proofs.Run.Policies

/-!
# With and without a policy

Evaluation under a policy goes the same way as evaluation without one, until a decorator is refused.
So a body that succeeds under a policy does the same as without it
(`Run.plain_of_governed`). This is a pairing in which all failures of the first run are excused.
-/

namespace SchemaProjection

namespace Evaluation

open Eval

variable {P : Pairing} (hP : P.Sound) (hexcused : ∀ failure, P.excused failure)
  {allows : Run → NodeId → Bool} {run other : Run}
include hexcused

/-- What needs a permission is excused if it does not get one. -/
theorem follows_permit {α : Type} [Refers α] (name : Word) (args : List Value) {x y : Eval α}
    (h : Follows P run other x y) :
    Follows P run other (permit allows name args >>= fun _ => x) y := by
  cases hpermit : (permit allows name args).result P.left run with
  | ok _ after =>
    obtain ⟨rfl, -⟩ := ok_of_permit hpermit
    unfold Follows at h ⊢
    rw [result_bind_of_ok hpermit]
    exact h
  | error failure after =>
    have hfails : (permit allows name args >>= fun _ => x).result P.left run =
        .error failure after := by
      rw [result_bind, hpermit]
    exact .of_excused failure after hfails (hexcused failure)

include hP

theorem follows_governedExpr {ev ev' : Evaluator} (hev : ev.Follows P ev')
    (hp : run.Paired P other) (e : Expr) :
    Follows P run other (governedExpr allows ev e) (expr ev' e) := by
  cases e with
  | decorator span name args =>
    refine (follows_values hev hp args).bind fun vs _ _ _ hp hvs => ?_
    refine follows_permit hexcused name vs ?_
    refine (follows_decorated hP hp hvs).bind fun prepared _ _ _ hp hprepared => ?_
    refine (follows_callHost hP hp .decorator name hprepared).bind fun v _ _ _ hp hv => ?_
    exact .pure hp (a := Operand.value v) hv
  | literal span literal => exact follows_expr hP hev hp (.literal span literal)
  | name word => exact follows_expr hP hev hp (.name word)
  | member span target word => exact follows_expr hP hev hp (.member span target word)
  | call span callee args => exact follows_expr hP hev hp (.call span callee args)
  | project span target name args => exact follows_expr hP hev hp (.project span target name args)
  | lambda span params body => exact follows_expr hP hev hp (.lambda span params body)
  | unary span op operand => exact follows_expr hP hev hp (.unary span op operand)
  | binary span op lhs rhs => exact follows_expr hP hev hp (.binary span op lhs rhs)

/-- **Evaluation under a policy does what evaluation does**, unless it fails. -/
theorem governed_follows (allows : Run → NodeId → Bool) (levels : Nat) :
    (governed allows levels).Follows P (evaluator levels) := by
  induction levels with
  | zero =>
    exact ⟨evaluator_steps _ 0, evaluator_steps _ 0, fun _ _ => .inr rfl, fun _ _ => .inr rfl,
      fun _ _ _ _ _ => .inr rfl⟩
  | succ levels ih =>
    have hsteps : (governed allows (levels + 1)).Steps P.left := governed_steps allows _ _
    rw [governed] at hsteps ⊢
    rw [evaluator_succ]
    exact ⟨hsteps, ih.right.next, follows_governedExpr hP hexcused ih, (ih.next hP).block,
      (ih.next hP).apply⟩

end Evaluation

namespace Run

/-- The same run twice, with all failures of the first one excused. -/
private def leniently (setting : Setting) (mark : Nat) : Pairing :=
  .same setting mark (fun _ => True) fun _ t t' => t' = t

variable {setting : Setting} {g : Graph} {m : Metadata} {trace : Option (List Instruction)}
  {node : NodeId} {projection : Projection} {direction : Direction} {tree : DirectionTree}
  {args : List Value}

/-- A body is paired with itself where it starts. -/
private theorem outset_paired (hclosed : g.Closed) (hnode : g.contains node)
    (hargs : g.Knows args) :
    (outset g m trace node projection direction tree args).Paired (leniently setting g.size)
      (outset g m trace node projection direction tree args) where
  graph := hclosed.shifted_self
  metadata := rfl
  activations := (Shift.renumber_of_gap_eq_zero rfl _).symm
  knows_activations := by
    refine Graph.knows_list_iff.mpr fun a ha id hid => ?_
    rw [List.mem_singleton.mp ha] at hid
    rcases List.mem_cons.mp hid with rfl | hid
    · exact hnode
    · rcases List.mem_append.mp hid with hid | hid
      · exact Evaluation.knows_bindings tree.params hargs id hid
      · cases hid
  visible _ _ := trivial
  framed a ha := by
    rw [List.mem_singleton.mp ha]
    exact List.cons_ne_nil _ _
  memo key := by
    rw [Shift.renumber_of_gap_eq_zero rfl]
    cases (outset g m trace node projection direction tree args).memo.find? key with
    | none => rfl
    | some entry =>
      rw [Option.map_some, Shift.renumber_of_gap_eq_zero rfl]
  knows_memo key entry hentry := by
    -- the only entry is the application itself, which is active
    have hentry : (Memo.empty.insert ⟨node, projection.id, direction, args⟩ .active).find? key =
        some entry := hentry
    rw [Memo.find?_insert, Memo.find?_empty] at hentry
    split at hentry
    · cases hentry
      exact fun _ hid => nomatch hid
    · cases hentry
  trace := rfl
  watermark := ⟨rfl, rfl⟩

/-- **A body that succeeds under a policy succeeds without it**, with the same graph, the same
activations and the same trace. -/
theorem plain_of_governed (hclosed : g.Closed) (hnode : g.contains node) (hargs : g.Knows args)
    {allows : Run → NodeId → Bool} {levels : Nat} {flow : Flow} {finished : Run}
    (h : ((Evaluation.governed allows levels).block tree.body).result setting
      (outset g m trace node projection direction tree args) = .ok flow finished) :
    ∃ plain, ((evaluator levels).block tree.body).result setting
        (outset g m trace node projection direction tree args) = .ok flow plain ∧
      plain.graph = finished.graph ∧ plain.activations = finished.activations ∧
      plain.trace = finished.trace := by
  have hsound : (leniently setting g.size).Sound :=
    Pairing.same_sound (fun ht _ => ht) fun ht _ => congrArg (Option.map _) ht
  have hgoverned := Evaluation.governed_follows hsound (fun _ => trivial) allows levels
  have hpaired : (outset g m trace node projection direction tree args).Paired
      (leniently setting g.size) (outset g m trace node projection direction tree args) :=
    outset_paired hclosed hnode hargs
  obtain ⟨plain, hplain, -, hgraph, hp⟩ := (hgoverned.block hpaired tree.body).same_ok h
  exact ⟨plain, hplain, hgraph, hp.activations.trans (Shift.renumber_of_gap_eq_zero rfl _),
    hp.trace⟩

end Run

end SchemaProjection
