import SchemaProjection.Proofs.Graph.Versions
import SchemaProjection.Proofs.Run.Policies

/-!
# What an application without `return` leads to

All that edits and decorators put in the place of the node of an activation is a version of it; only
a `return` puts another node there (`Run.Advances.becomes`). So a body without `return` ends with a
version of the node that it was run on (`Evaluation.version_of_block`).
-/

namespace SchemaProjection

namespace Run

variable {allows : Run → NodeId → Bool} {r s t : Run}

/-- **The node of the activation becomes a version of itself**, unless a `return` was executed. -/
structure Becomes (r s : Run) : Prop where
  graph : r.graph ≤ s.graph
  version : ∀ a rest, r.activations = a :: rest → ∃ b, s.activations = b :: rest ∧
    (b.returning = false → a.returning = false ∧ s.graph.Version a.self b.self)

namespace Becomes

theorem refl (r : Run) : r.Becomes r :=
  ⟨le_rfl, fun a _ h => ⟨a, h, fun hflag => ⟨hflag, .refl _ _⟩⟩⟩

theorem trans (h₁ : r.Becomes s) (h₂ : s.Becomes t) (hs : s.graph.Ordered) : r.Becomes t where
  graph := le_trans h₁.graph h₂.graph
  version a rest ha := by
    obtain ⟨b, hb, hversion⟩ := h₁.version a rest ha
    obtain ⟨c, hc, hversion'⟩ := h₂.version b rest hb
    refine ⟨c, hc, fun hflag => ?_⟩
    obtain ⟨hflag', hlater⟩ := hversion' hflag
    obtain ⟨hflag'', hearlier⟩ := hversion hflag'
    exact ⟨hflag'', (hearlier.mono hs h₂.graph).trans hlater⟩

/-- The node stays. -/
theorem same (hle : r.graph ≤ s.graph) (hstack : s.activations = r.activations) : r.Becomes s :=
  ⟨hle, fun a _ h => ⟨a, hstack.trans h, fun hflag => ⟨hflag, .refl _ _⟩⟩⟩

/-- A version of the node takes its place. -/
theorem adopt {a : Activation} {rest : List Activation} {g : Graph} {updated : NodeId}
    (hstack : r.activations = a :: rest) (hle : r.graph ≤ g) (hversion : g.Version a.self updated) :
    r.Becomes ({ r with graph := g }.adopt updated) where
  graph := hle
  version b rest' hb := by
    cases hstack.symm.trans hb
    have hadopted : (({ r with graph := g } : Run).adopt updated).activations =
        { a with self := updated } :: rest := activations_adopt hstack updated
    exact ⟨_, hadopted, fun hflag => ⟨hflag, hversion⟩⟩

theorem note (h : r.Becomes s) (i : Instruction) : r.Becomes (s.note i) where
  graph := by
    rw [graph_note]
    exact h.graph
  version a rest ha := by
    rw [activations_note, graph_note]
    exact h.version a rest ha

end Becomes

theorem Applies.becomes {container updated : NodeId} {i : Instruction}
    (h : r.Applies container i updated s) (hr : r.graph.Ordered) : r.Becomes s := by
  cases h with
  | self stack is_self edited =>
    subst is_self
    exact (Becomes.adopt stack edited.extends (edited.version hr)).note i
  | detached stack not_self edited => exact .same edited.extends rfl

end Run

namespace Edits

variable {r s : Run} {node id : NodeId}

theorem TypeRole.name?_of_change {role : TypeRole} {type : NodeId} {shape changed : Shape}
    (h : role.change? type shape = some changed) : changed.name? = shape.name? := by
  cases role with
  | declared => exact Shape.name?_of_withType? h
  | returned => exact Shape.name?_of_withReturnType? h

theorem SetsType.becomes {role : TypeRole} {type : NodeId} (h : SetsType role node type r s)
    (hr : r.graph.Ordered) : r.Becomes s := by
  cases h with
  | same => exact .refl r
  | self stack is_self differs retyped =>
    have hin : r.graph.contains node := Graph.contains_of_read (role.alters type).unknown retyped
    have hversion := Graph.version_nextId hr hin ((role.alters type).kind retyped)
      (TypeRole.name?_of_change retyped)
    exact (Run.Becomes.adopt stack (Graph.le_push _ _) (is_self ▸ hversion)).note _
  | live stack not_self found differs applies => exact applies.becomes hr
  | detached => exact .same (Graph.le_push _ _) rfl

theorem Materializes.becomes (h : Materializes node r id s) (hr : r.graph.Ordered)
    (hbegun : r.Begun) : r.Becomes s := by
  cases h with
  | own => exact .refl r
  | self stack old is_self =>
    have hversion := Graph.version_nextId hr (hbegun.contains old) rfl rfl
    exact .adopt stack (Graph.le_push _ _) (is_self ▸ hversion)
  | liveOwn => exact .refl r
  | @live a rest name live members shape g stack old not_self found live_old has_members copied
      changed =>
    have hle : r.graph ≤ g := copied ▸ Graph.le_push _ _
    have hself := Graph.contains_of_members? has_members
    have hg : g.Ordered := copied ▸ hr.push fun origin h =>
      Option.some.inj h ▸ hbegun.contains live_old
    rw [← Graph.shape_of_le hle hself] at changed
    have hversion := Graph.version_nextId hg (Graph.contains_of_le hle hself)
      (Shape.kind_of_withMembers? changed) (Shape.name?_of_withMembers? changed)
    exact .adopt stack (le_trans hle (Graph.le_push _ _)) hversion
  | detached => exact .same (Graph.le_push _ _) rfl

end Edits

namespace Run

variable {allows : Run → NodeId → Bool} {r s : Run}

/-- **A record says what becomes of the node** of the activation. -/
theorem Advances.becomes (h : Advances allows r s) (hr : r.graph.Ordered) (hbegun : r.Begun) :
    r.Becomes s := by
  have hordered : ∀ {t : Run}, Advances allows r t → t.graph.Ordered := fun ht =>
    ht.preserves Graph.preserved_ordered hbegun hr
  induction h with
  | refl r => exact .refl r
  | metadata _ _ ih => exact ⟨(ih hr hbegun hordered).graph, (ih hr hbegun hordered).version⟩
  | memo _ _ ih => exact ⟨(ih hr hbegun hordered).graph, (ih hr hbegun hordered).version⟩
  | frames before stack frames ih =>
    refine (ih hr hbegun hordered).trans ⟨le_rfl, fun a rest ha => ?_⟩ (hordered before)
    cases stack.symm.trans ha
    exact ⟨_, rfl, fun hflag => ⟨hflag, .refl _ _⟩⟩
  | supply before supplied ih =>
    exact (ih hr hbegun hordered).trans (.same supplied.extends rfl) (hordered before)
  | edit before applies ih =>
    exact (ih hr hbegun hordered).trans (applies.becomes (hordered before)) (hordered before)
  | setType before sets ih =>
    exact (ih hr hbegun hordered).trans (sets.becomes (hordered before)) (hordered before)
  | decorate before _ prepared ih =>
    exact (ih hr hbegun hordered).trans (prepared.becomes (hordered before) (before.begun hbegun))
      (hordered before)
  | giveBack before stack node ih =>
    -- any node may take the place, and the flag says so
    refine (ih hr hbegun hordered).trans ⟨le_rfl, fun a rest ha => ?_⟩ (hordered before)
    cases stack.symm.trans ha
    exact ⟨_, rfl, fun hflag => nomatch hflag⟩
  | apply before _ _ inside ih _ =>
    exact (ih hr hbegun hordered).trans (.same inside.frames_of.graph rfl) (hordered before)

end Run

namespace Evaluation

variable {setting : Setting} {run finished : Run} {node : NodeId} {projection : Projection}
  {direction : Direction} {tree : DirectionTree} {args : List Value}

/-- **A body without `return` ends with a version of the node** that it was run on. -/
theorem version_of_block {levels : Nat} {flow : Flow} (hrun : run.graph.Ordered)
    (hbegun : run.Begun) (hquiet : tree.body.returns = false)
    (h : ((evaluator levels).block tree.body).result setting
      (run.entered node projection direction tree args) = .ok flow finished) :
    ∃ a, finished.activations = a :: run.activations ∧ finished.graph.Version node a.self := by
  have hbecomes := ((evaluator_advances setting levels).block tree.body flow finished h).becomes
    hrun hbegun
  obtain ⟨a, hstack, hversion⟩ := hbecomes.version _ _ rfl
  have hsteps : Eval.Steps setting (run.entered node projection direction tree args) false
      ((evaluator levels).block tree.body) :=
    (evaluator_steps setting levels).block tree.body fun hreturns => by
      rw [hquiet] at hreturns
      cases hreturns
  -- without a `return` in the body the flag is as it was at the start
  obtain ⟨b, hb, hkept⟩ := hsteps.kept h
  cases hstack.symm.trans hb
  exact ⟨a, hstack, (hversion (hkept.returning rfl)).2⟩

theorem version_of_enter {levels : Nat} {id : NodeId} {after : Run} (hrun : run.graph.Ordered)
    (hbegun : run.Begun) (hquiet : tree.body.returns = false)
    (h : (enter (evaluator levels) node projection direction tree args).result setting run =
      .ok id after) : after.graph.Version node id := by
  obtain ⟨flow, finished, a, rest, hblock, hstack, rfl, rfl⟩ := ok_of_enter h
  obtain ⟨b, hb, hversion⟩ := version_of_block hrun hbegun hquiet hblock
  cases hstack.symm.trans hb
  exact hversion

end Evaluation

end SchemaProjection
