import SchemaProjection.Proofs.Graph.Lineages
import SchemaProjection.Proofs.Run.Frames
import SchemaProjection.Proofs.Run.LiveMembers

/-!
# What a run did

`Run.Advances` is a record of how a run came from one state to another: by which edits, decorators
and applications, one after the other. It is finer than the moves of a run. An edit is one item with
all that it allocates and records, and an application is one item that contains the record of its
body, so the record has the nesting of the evaluation. What every item preserves is preserved by
evaluation, by an induction on the record and without a look at the evaluator.

Which decorators may occur is a parameter: `allows run node` says whether, in a state, one may be
applied to a node. A run without certain decorators has a record without them.

`Eval.Advances` says of a step that what it does, if it succeeds, has such a record. This module
shows it for edits; for evaluation see the module after it.
-/

namespace SchemaProjection

namespace Run

/-- **The record of a run** between two states. -/
inductive Advances (allows : Run → NodeId → Bool) : Run → Run → Prop
  | refl (r : Run) : Advances allows r r
  /-- A host function writes metadata. -/
  | metadata {r s : Run} (before : Advances allows r s) (metadata : Metadata) :
    Advances allows r { s with metadata }
  | memo {r s : Run} (before : Advances allows r s) (memo : Memo) :
    Advances allows r { s with memo }
  /-- A frame is opened or closed, or a name is bound. -/
  | frames {r s : Run} (before : Advances allows r s) {a : Activation} {rest : List Activation}
    (stack : s.activations = a :: rest) (frames : List Frame) :
    Advances allows r { s with activations := { a with frames } :: rest }
  /-- Types are allocated. -/
  | supply {r s : Run} (before : Advances allows r s) {g : Graph} (supplied : s.graph.Supplied g) :
    Advances allows r { s with graph := g }
  | edit {r s t : Run} (before : Advances allows r s) {container updated : NodeId} {i : Instruction}
    (applies : s.Applies container i updated t) : Advances allows r t
  | setType {r s t : Run} (before : Advances allows r s) {role : Edits.TypeRole}
    {node type : NodeId} (sets : Edits.SetsType role node type s t) : Advances allows r t
  /-- The target of a decorator is made the run's own. -/
  | decorate {r s t : Run} (before : Advances allows r s) {node id : NodeId}
    (allowed : allows s node) (prepared : Edits.Materializes node s id t) : Advances allows r t
  /-- A `return` replaces the node of the activation. -/
  | giveBack {r s : Run} (before : Advances allows r s) {a : Activation} {rest : List Activation}
    (stack : s.activations = a :: rest) (node : NodeId) :
    Advances allows r { s with activations := { a with self := node, returning := true } :: rest }
  /-- A projection is applied, in an activation of its own. -/
  | apply {r s t : Run} (before : Advances allows r s) {a : Activation}
    (depth : a.depth = s.depth + 1) (returning : a.returning = false)
    (inside : Advances allows { s with activations := a :: s.activations } t) :
    Advances allows r { t with activations := s.activations }

namespace Advances

variable {allows : Run → NodeId → Bool} {r s t : Run}

theorem trans (h₁ : Advances allows r s) (h₂ : Advances allows s t) : Advances allows r t := by
  -- on the second record: its items are added to the first one
  induction h₂ with
  | refl => exact h₁
  | metadata _ metadata ih => exact (ih h₁).metadata metadata
  | memo _ memo ih => exact (ih h₁).memo memo
  | frames _ stack frames ih => exact (ih h₁).frames stack frames
  | supply _ supplied ih => exact (ih h₁).supply supplied
  | edit _ applies ih => exact (ih h₁).edit applies
  | setType _ sets ih => exact (ih h₁).setType sets
  | decorate _ allowed prepared ih => exact (ih h₁).decorate allowed prepared
  | giveBack _ stack node ih => exact (ih h₁).giveBack stack node
  | apply _ depth returning inside ih _ => exact (ih h₁).apply depth returning inside

end Advances

/-! ### What each item does to the state -/

variable {r s : Run}

theorem depth_of_stack {a : Activation} {rest : List Activation} (h : r.activations = a :: rest) :
    r.depth = a.depth := by
  rw [depth, h]
  rfl

/-- What one item does to the frame of a state: it extends the graph, and of the stack it changes
the innermost activation only, and neither its depth nor a flag that is up. -/
structure Frames (r s : Run) : Prop where
  graph : r.graph ≤ s.graph
  watermark : s.watermark = r.watermark
  stack : ∀ a rest, r.activations = a :: rest → ∃ b, s.activations = b :: rest ∧
    b.depth = a.depth ∧ (a.returning = true → b.returning = true)

theorem Frames.refl (r : Run) : r.Frames r := ⟨le_rfl, rfl, fun a _ h => ⟨a, h, rfl, id⟩⟩

theorem Frames.trans {t : Run} (h₁ : r.Frames s) (h₂ : s.Frames t) : r.Frames t where
  graph := le_trans h₁.graph h₂.graph
  watermark := h₂.watermark.trans h₁.watermark
  stack a rest ha := by
    obtain ⟨b, hb, hdepth, hflag⟩ := h₁.stack a rest ha
    obtain ⟨c, hc, hdepth', hflag'⟩ := h₂.stack b rest hb
    exact ⟨c, hc, hdepth'.trans hdepth, hflag' ∘ hflag⟩

/-- The graph may grow. -/
theorem Frames.extend {g : Graph} (h : r.graph ≤ g) : r.Frames { r with graph := g } :=
  ⟨h, rfl, fun a _ ha => ⟨a, ha, rfl, id⟩⟩

/-- Another node may take the place of the one in the innermost activation. -/
theorem Frames.adopt (r : Run) (id : NodeId) : r.Frames (r.adopt id) :=
  ⟨le_rfl, rfl, fun _ _ ha => ⟨_, activations_adopt ha id, rfl, fun h => h⟩⟩

theorem Frames.note (r : Run) (i : Instruction) : r.Frames (r.note i) where
  graph := le_of_eq (graph_note i r).symm
  watermark := watermark_note i r
  stack a _ ha := ⟨a, (activations_note i r).trans ha, rfl, id⟩

@[simp] theorem depth_adopt (id : NodeId) (r : Run) : (r.adopt id).depth = r.depth := by
  unfold depth adopt
  cases r.activations <;> rfl

theorem trace_note_of_depth_ne {i : Instruction} (h : r.depth ≠ 1) :
    (r.note i).trace = r.trace := by
  rw [note, if_neg h]

theorem Applies.frames {container updated : NodeId} {i : Instruction}
    (h : r.Applies container i updated s) : r.Frames s := by
  cases h with
  | self stack is_self edited =>
    exact ((Frames.extend edited.extends).trans (.adopt _ _)).trans (.note _ _)
  | detached stack not_self edited => exact .extend edited.extends

theorem Applies.trace_eq {container updated : NodeId} {i : Instruction}
    (h : r.Applies container i updated s) (hdepth : r.depth ≠ 1) : s.trace = r.trace := by
  cases h with
  | self stack is_self edited => exact trace_note_of_depth_ne (by rw [depth_adopt]; exact hdepth)
  | detached stack not_self edited => rfl

/-- **An edit shows in the activation and in the trace** exactly if it was made of the node of the
activation: there its copy takes the place of the node, and in the outermost activation the edit is
recorded. -/
theorem Applies.shows {container updated : NodeId} {i : Instruction}
    (h : r.Applies container i updated s) {a : Activation} {rest : List Activation}
    (hstack : r.activations = a :: rest) :
    s.activations =
        { a with self := if a.self = container then updated else a.self } :: rest ∧
      s.trace = if a.self = container ∧ a.depth = 1 then r.trace.map (· ++ [i]) else r.trace := by
  cases h with
  | @self g _ b below stack is_self edited =>
    cases hstack.symm.trans stack
    have hself : a.self = container := is_self.symm
    have hadopted : (({ r with graph := g } : Run).adopt updated).activations =
        { a with self := updated } :: rest := activations_adopt hstack updated
    have hdepth : (({ r with graph := g } : Run).adopt updated).depth = a.depth := by
      rw [depth_adopt]
      exact depth_of_stack hstack
    rw [activations_note, hadopted, if_pos hself]
    refine ⟨rfl, ?_⟩
    rw [note, hdepth]
    by_cases hone : a.depth = 1
    · rw [if_pos hone, if_pos ⟨hself, hone⟩]
      rfl
    · rw [if_neg hone, if_neg fun h => hone h.2]
      rfl
  | detached stack not_self edited =>
    cases hstack.symm.trans stack
    have hself : ¬ a.self = container := fun heq => not_self heq.symm
    rw [if_neg hself, if_neg fun h => hself h.1]
    exact ⟨hstack, rfl⟩

end Run

namespace Edits

variable {run after : Run} {node id : NodeId}

theorem Materializes.frames (h : Materializes node run id after) : run.Frames after := by
  cases h with
  | own => exact .refl _
  | self => exact (Run.Frames.extend (Graph.le_push _ _)).trans (.adopt _ _)
  | liveOwn => exact .refl _
  | live stack old not_self found live_old has_members copied changed =>
    subst copied
    -- two nodes are allocated, the copies of the member and of the container
    exact (Run.Frames.extend (le_trans (Graph.le_push _ _) (Graph.le_push _ _))).trans (.adopt _ _)
  | detached => exact .extend (Graph.le_push _ _)

theorem Materializes.trace_eq (h : Materializes node run id after) : after.trace = run.trace := by
  cases h <;> rfl

theorem SetsType.frames {role : TypeRole} {type : NodeId} (h : SetsType role node type run after) :
    run.Frames after := by
  cases h with
  | same => exact .refl _
  | self =>
    exact ((Run.Frames.extend (Graph.le_push _ _)).trans (.adopt _ _)).trans (.note _ _)
  | live stack not_self found differs applies => exact applies.frames
  | detached => exact .extend (Graph.le_push _ _)

theorem SetsType.trace_eq {role : TypeRole} {type : NodeId}
    (h : SetsType role node type run after) (hdepth : run.depth ≠ 1) : after.trace = run.trace := by
  cases h with
  | same => rfl
  | self => exact Run.trace_note_of_depth_ne (by rw [Run.depth_adopt]; exact hdepth)
  | live stack not_self found differs applies => exact applies.trace_eq hdepth
  | detached => rfl

end Edits

namespace Run.Advances

variable {allows : Run → NodeId → Bool} {r s : Run}

/-- **A run only extends the graph** and works on the innermost activation. -/
theorem frames_of (h : Advances allows r s) : r.Frames s := by
  induction h with
  | refl r => exact .refl r
  | metadata _ _ ih => exact ⟨ih.graph, ih.watermark, ih.stack⟩
  | memo _ _ ih => exact ⟨ih.graph, ih.watermark, ih.stack⟩
  | frames _ stack frames ih =>
    refine ih.trans ⟨le_rfl, rfl, fun a rest ha => ?_⟩
    cases stack.symm.trans ha
    exact ⟨_, rfl, rfl, id⟩
  | supply _ supplied ih => exact ih.trans (.extend supplied.extends)
  | edit _ applies ih => exact ih.trans applies.frames
  | setType _ sets ih => exact ih.trans sets.frames
  | decorate _ _ prepared ih => exact ih.trans prepared.frames
  | giveBack _ stack node ih =>
    refine ih.trans ⟨le_rfl, rfl, fun a rest ha => ?_⟩
    cases stack.symm.trans ha
    exact ⟨_, rfl, rfl, fun _ => rfl⟩
  | apply _ _ _ _ ih inner =>
    -- the activation of the application is gone, what is below was not touched
    exact ih.trans ⟨inner.graph, inner.watermark, fun a _ ha => ⟨a, ha, rfl, id⟩⟩

theorem begun (h : Advances allows r s) (hbegun : r.Begun) : s.Begun := by
  rw [Begun, h.frames_of.watermark]
  exact Nat.le_trans hbegun (Graph.size_le_of_le h.frames_of.graph)

theorem depth_eq (h : Advances allows r s) (hdepth : 0 < r.depth) : s.depth = r.depth := by
  cases hstack : r.activations with
  | nil =>
    rw [depth, hstack] at hdepth
    cases hdepth
  | cons a rest =>
    obtain ⟨b, hb, hsame, -⟩ := h.frames_of.stack a rest hstack
    rw [depth_of_stack hb, depth_of_stack hstack, hsame]

/-- **Nothing is recorded outside of the outermost activation.** -/
theorem trace_eq (h : Advances allows r s) (hdepth : 1 < r.depth) : s.trace = r.trace := by
  induction h with
  | refl => rfl
  | metadata _ _ ih => exact ih hdepth
  | memo _ _ ih => exact ih hdepth
  | frames _ _ _ ih => exact ih hdepth
  | supply _ _ ih => exact ih hdepth
  | edit before applies ih =>
    have hsame := before.depth_eq (Nat.zero_lt_of_lt hdepth)
    exact (applies.trace_eq (by omega)).trans (ih hdepth)
  | setType before sets ih =>
    have hsame := before.depth_eq (Nat.zero_lt_of_lt hdepth)
    exact (sets.trace_eq (by omega)).trans (ih hdepth)
  | decorate _ _ prepared ih => exact prepared.trace_eq.trans (ih hdepth)
  | giveBack _ _ _ ih => exact ih hdepth
  | @apply r s t before a depth _ _ ih inner =>
    -- the body of the application is one level deeper still
    have hsame := before.depth_eq (Nat.zero_lt_of_lt hdepth)
    have hinside : 1 < Run.depth { s with activations := a :: s.activations } := by
      rw [depth_of_stack rfl]
      omega
    exact (inner hinside).trans (ih hdepth)

end Run.Advances

/-! ### Invariants of graphs -/

/-- **What edits, and the copies that decorators need, preserve.** Such a property of graphs is an
invariant of runs (`Run.Advances.preserves`). -/
structure Graph.Preserved (P : Graph → Prop) : Prop where
  supplied : ∀ {g h}, P g → g.Supplied h → P h
  edited : ∀ {g h container updated i}, P g → g.Edited container i h updated → P h
  /-- A copy of a member is put in its place. -/
  copied : ∀ {g : Graph} {container member : NodeId} {members : NameTable} {name : String}
    {shape : Shape}, P g → (g.shape container).members? = some members →
    members.get? name = some member → g.contains member →
    (g.shape container).withMembers? (members.replace name g.nextId) = some shape →
    P ((g.push ⟨some member, g.shape member⟩).push ⟨some container, shape⟩)

namespace Run

variable {allows : Run → NodeId → Bool} {r s : Run} {P : Graph → Prop}

theorem Begun.contains (hr : r.Begun) {id : NodeId} (hid : id.index < r.watermark) :
    r.graph.contains id := Graph.contains_iff.mpr (Nat.lt_of_lt_of_le hid hr)

/-- Setting a type allocates a copy of a node, and possibly one of its container. -/
theorem graph_of_setsType {role : Edits.TypeRole} {node type : NodeId}
    (h : Edits.SetsType role node type r s) :
    r.graph.Supplied s.graph ∨
      ∃ container updated i, i.edit = role.edit ∧ r.graph.Edited container i s.graph updated := by
  cases h with
  | same => exact .inl .refl
  | self stack is_self differs retyped =>
    rw [graph_note]
    exact .inl (Graph.supplied_alter (role.alters type) retyped)
  | live stack not_self found differs applies => exact .inr ⟨_, _, _, rfl, applies.edited⟩
  | detached stack not_self not_found differs retyped =>
    exact .inl (Graph.supplied_alter (role.alters type) retyped)

/-- Only nodes from before the run are copied for a decorator, and these are in the graph. -/
theorem graph_of_materializes (hbegun : r.Begun) {node id : NodeId}
    (h : Edits.Materializes node r id s) :
    r.graph.Supplied s.graph ∨ ∃ container members name member shape,
      (r.graph.shape container).members? = some members ∧ members.get? name = some member ∧
      r.graph.contains member ∧
      (r.graph.shape container).withMembers? (members.replace name r.graph.nextId) = some shape ∧
      s.graph =
        (r.graph.push ⟨some member, r.graph.shape member⟩).push ⟨some container, shape⟩ := by
  cases h with
  | own owned => exact .inl .refl
  | self stack old is_self => exact .inl (Graph.supplied_copy (hbegun.contains old))
  | liveOwn stack old not_self found owned => exact .inl .refl
  | live stack old not_self found live_old has_members copied changed =>
    subst copied
    obtain ⟨members, hmembers, hlive, -⟩ := Graph.of_live? found
    cases has_members.symm.trans hmembers
    exact .inr ⟨_, _, _, _, _, has_members, hlive, hbegun.contains live_old, changed, rfl⟩
  | detached stack old not_self not_found =>
    exact .inl (Graph.supplied_copy (hbegun.contains old))

private theorem preserved_setType (hP : Graph.Preserved P) (hr : P r.graph) {role : Edits.TypeRole}
    {node type : NodeId} (h : Edits.SetsType role node type r s) : P s.graph := by
  rcases graph_of_setsType h with hsupplied | ⟨container, updated, i, -, hedited⟩
  · exact hP.supplied hr hsupplied
  · exact hP.edited hr hedited

private theorem preserved_decorate (hP : Graph.Preserved P) (hr : P r.graph) (hbegun : r.Begun)
    {node id : NodeId} (h : Edits.Materializes node r id s) : P s.graph := by
  rcases graph_of_materializes hbegun h with
    hsupplied | ⟨container, members, name, member, shape, hmembers, hmember, hin, hchanged, hgraph⟩
  · exact hP.supplied hr hsupplied
  · rw [hgraph]
    exact hP.copied hr hmembers hmember hin hchanged

/-- **An invariant of graphs** holds of the graph that a run has reached. -/
theorem Advances.preserves (hP : Graph.Preserved P) (h : Advances allows r s) (hbegun : r.Begun)
    (hr : P r.graph) : P s.graph := by
  induction h with
  | refl => exact hr
  | metadata _ _ ih => exact ih hbegun hr
  | memo _ _ ih => exact ih hbegun hr
  | frames _ _ _ ih => exact ih hbegun hr
  | supply _ supplied ih => exact hP.supplied (ih hbegun hr) supplied
  | edit _ applies ih => exact hP.edited (ih hbegun hr) applies.edited
  | setType _ sets ih => exact preserved_setType hP (ih hbegun hr) sets
  | decorate before _ prepared ih =>
    exact preserved_decorate hP (ih hbegun hr) (before.begun hbegun) prepared
  | giveBack _ _ _ ih => exact ih hbegun hr
  | apply before _ _ _ ih inner => exact inner (before.begun hbegun) (ih hbegun hr)

end Run

theorem Graph.preserved_ordered : Graph.Preserved Graph.Ordered where
  supplied hg hs := hs.ordered hg
  edited hg he := he.ordered hg
  copied {g container member members name shape} hg hmembers _ hmember _ := by
    have hle := Graph.le_push g ⟨some member, g.shape member⟩
    have hcopied : (g.push ⟨some member, g.shape member⟩).Ordered :=
      hg.push fun origin h => Option.some.inj h ▸ hmember
    exact hcopied.push fun origin h =>
      Option.some.inj h ▸ Graph.contains_of_le hle (Graph.contains_of_members? hmembers)

/-! ### Steps -/

namespace Eval

variable {allows : Run → NodeId → Bool} {setting : Setting} {run : Run} {α β : Type}

/-- **What a step does, if it succeeds, has a record.** -/
def Advances (allows : Run → NodeId → Bool) (setting : Setting) (run : Run) (x : Eval α) : Prop :=
  ∀ a after, x.result setting run = .ok a after → run.Advances allows after

/-- A step that leaves the state as it is. -/
theorem Advances.still {x : Eval α} {a : α} (h : x.result setting run = .ok a run) :
    Advances allows setting run x := by
  intro b after hok
  rw [h] at hok
  cases hok
  exact .refl run

theorem Advances.pure (a : α) : Advances allows setting run (pure a) := .still rfl

theorem Advances.failWith (cause : Cause) (span : Option Span) :
    Advances allows setting run (Eval.failWith cause span : Eval α) := fun _ _ h => nomatch h

theorem Advances.fail (span : Span) (cause : Cause) :
    Advances allows setting run (Eval.fail span cause : Eval α) := .failWith _ _

/-- **Sequencing.** The second part may use what the first part came to. -/
theorem Advances.bind {x : Eval α} {f : α → Eval β} (hx : Advances allows setting run x)
    (hf : ∀ a after, x.result setting run = .ok a after → Advances allows setting after (f a)) :
    Advances allows setting run (x >>= f) := by
  intro b after hok
  obtain ⟨a, middle, hfirst, hsecond⟩ := ok_of_bind hok
  exact (hx a middle hfirst).trans (hf a middle hfirst b after hsecond)

/-- Nothing follows a failure. -/
theorem Advances.fail_bind (span : Span) (cause : Cause) (f : α → Eval β) :
    Advances allows setting run (Eval.fail span cause >>= f) :=
  (Advances.fail span cause).bind fun _ _ h => nomatch h

theorem Advances.get : Advances allows setting run (get : Eval Run) := .still rfl

theorem Advances.read : Advances allows setting run (read : Eval Setting) := .still rfl

theorem Advances.graph : Advances allows setting run Eval.graph := .still rfl

theorem Advances.describe (id : NodeId) : Advances allows setting run (Eval.describe id) :=
  .still rfl

theorem Advances.activation : Advances allows setting run Eval.activation := by
  intro a after hok
  obtain ⟨rfl, -⟩ := ok_of_activation hok
  exact .refl _

theorem Advances.remembered? (key : MemoKey) :
    Advances allows setting run (Eval.remembered? key) := .still rfl

theorem Advances.remember (key : MemoKey) (entry : MemoEntry) :
    Advances allows setting run (Eval.remember key entry) := by
  intro _ after hok
  cases hok
  exact (Run.Advances.refl run).memo _

/-! ### Frames and activations -/

theorem Advances.inFrame {frame : Frame} {x : Eval α}
    (hx : ∀ {run : Run}, Advances allows setting run x) :
    Advances allows setting run (Eval.inFrame frame x) := by
  refine Advances.bind (fun _ opened hopen => ?_) fun _ opened _ => ?_
  · rw [result_modifyActivation] at hopen
    cases hstack : run.activations with
    | nil =>
      rw [hstack] at hopen
      cases hopen
    | cons a rest =>
      rw [hstack] at hopen
      cases hopen
      exact (Run.Advances.refl run).frames hstack _
  · refine hx.bind fun a middle _ => Advances.bind (fun _ after hclose => ?_) fun _ _ _ => .pure _
    obtain ⟨b, rest, frames, hstack, rfl⟩ := ok_of_popFrame hclose
    exact (Run.Advances.refl middle).frames hstack frames

theorem Advances.inRound {frame : Frame} {x : Eval α}
    (hx : ∀ {run : Run}, Advances allows setting run x) :
    Advances allows setting run (Eval.inRound frame x) :=
  fun a after hok => Advances.inFrame hx a after (ok_inRound_iff.mp hok)

/-- **What happens in an activation of its own** is one item of the record. -/
theorem Advances.inActivation {a : Activation} {x : Eval α} (hdepth : a.depth = run.depth + 1)
    (hreturning : a.returning = false) (hx : ∀ {run : Run}, Advances allows setting run x) :
    Advances allows setting run (Eval.inActivation a x) := by
  intro id after hok
  rw [Eval.inActivation, result_bind_of_ok (result_pushActivation a)] at hok
  obtain ⟨⟨v, b⟩, last, hclosing, hid⟩ := ok_of_bind hok
  cases hid
  rw [result_closing] at hclosing
  obtain ⟨finished, hinside, hclose⟩ := ok_of_closed hclosing
  have hrecord := hx v finished hinside
  -- the activation is still on top at the end, with the same ones below
  obtain ⟨c, hstack, -, -⟩ := hrecord.frames_of.stack a run.activations rfl
  rw [result_popActivation hstack] at hclose
  cases hclose
  exact (Run.Advances.refl run).apply hdepth hreturning hrecord

end Eval

/-! ### Edits -/

namespace Edits

open Eval

variable {allows : Run → NodeId → Bool} {setting : Setting} {run : Run}

theorem advances_project {apply : Apply}
    (happly : ∀ {run : Run} span node name args,
      Advances allows setting run (apply span node name args))
    (call : MethodCall) (collection : Collection) :
    Advances allows setting run (project apply call collection) := by
  intro v after hok
  have hextends : ∀ span node name args result prepared,
      (apply span node name args).result setting run = .ok result prepared →
        run.graph ≤ prepared.graph := fun span node name args result prepared happlied =>
    (happly span node name args result prepared happlied).frames_of.graph
  obtain ⟨name, projection, args, member, result, prepared, -, -, -, -, hprojects, hafter⟩ :=
    ok_of_project hextends hok
  have hprepared : run.Advances allows prepared := by
    cases hprojects with
    | operation is_operation applied => exact happly _ _ _ _ _ _ applied
    | type not_operation found applied => exact happly _ _ _ _ _ _ applied
  rcases hafter with ⟨-, rfl⟩ | ⟨-, made, updated, -, -, -, happlies⟩
  · exact hprepared
  · exact hprepared.edit happlies

theorem advances_setType (call : MethodCall) (role : TypeRole) :
    Advances allows setting run (setType call role) := by
  intro v after hok
  obtain ⟨given, g, type, -, -, hsupplied, -, -, hsets⟩ := ok_of_setType hok
  exact ((Run.Advances.refl run).supply hsupplied).setType hsets

theorem advances_get (call : MethodCall) (collection : Collection) :
    Advances allows setting run (get call collection) := by
  intro v after hok
  obtain ⟨name, _, hread, hok⟩ := ok_of_bind hok
  obtain ⟨rfl, -⟩ := ok_of_stringArg hread
  obtain ⟨members, _, hread, hok⟩ := ok_of_bind hok
  obtain ⟨rfl, -, -⟩ := ok_of_membersOf hread
  obtain ⟨member, _, hread, hok⟩ := ok_of_bind hok
  obtain ⟨rfl, -⟩ := ok_of_existing hread
  cases hok
  exact .refl run

/-- **A method call has a record**, if applying a projection has one. -/
theorem advances_run {apply : Apply}
    (happly : ∀ {run : Run} span node name args,
      Advances allows setting run (apply span node name args))
    (call : MethodCall) (method : Method) :
    Advances allows setting run (Edits.run apply call method) := by
  cases method with
  | edit edit =>
    cases edit with
    | add c =>
      intro v after hok
      obtain ⟨name, value, -, -, updated, happlies⟩ := ok_of_add hok
      exact (Run.Advances.refl run).edit happlies
    | delete c =>
      intro v after hok
      obtain ⟨name, -, ⟨rfl, -⟩ | ⟨updated, happlies⟩⟩ := ok_of_delete hok
      · exact .refl _
      · exact (Run.Advances.refl run).edit happlies
    | rename c =>
      intro v after hok
      obtain ⟨old, new, -, -, ⟨rfl, -⟩ | ⟨updated, happlies⟩⟩ := ok_of_rename hok
      · exact .refl _
      · exact (Run.Advances.refl run).edit happlies
    | project c => exact advances_project happly call c
    | setType => exact advances_setType call .declared
    | setReturnType => exact advances_setType call .returned
  | get c => exact advances_get call c

/-- The target of a decorator may be prepared where the decorator is allowed. -/
theorem advances_materialize {node : NodeId} (hallowed : allows run node) :
    Advances allows setting run (materialize node) := fun _ _ hok =>
  (Run.Advances.refl run).decorate hallowed (ok_of_materialize hok)

end Edits

end SchemaProjection
