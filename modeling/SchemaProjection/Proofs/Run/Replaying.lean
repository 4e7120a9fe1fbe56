import SchemaProjection.Proofs.Graph.Replay
import SchemaProjection.Proofs.Run.Advances

/-!
# Runs can be replayed

While a run is recorded, replaying its trace on the members of the source leads to the members of
the node that the outermost activation has now (`Replays`). Only there edits are recorded, and every
edit of that node is; a projection that is applied meanwhile works in an activation of its own and
leaves both as they are. So this is an invariant of the record of a run (`Run.Advances.tracks`), as
long as nothing is returned.

A decorator may replace a member without a record, by a copy of it under the same name. Which
members are not to be replaced in this way is a parameter, and the record has to be one in which no
decorator of the outermost activation is applied to them (`Run.decoratedMember?`).
-/

namespace SchemaProjection

/-- **A node is what the trace says**: it was derived from the source, and replaying the trace on
the given entries leads to its members. -/
structure Replays (kept : NodeId → Prop) (source : NodeId) (entries : ReplayEntries) (g : Graph)
    (trace : Option (List Instruction)) (node : NodeId) : Prop where
  lineage : source ∈ g.lineage node
  members : ∃ is left members, trace = some is ∧ (g.shape node).members? = some members ∧
    Instruction.replay is entries = some left ∧ Agrees kept left members

namespace Replays

variable {kept : NodeId → Prop} {source node copy : NodeId} {entries : ReplayEntries}
  {g h : Graph} {trace : Option (List Instruction)}

/-- At the start of a run the node is the source. -/
theorem start {members : NameTable} (hmembers : (g.shape source).members? = some members) :
    Replays kept source members.unreplaced g (some []) source where
  lineage := g.mem_lineage_self source
  members := ⟨[], _, members, rfl, hmembers, rfl, .unreplaced kept members⟩

theorem extend (hr : Replays kept source entries g trace node) (hh : h.Ordered) (hle : g ≤ h) :
    Replays kept source entries h trace node := by
  obtain ⟨is, left, members, htrace, hmembers, hreplay, hagrees⟩ := hr.members
  have hnode := Graph.contains_of_members? hmembers
  refine ⟨?_, is, left, members, htrace, ?_, hreplay, hagrees⟩
  · rw [(hh.of_le hle).lineage_of_le hle hnode]
    exact hr.lineage
  · rw [Graph.shape_of_le hle hnode]
    exact hmembers

/-- **A changed copy** takes the place of the node. It is given that a longer trace accounts for its
members. -/
theorem derived (hr : Replays kept source entries g trace node) (hh : h.Ordered) (hle : g ≤ h)
    {shape : Shape} (hcopy : h.node? copy = some ⟨some node, shape⟩) {table : NameTable}
    (htable : shape.members? = some table) {is : List Instruction} {left : ReplayEntries}
    (hreplay : Instruction.replay is entries = some left) (hagrees : Agrees kept left table) :
    Replays kept source entries h (some is) copy where
  lineage := by
    rw [hh.lineage_of_origin? (Graph.origin?_of_node? hcopy)]
    exact List.mem_cons_of_mem _ (hr.extend hh hle).lineage
  members := ⟨is, left, table, rfl, by rw [Graph.shape_of_node? hcopy, htable], hreplay, hagrees⟩

end Replays

namespace Run

/-- The member that a decorator on a node goes to: the live one, unless the node is the run's own or
the one of the activation. -/
def decoratedMember? (run : Run) (node : NodeId) : Option NodeId :=
  match run.activations with
  | [] => none
  | a :: _ =>
    if run.watermark ≤ node.index ∨ node = a.self then none
    else (run.graph.live? a.self node).map Prod.snd

/-- The policy that spares a member the decorators of the outermost activation. -/
def sparing (id : NodeId) (run : Run) (node : NodeId) : Bool :=
  !decide (run.depth = 1 ∧ run.decoratedMember? node = some id)

theorem of_sparing {id node : NodeId} {run : Run} (h : sparing id run node)
    (hdepth : run.depth = 1) : run.decoratedMember? node ≠ some id := by
  intro hmember
  rw [sparing, decide_eq_true ⟨hdepth, hmember⟩] at h
  cases h

variable {kept : NodeId → Prop} {source : NodeId} {entries : ReplayEntries}
  {allows : Run → NodeId → Bool} {r s : Run} {a b : Activation}

/-! ### Steps of the outermost activation -/

/-- **An edit** of the node is recorded, and any other edit leaves the node as it is. -/
private theorem replays_applies {container updated : NodeId} {i : Instruction}
    (happlies : r.Applies container i updated s) (hordered : s.graph.Ordered)
    (ha : r.activations = [a]) (hdepth : a.depth = 1) (hb : s.activations = [b])
    (hr : Replays kept source entries r.graph r.trace a.self) :
    Replays kept source entries s.graph s.trace b.self := by
  have hle : r.graph ≤ s.graph := happlies.frames.graph
  obtain ⟨hshown, hrecorded⟩ := happlies.shows ha
  cases hshown.symm.trans hb
  dsimp only
  by_cases hself : a.self = container
  · -- the copy takes the place of the node, and the trace is longer by this edit
    rw [if_pos ⟨hself, hdepth⟩] at hrecorded
    rw [if_pos hself, hrecorded]
    obtain ⟨is, left, members, htrace, hmembers, hreplay, hagrees⟩ := hr.members
    rw [hself] at hmembers hr
    obtain ⟨shape, table, replayed, hcopy, htable, hreplayed, hagrees⟩ :=
      happlies.edited.replay hmembers hagrees
    rw [htrace, Option.map_some]
    refine hr.derived hordered hle hcopy htable ?_ hagrees
    rw [Instruction.replay_append, hreplay]
    exact hreplayed
  · -- the edit was made of another container, and nothing was recorded
    rw [if_neg fun h => hself h.1] at hrecorded
    rw [if_neg hself, hrecorded]
    exact hr.extend hordered hle

/-- **Setting a type.** A container has none, so only members and other nodes are concerned. -/
private theorem replays_setType {role : Edits.TypeRole} {node type : NodeId}
    (hsets : Edits.SetsType role node type r s) (hordered : s.graph.Ordered)
    (ha : r.activations = [a]) (hdepth : a.depth = 1) (hb : s.activations = [b])
    (hr : Replays kept source entries r.graph r.trace a.self) :
    Replays kept source entries s.graph s.trace b.self := by
  cases hsets with
  | same =>
    cases ha.symm.trans hb
    exact hr
  | @self c rest name shape stack is_self differs retyped =>
    cases ha.symm.trans stack
    subst is_self
    -- the node has members, so it has no type that could be set
    obtain ⟨is, left, members, -, hmembers, -, -⟩ := hr.members
    rw [Edits.TypeRole.members?_of_change retyped] at hmembers
    cases hmembers
  | live stack not_self found differs applies =>
    cases ha.symm.trans stack
    exact replays_applies applies hordered ha hdepth hb hr
  | detached stack not_self not_found differs retyped =>
    cases ha.symm.trans hb
    exact hr.extend hordered (Graph.le_push _ _)

/-- **Preparing the target of a decorator** copies the node, or a member that is not kept. -/
private theorem replays_decorate {node id : NodeId}
    (hkept : ∀ id, kept id → r.decoratedMember? node ≠ some id)
    (hprepared : Edits.Materializes node r id s) (hordered : s.graph.Ordered)
    (ha : r.activations = [a]) (hb : s.activations = [b])
    (hr : Replays kept source entries r.graph r.trace a.self) :
    Replays kept source entries s.graph s.trace b.self := by
  have hle : r.graph ≤ s.graph := hprepared.frames.graph
  cases hprepared with
  | own | liveOwn =>
    cases ha.symm.trans hb
    exact hr
  | self stack old is_self =>
    cases ha.symm.trans stack
    cases (activations_adopt ha r.graph.nextId).symm.trans hb
    subst is_self
    obtain ⟨is, left, members, htrace, hmembers, hreplay, hagrees⟩ := hr.members
    show Replays kept source entries _ r.trace _
    rw [htrace]
    exact hr.derived hordered hle (r.graph.node?_push_nextId _) hmembers hreplay hagrees
  | @live c rest name live found shape g stack old not_self hlive live_old has_members copied
      changed =>
    cases ha.symm.trans stack
    cases (activations_adopt ha g.nextId).symm.trans hb
    obtain ⟨is, left, members, htrace, hmembers, hreplay, hagrees⟩ := hr.members
    obtain ⟨_, hsame, hmember, -⟩ := Graph.of_live? hlive
    cases hmembers.symm.trans has_members
    cases hmembers.symm.trans hsame
    -- the member that the decorator goes to is not one of those that are kept
    have hfree : ¬ kept live := by
      intro hlivekept
      refine hkept live hlivekept ?_
      have hold : ¬ (r.watermark ≤ node.index ∨ node = a.self) := fun h =>
        h.elim (Nat.not_le.mpr old) not_self
      rw [decoratedMember?, stack]
      dsimp only
      rw [if_neg hold, hlive]
      rfl
    show Replays kept source entries _ r.trace _
    rw [htrace]
    exact hr.derived hordered hle (g.node?_push_nextId _) (Shape.members?_of_withMembers? changed)
      hreplay (hagrees.replaced hmember hfree _)
  | detached stack old not_self not_found =>
    cases ha.symm.trans hb
    exact hr.extend hordered hle

/-! ### Whole runs -/

/-- **The invariant**: the outermost activation is the only one, and its node is what the trace says
unless something was returned. -/
def Tracks (kept : NodeId → Prop) (source : NodeId) (entries : ReplayEntries) (r : Run) : Prop :=
  ∃ a, r.activations = [a] ∧ a.depth = 1 ∧
    (a.returning = false → Replays kept source entries r.graph r.trace a.self)

/-- One step. A flag that is down at the end was down before. -/
private theorem Tracks.step (hr : r.Tracks kept source entries) (hframes : r.Frames s)
    (hstep : ∀ {a b}, r.activations = [a] → a.depth = 1 → s.activations = [b] →
      Replays kept source entries r.graph r.trace a.self →
      Replays kept source entries s.graph s.trace b.self) : s.Tracks kept source entries := by
  obtain ⟨a, ha, hdepth, hreplays⟩ := hr
  obtain ⟨b, hb, hsame, hflag⟩ := hframes.stack a [] ha
  refine ⟨b, hb, hsame.trans hdepth, fun hdown => hstep ha hdepth hb (hreplays ?_)⟩
  refine Bool.eq_false_iff.mpr fun hup => ?_
  rw [hflag hup] at hdown
  cases hdown

/-- **A recorded run can be replayed**, whatever else it does. -/
theorem Advances.tracks
    (hkept : ∀ {run : Run} {node : NodeId}, allows run node → run.depth = 1 →
      ∀ id, kept id → run.decoratedMember? node ≠ some id)
    (h : Advances allows r s) (hbegun : r.Begun) (hordered : r.graph.Ordered)
    (hr : r.Tracks kept source entries) : s.Tracks kept source entries := by
  induction h with
  | refl => exact hr
  | metadata _ _ ih => exact ih hbegun hordered hr
  | memo _ _ ih => exact ih hbegun hordered hr
  | frames _ stack frames ih =>
    obtain ⟨a, ha, hdepth, hreplays⟩ := ih hbegun hordered hr
    cases stack.symm.trans ha
    exact ⟨_, rfl, hdepth, hreplays⟩
  | supply before supplied ih =>
    have hafter := (before.supply supplied).preserves Graph.preserved_ordered hbegun hordered
    refine (ih hbegun hordered hr).step (.extend supplied.extends) fun ha _ hb hreplays => ?_
    cases ha.symm.trans hb
    exact hreplays.extend hafter supplied.extends
  | edit before applies ih =>
    have hafter := (before.edit applies).preserves Graph.preserved_ordered hbegun hordered
    exact (ih hbegun hordered hr).step applies.frames (replays_applies applies hafter)
  | setType before sets ih =>
    have hafter := (before.setType sets).preserves Graph.preserved_ordered hbegun hordered
    exact (ih hbegun hordered hr).step sets.frames (replays_setType sets hafter)
  | decorate before allowed prepared ih =>
    have hafter := (before.decorate allowed prepared).preserves Graph.preserved_ordered hbegun
      hordered
    refine (ih hbegun hordered hr).step prepared.frames fun ha hdepth hb => ?_
    have hone := (depth_of_stack ha).trans hdepth
    exact replays_decorate (hkept allowed hone) prepared hafter ha hb
  | giveBack _ stack node ih =>
    obtain ⟨a, ha, hdepth, -⟩ := ih hbegun hordered hr
    cases stack.symm.trans ha
    exact ⟨_, rfl, hdepth, fun hdown => nomatch hdown⟩
  | @apply r s t before a depth returning inside ih _ =>
    -- the application works above the outermost activation, and nothing is recorded there
    obtain ⟨outer, houter, hdepth, hreplays⟩ := ih hbegun hordered hr
    have hdeep : 1 < Run.depth { s with activations := a :: s.activations } := by
      rw [depth_of_stack rfl, depth, depth_of_stack houter]
      omega
    have hafter := (before.apply depth returning inside).preserves Graph.preserved_ordered hbegun
      hordered
    refine ⟨outer, houter, hdepth, fun hdown => ?_⟩
    show Replays kept source entries t.graph t.trace outer.self
    rw [inside.trace_eq hdeep]
    exact (hreplays hdown).extend hafter inside.frames_of.graph

end Run

end SchemaProjection
