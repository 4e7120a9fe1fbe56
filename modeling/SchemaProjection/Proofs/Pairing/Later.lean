import Mathlib.Data.List.Basic
import Mathlib.Data.List.Find
import SchemaProjection.Proofs.Pairing.Evaluation
import SchemaProjection.Proofs.Pairing.Hosts
import SchemaProjection.Proofs.Run.Records

/-!
# A run that starts later

The same run is started twice, on a graph and on one that has got more nodes in between: all ids of
its own nodes are shifted, and nothing else changes. The two runs are a pairing (`Pairing.later`)
which is sound if the modules are standard and every projection that is bound to a node is bound to
an old one (`Pairing.later_sound`).

What the runs leave corresponds (`Outcome.Shifted`), for both ways to run a projection:
`Run.shifted_project` and `Run.shifted_instructions`. A run for instructions releases nodes at its
end; it keeps as many on both sides (`Run.sizeKept_renumber`).
-/

namespace SchemaProjection

/-! ### The pairing -/

/-- All projections that are bound to a node are bound to one before a position. -/
def Declarations.BoundBefore (d : Declarations) (n : Nat) : Prop :=
  ∀ p ∈ d.projections, ∀ id, p.target = .node id → id.index < n

/-- **The same run, started later.** -/
def Pairing.later (setting : Setting) (σ : Shift) : Pairing where
  toShift := σ
  left := setting
  right := setting
  excused _ := False
  visible _ := True
  metadata _ m m' := m.Shifted σ m'
  trace g t t' := t' = renumber σ.move t ∧ g.Knows t

section

variable {setting : Setting} {σ : Shift} {g h : Graph} {id : NodeId}

/-- A projection applies to a node if it applies to the shifted one. -/
theorem Projection.appliesTo_move (hs : g.Shifted σ h) {p : Projection}
    (hp : ∀ target, p.target = .node target → target.index < σ.mark) :
    p.appliesTo h (σ.move id) = p.appliesTo g id := by
  unfold appliesTo
  cases htarget : p.target with
  | kind kind =>
    dsimp only
    rw [hs.kind_move]
  | node target =>
    dsimp only
    have hmove := σ.move_of_lt (hp target htarget)
    rw [hs.lineage_move, Bool.eq_iff_iff, List.contains_iff_mem, List.contains_iff_mem]
    -- the target is old and stays, so it is in one lineage if it is in the other
    constructor
    · intro hmem
      rw [← hmove] at hmem
      exact (List.mem_map_of_injective σ.move_injective).mp hmem
    · intro hmem
      rw [← hmove]
      exact List.mem_map_of_mem hmem

theorem Declarations.resolve?_move {d : Declarations} (hd : d.BoundBefore σ.mark)
    (hs : g.Shifted σ h) (name : String) :
    d.resolve? h (σ.move id) name = d.resolve? g id name := by
  unfold resolve?
  refine List.find?_congr fun p hp => ?_
  rw [Projection.appliesTo_move hs (hd p hp)]

/-- **The pairing is sound.** -/
theorem Pairing.later_sound (hstandard : setting.Standard)
    (hbound : setting.declarations.BoundBefore σ.mark) : (Pairing.later setting σ).Sound where
  metadata_mono hm _ := hm
  trace_mono ht hle := ⟨ht.1, ht.2.mono hle⟩
  record {g t t' i} ht hi := by
    obtain ⟨rfl, hknown⟩ := ht
    cases t with
    | none => exact ⟨rfl, hknown⟩
    | some recorded =>
      refine ⟨?_, Graph.knows_some_iff.mpr ?_⟩
      · show some (recorded.map (renumber σ.move) ++ [renumber σ.move i]) =
          some ((recorded ++ [i]).map (renumber σ.move))
        rw [List.map_append, List.map_singleton]
      · exact Graph.knows_append_iff.mpr
          ⟨Graph.knows_some_iff.mp hknown, Graph.knows_list_iff.mpr fun j hj =>
            List.mem_singleton.mp hj ▸ hi⟩
  hosts _ := rfl
  answers {n sort name f g h m m' args} _ hfound hs hm _ := by
    -- what is found is an export of a standard module
    obtain ⟨module, hmodule, hexport⟩ := Host.mem_of_find? hfound
    have hmodule : module.Standard := hstandard module (List.mem_of_mem_take hmodule)
    have hfollows := hmodule.follows hexport hs hm args
    unfold Host.Call.Follows at hfollows
    unfold Answers
    split at hfollows
    · next hleft hright =>
      rw [hleft, hright]
      exact hfollows
    · next hleft hright =>
      rw [hleft, hright]
      exact hfollows
    · exact hfollows.elim
  isDeclared _ := .inl rfl
  resolve hs _ _ := Declarations.resolve?_move hbound hs _
  get _ := .inl rfl
  visible _ _ := trivial
  absentMember := .inl rfl
  maxDepth := .inl rfl

end

/-! ### Starting -/

namespace Graph

/-- An extension of a closed graph has more nodes at the end: nothing moves that is there. -/
theorem Closed.shifted {g h : Graph} (hclosed : g.Closed) (hle : g ≤ h) :
    g.Shifted ⟨g.size, h.size - g.size⟩ h where
  prefixes n hn := by
    rw [truncate_of_size_le hn]
    exact hclosed
  size := (Nat.add_sub_cancel' (size_le_of_le hle)).symm
  mark_le := Nat.le_refl _
  node?_move id := by
    -- an old node refers to old nodes only, so renumbering leaves it alone
    by_cases hid : id.index < g.size
    · rw [Shift.move_of_lt _ hid, node?_of_le hle (contains_iff.mpr hid)]
      cases hnode : g.node? id with
      | none => rfl
      | some node =>
        refine congrArg some (renumber_eq_self fun r hr => ?_).symm
        exact Shift.move_of_lt _ (contains_iff.mp (hclosed.nodes id node hnode r hr))
    · have hnone : g.node? id = none := node?_eq_none_iff.mpr (Nat.not_lt.mp hid)
      rw [hnone, Option.map_none, node?_eq_none_iff, Shift.index_move, if_neg hid]
      dsimp only
      omega
  globals := hle.globals
  old_globals id hid := contains_iff.mp (hclosed.globals id hid)
  old_intrinsics i := contains_iff.mp (hclosed.intrinsics i)

end Graph

namespace Run

variable {setting : Setting} {σ : Shift} {g h : Graph} {m m' : Metadata}

theorem start_paired (hs : g.Shifted σ h) (hm : m.Shifted σ m') (hmark : σ.mark = g.size)
    {trace : Option (List Instruction)} (htrace : refs trace = []) :
    (start g m trace).Paired (.later setting σ) (start h m' trace) where
  graph := hs
  metadata := hm
  activations := rfl
  knows_activations _ hid := nomatch hid
  visible _ ha := nomatch ha
  framed _ ha := nomatch ha
  memo key := by
    show Memo.empty.find? _ = (Memo.empty.find? key).map _
    rw [Memo.find?_empty, Memo.find?_empty, Option.map_none]
  knows_memo key entry hentry := by
    have hentry : Memo.empty.find? key = some entry := hentry
    rw [Memo.find?_empty] at hentry
    cases hentry
  trace := by
    refine ⟨(renumber_eq_self fun id hid => ?_).symm, Graph.knows_of_refs_eq_nil htrace⟩
    have hid : id ∈ refs trace := hid
    rw [htrace] at hid
    cases hid
  watermark := ⟨hmark.symm, by
    show h.size = σ.mark + σ.gap
    rw [hs.size, hmark]⟩

/-! ### Releasing -/

/-- As many nodes are kept on both sides, the gap apart. -/
theorem sizeKept_renumber {n : Nat} (hn : σ.mark ≤ n) (instructions : List Instruction) :
    sizeKept (n + σ.gap) (renumber σ.move instructions) = sizeKept n instructions + σ.gap := by
  have hargs : (renumber σ.move instructions).flatMap Instruction.args =
      (instructions.flatMap Instruction.args).map (renumber σ.move) := by
    show (instructions.map (renumber σ.move)).flatMap _ = _
    rw [List.flatMap_map, List.map_flatMap]
    rfl
  rw [sizeKept, sizeKept, hargs]
  generalize instructions.flatMap Instruction.args = args
  -- on the arguments, with the size kept so far on either side of the gap
  induction args generalizing n with
  | nil => rfl
  | cons v rest ih =>
    rw [List.map_cons, List.foldl_cons, List.foldl_cons]
    cases v with
    | type id =>
      have hmax : max (n + σ.gap) ((σ.move id).index + 1) = max n (id.index + 1) + σ.gap := by
        rw [Shift.index_move]
        split <;> omega
      show List.foldl _ (max (n + σ.gap) ((σ.move id).index + 1)) _ = _
      rw [hmax]
      exact ih (Nat.le_trans hn (Nat.le_max_left _ _))
    | absent | bool | number | string => exact ih hn

theorem Paired.release {run other : Run} (hp : run.Paired (.later setting σ) other) {n : Nat}
    (hn : σ.mark ≤ n) :
    (run.release n).graph.Shifted σ (other.release (n + σ.gap)).graph ∧
      (run.release n).metadata.Shifted σ (other.release (n + σ.gap)).metadata := by
  have hs : run.graph.Shifted σ other.graph := hp.graph
  have hm : run.metadata.Shifted σ other.metadata := hp.metadata
  refine ⟨?_, ?_⟩
  · rw [graph_release, graph_release]
    exact hs.truncate hn
  · have hlt : n + σ.gap < other.graph.size ↔ n < run.graph.size := by
      rw [hs.size]
      omega
    unfold Run.release
    -- nodes are released on both sides or on neither
    by_cases h : n < run.graph.size
    · rw [if_pos h, if_pos (hlt.mpr h)]
      exact hm.discardFrom hn
    · rw [if_neg h, if_neg fun h' => h (hlt.mp h')]
      exact hm

end Run

/-! ### Outcomes -/

/-- **The same outcome**, but for the ids of the nodes that move. -/
structure Outcome.Shifted {α : Type} [Refers α] (σ : Shift) (outcome other : Outcome α) : Prop where
  result : other.result = renumber σ.move outcome.result
  graph : outcome.graph.Shifted σ other.graph
  metadata : outcome.metadata.Shifted σ other.metadata

namespace Run

section

variable {setting : Setting} {g : Graph} {m : Metadata} {node : NodeId} {handle : Handle}
  {args : List Value}

theorem project_of_ok {id : NodeId} {after : Run}
    (h : (Eval.projectNode node handle args).result setting (start g m none) = .ok id after) :
    project setting g m node handle args = ⟨.ok id, after.graph, after.metadata⟩ := by
  unfold Eval.result at h
  rw [project, execute, h]

theorem project_of_error {failure : Failure} {after : Run}
    (h : (Eval.projectNode node handle args).result setting (start g m none) =
      .error failure after) :
    (project setting g m node handle args).result = .error failure := by
  unfold Eval.result at h
  rw [project, execute, h]

theorem instructions_of_ok {id : NodeId} {after : Run}
    (h : (Eval.projectNode node handle args).result setting (start g m (some [])) =
      .ok id after) :
    instructions setting g m node handle args =
      ⟨.ok (after.trace.getD []), (after.release (sizeKept g.size (after.trace.getD []))).graph,
        (after.release (sizeKept g.size (after.trace.getD []))).metadata⟩ := by
  unfold Eval.result at h
  rw [instructions, execute, h]

theorem instructions_of_error {failure : Failure} {after : Run}
    (h : (Eval.projectNode node handle args).result setting (start g m (some [])) =
      .error failure after) :
    (instructions setting g m node handle args).result = .error failure := by
  unfold Eval.result at h
  rw [instructions, execute, h]

end

/-- **What a run may start from twice**: a graph with its metadata, and a shifted graph with shifted
metadata. All nodes of the first graph stay where they are. -/
structure Restart (setting : Setting) (σ : Shift) (g h : Graph) (m m' : Metadata) : Prop where
  standard : setting.Standard
  bound : setting.declarations.BoundBefore σ.mark
  mark : σ.mark = g.size
  graph : g.Shifted σ h
  metadata : m.Shifted σ m'
  within : m.Within g.size
  within' : m'.Within h.size

namespace Restart

variable {setting : Setting} {σ : Shift} {g h : Graph} {m m' : Metadata}
  (hr : Restart setting σ g h m m')
include hr

/-- Nodes of the first graph are named by the same id in both. -/
theorem renumber_eq {α : Type} [Refers α] {a : α} (ha : g.Knows a) : renumber σ.move a = a :=
  renumber_eq_self fun id hid =>
    σ.move_of_lt (hr.mark ▸ Graph.contains_iff.mp (ha id hid))

theorem follows {node : NodeId} (hnode : g.contains node) (handle : Handle) {args : List Value}
    (hargs : g.Knows args) (trace : Option (List Instruction)) (htrace : refs trace = []) :
    Eval.Follows (.later setting σ) (start g m trace) (start h m' trace)
      (Eval.projectNode node handle args) (Eval.projectNode node handle args) := by
  have hfollows := Eval.follows_projectNode (Pairing.later_sound hr.standard hr.bound) (.inl rfl)
    (start_paired hr.graph hr.metadata hr.mark htrace) hnode handle hargs
  have hnode' : σ.move node = node := hr.renumber_eq (Graph.knows_id_iff.mpr hnode)
  have hargs' : renumber σ.move args = args := hr.renumber_eq hargs
  have hmove : (Pairing.later setting σ).move = σ.move := rfl
  rw [hmove, hnode', hargs'] at hfollows
  exact hfollows

/-- Two failed runs leave what they started from. -/
theorem shifted_of_error {α : Type} [Refers α] {outcome other : Outcome α}
    {trace trace' : Option (List Instruction)} {reached reached' : Run} {kept kept' : Nat}
    (hleaves : Leaves setting g m outcome trace reached kept)
    (hleaves' : Leaves setting h m' other trace' reached' kept') {failure : Failure}
    (hresult : outcome.result = .error failure)
    (hresult' : other.result = .error (renumber σ.move failure)) : outcome.Shifted σ other where
  result := by
    rw [hresult, hresult']
    rfl
  graph := by
    rw [hleaves.graph_of_error hresult, hleaves'.graph_of_error hresult']
    exact hr.graph
  metadata := hr.metadata.congr (hleaves.entries_of_error hr.standard hr.within hresult)
    (hleaves'.entries_of_error hr.standard hr.within' hresult')

/-- **Applied later, a projection has the same outcome.** -/
theorem shifted_project {node : NodeId} (hnode : g.contains node) (handle : Handle)
    {args : List Value} (hargs : g.Knows args) :
    (project setting g m node handle args).Shifted σ
      (project setting h m' node handle args) := by
  have hfollows := hr.follows hnode handle hargs none rfl
  unfold Eval.Follows at hfollows
  split at hfollows
  · next id after id' after' hleft hright =>
    obtain ⟨rfl, -, -, hp⟩ := hfollows
    have hone : project setting g m node handle args = ⟨.ok id, after.graph, after.metadata⟩ :=
      project_of_ok hleft
    have hother : project setting h m' node handle args =
        ⟨.ok (σ.move id), after'.graph, after'.metadata⟩ := project_of_ok hright
    rw [hone, hother]
    exact ⟨rfl, hp.graph, hp.metadata⟩
  · exact hfollows.elim
  · exact hfollows.elim
  · next failure after failure' after' hleft hright =>
    obtain rfl : failure' = renumber σ.move failure := hfollows.resolve_left id
    obtain ⟨_, _, hleaves⟩ := leaves_project setting g m node handle args
    obtain ⟨_, _, hleaves'⟩ := leaves_project setting h m' node handle args
    exact hr.shifted_of_error hleaves hleaves' (project_of_error hleft) (project_of_error hright)

/-- **Asked for later, the edits are the same.** -/
theorem shifted_instructions {node : NodeId} (hnode : g.contains node) (handle : Handle)
    {args : List Value} (hargs : g.Knows args) :
    (instructions setting g m node handle args).Shifted σ
      (instructions setting h m' node handle args) := by
  have hfollows := hr.follows hnode handle hargs (some []) rfl
  unfold Eval.Follows at hfollows
  split at hfollows
  · next id after id' after' hleft hright =>
    obtain ⟨-, -, -, hp⟩ := hfollows
    -- the instructions correspond, hence so does what is kept for them
    have htrace : after'.trace.getD [] = renumber σ.move (after.trace.getD []) := by
      rw [hp.trace.1]
      cases after.trace <;> rfl
    have hkept := sizeKept_renumber (Nat.le_of_eq hr.mark) (after.trace.getD [])
    rw [← hr.graph.size] at hkept
    have hone : instructions setting g m node handle args = _ := instructions_of_ok hleft
    have hother : instructions setting h m' node handle args = _ := instructions_of_ok hright
    rw [hone, hother, htrace, hkept]
    obtain ⟨hgraph, hmetadata⟩ := hp.release
      (Nat.le_trans (Nat.le_of_eq hr.mark) (size_le_sizeKept g.size (after.trace.getD [])))
    exact ⟨rfl, hgraph, hmetadata⟩
  · exact hfollows.elim
  · exact hfollows.elim
  · next failure after failure' after' hleft hright =>
    obtain rfl : failure' = renumber σ.move failure := hfollows.resolve_left id
    obtain ⟨_, _, hleaves⟩ := leaves_instructions setting g m node handle args
    obtain ⟨_, _, hleaves'⟩ := leaves_instructions setting h m' node handle args
    exact hr.shifted_of_error hleaves hleaves' (instructions_of_error hleft)
      (instructions_of_error hright)

end Restart

end Run

end SchemaProjection
