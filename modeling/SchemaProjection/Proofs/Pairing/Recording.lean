import SchemaProjection.Proofs.Pairing.Later

/-!
# With and without a trace

Recording does not interfere with a run: the run that records its edits and the run that does not go
through the same states but for the trace. This is a pairing of a run with itself (`Pairing.same`).
The two graphs are not only alike but the same, since nothing is shifted
(`Graph.Shifted.eq_of_gap_eq_zero`), and so are the metadata.

A run for instructions releases the nodes behind the last one that an instruction names. What it
keeps is the beginning of what a run for the node leaves, and it is closed
(`Run.Unrecorded.prefixes`). Nothing is asked of the host modules.
-/

namespace SchemaProjection

/-! ### No shift -/

namespace Shift

variable {σ : Shift}

theorem move_of_gap_eq_zero (h : σ.gap = 0) : σ.move = id := by
  funext id
  unfold move
  split
  · rfl
  · rw [h]
    rfl

/-- Nothing is renumbered without a gap. -/
theorem renumber_of_gap_eq_zero {α : Type} [Refers α] (h : σ.gap = 0) (a : α) :
    renumber σ.move a = a := by
  rw [move_of_gap_eq_zero h]
  exact renumber_eq_self fun _ _ => rfl

end Shift

/-- A graph that is shifted by nothing is the same graph. -/
theorem Graph.Shifted.eq_of_gap_eq_zero {σ : Shift} {g h : Graph} (hs : g.Shifted σ h)
    (hgap : σ.gap = 0) : h = g := by
  have hsize : h.nodes.size = g.nodes.size := by
    have hsize := hs.size
    rw [hgap] at hsize
    exact hsize
  have hnode : ∀ i : Nat, h.nodes[i]? = g.nodes[i]? := by
    intro i
    -- the node at a position moves to the same position, and its references stay
    have hmove := hs.node?_move ⟨i⟩
    rw [Shift.move_of_gap_eq_zero hgap] at hmove
    have hsame : ∀ node : Node, renumber id node = node := fun _ => renumber_eq_self fun _ _ => rfl
    have hmove : h.node? ⟨i⟩ = (g.node? ⟨i⟩).map (renumber id) := hmove
    show h.node? ⟨i⟩ = g.node? ⟨i⟩
    rw [hmove, funext hsame]
    exact Option.map_id'
  exact Graph.ext (Array.ext_getElem? hnode) hs.globals

/-! ### The pairing -/

/-- **The same run twice**, from the same graph and metadata. How the traces correspond is a
parameter, and so are the failures of the first run after which nothing is said about the second. -/
def Pairing.same (setting : Setting) (mark : Nat) (excused : Failure → Prop)
    (trace : Graph → Option (List Instruction) → Option (List Instruction) → Prop) : Pairing where
  mark := mark
  gap := 0
  left := setting
  right := setting
  excused := excused
  visible _ := True
  metadata _ m m' := m' = m
  trace := trace

section

variable {setting : Setting} {mark : Nat} {excused : Failure → Prop}
  {trace : Graph → Option (List Instruction) → Option (List Instruction) → Prop}

/-- **The pairing is sound**, whatever the host functions do: both runs call them on the same graph
and the same metadata. -/
theorem Pairing.same_sound (hmono : ∀ {g h t t'}, trace g t t' → g ≤ h → trace h t t')
    (hrecord : ∀ {g t t'} {i : Instruction}, trace g t t' → g.Knows i →
      trace g (t.map (· ++ [i])) (t'.map (· ++ [i]))) :
    (Pairing.same setting mark excused trace).Sound where
  metadata_mono hm _ := hm
  trace_mono := hmono
  record {g t t' i} ht hi := by
    have hgap : (Pairing.same setting mark excused trace).toShift.gap = 0 := rfl
    rw [Shift.renumber_of_gap_eq_zero hgap]
    exact hrecord ht hi
  hosts _ := rfl
  answers {n sort name f g h m m' args} _ _ hs hm _ := by
    have hgap : (Pairing.same setting mark excused trace).toShift.gap = 0 := rfl
    have hm : m' = m := hm
    unfold Pairing.Answers
    rw [hs.eq_of_gap_eq_zero hgap, hm, Shift.renumber_of_gap_eq_zero hgap]
    cases (f args).result g m with
    | ok v after => exact ⟨(Shift.renumber_of_gap_eq_zero hgap v).symm, rfl⟩
    | error fault after => exact (Shift.renumber_of_gap_eq_zero hgap fault).symm
  isDeclared _ := .inl rfl
  resolve {g h id name} hs _ _ := by
    have hgap : (Pairing.same setting mark excused trace).toShift.gap = 0 := rfl
    rw [hs.eq_of_gap_eq_zero hgap, Shift.move_of_gap_eq_zero hgap]
    rfl
  get _ := .inl rfl
  visible _ _ := trivial
  absentMember := .inl rfl
  maxDepth := .inl rfl

/-- A step that succeeds succeeds the second time, with the same result and in the same graph. -/
theorem Eval.Follows.same_ok {α : Type} [Refers α] {x y : Eval α} {run other after : Run} {a : α}
    (hfollows : Eval.Follows (.same setting mark excused trace) run other x y)
    (h : x.result setting run = .ok a after) :
    ∃ after', y.result setting other = .ok a after' ∧ after.graph.Knows a ∧
      after'.graph = after.graph ∧ after.Paired (.same setting mark excused trace) after' := by
  have hgap : (Pairing.same setting mark excused trace).toShift.gap = 0 := rfl
  unfold Eval.Follows at hfollows
  dsimp only [Pairing.same] at hfollows
  rw [h] at hfollows
  cases hother : y.result setting other with
  | error failure after' =>
    rw [hother] at hfollows
    exact hfollows.elim
  | ok b after' =>
    rw [hother] at hfollows
    obtain ⟨hb, hknown, -, hp⟩ := hfollows
    have hb : b = a := hb.trans (Shift.renumber_of_gap_eq_zero hgap a)
    exact ⟨after', by rw [hb], hknown, hp.graph.eq_of_gap_eq_zero rfl, hp⟩

end

namespace Graph

/-- A closed graph is shifted by nothing to itself. -/
theorem Closed.shifted_self {g : Graph} (hclosed : g.Closed) : g.Shifted ⟨g.size, 0⟩ g := by
  have hshifted := hclosed.shifted (le_refl g)
  rw [Nat.sub_self] at hshifted
  exact hshifted

end Graph

namespace Run

variable {setting : Setting} {g : Graph} {m : Metadata} {α : Type}

theorem start_paired_same (hclosed : g.Closed) {excused : Failure → Prop}
    {related : Graph → Option (List Instruction) → Option (List Instruction) → Prop}
    {trace trace' : Option (List Instruction)} (htrace : related g trace trace') :
    (start g m trace).Paired (.same setting g.size excused related) (start g m trace') where
  graph := hclosed.shifted_self
  metadata := rfl
  activations := rfl
  knows_activations _ hid := nomatch hid
  visible _ ha := nomatch ha
  framed _ ha := nomatch ha
  memo key := by
    show Memo.empty.find? _ = (Memo.empty.find? key).map _
    rw [Memo.find?_empty, Memo.find?_empty, Option.map_none]
  knows_memo key entry hentry := by
    have hentry : Memo.empty.find? key = some entry := hentry
    rw [Memo.find?_empty] at hentry
    cases hentry
  trace := htrace
  watermark := ⟨rfl, rfl⟩

/-! ### The two runs -/

/-- **How a run and the same run without a trace end together**: in the same graph, with the same
metadata. The graph knows what was recorded and is closed wherever new nodes may be cut off. -/
structure Unrecorded (g : Graph) (recorded plain : Run) : Prop where
  graph : plain.graph = recorded.graph
  metadata : plain.metadata = recorded.metadata
  knows_trace : recorded.graph.Knows recorded.trace
  prefixes : ∀ n, g.size ≤ n → (recorded.graph.truncate n).Closed

/-- All that was recorded is in the graph that was reached. -/
theorem Unrecorded.knows_instructions {recorded plain : Run} (h : recorded.Unrecorded g plain) :
    recorded.graph.Knows (recorded.trace.getD []) := by
  have hknown := h.knows_trace
  cases htrace : recorded.trace with
  | none => exact fun _ hid => nomatch hid
  | some instructions =>
    rw [htrace] at hknown
    exact Graph.knows_some_iff.mp hknown

/-- The second run has no trace; the nodes that the first one has recorded are in the graph. -/
def unrecordedTrace (g : Graph) (t t' : Option (List Instruction)) : Prop := t' = none ∧ g.Knows t

theorem unrecorded_sound {mark : Nat} :
    (Pairing.same setting mark (fun _ => False) unrecordedTrace).Sound := by
  refine Pairing.same_sound (fun ht hle => ⟨ht.1, ht.2.mono hle⟩) ?_
  rintro g t t' i ⟨rfl, hknown⟩ hi
  refine ⟨rfl, ?_⟩
  cases t with
  | none => exact hknown
  | some recorded =>
    refine Graph.knows_some_iff.mpr (Graph.knows_append_iff.mpr ⟨?_, ?_⟩)
    · exact Graph.knows_some_iff.mp hknown
    · exact Graph.knows_list_iff.mpr fun j hj => List.mem_singleton.mp hj ▸ hi

section

variable {node : NodeId} {handle : Handle} {args : List Value} (hclosed : g.Closed)
  (hnode : g.contains node) (hargs : g.Knows args) {trace : Option (List Instruction)}
  (htrace : refs trace = []) {after : Run}
include hclosed hnode hargs htrace

private theorem follows_unrecorded (setting : Setting) (m : Metadata) (handle : Handle) :
    Eval.Follows (.same setting g.size (fun _ => False) unrecordedTrace) (start g m trace)
      (start g m none) (Eval.projectNode node handle args) (Eval.projectNode node handle args) := by
  have hpaired : (start g m trace).Paired (.same setting g.size (fun _ => False) unrecordedTrace)
      (start g m none) :=
    start_paired_same hclosed ⟨rfl, Graph.knows_of_refs_eq_nil htrace⟩
  have hfollows := Eval.follows_projectNode unrecorded_sound (.inl rfl) hpaired hnode handle hargs
  have hgap : (Pairing.same setting g.size (fun _ => False) unrecordedTrace).toShift.gap = 0 := rfl
  rw [Shift.move_of_gap_eq_zero hgap] at hfollows
  have hargs' : renumber id args = args := renumber_eq_self fun _ _ => rfl
  rw [hargs'] at hfollows
  exact hfollows

/-- **A run that succeeds succeeds without its trace**, with the same node. -/
theorem unrecorded_of_ok {id : NodeId}
    (h : (Eval.projectNode node handle args).result setting (start g m trace) = .ok id after) :
    ∃ plain, (Eval.projectNode node handle args).result setting (start g m none) = .ok id plain ∧
      after.graph.contains id ∧ after.Unrecorded g plain := by
  have hfollows := follows_unrecorded hclosed hnode hargs htrace setting m handle
  obtain ⟨plain, hplain, hid, hgraph, hp⟩ := hfollows.same_ok h
  exact ⟨plain, hplain, Graph.knows_id_iff.mp hid, hgraph, hp.metadata, hp.trace.2,
    hp.graph.prefixes⟩

/-- **A run that fails fails without its trace**, in the same way. -/
theorem unrecorded_of_error {failure : Failure}
    (h : (Eval.projectNode node handle args).result setting (start g m trace) =
      .error failure after) :
    ∃ plain, (Eval.projectNode node handle args).result setting (start g m none) =
      .error failure plain := by
  have hfollows := follows_unrecorded hclosed hnode hargs htrace setting m handle
  have hgap : (Pairing.same setting g.size (fun _ => False) unrecordedTrace).toShift.gap = 0 := rfl
  unfold Eval.Follows at hfollows
  dsimp only [Pairing.same] at hfollows
  rw [h] at hfollows
  cases hplain : (Eval.projectNode node handle args).result setting (start g m none) with
  | ok other plain =>
    rw [hplain] at hfollows
    exact hfollows.elim
  | error failure' plain =>
    rw [hplain] at hfollows
    have hsame : failure' = failure :=
      (hfollows.resolve_left fun h => h).trans (Shift.renumber_of_gap_eq_zero hgap failure)
    exact ⟨plain, by rw [hsame]⟩

end

end Run

end SchemaProjection
