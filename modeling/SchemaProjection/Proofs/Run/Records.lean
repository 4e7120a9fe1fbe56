import SchemaProjection.Proofs.Run.Projecting

/-!
# What runs do to metadata

With standard modules, a run writes only about nodes of its own: a decorator is applied to a node
from the watermark on, and a function reads. So the entries of the nodes that were there before stay
as they are throughout (`Run.Reaches.records`), and what a run leaves has the old entries of the old
nodes (`Run.Leaves.entries_old`), none but these if it fails (`Run.Leaves.entries_of_error`).
-/

namespace SchemaProjection

/-- All modules that a run sees are standard. -/
def Setting.Standard (setting : Setting) : Prop := ∀ m ∈ setting.hosts, m.Standard

namespace Run

variable {setting : Setting}

/-- All metadata is about nodes of the graph. -/
def Recorded (run : Run) : Prop := run.metadata.Within run.graph.size

/-- **One move** keeps the metadata in the graph and the entries of the old nodes as they are. -/
theorem Move.records (hstandard : setting.Standard) {r₁ r₂ : Run} (h : Move setting r₁ r₂)
    (hrecorded : r₁.Recorded) :
    r₂.Recorded ∧
      ∀ key, r₂.metadata.before r₁.watermark key = r₁.metadata.before r₁.watermark key := by
  have hpush : ∀ node, r₁.metadata.Within (r₁.graph.push node).size := fun node =>
    hrecorded.mono (Graph.size_le_of_le (Graph.le_push _ _))
  cases h with
  | create shape => exact ⟨hpush _, fun _ => rfl⟩
  | derive id shape known same_kind => exact ⟨hpush _, fun _ => rfl⟩
  | stack | memo | trace => exact ⟨hrecorded, fun _ => rfl⟩
  | host visible sort name f args found target =>
    obtain ⟨m, hm, hexport⟩ := Host.mem_of_find? found
    have hm : m.Standard := hstandard m (List.mem_of_mem_take hm)
    unfold Recorded
    dsimp only
    -- functions read; decorators write, but not about nodes before the watermark
    cases sort with
    | function =>
      rw [(hm.reader hexport).metadataAfter]
      exact ⟨hrecorded, fun _ => rfl⟩
    | decorator =>
      rcases (hm.recorder hexport).metadataAfter args r₁.graph r₁.metadata with
        hsame | ⟨id, hhead, hid, hwritten⟩
      · rw [hsame]
        exact ⟨hrecorded, fun _ => rfl⟩
      · exact ⟨hwritten.within (Graph.contains_iff.mp hid) hrecorded,
          hwritten.before (target rfl id hhead)⟩

/-- **Any number of moves** does, too. -/
theorem Reaches.records (hstandard : setting.Standard) {r₁ r₂ : Run} (h : Reaches setting r₁ r₂)
    (hrecorded : r₁.Recorded) :
    r₂.Recorded ∧
      ∀ key, r₂.metadata.before r₁.watermark key = r₁.metadata.before r₁.watermark key := by
  -- the watermark has to be carried along, since each move speaks of its own
  have hinvariant : r₂.watermark = r₁.watermark ∧ r₂.Recorded ∧
      ∀ key, r₂.metadata.before r₁.watermark key = r₁.metadata.before r₁.watermark key := by
    refine h.preserves (P := fun r => r.watermark = r₁.watermark ∧ r.Recorded ∧
      ∀ key, r.metadata.before r₁.watermark key = r₁.metadata.before r₁.watermark key) ?_
      ⟨rfl, hrecorded, fun _ => rfl⟩
    rintro s t hmove ⟨hmark, hs, hbefore⟩
    obtain ⟨ht, hkept⟩ := hmove.records hstandard hs
    refine ⟨hmove.reaches.extends.2.trans hmark, ht, fun key => ?_⟩
    rw [← hmark, hkept key, hmark, hbefore key]
  exact hinvariant.2

/-! ### Releasing -/

theorem entries_release {run : Run} (h : run.Recorded) (size : Nat) (key : Metadata.Key) :
    (run.release size).metadata.entries key = run.metadata.before size key := by
  unfold release
  split
  · exact Metadata.entries_discardFrom _ _ _
  next hsize =>
  exact ((Metadata.Within.mono h (Nat.not_lt.mp hsize)).before_eq key).symm

theorem recorded_release {run : Run} (h : run.Recorded) (size : Nat) :
    (run.release size).Recorded := by
  unfold release
  split
  · next hsize =>
    have hsize' : (run.graph.truncate size).size = size := by
      rw [Graph.size_truncate]
      exact Nat.min_eq_left (Nat.le_of_lt hsize)
    unfold Recorded
    dsimp only
    rw [hsize']
    exact Metadata.within_discardFrom _ _
  · exact h

/-! ### Outcomes -/

namespace Leaves

variable {graph : Graph} {metadata : Metadata} {α : Type} {outcome : Outcome α}
  {trace : Option (List Instruction)} {reached : Run} {kept : Nat}
  (hstandard : setting.Standard) (hwithin : metadata.Within graph.size)
  (h : Leaves setting graph metadata outcome trace reached kept)
include hstandard hwithin h

theorem within : outcome.metadata.Within outcome.graph.size := by
  have hreached := (h.reaches.records hstandard hwithin).1
  rw [h.outcome_graph, h.outcome_metadata]
  exact recorded_release hreached kept

/-- **The entries of the old nodes** are the old ones. -/
theorem entries_old (key : Metadata.Key) :
    outcome.metadata.before graph.size key = metadata.entries key := by
  obtain ⟨hreached, hbefore⟩ := h.reaches.records hstandard hwithin
  have hold : reached.metadata.before graph.size key = metadata.entries key :=
    (hbefore key).trans (hwithin.before_eq key)
  -- what is kept ends behind the old nodes, so of their entries nothing is dropped
  rw [h.outcome_metadata, Metadata.before, entries_release hreached, Metadata.before,
    List.filter_filter, ← hold, Metadata.before]
  refine List.filter_congr fun e _ => ?_
  by_cases he : e.1.index < graph.size
  · simp [he, Nat.lt_of_lt_of_le he h.size_le]
  · simp [he]

/-- **A failed run leaves all entries as they were**, and no others. -/
theorem entries_of_error {failure : Failure} (hfailure : outcome.result = .error failure)
    (key : Metadata.Key) : outcome.metadata.entries key = metadata.entries key := by
  have hall := (h.within hstandard hwithin).before_eq key
  rw [h.graph_of_error hfailure] at hall
  rw [← hall]
  exact h.entries_old hstandard hwithin key

end Leaves

end Run

end SchemaProjection
