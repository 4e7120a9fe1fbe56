import SchemaProjection.Proofs.Reading
import SchemaProjection.Proofs.Workspace.Independence

/-!
# Runs leave the metadata of source nodes alone

A decorator that a projection calls is given a node of the run: the copy that `self` is, a member
copied with it, or a copy made for the call. So however a projection decorates what it reaches, no
entry of a node that was there before changes, and reading along origins comes to the same value as
before, since no origin of an old node is new (`Workspace.sources_unchanged`).
-/

namespace SchemaProjection

namespace Workspace

variable {w : Workspace}

/-- A run writes no entry of an old node. -/
theorem Recorded.own?_after_run (h : w.Recorded) (call : ProjectionCall) (key : Metadata.Key)
    {id : NodeId} (hid : w.graph.contains id) :
    (call.after w).metadata.own? key id = w.metadata.own? key id := by
  have hlookup := (call.after w).metadata.lookup_before w.graph.size key id
  rw [if_pos (Graph.contains_iff.mp hid), h.before_after_run call key] at hlookup
  exact hlookup.symm

/-- **Runs leave the metadata of source nodes alone.** After any run, successful or not, every node
that was there before has the entry that it had under every key, and the same value is read of it
along its origins. -/
theorem sources_unchanged (hw : w.Reachable Event.Standard) (call : ProjectionCall)
    (key : Metadata.Key) (id : NodeId) (hid : w.graph.contains id) :
    (call.after w).metadata.own? key id = w.metadata.own? key id ∧
      (call.after w).metadata.read? (call.after w).graph key id =
        w.metadata.read? w.graph key id := by
  have hown : ∀ id, w.graph.contains id →
      (call.after w).metadata.own? key id = w.metadata.own? key id :=
    fun _ hid => hw.recorded.own?_after_run call key hid
  exact ⟨hown id hid,
    Metadata.read?_of_le hw.closed.graph.ordered (call.le_graph_after w) hown hid⟩

/-- A documented model with a property, and a projection that documents the model, the property and
the type of the property anew. -/
def redocumentedSteps : List Event :=
  [.construct (.model "M"), .construct (.property ⟨25⟩ "p" ⟨4⟩ false),
    .importModule (Host.Doc.module ⟨0⟩), .callDecorator "doc" ⟨25⟩ [.string "old"],
    .declare "schema" ("projection model#c \x7b to \x7b @doc(self, \"new\"); " ++
      "self.properties.forEach((p) => \x7b @doc(p, \"member\"); @doc(p.type, \"type\"); \x7d); " ++
      "\x7d \x7d")]

def redocumented : Workspace := redocumentedSteps.foldl after (ofGraph .initial)

def redocument : ProjectionCall := .tryProject ⟨⟨25⟩, ⟨⟨0⟩, .forward⟩, []⟩

/-- The projection documents three copies, and the model is read as it was. -/
theorem sources_unchanged_redocumented :
    redocumented.Reachable Event.Standard ∧ redocumented.graph.contains ⟨25⟩ ∧
      (redocument.after redocumented).metadata.entries ⟨0⟩ =
        [(⟨25⟩, .string "old"), (⟨27⟩, .string "new"), (⟨28⟩, .string "member"),
          (⟨30⟩, .string "type")] ∧
      (redocument.after redocumented).metadata.own? ⟨0⟩ ⟨25⟩ = redocumented.metadata.own? ⟨0⟩ ⟨25⟩ ∧
      (redocument.after redocumented).metadata.read? (redocument.after redocumented).graph ⟨0⟩
          ⟨25⟩ =
        redocumented.metadata.read? redocumented.graph ⟨0⟩ ⟨25⟩ := by
  have hreachable : redocumented.Reachable Event.Standard := by
    refine Reachable.start.steps (fun e he => ?_) (by decide +kernel)
    simp only [redocumentedSteps, List.mem_cons, List.not_mem_nil, or_false] at he
    rcases he with rfl | rfl | rfl | rfl | rfl
    · trivial
    · trivial
    · exact .inl ⟨⟨0⟩, rfl⟩
    · trivial
    · trivial
  have hcontains : redocumented.graph.contains ⟨25⟩ := by decide +kernel
  exact ⟨hreachable, hcontains, by decide +kernel,
    sources_unchanged hreachable redocument ⟨0⟩ ⟨25⟩ hcontains⟩

end Workspace

end SchemaProjection
