import SchemaProjection.Proofs.Graph.Derivation
import SchemaProjection.Proofs.Host.Standard
import SchemaProjection.Workspace

/-!
# Events and reachable workspaces

What a client does with a workspace, step by step: it constructs and derives nodes, imports modules,
declares projections, sets options, reads and writes metadata, and runs projections. Each step is an
`Event`, `Workspace.after` says what it makes of a workspace, and the workspaces that events lead to
from an empty one are the **reachable** ones (`Workspace.Reachable`).

A client names only nodes that the graph has (`Event.refs`). Which events may occur besides is a
parameter, so that a statement can be restricted to, say, workspaces with certain modules.
-/

namespace SchemaProjection

/-! ### Running projections -/

/-- A projection, the node that it is applied to, and its arguments. -/
structure Request where
  node : NodeId
  handle : Handle
  args : List Value

def Request.refs (r : Request) : List NodeId := r.node :: Refers.refs r.args

/-- A run, by the way it is asked for. -/
inductive ProjectionCall
  | tryProject (r : Request)
  | tryInstructions (r : Request)
  | project (r : Request)
  | instructions (r : Request)

namespace ProjectionCall

def request : ProjectionCall → Request
  | .tryProject r | .tryInstructions r | .project r | .instructions r => r

/-- The workspace that a run leaves, whether it succeeds or fails. -/
def after (w : Workspace) : ProjectionCall → Workspace
  | .tryProject r => (w.tryProject r.node r.handle r.args).2
  | .tryInstructions r => (w.tryInstructions r.node r.handle r.args).2
  | .project r => (w.project r.node r.handle r.args).2
  | .instructions r => (w.instructions r.node r.handle r.args).2

end ProjectionCall

/-! ### Events -/

/-- **One step of a client.** -/
inductive Event
  | construct (c : Construction)
  | derive (d : Derivation)
  | importModule (m : Host.Module)
  | declare (file text : String)
  | setOptions (options : Options)
  /-- Writes metadata past all modules. -/
  | writeMetadata (key : Metadata.Key) (node : NodeId) (value : Value)
  | deleteMetadata (key : Metadata.Key) (node : NodeId)
  | callDecorator (name : String) (node : NodeId) (args : List Value)
  | callFunction (name : String) (args : List Value)
  | run (call : ProjectionCall)
  | takeDiagnostics

/-- The nodes that a step names. -/
def Event.refs : Event → List NodeId
  | .construct c => c.refs
  | .derive d => d.refs
  | .importModule _ | .declare _ _ | .setOptions _ | .takeDiagnostics => []
  | .writeMetadata _ node value => node :: value.refs
  | .deleteMetadata _ node => [node]
  | .callDecorator _ node args => node :: Refers.refs args
  | .callFunction _ args => Refers.refs args
  | .run call => call.request.refs

/-- The modules that a step imports. -/
def Event.imports : Event → List Host.Module
  | .importModule m => [m]
  | _ => []

namespace Workspace

/-- The workspace that a step leaves. -/
def after (w : Workspace) : Event → Workspace
  | .construct c => (w.build c.action).2
  | .derive d => (w.build d.action).2
  | .importModule m => w.importModule m
  | .declare file text => (w.declare file text).2
  | .setOptions options => { w with options }
  | .writeMetadata key node value => { w with metadata := w.metadata.set key node value }
  | .deleteMetadata key node => { w with metadata := w.metadata.delete key node }
  | .callDecorator name node args => (w.callDecorator name node args).2
  | .callFunction name args => (w.callFunction name args).2
  | .run call => call.after w
  | .takeDiagnostics => w.takeDiagnostics.2

/-- Whether a step names nodes of the graph only. -/
def Knows (w : Workspace) (e : Event) : Prop := ∀ id ∈ e.refs, w.graph.contains id

instance (w : Workspace) (e : Event) : Decidable (w.Knows e) :=
  inferInstanceAs (Decidable (∀ id ∈ e.refs, w.graph.contains id))

/-- **Reachable workspaces.** The events that may occur are given. -/
inductive Reachable (admits : Event → Prop) : Workspace → Prop
  | start : Reachable admits (ofGraph .initial)
  | step {w : Workspace} (e : Event) : Reachable admits w → admits e → w.Knows e →
    Reachable admits (w.after e)

/-- An invariant holds of every reachable workspace once it holds at the start and every event
preserves it. -/
theorem Reachable.invariant {admits : Event → Prop} {P : Workspace → Prop}
    (hstart : P (ofGraph .initial))
    (hstep : ∀ w e, P w → admits e → w.Knows e → P (w.after e)) {w : Workspace}
    (h : Reachable admits w) : P w := by
  induction h with
  | start => exact hstart
  | step e _ hadmits hknows ih => exact hstep _ e ih hadmits hknows

/-- Whether each of some steps, one after the other, names only nodes that the graph has then. -/
def KnowsAll (w : Workspace) : List Event → Prop
  | [] => True
  | e :: rest => w.Knows e ∧ (w.after e).KnowsAll rest

instance decidableKnowsAll (w : Workspace) : (es : List Event) → Decidable (w.KnowsAll es)
  | [] => inferInstanceAs (Decidable True)
  | e :: rest =>
    have := decidableKnowsAll (w.after e) rest
    inferInstanceAs (Decidable (w.Knows e ∧ (w.after e).KnowsAll rest))

/-- Steps lead from a reachable workspace to a reachable one. -/
theorem Reachable.steps {admits : Event → Prop} {w : Workspace} (h : Reachable admits w)
    {es : List Event} (hadmits : ∀ e ∈ es, admits e) (hknows : w.KnowsAll es) :
    Reachable admits (es.foldl after w) := by
  induction es generalizing w with
  | nil => exact h
  | cons e rest ih =>
    obtain ⟨hhead, hrest⟩ := hknows
    have hafter := h.step e (hadmits e List.mem_cons_self) hhead
    exact ih hafter (fun e' he' => hadmits e' (List.mem_cons_of_mem e he')) hrest

end Workspace

/-! ### Standard modules -/

/-- Only standard modules are imported. -/
def Event.Standard : Event → Prop
  | .importModule m => m.Standard
  | _ => True

end SchemaProjection
