import SchemaProjection.Run.Evaluation

/-!
# Whole runs

`Run.project` applies a projection to a node and returns what has become of it;
`Run.instructions` does the same and returns the edits instead. Neither changes a node that was
there before.

A failed run releases every node that it allocated. A run for instructions releases what it
allocated when it succeeds, too, up to the last node that an instruction names.
-/

namespace SchemaProjection

/-- What a run leaves: its result, the graph and the metadata. -/
structure Outcome (α : Type) where
  result : Except Failure α
  graph : Graph
  metadata : Metadata

namespace Eval

/-- Applies a projection at the top level. The node and the handle come from outside and may name
nothing. -/
def projectNode (node : NodeId) (handle : Handle) (args : List Value) : Eval NodeId := do
  if !(← graph).contains node then
    failWith (.typeMismatch (.foreignNode node)) none
  match (← read).declarations.get? handle.projection with
  | none => failWith (.unknownProjection (.unknownId handle.projection.index)) none
  | some projection =>
    (evaluator (← read).levels).apply node projection handle.direction args

end Eval

namespace Run

/-- Runs a step to its end. A failure releases what was allocated. -/
def execute (setting : Setting) (run : Run) (step : Eval α) : Except Failure α × Run :=
  match (step.run setting).run run with
  | .ok a after => (.ok a, after)
  | .error failure after => (.error failure, after.release run.graph.size)

/-- Applies a projection to a node. -/
def project (setting : Setting) (graph : Graph) (metadata : Metadata) (node : NodeId)
    (handle : Handle) (args : List Value) : Outcome NodeId :=
  let (result, run) :=
    (Run.start graph metadata none).execute setting (Eval.projectNode node handle args)
  ⟨result, run.graph, run.metadata⟩

/-- The number of nodes that instructions need: beyond the given ones, those up to the last one
that an argument refers to. -/
def sizeKept (size : Nat) (instructions : List Instruction) : Nat :=
  (instructions.flatMap Instruction.args).foldl (fun size v =>
    match v with
    | .type id => max size (id.index + 1)
    | _ => size) size

/-- The edits that a projection makes on a node. -/
def instructions (setting : Setting) (graph : Graph) (metadata : Metadata) (node : NodeId)
    (handle : Handle) (args : List Value) : Outcome (List Instruction) :=
  let (result, run) :=
    (Run.start graph metadata (some [])).execute setting (Eval.projectNode node handle args)
  match result with
  | .error failure => ⟨.error failure, run.graph, run.metadata⟩
  | .ok _ =>
    let trace := run.trace.getD []
    let run := run.release (sizeKept graph.size trace)
    ⟨.ok trace, run.graph, run.metadata⟩

end Run

end SchemaProjection
