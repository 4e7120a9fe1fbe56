import SchemaProjection.Instruction
import SchemaProjection.Options
import SchemaProjection.Run.Failure
import SchemaProjection.Run.Memo

/-!
# The state of a run

A run applies a projection to a node. It reads a `Setting`, which stays the same, and changes a
`Run`: the graph and the metadata, a stack of `Activation`s, one for each projection that is being
applied, a memo of applications, and a trace of edits.

`Eval` is the type of steps of a run. A step that fails leaves the state that it had reached, for
the run as a whole to be undone.
-/

namespace SchemaProjection

/-- What a run reads: the declared projections, the imported host modules in the order of their
import, and the options. -/
structure Setting where
  declarations : Declarations
  hosts : List Host.Module
  options : Options

/-- The bindings of a block, the latest first. -/
abbrev Frame := List (String × Value)

/-- A projection that is being applied. It sees its own bindings only. -/
structure Activation where
  /-- How many projections are being applied, this one included. -/
  depth : Nat
  /-- What has become of the node so far. -/
  self : NodeId
  direction : Direction
  /-- How many host modules are visible. -/
  hostCount : Nat
  /-- Whether a `return` was executed; it unwinds all enclosing blocks and loops. -/
  returning : Bool
  /-- The frames of the enclosing blocks, the innermost first. The outermost one holds the
  parameters. -/
  frames : List Frame
deriving DecidableEq

namespace Activation

/-- An application to a node, with its parameters bound. -/
def start (depth : Nat) (node : NodeId) (direction : Direction) (hostCount : Nat)
    (params : Frame) : Activation :=
  ⟨depth, node, direction, hostCount, false, [params]⟩

/-- The innermost binding of a name. -/
def lookup? (a : Activation) (name : String) : Option Value := a.frames.findSome? (·.lookup name)

end Activation

/-- The state of a run. -/
structure Run where
  graph : Graph
  metadata : Metadata
  /-- The activations, the innermost first. -/
  activations : List Activation
  /-- The applications so far. -/
  memo : Memo
  /-- The edits of the outermost activation, if they are recorded. -/
  trace : Option (List Instruction)
  /-- The number of nodes at the beginning; later ones belong to the run. -/
  watermark : Nat

namespace Run

/-- The state at the beginning of a run. -/
def start (graph : Graph) (metadata : Metadata) (trace : Option (List Instruction)) : Run :=
  { graph, metadata, activations := [], memo := .empty, trace, watermark := graph.size }

/-- How many projections are being applied. -/
def depth (run : Run) : Nat := (run.activations.head?.map Activation.depth).getD 0

/-- Releases the nodes from a position on, together with their metadata. -/
def release (size : Nat) (run : Run) : Run :=
  if size < run.graph.size then
    { run with graph := run.graph.truncate size, metadata := run.metadata.discardFrom size }
  else run

end Run

/-- A step of a run. -/
abbrev Eval := ReaderT Setting (EStateM Failure Run)

namespace Eval

def failWith (cause : Cause) (span : Option Span) : Eval α := throw ⟨cause, span⟩

/-- Fails at a place. -/
def fail (span : Span) (cause : Cause) : Eval α := failWith cause (some span)

def internal (fault : InternalFault) : Eval α := failWith (.internal fault) none

def graph : Eval Graph := return (← get).graph

def describe (id : NodeId) : Eval String := return (← graph).describe id

/-- Extends the graph. -/
def build (action : Building α) : Eval α := do
  let run ← get
  match action.run run.graph with
  | .ok a graph =>
    set { run with graph }
    return a
  | .error fault graph =>
    set { run with graph }
    internal (.graph fault)

/-! ### Activations -/

/-- The innermost activation. -/
def activation : Eval Activation := do
  match (← get).activations with
  | a :: _ => return a
  | [] => internal .noActivation

/-- Changes the innermost activation. -/
def modifyActivation (f : Activation → Activation) : Eval Unit := do
  let run ← get
  match run.activations with
  | a :: rest => set { run with activations := f a :: rest }
  | [] => internal .noActivation

def self : Eval NodeId := return (← activation).self

def setSelf (id : NodeId) : Eval Unit := modifyActivation ({ · with self := id })

def pushActivation (a : Activation) : Eval Unit :=
  modify fun run => { run with activations := a :: run.activations }

/-- Removes the innermost activation and returns it. -/
def popActivation : Eval Activation := do
  let run ← get
  match run.activations with
  | a :: rest =>
    set { run with activations := rest }
    return a
  | [] => internal .activationUnderflow

def pushFrame : Eval Unit := modifyActivation fun a => { a with frames := [] :: a.frames }

/-- Removes the innermost frame. The frame of the parameters stays. -/
def popFrame : Eval Unit := do
  match (← activation).frames with
  | _ :: outer :: frames => modifyActivation ({ · with frames := outer :: frames })
  | _ => internal .frameUnderflow

/-- Takes a step and then another one that closes what was opened for it. This is done even if the
step fails, and then its failure is passed on, unless closing fails, too. -/
def closing (x : Eval α) (close : Eval β) : Eval (α × β) := tryFinally' x fun _ => close

/-- Binds a name in the innermost frame. -/
def bind (name : String) (value : Value) : Eval Unit := do
  match (← activation).frames with
  | frame :: frames =>
    modifyActivation ({ · with frames := ((name, value) :: frame) :: frames })
  | [] => internal .noFrame

/-! ### Trace and memo -/

/-- Records an edit. Only edits of the outermost activation are kept: what a nested application
does is summed up by the edit that caused it. -/
def record (edit : Edit) (target : String) (args : List Value) : Eval Unit :=
  modify fun run =>
    if run.depth = 1 then
      { run with trace := run.trace.map (· ++ [⟨edit, target, args⟩]) }
    else run

def remembered? (key : MemoKey) : Eval (Option MemoEntry) := return (← get).memo.find? key

def remember (key : MemoKey) (entry : MemoEntry) : Eval Unit :=
  modify fun run => { run with memo := run.memo.insert key entry }

end Eval

/-! ### Operands -/

/-- What an expression evaluates to. -/
inductive Operand
  | value (v : Value)
  /-- The members of a container at the time they were read, in order. -/
  | members (ids : List NodeId)
  /-- A declared projection, named without being applied. -/
  | projection (name : String)
deriving DecidableEq

namespace Operand

/-- Whether a condition holds. The types `void`, `never` and `null` count as false. -/
def isTruthy (g : Graph) : Operand → Bool
  | .value .absent => false
  | .value (.bool b) => b
  | .value (.number x) => x.isNonzero
  | .value (.string s) => !s.isEmpty
  | .value (.type id) =>
    !([Intrinsic.void, .never, .null].any fun i => g.isIntrinsic id i)
  | .members ids => !ids.isEmpty
  | .projection _ => true

end Operand

end SchemaProjection
