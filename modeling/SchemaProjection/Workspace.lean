import SchemaProjection.Diagnostic
import SchemaProjection.Run.Projecting

/-!
# Workspaces

A `Workspace` is a type graph together with all that projections on it need: the declared
projections, the imported host modules, the metadata and the options, and the diagnostics of failed
runs. It is a value: a fork of a workspace is the workspace itself, and goes its own way.
-/

namespace SchemaProjection

/-- A type graph and the projections declared for it. -/
structure Workspace where
  graph : Graph
  declarations : Declarations
  /-- The imported host modules, in the order of their import. -/
  hosts : List Host.Module
  metadata : Metadata
  options : Options
  diagnostics : List Diagnostic

/-- Why a projection file is refused. -/
inductive FileFault
  /-- The file cannot be read, for a reason that the system gives. -/
  | unreadable (file reason : String)
  | tooLarge (fault : Source.TooLarge)
  | syntactic (fault : SyntaxFault) (source : Source)
  | selector (fault : UnknownSelector) (source : Source)
deriving DecidableEq

def FileFault.message : FileFault → String
  | .unreadable file reason => s!"Failed to read {file}. {reason}"
  | .tooLarge fault => fault.message
  | .syntactic fault source => fault.message source
  | .selector fault source => fault.message source

/-- Why a host function cannot be called from outside a run, or what it fails with. -/
inductive CallFault
  | undeclared (sort : Host.ExportSort) (name : String)
  | foreignNode (id : NodeId)
  | failed (fault : Host.Fault)
deriving DecidableEq

def CallFault.message : CallFault → String
  | .undeclared sort name => s!"{sort.name} `{name}` is not declared"
  | .foreignNode id => s!"{id} is not a node of this graph"
  | .failed fault => fault.message

namespace Workspace

/-- A workspace over a graph, without projections and modules. -/
def ofGraph (graph : Graph) : Workspace := ⟨graph, .empty, [], .empty, .default, []⟩

instance : Inhabited Workspace := ⟨ofGraph .initial⟩

/-! ### Setting up -/

/-- Extends the graph. -/
def build (w : Workspace) (action : Building α) : Except GraphFault α × Workspace :=
  match action.run w.graph with
  | .ok a graph => (.ok a, { w with graph })
  | .error fault graph => (.error fault, { w with graph })

/-- Makes the exports of a module visible to the projections declared from now on. -/
def importModule (w : Workspace) (m : Host.Module) : Workspace := { w with hosts := w.hosts ++ [m] }

/-- Declares the projections of a source. -/
def declareSource (w : Workspace) (source : Source) :
    Except FileFault (List ProjectionId) × Workspace :=
  match source.projections with
  | .error fault => (.error (.syntactic fault source), w)
  | .ok trees =>
    match w.declarations.declareAll w.graph w.hosts.length trees with
    | (.error fault, declarations) => (.error (.selector fault source), { w with declarations })
    | (.ok ids, declarations) => (.ok ids, { w with declarations })

/-- Declares the projections of a file with the given text. -/
def declare (w : Workspace) (file text : String) :
    Except FileFault (List ProjectionId) × Workspace :=
  match Source.ofText file text with
  | .error fault => (.error (.tooLarge fault), w)
  | .ok source => w.declareSource source

/-- Declares the projections of a file, given what reading it led to: its text, or the reason why
it cannot be read. -/
def declareRead (w : Workspace) (file : String) (contents : Except String String) :
    Except FileFault (List ProjectionId) × Workspace :=
  match contents with
  | .error reason => (.error (.unreadable file reason), w)
  | .ok text => w.declare file text

/-! ### Projections -/

/-- The projections that apply to a node, in the order of declaration. -/
def projectionsOf (w : Workspace) (node : NodeId) : List Projection :=
  w.declarations.applicable w.graph node

/-- The first projection of a name that applies to a node. -/
def projection? (w : Workspace) (node : NodeId) (name : String) : Option Projection :=
  w.declarations.resolve? w.graph node name

def setting (w : Workspace) : Setting := ⟨w.declarations, w.hosts, w.options⟩

/-- Applies a projection to a node. -/
def tryProject (w : Workspace) (node : NodeId) (handle : Handle) (args : List Value) :
    Except Failure NodeId × Workspace :=
  let outcome := Run.project w.setting w.graph w.metadata node handle args
  (outcome.result, { w with graph := outcome.graph, metadata := outcome.metadata })

/-- The edits that a projection makes on a node. -/
def tryInstructions (w : Workspace) (node : NodeId) (handle : Handle) (args : List Value) :
    Except Failure (List Instruction) × Workspace :=
  let outcome := Run.instructions w.setting w.graph w.metadata node handle args
  (outcome.result, { w with graph := outcome.graph, metadata := outcome.metadata })

/-- The result of a run, with its failure turned into a diagnostic of the given node. -/
def reporting (node : NodeId) : Except Failure α → Option α × List Diagnostic
  | .ok a => (some a, [])
  | .error failure => (none, [.ofFailure node failure])

/-- Applies a projection to a node; a failure is returned as a diagnostic. -/
def projectReporting (w : Workspace) (node : NodeId) (handle : Handle) (args : List Value) :
    (Option NodeId × List Diagnostic) × Workspace :=
  let (result, w) := w.tryProject node handle args
  (reporting node result, w)

/-- Applies a projection to a node; a failure becomes a diagnostic of the workspace. -/
def project (w : Workspace) (node : NodeId) (handle : Handle) (args : List Value) :
    Option NodeId × Workspace :=
  let ((result, diagnostics), w) := w.projectReporting node handle args
  (result, { w with diagnostics := w.diagnostics ++ diagnostics })

/-- The edits that a projection makes on a node; a failure becomes a diagnostic of the workspace. -/
def instructions (w : Workspace) (node : NodeId) (handle : Handle) (args : List Value) :
    Option (List Instruction) × Workspace :=
  let (result, w) := w.tryInstructions node handle args
  let (result, diagnostics) := reporting node result
  (result, { w with diagnostics := w.diagnostics ++ diagnostics })

/-- Takes the diagnostics. -/
def takeDiagnostics (w : Workspace) : List Diagnostic × Workspace :=
  (w.diagnostics, { w with diagnostics := [] })

/-! ### Host functions -/

/-- Calls an export of the imported modules. -/
def callExport (w : Workspace) (sort : Host.ExportSort) (name : String) (args : List Value) :
    Except CallFault Value × Workspace :=
  match Host.find? w.hosts sort name with
  | none => (.error (.undeclared sort name), w)
  | some f =>
    match (f args).run w.graph |>.run w.metadata with
    | .ok value metadata => (.ok value, { w with metadata })
    | .error fault metadata => (.error (.failed fault), { w with metadata })

/-- Applies a decorator to a node, as a schema does to its declarations. -/
def callDecorator (w : Workspace) (name : String) (node : NodeId) (args : List Value) :
    Except CallFault Value × Workspace :=
  if (Host.find? w.hosts .decorator name).isSome && !w.graph.contains node then
    (.error (.foreignNode node), w)
  else w.callExport .decorator name (.type node :: args)

/-- Calls a function. -/
def callFunction (w : Workspace) (name : String) (args : List Value) :
    Except CallFault Value × Workspace :=
  w.callExport .function name args

end Workspace

end SchemaProjection
