import SchemaProjection.Metadata

/-!
# Host modules

A host module exports functions, called `name(...)`, and decorators, called `@name(...)`. A host
function sees the graph but cannot change it; it reads and writes metadata and either returns a
value or fails (`Host.Call`). What it wrote before it failed stays written.
-/

namespace SchemaProjection.Host

/-! ### Faults -/

/-- What a host function wants to be given. -/
inductive Expectation
  /-- A node of the graph as the argument at a position, counted from one. -/
  | typeAt (position : Nat)
  | argumentCount (count : Nat)
  | string
  | documentation
  | version
  | previousName
deriving DecidableEq

def Expectation.text : Expectation → String
  | .typeAt position => s!"a type as argument {position}"
  | .argumentCount count => s!"at least {count} arguments"
  | .string => "a string"
  | .documentation => "a documentation string"
  | .version => "a version number"
  | .previousName => "the previous name as a string"

/-- Why a host function fails. -/
inductive Fault
  /-- The caller did not give what the function expects, but possibly something else. -/
  | expected (function : String) (what : Expectation) (got : Option Value)
  /-- A chain of causes in the function's own words, the outermost first. -/
  | causes (texts : List String)
deriving DecidableEq

/-- The text of a fault; causes are joined by colons. -/
def Fault.message : Fault → String
  | .expected function what none => s!"`{function}` expects {what.text}"
  | .expected function what (some got) => s!"`{function}` expects {what.text}, got {got}"
  | .causes texts => ": ".intercalate texts

/-! ### Functions -/

/-- What a host function does: it reads the graph, and reads and writes metadata. -/
abbrev Call := ReaderT Graph (EStateM Fault Metadata)

/-- A host function, applied to its arguments. -/
abbrev Function := List Value → Call Value

namespace Call

/-- The argument at a position counted from zero, which has to be a node of the graph. -/
def nodeAt (function : String) (args : List Value) (position : Nat) : Call NodeId := do
  match args[position]? with
  | some (.type id) =>
    if (← read).contains id then return id
    else throw (.expected function (.typeAt (position + 1)) (some (.type id)))
  | some value => throw (.expected function (.typeAt (position + 1)) (some value))
  | none => throw (.expected function (.argumentCount (position + 1)) none)

/-- The metadata of a node, as its lineage shows it. -/
def metadata? (key : Metadata.Key) (id : NodeId) : Call (Option Value) := do
  let graph ← read
  let metadata ← get
  return metadata.read? graph key id

/-- The metadata of exactly this node. -/
def ownMetadata? (key : Metadata.Key) (id : NodeId) : Call (Option Value) := do
  let metadata ← get
  return metadata.own? key id

/-- Writes the metadata of a node. -/
def store (key : Metadata.Key) (id : NodeId) (value : Value) : Call Unit :=
  modify (·.set key id value)

end Call

/-! ### Modules -/

/-- Functions by name, in the order of the names. -/
abbrev Exports := List (String × Function)

/-- Exports with one more function, which replaces one of the same name. -/
def Exports.insert (name : String) (f : Function) : Exports → Exports
  | [] => [(name, f)]
  | (n, g) :: rest =>
    if name < n then (name, f) :: (n, g) :: rest
    else if name = n then (name, f) :: rest
    else (n, g) :: insert name f rest

/-- A host module. -/
structure Module where
  name : String
  functions : Exports
  decorators : Exports

namespace Module

/-- A module without exports. -/
def empty (name : String) : Module := ⟨name, [], []⟩

def withFunction (m : Module) (name : String) (f : Function) : Module :=
  { m with functions := Exports.insert name f m.functions }

def withDecorator (m : Module) (name : String) (f : Function) : Module :=
  { m with decorators := Exports.insert name f m.decorators }

def function? (m : Module) (name : String) : Option Function := m.functions.lookup name

def decorator? (m : Module) (name : String) : Option Function := m.decorators.lookup name

def functionNames (m : Module) : List String := m.functions.map Prod.fst

def decoratorNames (m : Module) : List String := m.decorators.map Prod.fst

end Module

/-- The two sorts of exports. -/
inductive ExportSort
  | function
  | decorator
deriving DecidableEq

def ExportSort.name : ExportSort → String
  | .function => "function"
  | .decorator => "decorator"

def Module.export? (m : Module) : ExportSort → String → Option Function
  | .function => m.function?
  | .decorator => m.decorator?

/-- The export of a name among modules in the order of their import; a later module hides an
earlier one. -/
def find? (modules : List Module) (sort : ExportSort) (name : String) : Option Function :=
  modules.reverse.findSome? fun m => m.export? sort name

end SchemaProjection.Host
