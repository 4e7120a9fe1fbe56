import SchemaProjection.Graph.Basic

/-!
# Building and deriving

`Building` is the type of actions that extend a graph. The builders declare types and add members to
containers that are still under construction. The derivations are what projections use: each
allocates a copy of a node with one thing changed and the node as its origin, and leaves all other
nodes as they are.

A failing action says why in a `GraphFault`. What it allocated before it failed stays.
-/

namespace SchemaProjection

/-- Why a graph refuses an action. Nodes are given by their descriptions. -/
inductive GraphFault
  | duplicateDeclaration (name : String)
  | noContainer (node : String)
  | wrongMember (container : String) (member : Kind)
  | duplicateMember (name container : String)
  | noMembers (node : String)
  | unknownMember (container name : String)
  | noName (node : String)
  | noType (node : String)
  | noReturnType (node : String)
deriving DecidableEq

def GraphFault.message : GraphFault → String
  | .duplicateDeclaration name => s!"duplicate declaration `{name}`"
  | .noContainer node => s!"{node} cannot hold members"
  | .wrongMember container member => s!"{container} cannot hold a {member.name}"
  | .duplicateMember name container => s!"duplicate member `{name}` in {container}"
  | .noMembers node => s!"{node} has no members"
  | .unknownMember container name => s!"{container} has no member `{name}`"
  | .noName node => s!"{node} cannot be renamed"
  | .noType node => s!"{node} has no declared type"
  | .noReturnType node => s!"{node} has no return type"

/-- An action that extends a graph. -/
abbrev Building := EStateM GraphFault Graph

namespace Building

/-- Allocates a node. -/
def alloc (shape : Shape) (origin : Option NodeId) : Building NodeId :=
  modifyGet fun g => (g.nextId, g.push ⟨origin, shape⟩)

/-! ### Declarations -/

/-- Allocates a node under a name that is not declared yet. -/
def declare (name : String) (shape : Shape) : Building NodeId := do
  if (← get).globals.contains name then throw (.duplicateDeclaration name)
  let id ← alloc shape none
  modify fun g => { g with globals := g.globals.insert name id }
  return id

def model (name : String) : Building NodeId := declare name (.model (some name) .empty)

/-- A model without a name, such as the type of an inline property. -/
def anonymousModel : Building NodeId := alloc (.model none .empty) none

def union (name : String) : Building NodeId := declare name (.union (some name) .empty)

def interface (name : String) : Building NodeId := declare name (.interface name .empty)

def enum (name : String) : Building NodeId := declare name (.enum name .empty)

def scalar (name : String) (base : Option NodeId) : Building NodeId :=
  declare name (.scalar name base)

/-! ### Members -/

/-- Makes a node the last member of a container. -/
def attach (container : NodeId) (name : String) (member : NodeId) : Building Unit :=
  modify fun g =>
    match (g.shape container).members? with
    | none => g
    | some members =>
      match (g.shape container).withMembers? (members.insert name member) with
      | none => g
      | some shape => { g with nodes := g.nodes.modify container.index ({ · with shape }) }

/-- Adds a new member to a container, which has to be of the right kind and free of the name. -/
def addMember (container : NodeId) (name : String) (shape : Shape) : Building NodeId := do
  let g ← get
  match (g.shape container).collection? with
  | none => throw (.noContainer (g.describe container))
  | some collection =>
    if collection.memberKind ≠ shape.kind then
      throw (.wrongMember (g.describe container) shape.kind)
    if (g.member? container name).isSome then
      throw (.duplicateMember name (g.describe container))
    let member ← alloc shape none
    attach container name member
    return member

def property (model : NodeId) (name : String) (type : NodeId) (optional : Bool) :
    Building NodeId :=
  addMember model name (.modelProperty name type optional)

def variant (union : NodeId) (name : String) (type : NodeId) : Building NodeId :=
  addMember union name (.unionVariant name type)

def enumMember (enum : NodeId) (name : String) (value : Option Value) : Building NodeId :=
  addMember enum name (.enumMember name value)

/-- The shape of an operation. Its parameters become the properties of a new model. -/
def operationShape (name : String) (params : List (String × NodeId)) (returnType : NodeId) :
    Building Shape := do
  let parameters ← anonymousModel
  params.forM fun (param, type) => discard (property parameters param type false)
  return .operation name parameters returnType

def operation (name : String) (params : List (String × NodeId)) (returnType : NodeId) :
    Building NodeId := do
  declare name (← operationShape name params returnType)

def interfaceOperation (interface : NodeId) (name : String) (params : List (String × NodeId))
    (returnType : NodeId) : Building NodeId := do
  addMember interface name (← operationShape name params returnType)

/-! ### Literals and tuples -/

def stringLiteral (s : String) : Building NodeId := alloc (.stringLiteral s) none

def numericLiteral (x : Double) : Building NodeId := alloc (.numericLiteral x) none

def booleanLiteral (b : Bool) : Building NodeId := alloc (.booleanLiteral b) none

def tuple (elements : List NodeId) : Building NodeId := alloc (.tuple elements) none

/-- The type that a value denotes: the node of a reference, a new literal type, or `null`. -/
def typeOf : Value → Building NodeId
  | .type id => pure id
  | .string s => stringLiteral s
  | .number x => numericLiteral x
  | .bool b => booleanLiteral b
  | .absent => pure (Graph.intrinsic .null)

/-- The signature of the operation that a value refers to. -/
def signature? (g : Graph) : Value → Option (NodeId × NodeId)
  | .type id =>
    match g.shape id with
    | .operation _ parameters returnType => some (parameters, returnType)
    | _ => none
  | _ => none

/-- A new member for a collection, made from a value: properties and variants take it as their
type, an operation takes the signature of another operation, or has no parameters and the value as
its return type, and an enum member takes a value that is no type. -/
def newMember (collection : Collection) (name : String) (value : Value) : Building NodeId := do
  match collection with
  | .properties => alloc (.modelProperty name (← typeOf value) false) none
  | .variants => alloc (.unionVariant name (← typeOf value)) none
  | .operations =>
    match signature? (← get) value with
    | some (parameters, returnType) => alloc (.operation name parameters returnType) none
    | none =>
      let parameters ← anonymousModel
      let returnType ← typeOf value
      alloc (.operation name parameters returnType) none
  | .members =>
    let value := match value with
      | .absent | .type _ => none
      | value => some value
    alloc (.enumMember name value) none

/-! ### Derivations -/

/-- Allocates a node derived from another, unless there is no shape for it. -/
def deriveShape (id : NodeId) (shape? : Option Shape) (fault : String → GraphFault) :
    Building NodeId := do
  match shape? with
  | some shape => alloc shape (some id)
  | none => throw (fault ((← get).describe id))

/-- A copy of a node. -/
def derive (id : NodeId) : Building NodeId := do
  alloc ((← get).shape id) (some id)

/-- A copy of a container with other members. -/
def deriveMembers (container : NodeId) (members : NameTable) : Building NodeId := do
  deriveShape container (((← get).shape container).withMembers? members) .noMembers

/-- A copy of a container with one of its members replaced. -/
def deriveMember (container : NodeId) (name : String) (member : NodeId) : Building NodeId := do
  let g ← get
  match (g.shape container).members? with
  | none => throw (.noMembers (g.describe container))
  | some members =>
    if members.contains name then deriveMembers container (members.replace name member)
    else throw (.unknownMember (g.describe container) name)

/-- A copy of a node with another name. -/
def deriveRenamed (id : NodeId) (name : String) : Building NodeId := do
  deriveShape id (((← get).shape id).withName? name) .noName

/-- A copy of a property or variant with another type. -/
def deriveType (id : NodeId) (type : NodeId) : Building NodeId := do
  deriveShape id (((← get).shape id).withType? type) .noType

/-- A copy of an operation with another return type. -/
def deriveReturnType (id : NodeId) (type : NodeId) : Building NodeId := do
  deriveShape id (((← get).shape id).withReturnType? type) .noReturnType

end Building

end SchemaProjection
