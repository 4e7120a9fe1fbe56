import SchemaProjection.Graph.Kind
import SchemaProjection.Graph.NameTable
import SchemaProjection.Value

/-!
# Type graphs

A `Graph` is an arena of nodes together with the table of its declarations. A node has a
`Shape`, which says what it is and which nodes it refers to, and possibly an origin, the node it
was derived from. The id of a node is its position in the arena.

Every graph begins with the four intrinsic types and the standard scalars (`Graph.initial`), so an
intrinsic type has the same id in all graphs.
-/

namespace SchemaProjection

/-- What a node is: its kind with all that belongs to it. -/
inductive Shape
  | model (name : Option String) (properties : NameTable)
  | modelProperty (name : String) (type : NodeId) (optional : Bool)
  | union (name : Option String) (variants : NameTable)
  | unionVariant (name : String) (type : NodeId)
  /-- `parameters` is a model with a property for each parameter. -/
  | operation (name : String) (parameters returnType : NodeId)
  | interface (name : String) (operations : NameTable)
  | enum (name : String) (members : NameTable)
  | enumMember (name : String) (value : Option Value)
  | scalar (name : String) (base : Option NodeId)
  | intrinsic (i : Intrinsic)
  | stringLiteral (s : String)
  | numericLiteral (x : Double)
  | booleanLiteral (b : Bool)
  | tuple (elements : List NodeId)
deriving DecidableEq

namespace Shape

instance : Inhabited Shape := ⟨.intrinsic .unknown⟩

def kind : Shape → Kind
  | .model _ _ => .model
  | .modelProperty _ _ _ => .modelProperty
  | .union _ _ => .union
  | .unionVariant _ _ => .unionVariant
  | .operation _ _ _ => .operation
  | .interface _ _ => .interface
  | .enum _ _ => .enum
  | .enumMember _ _ => .enumMember
  | .scalar _ _ => .scalar
  | .intrinsic _ => .intrinsic
  | .stringLiteral _ => .stringLiteral
  | .numericLiteral _ => .numericLiteral
  | .booleanLiteral _ => .booleanLiteral
  | .tuple _ => .tuple

/-- The name of a node. Anonymous models and unions, intrinsic types, literals and tuples have
none. -/
def name? : Shape → Option String
  | .model name _ | .union name _ => name
  | .modelProperty name _ _ | .unionVariant name _ | .operation name _ _ | .interface name _
  | .enum name _ | .enumMember name _ | .scalar name _ => some name
  | .intrinsic _ | .stringLiteral _ | .numericLiteral _ | .booleanLiteral _ | .tuple _ => none

/-- The collection in which a container keeps its members. -/
def collection? : Shape → Option Collection
  | .model _ _ => some .properties
  | .union _ _ => some .variants
  | .interface _ _ => some .operations
  | .enum _ _ => some .members
  | _ => none

/-- The members of a container. -/
def members? : Shape → Option NameTable
  | .model _ t | .union _ t | .interface _ t | .enum _ t => some t
  | _ => none

/-- The members of a container that keeps them in the given collection. -/
def membersIn? (shape : Shape) (collection : Collection) : Option NameTable :=
  if shape.collection? = some collection then shape.members? else none

/-- The type of a property or a variant. -/
def type? : Shape → Option NodeId
  | .modelProperty _ type _ | .unionVariant _ type => some type
  | _ => none

def returnType? : Shape → Option NodeId
  | .operation _ _ returnType => some returnType
  | _ => none

def parameters? : Shape → Option NodeId
  | .operation _ parameters _ => some parameters
  | _ => none

/-! ### Changed shapes -/

/-- A container with other members. -/
def withMembers? (members : NameTable) : Shape → Option Shape
  | .model name _ => some (.model name members)
  | .union name _ => some (.union name members)
  | .interface name _ => some (.interface name members)
  | .enum name _ => some (.enum name members)
  | _ => none

/-- A node with another name, unless its kind has no names. -/
def withName? (name : String) : Shape → Option Shape
  | .model _ t => some (.model (some name) t)
  | .union _ t => some (.union (some name) t)
  | .modelProperty _ type optional => some (.modelProperty name type optional)
  | .unionVariant _ type => some (.unionVariant name type)
  | .operation _ parameters returnType => some (.operation name parameters returnType)
  | .interface _ t => some (.interface name t)
  | .enum _ t => some (.enum name t)
  | .enumMember _ value => some (.enumMember name value)
  | .scalar _ base => some (.scalar name base)
  | .intrinsic _ | .stringLiteral _ | .numericLiteral _ | .booleanLiteral _ | .tuple _ => none

/-- A property or variant with another type. -/
def withType? (type : NodeId) : Shape → Option Shape
  | .modelProperty name _ optional => some (.modelProperty name type optional)
  | .unionVariant name _ => some (.unionVariant name type)
  | _ => none

/-- An operation with another return type. -/
def withReturnType? (type : NodeId) : Shape → Option Shape
  | .operation name parameters _ => some (.operation name parameters type)
  | _ => none

end Shape

/-- A node of a graph. Its id is its position there, so the node does not repeat it. -/
structure Node where
  /-- The node this one was derived from. -/
  origin : Option NodeId
  shape : Shape
deriving DecidableEq, Inhabited

/-- A type graph. -/
structure Graph where
  nodes : Array Node
  /-- The declarations, by name. -/
  globals : NameTable
deriving DecidableEq

namespace Graph

/-- The number of nodes. -/
def size (g : Graph) : Nat := g.nodes.size

def node? (g : Graph) (id : NodeId) : Option Node := g.nodes[id.index]?

/-- Whether an id names a node of the graph. -/
def contains (g : Graph) (id : NodeId) : Bool := id.index < g.size

/-- The shape of a node. Outside the graph every id reads as the type `unknown`. -/
def shape (g : Graph) (id : NodeId) : Shape := ((g.node? id).map Node.shape).getD default

def origin? (g : Graph) (id : NodeId) : Option NodeId := g.node? id >>= Node.origin

def kind (g : Graph) (id : NodeId) : Kind := (g.shape id).kind

/-- The declaration of a name. -/
def lookup? (g : Graph) (name : String) : Option NodeId := g.globals.get? name

/-- The member of a container with the given name. -/
def member? (g : Graph) (container : NodeId) (name : String) : Option NodeId :=
  (g.shape container).members? >>= (·.get? name)

/-- The id that the next allocated node gets. -/
def nextId (g : Graph) : NodeId := ⟨g.size⟩

/-- The graph with one more node. -/
def push (g : Graph) (node : Node) : Graph := { g with nodes := g.nodes.push node }

/-- The graph with only its first nodes; the ids of the others are released. -/
def truncate (g : Graph) (size : Nat) : Graph := { g with nodes := g.nodes.take size }

/-! ### The initial graph -/

/-- The scalars that every graph declares. -/
def standardScalars : List String :=
  ["string", "boolean", "bytes", "numeric", "integer", "float", "int8", "int16", "int32", "int64",
    "uint8", "uint16", "uint32", "uint64", "float32", "float64", "plainDate", "plainTime",
    "utcDateTime", "duration", "url"]

/-- The graph without any declaration of a schema. -/
def initial : Graph :=
  let intrinsics := Intrinsic.all.map fun i => Node.mk none (.intrinsic i)
  let scalars := standardScalars.map fun name => Node.mk none (.scalar name none)
  ⟨(intrinsics ++ scalars).toArray,
    .ofList (standardScalars.zipIdx Intrinsic.all.length |>.map fun (name, i) => (name, ⟨i⟩))⟩

/-- The id of an intrinsic type. -/
def intrinsic : Intrinsic → NodeId
  | .void => ⟨0⟩
  | .never => ⟨1⟩
  | .unknown => ⟨2⟩
  | .null => ⟨3⟩

/-- Whether a node is a given intrinsic type. -/
def isIntrinsic (g : Graph) (id : NodeId) (i : Intrinsic) : Bool := g.shape id = .intrinsic i

/-! ### Description -/

/-- A short description of a node for messages: literals and intrinsic types as they are written,
other nodes by kind and name. -/
def describe (g : Graph) (id : NodeId) : String :=
  match g.node? id with
  | none => s!"unknown node {id}"
  | some node =>
    match node.shape with
    | .intrinsic i => i.name
    | .stringLiteral s => Quoted.encode s
    | .numericLiteral x => x.plain
    | .booleanLiteral b => toString b
    | shape =>
      match shape.name? with
      | some name => s!"{shape.kind.name} `{name}`"
      | none => s!"anonymous {shape.kind.name}"

end Graph

end SchemaProjection
