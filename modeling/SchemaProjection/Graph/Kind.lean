/-!
# Kinds of nodes

The vocabulary of type graphs: the kinds of nodes, the intrinsic types, and the collections in
which containers keep their members. Each has a name that projection files use.
-/

namespace SchemaProjection

/-- The kinds of nodes. -/
inductive Kind
  | model
  | modelProperty
  | union
  | unionVariant
  | operation
  | interface
  | enum
  | enumMember
  | scalar
  | intrinsic
  | stringLiteral
  | numericLiteral
  | booleanLiteral
  | tuple
deriving DecidableEq, Inhabited

namespace Kind

/-- The name of a kind, as a body reads it from a node. -/
def name : Kind → String
  | .model => "Model"
  | .modelProperty => "ModelProperty"
  | .union => "Union"
  | .unionVariant => "UnionVariant"
  | .operation => "Operation"
  | .interface => "Interface"
  | .enum => "Enum"
  | .enumMember => "EnumMember"
  | .scalar => "Scalar"
  | .intrinsic => "Intrinsic"
  | .stringLiteral => "String"
  | .numericLiteral => "Number"
  | .booleanLiteral => "Boolean"
  | .tuple => "Tuple"

/-- The kind that a selector keyword names. Literals, tuples and intrinsics have none. -/
def ofSelector? : String → Option Kind
  | "model" => some .model
  | "modelproperty" => some .modelProperty
  | "union" => some .union
  | "unionvariant" => some .unionVariant
  | "op" => some .operation
  | "interface" => some .interface
  | "enum" => some .enum
  | "enummember" => some .enumMember
  | "scalar" => some .scalar
  | _ => none

end Kind

/-- The types that every graph has from the start. -/
inductive Intrinsic
  | void
  | never
  | unknown
  | null
deriving DecidableEq, Inhabited

namespace Intrinsic

def all : List Intrinsic := [.void, .never, .unknown, .null]

def name : Intrinsic → String
  | .void => "void"
  | .never => "never"
  | .unknown => "unknown"
  | .null => "null"

def ofName? (name : String) : Option Intrinsic := all.find? (·.name = name)

end Intrinsic

/-- The collections in which containers keep their members. -/
inductive Collection
  | properties
  | variants
  | operations
  | members
deriving DecidableEq, Inhabited

namespace Collection

def all : List Collection := [.properties, .variants, .operations, .members]

def name : Collection → String
  | .properties => "properties"
  | .variants => "variants"
  | .operations => "operations"
  | .members => "members"

def ofName? (name : String) : Option Collection := all.find? (·.name = name)

/-- The kind of the nodes in a collection. -/
def memberKind : Collection → Kind
  | .properties => .modelProperty
  | .variants => .unionVariant
  | .operations => .operation
  | .members => .enumMember

/-- What one member of the collection is called in the names of methods. -/
def memberNoun : Collection → String
  | .properties => "Property"
  | .variants => "Variant"
  | .operations => "Operation"
  | .members => "Member"

end Collection

end SchemaProjection
