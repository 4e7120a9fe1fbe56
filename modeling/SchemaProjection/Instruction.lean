import SchemaProjection.Graph.Kind
import SchemaProjection.Value

/-!
# Instructions

The edits that a projection makes on its node, and the methods by which a body asks for them.
An `Instruction` records one edit that took effect.
-/

namespace SchemaProjection

/-- The edits of a node. -/
inductive Edit
  | add (collection : Collection)
  | delete (collection : Collection)
  | rename (collection : Collection)
  /-- Replaces a member, or the type of a member, by what a projection makes of it. -/
  | project (collection : Collection)
  | setType
  | setReturnType
deriving DecidableEq

def Edit.name : Edit → String
  | .add c => s!"add{c.memberNoun}"
  | .delete c => s!"delete{c.memberNoun}"
  | .rename c => s!"rename{c.memberNoun}"
  | .project c => s!"project{c.memberNoun}"
  | .setType => "setType"
  | .setReturnType => "setReturnType"

/-- The methods of nodes: the edits, and reading a member by name. -/
inductive Method
  | edit (edit : Edit)
  | get (collection : Collection)
deriving DecidableEq

namespace Method

def name : Method → String
  | .edit e => e.name
  | .get c => s!"get{c.memberNoun}"

/-- The methods that deal with one collection. Enum members have no type to project. -/
def ofCollection (c : Collection) : List Method :=
  [.edit (.add c), .edit (.delete c), .edit (.rename c), .get c] ++
    if c = .members then [] else [.edit (.project c)]

def all : List Method :=
  Collection.all.flatMap ofCollection ++ [.edit .setType, .edit .setReturnType]

def ofName? (name : String) : Option Method := all.find? (·.name = name)

end Method

/-- An edit that took effect. -/
structure Instruction where
  edit : Edit
  /-- The name of the edited member, or of the edited node if its own type was set. -/
  target : String
  args : List Value
deriving DecidableEq

namespace Instruction

/-- An instruction in a document; an empty list of arguments is left out. -/
def json (i : Instruction) : String :=
  let op := Json.Literal.encode i.edit.name
  let target := Json.Literal.encode i.target
  let values := ",".intercalate (i.args.map Value.json)
  let args := if i.args.isEmpty then "" else s!",\"extraArgs\":[{values}]"
  s!"\x7b\"op\":{op},\"targetName\":{target}{args}\x7d"

/-- A list of instructions in a document. -/
def listJson (is : List Instruction) : String :=
  let items := ",".intercalate (is.map json)
  s!"[{items}]"

end Instruction

end SchemaProjection
