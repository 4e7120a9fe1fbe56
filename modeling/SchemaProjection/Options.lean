import SchemaProjection.Json.Document

/-!
# Options

The settings of a workspace, and the documents that give them: an object whose fields are
`absent-member` and `max-depth`, or a list of the two values in this order. What a document
leaves out keeps its default; unknown or repeated fields and surplus items are refused.
-/

namespace SchemaProjection

/-- What deleting a member does when the container has no member of that name. -/
inductive AbsentMember
  /-- Leave the container as it is and record nothing. -/
  | ignore
  /-- Fail. -/
  | error
deriving DecidableEq

namespace AbsentMember

def name : AbsentMember → String
  | .ignore => "ignore"
  | .error => "error"

def ofName? (name : String) : Option AbsentMember :=
  [.ignore, .error].find? (·.name = name)

/-- The policy that a document names, alone or as the only field of an object, empty otherwise. -/
def ofJson? : Json → Option AbsentMember
  | .string name => ofName? name
  | .object [(name, .null)] => ofName? name
  | _ => none

end AbsentMember

/-- The settings that runs obey. -/
structure Options where
  absentMember : AbsentMember
  /-- How many projections may be active at once. -/
  maxDepth : Nat
deriving DecidableEq

namespace Options

/-- The settings of a new workspace. -/
def default : Options := ⟨.ignore, 256⟩

instance : Inhabited Options := ⟨default⟩

/-- A depth in a document is an integer that is not negative. -/
def depthOfJson? : Json → Option Nat
  | .natural n => some n
  | _ => none

/-- Options with one field replaced. -/
def setField? (options : Options) : String × Json → Option Options
  | ("absent-member", v) => (AbsentMember.ofJson? v).map fun p => { options with absentMember := p }
  | ("max-depth", v) => (depthOfJson? v).map fun n => { options with maxDepth := n }
  | _ => none

/-- The options that a document describes. -/
def ofJson? : Json → Option Options
  | .object fields =>
    if (fields.map Prod.fst).Nodup then fields.foldlM setField? default else none
  | .list items =>
    if items.length ≤ 2 then (["absent-member", "max-depth"].zip items).foldlM setField? default
    else none
  | _ => none

/-- The options in a document given as text. -/
def ofDocument? (document : String) : Option Options := Json.ofText? document >>= ofJson?

end Options

end SchemaProjection
