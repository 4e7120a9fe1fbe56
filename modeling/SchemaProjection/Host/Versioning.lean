import SchemaProjection.Host.Module

/-!
# The module `versioning`

Decorators record in which version a node was added, removed or renamed, and functions read the
records:

* `@added(node, v)`: `getAddedOn(node)`, which is `-1` without a record;
* `@removed(node, v)`: `getRemovedOn(node)`, which is infinite without a record;
* `@renamedFrom(node, v, oldName)`: `getRenamedFromVersion(node)` and
  `getRenamedFromOldName(node)`, which are `-1` and the empty text without a record.
-/

namespace SchemaProjection.Host.Versioning

/-- The keys of the four tables. -/
structure Keys where
  addedOn : Metadata.Key
  removedOn : Metadata.Key
  renamedFromVersion : Metadata.Key
  renamedFromName : Metadata.Key

/-- The version among the arguments of a decorator. -/
def versionOf (function : String) (args : List Value) : Call Value := do
  let version? : Option Value := args[1]?
  match version? with
  | some (.number v) => return .number v
  | some value => throw (.expected function .version (some value))
  | none => throw (.expected function .version none)

/-- A decorator that records a version. -/
def recordVersion (function : String) (key : Metadata.Key) : Function :=
    fun (args : List Value) => do
  let node ← Call.nodeAt function args 0
  Call.store key node (← versionOf function args)
  return .absent

/-- The decorator that records a rename. -/
def recordRename (keys : Keys) : Function := fun (args : List Value) => do
  let node ← Call.nodeAt "renamedFrom" args 0
  let version ← versionOf "renamedFrom" args
  let oldName? : Option Value := args[2]?
  match oldName? with
  | some (.string oldName) =>
    Call.store keys.renamedFromVersion node version
    Call.store keys.renamedFromName node (.string oldName)
    return .absent
  | _ => throw (.expected "renamedFrom" .previousName none)

/-- A function that reads a record, with a default for nodes without one. -/
def readRecord (function : String) (key : Metadata.Key) (default : Value) : Function :=
    fun (args : List Value) => do
  let node ← Call.nodeAt function args 0
  return (← Call.metadata? key node).getD default

/-- The version of nodes without a record. -/
def noVersion : Value := .number (-Double.ofNat 1)

/-- The module over keys of its own. -/
def module (keys : Keys) : Module :=
  (Module.empty "versioning")
    |>.withDecorator "added" (recordVersion "added" keys.addedOn)
    |>.withDecorator "removed" (recordVersion "removed" keys.removedOn)
    |>.withDecorator "renamedFrom" (recordRename keys)
    |>.withFunction "getAddedOn" (readRecord "getAddedOn" keys.addedOn noVersion)
    |>.withFunction "getRemovedOn"
      (readRecord "getRemovedOn" keys.removedOn (.number (.infinity false)))
    |>.withFunction "getRenamedFromVersion"
      (readRecord "getRenamedFromVersion" keys.renamedFromVersion noVersion)
    |>.withFunction "getRenamedFromOldName"
      (readRecord "getRenamedFromOldName" keys.renamedFromName (.string ""))

/-- A new instance of the module. -/
def instantiate : StateM Metadata.KeySupply Module := do
  let addedOn ← Metadata.freshKey
  let removedOn ← Metadata.freshKey
  let renamedFromVersion ← Metadata.freshKey
  let renamedFromName ← Metadata.freshKey
  return module ⟨addedOn, removedOn, renamedFromVersion, renamedFromName⟩

end SchemaProjection.Host.Versioning
