import SchemaProjection.Host.Module

/-!
# The module `doc`

`@doc(node, text)` attaches documentation to a node, and `getDoc(node)` reads it back.
-/

namespace SchemaProjection.Host.Doc

/-- Attaches a text to a node. -/
def attach (key : Metadata.Key) : Function := fun (args : List Value) => do
  let node ← Call.nodeAt "doc" args 0
  let text? : Option Value := args[1]?
  match text? with
  | some (.string text) =>
    Call.store key node (.string text)
    return .absent
  | some value => throw (.expected "doc" .string (some value))
  | none => throw (.expected "doc" .documentation none)

/-- The text attached to a node, or none. -/
def getDoc (key : Metadata.Key) : Function := fun (args : List Value) => do
  let node ← Call.nodeAt "getDoc" args 0
  return (← Call.metadata? key node).getD .absent

/-- The module over a key of its own. -/
def module (key : Metadata.Key) : Module :=
  (Module.empty "doc").withDecorator "doc" (attach key) |>.withFunction "getDoc" (getDoc key)

/-- A new instance of the module. -/
def instantiate : StateM Metadata.KeySupply Module := return module (← Metadata.freshKey)

end SchemaProjection.Host.Doc
