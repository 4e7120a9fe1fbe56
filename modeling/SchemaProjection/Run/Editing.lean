import SchemaProjection.Run.Basic

/-!
# Edits

The methods by which a body edits nodes. An edit of a container derives a changed copy of it. If
the container is the node of the activation, the copy takes its place and the edit is recorded;
otherwise the copy is detached and becomes the result (`Edits.conclude`).

Setting a type also works on a member that was read from the node of the activation before: the
edit goes to the **live** member, the one of the same lineage that the node has now.
-/

namespace SchemaProjection

/-- A method called on a node. -/
structure MethodCall where
  span : Span
  method : Word
  receiver : NodeId
  args : List Operand

namespace Edits

/-- How one projection is applied, by name, to a node that an edit concerns. -/
abbrev Apply := (span : Span) → NodeId → (name : String) → List Value → Eval NodeId

/-! ### Arguments -/

/-- The string at a position of the arguments, counted from zero. -/
def stringArg (call : MethodCall) (position : Nat) : Eval String := do
  let refuse (got : Option Value.Kind) : Eval String :=
    Eval.fail call.span (.typeMismatch (.stringExpected call.method.text (position + 1) got))
  match call.args[position]? with
  | some (.value (.string s)) => return s
  | some (.value v) => refuse (some v.kind)
  | _ => refuse none

/-- The members of the receiver, if it keeps them in the given collection. -/
def membersOf (call : MethodCall) (collection : Collection) : Eval NameTable := do
  let g ← Eval.graph
  match (g.shape call.receiver).membersIn? collection with
  | some members => return members
  | none =>
    Eval.fail call.method.span
      (.typeMismatch (.unavailableMethod call.method.text (g.describe call.receiver)))

/-- The member of a name, which the edit needs. -/
def existing (call : MethodCall) (members : NameTable) (name : String)
    (absence : String → String → Absence) : Eval NodeId := do
  match members.get? name with
  | some member => return member
  | none =>
    Eval.fail call.span (.unknownMember (absence name (← Eval.describe call.receiver)))

/-- Refuses a name that the receiver has already. -/
def requireFree (call : MethodCall) (members : NameTable) (name : String) : Eval Unit := do
  if members.contains name then
    Eval.fail call.span (.nameCollision (← Eval.describe call.receiver) name)

/-! ### Taking effect -/

/-- Puts the changed copy of the receiver in its place and records the edit, if the receiver is the
node of the activation. Otherwise the copy is the result. -/
def conclude (call : MethodCall) (updated : NodeId) (edit : Edit) (target : String)
    (args : List Value) (result : Value) : Eval Value := do
  if call.receiver = (← Eval.self) then
    Eval.setSelf updated
    Eval.record edit target args
    return result
  else return .type updated

/-! ### Edits of members -/

/-- The value that a new member is made from. A member of an enum needs none. -/
def memberValue (call : MethodCall) (collection : Collection) : Eval Value := do
  let given? : Option Operand := call.args[1]?
  match given? with
  | some (.value v) => return v
  | none =>
    if collection = .members then return .absent
    else Eval.fail call.span (.typeMismatch (.memberTypeExpected call.method.text))
  | some _ => Eval.fail call.span (.typeMismatch (.memberTypeExpected call.method.text))

/-- Adds a member made from a value. -/
def add (call : MethodCall) (collection : Collection) : Eval Value := do
  let name ← stringArg call 0
  let members ← membersOf call collection
  let value ← memberValue call collection
  requireFree call members name
  let member ← Eval.build (Building.newMember collection name value)
  let updated ← Eval.build (Building.deriveMembers call.receiver (members.insert name member))
  conclude call updated (.add collection) name [value] (.type member)

/-- Deletes a member. Whether an absent one is an error is an option. -/
def delete (call : MethodCall) (collection : Collection) : Eval Value := do
  let name ← stringArg call 0
  let members ← membersOf call collection
  if members.contains name then
    let updated ← Eval.build (Building.deriveMembers call.receiver (members.erase name))
    conclude call updated (.delete collection) name [] .absent
  else
    match (← read).options.absentMember with
    | .ignore => return .absent
    | .error =>
      Eval.fail call.span (.unknownMember (.cannotDelete name (← Eval.describe call.receiver)))

/-- Renames a member in its place. A name is not changed into itself. -/
def rename (call : MethodCall) (collection : Collection) : Eval Value := do
  let old ← stringArg call 0
  let new ← stringArg call 1
  let members ← membersOf call collection
  let member ← existing call members old .cannotRename
  if old = new then return .type member
  requireFree call members new
  let renamed ← Eval.build (Building.deriveRenamed member new)
  let updated ← Eval.build (Building.deriveMembers call.receiver (members.rename old new renamed))
  conclude call updated (.rename collection) old [.string new] (.type renamed)

/-- The name of the projection among the arguments, given as a string or by itself. -/
def projectionArg (call : MethodCall) : Eval String := do
  let given? : Option Operand := call.args[1]?
  match given? with
  | some (.projection name) => return name
  | some (.value (.string name)) => return name
  | _ => Eval.fail call.span (.typeMismatch (.projectionExpected call.method.text))

/-- Operands that have to be values. -/
def valueArgs (call : MethodCall) : List Operand → Eval (List Value)
  | [] => return []
  | .value v :: rest => return v :: (← valueArgs call rest)
  | _ :: _ => Eval.fail call.span (.typeMismatch .argumentsNotValues)

/-- What a projection makes of a member: an operation is projected itself, of other members the
type is. -/
def projected (apply : Apply) (call : MethodCall) (collection : Collection) (member : NodeId)
    (projection : String) (args : List Value) : Eval NodeId := do
  if collection = .operations then apply call.span member projection args
  else
    let g ← Eval.graph
    match (g.shape member).type? with
    | none => Eval.fail call.span (.typeMismatch (.untypedMember (g.describe member)))
    | some type =>
      let result ← apply call.span type projection args
      if result = type then return member
      else Eval.build (Building.deriveType member result)

/-- Replaces a member by what a projection makes of it, unless it stays the same. -/
def project (apply : Apply) (call : MethodCall) (collection : Collection) : Eval Value := do
  let name ← stringArg call 0
  let projection ← projectionArg call
  let args ← valueArgs call (call.args.drop 2)
  let members ← membersOf call collection
  let member ← existing call members name .cannotProject
  let result ← projected apply call collection member projection args
  if result = member then return .type member
  let updated ← Eval.build (Building.deriveMember call.receiver name result)
  conclude call updated (.project collection) name (.string projection :: args) (.type result)

/-! ### Live members -/

/-- The member of the activation's node that shares its lineage with a node. -/
def live? (node : NodeId) : Eval (Option (String × NodeId)) := do
  let self ← Eval.self
  let g ← Eval.graph
  match (g.shape self).members? with
  | none => return none
  | some members => return members.entries.find? fun e => g.sameLineage e.2 node

/-- A node of the run's own in the place of a node, so that a decorator never writes to a node from
before the run. The node of the activation and its live members are replaced by copies; of any
other node there is only a detached copy. -/
def materialize (node : NodeId) : Eval NodeId := do
  let watermark := (← get).watermark
  if watermark ≤ node.index then return node
  let self ← Eval.self
  if node = self then
    let copy ← Eval.build (Building.derive node)
    Eval.setSelf copy
    return copy
  match ← live? node with
  | some (name, live) =>
    if watermark ≤ live.index then return live
    let copy ← Eval.build (Building.derive live)
    let updated ← Eval.build (Building.deriveMember self name copy)
    Eval.setSelf updated
    return copy
  | none => Eval.build (Building.derive node)

/-! ### Types -/

/-- Whether the type of a node is set or the return type of an operation. -/
inductive TypeRole
  | declared
  | returned
deriving DecidableEq

namespace TypeRole

def edit : TypeRole → Edit
  | .declared => .setType
  | .returned => .setReturnType

/-- Whether nodes of a kind have such a type. -/
def applies : TypeRole → Kind → Bool
  | .declared, kind => kind = .modelProperty || kind = .unionVariant
  | .returned, kind => kind = .operation

def current? : TypeRole → Shape → Option NodeId
  | .declared, shape => shape.type?
  | .returned, shape => shape.returnType?

def derive : TypeRole → NodeId → NodeId → Building NodeId
  | .declared => Building.deriveType
  | .returned => Building.deriveReturnType

end TypeRole

/-- A copy of a node with another type, or nothing if it has that type already. -/
def retyped? (role : TypeRole) (node type : NodeId) : Eval (Option NodeId) := do
  if role.current? ((← Eval.graph).shape node) = some type then return none
  return some (← Eval.build (role.derive node type))

/-- The type that is set: the only argument, which may not be none. -/
def typeArg (call : MethodCall) : Eval NodeId := do
  match call.args with
  | [] | [.value .absent] =>
    Eval.fail call.span (.typeMismatch (.typeExpected call.method.text))
  | [.value v] => Eval.build (Building.typeOf v)
  | _ => Eval.fail call.span (.typeMismatch (.singleTypeExpected call.method.text))

/-- Sets the type of the activation's node, of its live member, or of a detached copy. -/
def setType (call : MethodCall) (role : TypeRole) : Eval Value := do
  let type ← typeArg call
  let g ← Eval.graph
  unless role.applies (g.kind call.receiver) do
    Eval.fail call.method.span
      (.typeMismatch (.unavailableMethod call.method.text (g.describe call.receiver)))
  let self ← Eval.self
  if call.receiver = self then
    match ← retyped? role call.receiver type with
    | none => return .type call.receiver
    | some updated =>
      Eval.setSelf updated
      let name := ((g.shape call.receiver).name?).getD ""
      Eval.record role.edit name [.type type]
      return .type updated
  else
    match ← live? call.receiver with
    | some (name, live) =>
      match ← retyped? role live type with
      | none => return .type live
      | some updated =>
        let container ← Eval.build (Building.deriveMember self name updated)
        Eval.setSelf container
        Eval.record role.edit name [.type type]
        return .type updated
    | none =>
      match ← retyped? role call.receiver type with
      | none => return .type call.receiver
      | some updated => return .type updated

/-! ### Methods -/

/-- Reads a member by name. -/
def get (call : MethodCall) (collection : Collection) : Eval Value := do
  let name ← stringArg call 0
  let members ← membersOf call collection
  return .type (← existing call members name fun name owner => .noMember owner name)

/-- Calls a method on a node. -/
def run (apply : Apply) (call : MethodCall) : Method → Eval Value
  | .edit (.add c) => add call c
  | .edit (.delete c) => delete call c
  | .edit (.rename c) => rename call c
  | .edit (.project c) => project apply call c
  | .edit .setType => setType call .declared
  | .edit .setReturnType => setType call .returned
  | .get c => get call c

end Edits

end SchemaProjection
