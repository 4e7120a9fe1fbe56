import SchemaProjection.Grammar.Tree
import SchemaProjection.Graph.Building
import SchemaProjection.Host.Module

/-!
# Failures of a run

A run that fails does so for one `Cause`, mostly at a place in a source. Nodes appear in causes
by their descriptions, methods and members by their names.

Causes fall into sorts (`FailureSort`), which head the text of a failure. The sort `internal` is
for states that no run reaches: a broken stack, or an edit that the graph refuses.
-/

namespace SchemaProjection

/-- The sorts of failures. -/
inductive FailureSort
  | typeMismatch
  | unknownMember
  | unknownProjection
  | undeclaredIdentifier
  | nameCollision
  | recursionLimit
  | host
  | internal
deriving DecidableEq

def FailureSort.name : FailureSort → String
  | .typeMismatch => "TypeMismatch"
  | .unknownMember => "UnknownMember"
  | .unknownProjection => "UnknownProjection"
  | .undeclaredIdentifier => "UndeclaredIdentifier"
  | .nameCollision => "NameCollision"
  | .recursionLimit => "RecursionLimit"
  | .host => "Host"
  | .internal => "Internal"

/-- What is wrong with the values, names or nodes that a body uses. -/
inductive Mismatch
  | foreignNode (id : NodeId)
  | returnsNone
  | collectionAsValue
  | projectionAsValue (name : String)
  | projectedValue (projection : String) (value : Value)
  | strayLambda
  | negation
  | arithmetic (op : ArithmeticOp) (lhs rhs : Value.Kind)
  | comparison (op : CompareOp) (lhs rhs : Value.Kind)
  | surplusArguments (method : String)
  | notCallable
  | loopBody
  | loopArity
  | unavailableMethod (method node : String)
  | memberTypeExpected (method : String)
  | projectionExpected (method : String)
  | argumentsNotValues
  | untypedMember (member : String)
  | typeExpected (method : String)
  | singleTypeExpected (method : String)
  | stringExpected (method : String) (position : Nat) (got : Option Value.Kind)
deriving DecidableEq

def Mismatch.text : Mismatch → String
  | .foreignNode id => s!"{id} is not a node of this graph"
  | .returnsNone => "cannot return none from a projection"
  | .collectionAsValue => "a member collection cannot be used as a value"
  | .projectionAsValue name => s!"projection `{name}` cannot be used as a value"
  | .projectedValue projection value => s!"projection `{projection}` applied to non-type {value}"
  | .strayLambda => "a lambda can only be passed to forEach"
  | .negation => "unary - expects a number"
  | .arithmetic op lhs rhs => s!"cannot apply {op.name} to {lhs.name} and {rhs.name}"
  | .comparison op lhs rhs => s!"cannot compare {lhs.name} with {rhs.name} using {op.name}"
  | .surplusArguments method => s!"`{method}` takes no arguments"
  | .notCallable => "expression is not callable"
  | .loopBody => "forEach expects a lambda"
  | .loopArity => "forEach expects exactly one lambda"
  | .unavailableMethod method node => s!"`{method}` is not available on {node}"
  | .memberTypeExpected method => s!"`{method}` expects a type as second argument"
  | .projectionExpected method => s!"`{method}` expects a projection name"
  | .argumentsNotValues => "projection arguments must be values"
  | .untypedMember member => s!"{member} has no type"
  | .typeExpected method => s!"`{method}` expects a type"
  | .singleTypeExpected method => s!"`{method}` expects exactly one type"
  | .stringExpected method position none =>
    s!"`{method}` expects a string as argument {position}"
  | .stringExpected method position (some got) =>
    s!"`{method}` expects a string as argument {position}, got {got.name}"

/-- What a body looks for in vain. -/
inductive Absence
  /-- A member or field of something that has none of that name. -/
  | noMember (owner name : String)
  /-- A field that nodes of other kinds have. -/
  | noField (node name : String)
  /-- A member of a collection or of a projection. -/
  | noSuchMember (name : String)
  | noMethod (owner method : String)
  | noSuchMethod (method : String)
  | cannotDelete (name container : String)
  | cannotRename (name container : String)
  | cannotProject (name container : String)
deriving DecidableEq

def Absence.text : Absence → String
  | .noMember owner name => s!"{owner} has no member `{name}`"
  | .noField node name => s!"{node} has no `{name}`"
  | .noSuchMember name => s!"no member `{name}`"
  | .noMethod owner method => s!"{owner} has no method `{method}`"
  | .noSuchMethod method => s!"no method `{method}`"
  | .cannotDelete name container => s!"cannot delete `{name}`: {container} has no such member"
  | .cannotRename name container => s!"cannot rename `{name}`: {container} has no such member"
  | .cannotProject name container => s!"cannot project `{name}`: {container} has no such member"

/-- Why a projection cannot be applied. -/
inductive MissingProjection
  | unknownId (index : Nat)
  | noDirection (projection direction : String)
  | undeclared (name : String)
deriving DecidableEq

def MissingProjection.text : MissingProjection → String
  | .unknownId index => s!"no projection with id {index}"
  | .noDirection projection direction =>
    s!"projection `{projection}` has no `{direction}` direction"
  | .undeclared name => s!"no projection named `{name}` is declared"

/-- A name that stands for nothing. -/
inductive Undeclared
  | identifier (name : String)
  | hostExport (sort : Host.ExportSort) (name : String)
deriving DecidableEq

def Undeclared.text : Undeclared → String
  | .identifier name => s!"`{name}` is not declared"
  | .hostExport sort name => s!"{sort.name} `{name}` is not declared"

/-- What a host function did wrong. -/
inductive HostFailure
  | failed (fault : Host.Fault)
  | foreignNode (id : NodeId)
deriving DecidableEq

def HostFailure.text : HostFailure → String
  | .failed fault => fault.message
  | .foreignNode id => s!"returned {id}, which is not a node of this graph"

/-- States that no run reaches. -/
inductive InternalFault
  | noActivation
  | activationUnderflow
  | noFrame
  | frameUnderflow
  /-- The graph refuses an edit. -/
  | graph (fault : GraphFault)
  /-- The bound on nested evaluation was reached. -/
  | depth
deriving DecidableEq

def InternalFault.text : InternalFault → String
  | .noActivation => "internal error: no active projection"
  | .activationUnderflow => "internal error: activation stack underflow"
  | .noFrame => "internal error: no active frame"
  | .frameUnderflow => "internal error: no frame to pop"
  | .graph fault => fault.message
  | .depth => "internal error: evaluation nests too deep"

/-- Why a run fails. -/
inductive Cause
  | typeMismatch (what : Mismatch)
  | unknownMember (what : Absence)
  | unknownProjection (what : MissingProjection)
  | undeclaredIdentifier (what : Undeclared)
  | nameCollision (container name : String)
  | recursionLimit (limit : Nat) (projection node : String)
  | host (function : String) (what : HostFailure)
  | internal (what : InternalFault)
deriving DecidableEq

namespace Cause

def sort : Cause → FailureSort
  | .typeMismatch _ => .typeMismatch
  | .unknownMember _ => .unknownMember
  | .unknownProjection _ => .unknownProjection
  | .undeclaredIdentifier _ => .undeclaredIdentifier
  | .nameCollision _ _ => .nameCollision
  | .recursionLimit _ _ _ => .recursionLimit
  | .host _ _ => .host
  | .internal _ => .internal

/-- The head of a failure's text. -/
def heading : Cause → String
  | .typeMismatch _ => "type mismatch"
  | .unknownMember _ => "unknown member"
  | .unknownProjection _ => "unknown projection"
  | .undeclaredIdentifier _ => "undeclared identifier"
  | .nameCollision _ _ => "name collision"
  | .recursionLimit limit _ _ => s!"recursion limit {limit} exceeded"
  | .host function _ => s!"host function `{function}` failed"
  | .internal _ => "internal error"

def text : Cause → String
  | .typeMismatch what => what.text
  | .unknownMember what => what.text
  | .unknownProjection what => what.text
  | .undeclaredIdentifier what => what.text
  | .nameCollision container name => s!"{container} already has a member named `{name}`"
  | .recursionLimit _ projection node => s!"while applying `{projection}` to {node}"
  | .host _ what => what.text
  | .internal what => what.text

end Cause

/-- A failed run: its cause, and the place of the expression or projection at fault if there is
one. -/
structure Failure where
  cause : Cause
  span : Option Span
deriving DecidableEq

namespace Failure

def sort (f : Failure) : FailureSort := f.cause.sort

def message (f : Failure) : String :=
  let place := match f.span with
    | some span => s!" (at {span.place})"
    | none => ""
  s!"{f.cause.heading}: {f.cause.text}{place}"

end Failure

end SchemaProjection
