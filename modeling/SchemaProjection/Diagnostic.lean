import SchemaProjection.Run.Failure

/-!
# Diagnostics

A run on behalf of a user reports its failure as a diagnostic on the node it was started on.
-/

namespace SchemaProjection

/-- A reported failure. -/
structure Diagnostic where
  /-- The node that the projection was applied to. -/
  target : NodeId
  message : String
deriving DecidableEq

namespace Diagnostic

/-- The code of every diagnostic. -/
def code : String := "invalid-projection"

/-- The severity of every diagnostic. -/
def severity : String := "error"

def ofFailure (target : NodeId) (failure : Failure) : Diagnostic := ⟨target, failure.message⟩

/-- The text of a diagnostic. -/
def text (d : Diagnostic) : String := s!"{severity} {code} on {d.target}: {d.message}"

/-- A diagnostic in a document. -/
def json (d : Diagnostic) : String :=
  let head := s!"\"code\":\"{code}\",\"severity\":\"{severity}\""
  let message := Json.Literal.encode d.message
  s!"\x7b{head},\"target\":{d.target.index},\"message\":{message}\x7d"

end Diagnostic

end SchemaProjection
