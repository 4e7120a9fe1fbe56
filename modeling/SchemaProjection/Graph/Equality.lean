import SchemaProjection.Graph.Basic

/-!
# Structural equality

Two nodes are structurally equal if nothing that can be reached from them tells them apart but
the identity of nodes. `Shape.match?` compares two shapes without their references and lists the
pairs of nodes that have to agree in turn; `Graph.agree` works through these pairs and takes each
pair at most once, so that self-referential types are compared in finitely many steps. It answers
with a verdict, or with none if it is stopped early.
-/

namespace SchemaProjection

/-- The nodes that a table of members leads to, in pairs, if both tables have the same names in the
same order. -/
def NameTable.pairs? (a b : NameTable) : Option (List (NodeId × NodeId)) :=
  if a.keys = b.keys then some (a.values.zip b.values) else none

namespace Shape

/-- The pairs of nodes that two shapes refer to in the same place, if the shapes are otherwise the
same. -/
def match? : Shape → Shape → Option (List (NodeId × NodeId))
  | .model n s, .model n' s' => if n = n' then s.pairs? s' else none
  | .union n s, .union n' s' => if n = n' then s.pairs? s' else none
  | .interface n s, .interface n' s' => if n = n' then s.pairs? s' else none
  | .enum n s, .enum n' s' => if n = n' then s.pairs? s' else none
  | .modelProperty n t o, .modelProperty n' t' o' =>
    if n = n' ∧ o = o' then some [(t, t')] else none
  | .unionVariant n t, .unionVariant n' t' => if n = n' then some [(t, t')] else none
  | .operation n p r, .operation n' p' r' => if n = n' then some [(p, p'), (r, r')] else none
  | .enumMember n v, .enumMember n' v' => if n = n' ∧ v = v' then some [] else none
  | .scalar n none, .scalar n' none => if n = n' then some [] else none
  | .scalar n (some b), .scalar n' (some b') => if n = n' then some [(b, b')] else none
  | .intrinsic i, .intrinsic i' => if i = i' then some [] else none
  | .stringLiteral s, .stringLiteral s' => if s = s' then some [] else none
  | .numericLiteral x, .numericLiteral x' => if x = x' then some [] else none
  | .booleanLiteral b, .booleanLiteral b' => if b = b' then some [] else none
  | .tuple es, .tuple es' => if es.length = es'.length then some (es.zip es') else none
  | _, _ => none

/-- The nodes that a shape refers to, in order. -/
def references : Shape → List NodeId
  | .model _ t | .union _ t | .interface _ t | .enum _ t => t.values
  | .modelProperty _ type _ | .unionVariant _ type => [type]
  | .operation _ parameters returnType => [parameters, returnType]
  | .scalar _ base => base.toList
  | .tuple elements => elements
  | .enumMember _ _ | .intrinsic _ | .stringLiteral _ | .numericLiteral _ | .booleanLiteral _ => []

end Shape

namespace Graph

/-- Compares the pairs in `todo` and all that they lead to, assuming that the pairs in `assumed`
agree. Each step takes a pair off `todo`; only a pair that is not assumed yet adds others. If the
steps run out with pairs left to compare, there is no verdict. -/
def agree (g : Graph) : (fuel : Nat) → (todo assumed : List (NodeId × NodeId)) → Option Bool
  | _, [], _ => some true
  | 0, _ :: _, _ => none
  | fuel + 1, (a, b) :: todo, assumed =>
    if a = b || assumed.contains (a, b) then g.agree fuel todo assumed
    else
      match (g.shape a).match? (g.shape b) with
      | none => some false
      | some pairs => g.agree fuel (pairs ++ todo) ((a, b) :: assumed)

/-- The number of references in the graph. -/
def referenceCount (g : Graph) : Nat :=
  g.nodes.foldl (fun count node => count + node.shape.references.length) 0

/-- Whether two nodes are structurally equal. A node takes part in at most one pair with each other
node, and every pair adds one pair for each reference of its first node. -/
def structurallyEqual (g : Graph) (a b : NodeId) : Bool :=
  g.agree (g.size * g.referenceCount + 1) [(a, b)] [] == some true

end Graph

end SchemaProjection
