import SchemaProjection.Grammar.Parsing
import SchemaProjection.Graph.Lineage

/-!
# Declared projections

A projection applies to all nodes of a kind, or to a declared node and all that derive from
it (`Projection.appliesTo`). Projections are kept in the order of their declaration, and their
position is their id. Of several applicable projections with one name the first counts.
-/

namespace SchemaProjection

/-- The two directions of a projection. -/
inductive Direction
  /-- The one that source text calls `to`. -/
  | forward
  /-- The one that source text calls `from`. -/
  | backward
deriving DecidableEq, Inhabited, Ord

def Direction.name : Direction → String
  | .forward => "to"
  | .backward => "from"

instance : Std.TransOrd Direction where
  eq_swap {a b} := by cases a <;> cases b <;> rfl
  isLE_trans {a b c} := by cases a <;> cases b <;> cases c <;> decide

instance : Std.LawfulEqOrd Direction where
  eq_of_compare {a b} := by cases a <;> cases b <;> decide

/-- The position of a projection among the declared ones. -/
structure ProjectionId where
  index : Nat
deriving DecidableEq, Inhabited

instance : Ord ProjectionId := ⟨compareOn ProjectionId.index⟩

instance : Std.TransOrd ProjectionId :=
  inferInstanceAs (Std.TransCmp (compareOn ProjectionId.index))

instance : Std.LawfulEqOrd ProjectionId where
  eq_of_compare {a b} h := by
    cases a
    cases b
    exact congrArg ProjectionId.mk (Std.LawfulEqOrd.eq_of_compare (α := Nat) h)

/-- What a projection applies to. -/
inductive Target
  /-- Every node of a kind. -/
  | kind (kind : Kind)
  /-- A declared node and the nodes derived from it. -/
  | node (id : NodeId)
deriving DecidableEq

/-- A direction of a projection, ready to be run. -/
structure Handle where
  projection : ProjectionId
  direction : Direction
deriving DecidableEq, Inhabited

/-- A declared projection. -/
structure Projection where
  id : ProjectionId
  target : Target
  name : String
  forward? : Option DirectionTree
  backward? : Option DirectionTree
  /-- How many host modules were imported before the declaration; later ones are not visible. -/
  hostCount : Nat
  span : Span

namespace Projection

def direction? (p : Projection) : Direction → Option DirectionTree
  | .forward => p.forward?
  | .backward => p.backward?

/-- Whether a projection applies to a node. -/
def appliesTo (p : Projection) (g : Graph) (id : NodeId) : Bool :=
  match p.target with
  | .kind kind => g.kind id = kind
  | .node target => (g.lineage id).contains target

/-- The handle of a direction, if the projection has it. -/
def handle? (p : Projection) (direction : Direction) : Option Handle :=
  (p.direction? direction).map fun _ => ⟨p.id, direction⟩

end Projection

/-- A selector is neither a kind nor the name of a declared type. -/
structure UnknownSelector where
  selector : Word
deriving DecidableEq

def UnknownSelector.message (e : UnknownSelector) (source : Source) : String :=
  let name := e.selector.text
  source.message e.selector.span.line e.selector.span.col "error"
    s!"`{name}` is neither a type kind nor a declared type"

/-- The declared projections, in order. -/
structure Declarations where
  projections : List Projection

namespace Declarations

def empty : Declarations := ⟨[]⟩

instance : Inhabited Declarations := ⟨empty⟩

/-- What a selector stands for. Kinds take precedence over declared types. -/
def target? (g : Graph) (selector : String) : Option Target :=
  match Kind.ofSelector? selector with
  | some kind => some (.kind kind)
  | none => (g.lookup? selector).map .node

/-- Declares a projection. -/
def declare (d : Declarations) (g : Graph) (hostCount : Nat) (tree : ProjectionTree) :
    Except UnknownSelector (ProjectionId × Declarations) :=
  match target? g tree.selector.text with
  | none => .error ⟨tree.selector⟩
  | some target =>
    let id : ProjectionId := ⟨d.projections.length⟩
    let projection : Projection :=
      { id, target, hostCount, name := tree.name.text, forward? := tree.forward?,
        backward? := tree.backward?, span := tree.span }
    .ok (id, ⟨d.projections ++ [projection]⟩)

/-- Declares the projections of a file one after the other. What is declared before a faulty one
stays declared. -/
def declareAll (d : Declarations) (g : Graph) (hostCount : Nat) :
    List ProjectionTree → Except UnknownSelector (List ProjectionId) × Declarations
  | [] => (.ok [], d)
  | tree :: rest =>
    match d.declare g hostCount tree with
    | .error e => (.error e, d)
    | .ok (id, d) =>
      let (ids, d) := d.declareAll g hostCount rest
      (ids.map (id :: ·), d)

def get? (d : Declarations) (id : ProjectionId) : Option Projection := d.projections[id.index]?

/-- The projections that apply to a node, in order. -/
def applicable (d : Declarations) (g : Graph) (id : NodeId) : List Projection :=
  d.projections.filter (·.appliesTo g id)

/-- The first applicable projection of a name. -/
def resolve? (d : Declarations) (g : Graph) (id : NodeId) (name : String) : Option Projection :=
  d.projections.find? fun p => p.appliesTo g id && p.name = name

/-- Whether any projection, applicable or not, has the name. -/
def isDeclared (d : Declarations) (name : String) : Bool := d.projections.any (·.name = name)

end Declarations

end SchemaProjection
