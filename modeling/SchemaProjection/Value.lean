import SchemaProjection.Graph.NodeId
import SchemaProjection.Json.Document
import SchemaProjection.Number.Layout
import SchemaProjection.Text.Quoted

/-!
# Values

What flows through a projection body and across the border to host functions: nothing, truth
values, numbers, strings and references to nodes of the graph.

Values are ordered totally (`Value.compare`), first by kind and then within the kind, numbers by
the total order of doubles. Two values compare equal exactly when they are the same value, so the
order can tell calls apart.
-/

namespace SchemaProjection

/-- A value of a projection body. -/
inductive Value
  /-- The value called `none`. -/
  | absent
  | bool (b : Bool)
  | number (x : Double)
  | string (s : String)
  /-- A reference to a type. -/
  | type (id : NodeId)
deriving DecidableEq, Inhabited

namespace Value

/-- Whether the value is `none`. -/
def isAbsent : Value → Bool
  | .absent => true
  | _ => false

/-- The kinds of values. -/
inductive Kind
  | absent
  | bool
  | number
  | string
  | type
deriving DecidableEq

/-- What a kind of value is called. -/
def Kind.name : Kind → String
  | .absent => "none"
  | .bool => "boolean"
  | .number => "number"
  | .string => "string"
  | .type => "type"

def kind : Value → Kind
  | .absent => .absent
  | .bool _ => .bool
  | .number _ => .number
  | .string _ => .string
  | .type _ => .type

/-- The name of a value's kind. -/
def kindName (v : Value) : String := v.kind.name

/-- The place of a kind among the others. -/
def Kind.rank : Kind → Nat
  | .absent => 0
  | .bool => 1
  | .number => 2
  | .string => 3
  | .type => 4

/-- The total order of values. -/
protected def compare : Value → Value → Ordering
  | .bool a, .bool b => Ord.compare a b
  | .number a, .number b => a.compare b
  | .string a, .string b => Ord.compare a b
  | .type a, .type b => Ord.compare a b
  | a, b => Ord.compare a.kind.rank b.kind.rank

instance : Ord Value := ⟨Value.compare⟩

theorem Kind.rank_inj {a b : Kind} (h : a.rank = b.rank) : a = b := by
  cases a <;> cases b <;> simp_all [Kind.rank]

/-- Values of different kinds are in the order of their kinds. -/
theorem compare_of_kind_ne {a b : Value} (h : a.kind ≠ b.kind) :
    compare a b = compare a.kind.rank b.kind.rank := by
  cases a <;> cases b <;> first | rfl | exact absurd rfl h

instance : Std.TransOrd Value where
  eq_swap {a b} := by
    by_cases h : a.kind = b.kind
    · cases a <;> cases b <;> simp only [kind, reduceCtorEq] at h <;>
        first
        | rfl
        | exact Std.OrientedOrd.eq_swap (α := Bool)
        | exact Std.OrientedOrd.eq_swap (α := Double)
        | exact Std.OrientedOrd.eq_swap (α := String)
        | exact Std.OrientedOrd.eq_swap (α := NodeId)
    · rw [compare_of_kind_ne h, compare_of_kind_ne (Ne.symm h)]
      exact Std.OrientedOrd.eq_swap
  isLE_trans {a b c} hab hbc := by
    by_cases h₁ : a.kind = b.kind
    · by_cases h₂ : b.kind = c.kind
      · cases a <;> cases b <;> simp only [kind, reduceCtorEq] at h₁ <;> cases c <;>
          simp only [kind, reduceCtorEq] at h₂ <;>
          first
          | rfl
          | exact Std.TransOrd.isLE_trans (α := Bool) hab hbc
          | exact Std.TransOrd.isLE_trans (α := Double) hab hbc
          | exact Std.TransOrd.isLE_trans (α := String) hab hbc
          | exact Std.TransOrd.isLE_trans (α := NodeId) hab hbc
      · rw [compare_of_kind_ne (h₁ ▸ h₂), h₁, ← compare_of_kind_ne h₂]
        exact hbc
    · by_cases h₂ : b.kind = c.kind
      · rw [compare_of_kind_ne (h₂ ▸ h₁), ← h₂, ← compare_of_kind_ne h₁]
        exact hab
      · rw [compare_of_kind_ne h₁] at hab
        rw [compare_of_kind_ne h₂] at hbc
        by_cases h₃ : a.kind = c.kind
        · rw [h₃] at hab
          exact absurd (Kind.rank_inj (Std.LawfulEqOrd.eq_of_compare
            (Std.OrientedCmp.isLE_antisymm hab hbc))) (h₃ ▸ h₁)
        · rw [compare_of_kind_ne h₃]
          exact Std.TransOrd.isLE_trans hab hbc

instance : Std.LawfulEqOrd Value where
  eq_of_compare {a b} h := by
    by_cases hk : a.kind = b.kind
    · cases a <;> cases b <;> simp only [kind, reduceCtorEq] at hk <;>
        first
        | rfl
        | exact congrArg Value.bool (Std.LawfulEqOrd.eq_of_compare (α := Bool) h)
        | exact congrArg Value.number (Std.LawfulEqOrd.eq_of_compare (α := Double) h)
        | exact congrArg Value.string (Std.LawfulEqOrd.eq_of_compare (α := String) h)
        | exact congrArg Value.type (Std.LawfulEqOrd.eq_of_compare (α := NodeId) h)
    · rw [compare_of_kind_ne hk] at h
      exact absurd (Kind.rank_inj (Std.LawfulEqOrd.eq_of_compare h)) hk

/-! ### Text -/

/-- The text of a value: strings are quoted, infinities spelled out. -/
def text : Value → String
  | .absent => "none"
  | .bool b => toString b
  | .number x =>
    if x.isInfinite then (if x.negative then "-Infinity" else "Infinity") else x.plain
  | .string s => Quoted.encode s
  | .type id => s!"type {id}"

instance : ToString Value := ⟨text⟩

/-- A value in a document. A type reference is an object with the index of its node. -/
def json : Value → String
  | .absent => "null"
  | .bool b => toString b
  | .number x => x.json
  | .string s => Json.Literal.encode s
  | .type id => s!"\x7b\"$type\":{id.index}\x7d"

/-- The value that a document holds. Lists and objects are no values; in particular a type
reference cannot be read back, since an id means something in its own graph only. -/
def ofJson? : Json → Option Value
  | .null => some .absent
  | .bool b => some (.bool b)
  | .natural n => some (.number (.ofNat n))
  | .number x => some (.number x)
  | .string s => some (.string s)
  | .list _ => none
  | .object _ => none

/-- The value of a document given as text. -/
def ofDocument? (document : String) : Option Value := Json.ofText? document >>= ofJson?

/-! ### Access by kind -/

/-- A value is not of the kind asked for. -/
structure WrongKind where
  expected : Kind
  value : Value
deriving DecidableEq

def WrongKind.message (e : WrongKind) : String :=
  let what := match e.expected with
    | .absent => "none"
    | .bool => "a boolean"
    | .number => "a number"
    | .string => "a string"
    | .type => "a type reference"
  s!"not {what}: {e.value}"

def asBool : Value → Except WrongKind Bool
  | .bool b => .ok b
  | v => .error ⟨.bool, v⟩

def asNumber : Value → Except WrongKind Double
  | .number x => .ok x
  | v => .error ⟨.number, v⟩

def asString : Value → Except WrongKind String
  | .string s => .ok s
  | v => .error ⟨.string, v⟩

def asType : Value → Except WrongKind NodeId
  | .type id => .ok id
  | v => .error ⟨.type, v⟩

end Value

end SchemaProjection
