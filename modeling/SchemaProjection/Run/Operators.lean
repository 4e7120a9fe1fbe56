import SchemaProjection.Grammar.Tree
import SchemaProjection.Number.Arithmetic

/-!
# Operators on values

Arithmetic is defined for numbers, and addition also joins strings. Equality is defined within
each kind and asks for the same value; numbers and strings are ordered too, numbers
arithmetically. An operator that is not defined for its operands has no result.
-/

namespace SchemaProjection

/-- The result of an arithmetic operator. -/
def ArithmeticOp.result? : ArithmeticOp → Value → Value → Option Value
  | .add, .number a, .number b => some (.number (a + b))
  | .sub, .number a, .number b => some (.number (a - b))
  | .mul, .number a, .number b => some (.number (a * b))
  | .div, .number a, .number b => some (.number (a / b))
  | .add, .string a, .string b => some (.string (a ++ b))
  | _, _, _ => none

/-- How two values are ordered: not at all if they are not both numbers or both strings, and
possibly neither way if they are numbers. -/
def Value.order? : Value → Value → Option (Option Ordering)
  | .number a, .number b => some (a.ieeeCompare? b)
  | .string a, .string b => some (some (Ord.compare a b))
  | _, _ => none

/-- The result of a comparison. -/
def CompareOp.result? (op : CompareOp) (lhs rhs : Value) : Option Bool :=
  match op with
  | .eq => if lhs.kind = rhs.kind then some (lhs = rhs) else none
  | .ne => if lhs.kind = rhs.kind then some (lhs ≠ rhs) else none
  | .lt => (lhs.order? rhs).map (·.any Ordering.isLT)
  | .le => (lhs.order? rhs).map (·.any Ordering.isLE)
  | .gt => (lhs.order? rhs).map (·.any Ordering.isGT)
  | .ge => (lhs.order? rhs).map (·.any Ordering.isGE)

/-- The result of a logical operator that its first operand settles. -/
def LogicOp.shortcut? : LogicOp → Bool → Option Bool
  | .and, false => some false
  | .or, true => some true
  | _, _ => none

end SchemaProjection
