/-!
# Classes of characters

A class of characters is given by its **switch points**: the code points, in ascending
order, at which membership changes. Below the first one no character belongs to the class,
from the first to the second all do, and so on. The classes of the Unicode character
database have this form in the modules beside this one.
-/

namespace SchemaProjection

/-- A set of characters, given by the ascending code points at which membership changes. -/
structure CharClass where
  switches : List Nat

namespace CharClass

/-- Whether `code` is a member, given membership before the first of the switch points. -/
def inside (isMember : Bool) : List Nat → Nat → Bool
  | [], _ => isMember
  | switch :: rest, code => if code < switch then isMember else inside (!isMember) rest code

/-- Whether a character belongs to the class. -/
def contains (cls : CharClass) (c : Char) : Bool := inside false cls.switches c.toNat

end CharClass

end SchemaProjection
